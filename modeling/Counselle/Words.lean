import Mathlib.Data.List.DropRight

/-! Counting words: the pieces between blanks, by the characters that begin them. What is a
blank is a parameter. -/
namespace Counselle.Words

def collapse (blank : Char → Bool) : Bool → List Char → List Char
  | _, [] => []
  | behindBlank, c :: rest =>
    if blank c then
      if behindBlank then collapse blank true rest else ' ' :: collapse blank true rest
    else c :: collapse blank false rest

/-- The characters that begin a word; `fresh` is behind a blank or at the start. -/
def starts (blank : Char → Bool) : Bool → List Char → Nat
  | _, [] => 0
  | fresh, c :: rest =>
    if blank c then starts blank true rest
    else (if fresh then 1 else 0) + starts blank false rest

def freshAfter (blank : Char → Bool) : Bool → List Char → Bool
  | fresh, [] => fresh
  | _, c :: rest => freshAfter blank (blank c) rest

theorem starts_append (blank : Char → Bool) (fresh : Bool) (text more : List Char) :
    starts blank fresh (text ++ more) =
      starts blank fresh text + starts blank (freshAfter blank fresh text) more := by
  induction text generalizing fresh with
  | nil => simp [starts, freshAfter]
  | cons c text ih =>
    rw [List.cons_append, starts, starts, freshAfter]
    cases isBlank : blank c with
    | true => simpa [isBlank] using ih true
    | false => simp [ih false, Nat.add_assoc]

theorem freshAfter_append (blank : Char → Bool) (fresh : Bool) (text more : List Char) :
    freshAfter blank fresh (text ++ more) = freshAfter blank (freshAfter blank fresh text) more := by
  induction text generalizing fresh with
  | nil => rfl
  | cons c text ih => exact ih (blank c)

theorem starts_splitOnP (blank : Char → Bool) (text : List Char) :
    ((text.splitOnP blank).filter (!·.isEmpty)).length = starts blank true text ∧
      ((text.splitOnP blank).tail.filter (!·.isEmpty)).length = starts blank false text := by
  induction text with
  | nil => simp [starts]
  | cons c text ih =>
    rw [List.splitOnP_cons_eq_if_modifyHead]
    cases isBlank : blank c with
    | true => simp [starts, isBlank, ih.1]
    | false =>
      obtain ⟨first, rest, pieces⟩ := List.exists_cons_of_ne_nil (List.splitOnP_ne_nil blank text)
      rw [pieces] at ih
      simp only [List.tail_cons] at ih
      simp [starts, isBlank, pieces, ih.2, Nat.add_comm]

theorem starts_collapse {blank : Char → Bool} (space : blank ' ' = true) {behindBlank fresh : Bool}
    (known : behindBlank = true → fresh = true) (text : List Char) :
    starts blank fresh (collapse blank behindBlank text) = starts blank fresh text := by
  induction text generalizing behindBlank fresh with
  | nil => rfl
  | cons c text ih =>
    rw [collapse, starts]
    cases isBlank : blank c with
    | true =>
      have rest := @ih true true fun _ => rfl
      cases behindBlank with
      | true =>
        obtain rfl := known rfl
        simpa [isBlank] using rest
      | false => simpa [starts, space] using rest
    | false =>
      have rest := @ih false false fun bad => bad
      simp [starts, isBlank, rest]

theorem starts_dropWhile (blank : Char → Bool) (text : List Char) :
    starts blank true (text.dropWhile blank) = starts blank true text := by
  induction text with
  | nil => rfl
  | cons c text ih =>
    cases isBlank : blank c with
    | true => simp [starts, isBlank, ih]
    | false => simp [isBlank]

theorem starts_blanks {blank : Char → Bool} (fresh : Bool) {text : List Char}
    (blanks : ∀ c ∈ text, blank c = true) : starts blank fresh text = 0 := by
  induction text generalizing fresh with
  | nil => rfl
  | cons c text ih =>
    rw [starts, if_pos (blanks c List.mem_cons_self)]
    exact ih true fun d isIn => blanks d (List.mem_cons_of_mem _ isIn)

theorem starts_rdropWhile (blank : Char → Bool) (fresh : Bool) (text : List Char) :
    starts blank fresh (text.rdropWhile blank) = starts blank fresh text := by
  have whole := List.rdropWhile_append_rtakeWhile (p := blank) (l := text)
  conv_rhs => rw [← whole, starts_append]
  rw [starts_blanks _ fun c isIn => List.mem_rtakeWhile_imp isIn, Nat.add_zero]

end Counselle.Words

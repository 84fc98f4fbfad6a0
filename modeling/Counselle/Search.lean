import Mathlib.Data.List.Infix

/-! Looking for one list in another: the first place where it begins, and how much of its
front the end of a text may be. -/
namespace Counselle.Search
variable {α : Type}

section
variable [DecidableEq α]

def find (needle : List α) : List α → Option Nat
  | [] => if needle = [] then some 0 else none
  | c :: rest => if needle.isPrefixOf (c :: rest) then some 0 else (find needle rest).map (· + 1)

/-- The longest length below the needle's, and up to the text's, at which the front of the needle ends the text. -/
def overlap (needle text : List α) : Nat :=
  ((List.range' 1 (min text.length (needle.length - 1))).reverse.find? fun n => (needle.take n).isSuffixOf text).getD 0

end

def Clear (needle front back : List α) : Prop :=
  ∀ first last, front = first ++ last → last ≠ [] → ¬ needle <+: last ++ back

section
variable {needle front back text : List α}

theorem clear_nil : Clear needle [] back := by
  intro first last split filled
  exact absurd (List.append_eq_nil_iff.mp split.symm).2 filled

theorem clear_cons {c : α} : Clear needle (c :: front) back ↔
    ¬ needle <+: c :: front ++ back ∧ Clear needle front back := by
  constructor
  · intro clear
    refine ⟨clear [] (c :: front) rfl (List.cons_ne_nil _ _), fun first last split filled => ?_⟩
    exact clear (c :: first) last (by rw [split, List.cons_append]) filled
  · rintro ⟨here, later⟩ first last split filled
    cases first with
    | nil =>
      rw [List.nil_append] at split
      exact split ▸ here
    | cons d first =>
      rw [List.cons_append, List.cons.injEq] at split
      exact later first last split.2 filled

theorem clear_append {second : List α} : Clear needle (front ++ second) back ↔
    Clear needle front (second ++ back) ∧ Clear needle second back := by
  induction front with
  | nil => simp [clear_nil]
  | cons c front ih => rw [List.cons_append, clear_cons, ih, clear_cons, and_assoc, List.cons_append, List.cons_append, List.append_assoc]

theorem Clear.extend {more : List α} (clear : Clear needle front (needle ++ back)) :
    Clear needle front (needle ++ (back ++ more)) := by
  intro first last split filled starts
  refine clear first last split filled ?_
  have shorter : last ++ (needle ++ back) <+: last ++ (needle ++ (back ++ more)) := by
    refine ⟨more, ?_⟩
    simp only [List.append_assoc]
  refine List.prefix_of_prefix_length_le starts shorter ?_
  simp only [List.length_append]
  omega

variable [DecidableEq α]

theorem find_cons_of_not {c : α} {rest : List α} (other : ¬ needle <+: c :: rest) :
    find needle (c :: rest) = (find needle rest).map (· + 1) := by
  rw [find, if_neg (by rwa [ List.isPrefixOf_iff_prefix])]

theorem find_cons_of_starts {c : α} {rest : List α} (here : needle <+: c :: rest) : find needle (c :: rest) = some 0 := by
  rw [find, if_pos (by rwa [ List.isPrefixOf_iff_prefix])]

theorem find_some {i : Nat} (found : find needle text = some i) :
    ∃ front back, text = front ++ needle ++ back ∧ front.length = i ∧ Clear needle front (needle ++ back) := by
  induction text generalizing i with
  | nil =>
    unfold find at found
    split at found
    case isTrue blank =>
      cases found
      exact ⟨[], [], by simp [blank], rfl, clear_nil⟩
    case isFalse => cases found
  | cons c rest ih =>
    by_cases here : needle <+: c :: rest
    · rw [find_cons_of_starts here] at found
      cases found
      obtain ⟨back, whole⟩ := here
      exact ⟨[], back, by rw [List.nil_append, whole], rfl, clear_nil⟩
    · rw [find_cons_of_not here] at found
      obtain ⟨j, there, rfl⟩ := Option.map_eq_some_iff.mp found
      obtain ⟨front, back, rfl, size, clear⟩ := ih there
      refine ⟨c :: front, back, rfl, congrArg (· + 1) size, clear_cons.mpr ⟨?_, clear⟩⟩
      rwa [List.cons_append, ← List.append_assoc, ← List.cons_append]

theorem find_none (absent : find needle text = none) : Clear needle text [] := by
  induction text with
  | nil => exact clear_nil
  | cons c rest ih =>
    by_cases here : needle <+: c :: rest
    · rw [find_cons_of_starts here] at absent
      cases absent
    · rw [find_cons_of_not here, Option.map_eq_none_iff] at absent
      exact clear_cons.mpr ⟨by rwa [List.append_nil], ih absent⟩

theorem find_isSome (some : needle ≠ []) (front back : List α) : (find needle (front ++ needle ++ back)).isSome := by
  rw [Option.isSome_iff_ne_none]
  intro absent
  have starts : needle <+: needle ++ back ++ [] := by
    rw [List.append_nil]
    exact List.prefix_append needle back
  refine find_none absent front (needle ++ back) (List.append_assoc _ _ _) ?_ starts
  exact List.append_ne_nil_of_left_ne_nil some back

theorem find_front (clear : Clear needle front back) :
    find needle (front ++ back) = (find needle back).map (· + front.length) := by
  induction front with
  | nil => simp
  | cons c front ih =>
    obtain ⟨here, later⟩ := clear_cons.mp clear
    rw [List.cons_append] at here ⊢
    rw [find_cons_of_not here, ih later, Option.map_map]
    rfl

theorem find_needle (some : needle ≠ []) : find needle (needle ++ back) = .some 0 := by
  obtain ⟨c, rest, rfl⟩ := List.exists_cons_of_ne_nil some
  exact find_cons_of_starts (List.prefix_append _ _)

theorem find_eq (some : needle ≠ []) (clear : Clear needle front (needle ++ back)) :
    find needle (front ++ needle ++ back) = .some front.length := by
  rw [List.append_assoc, find_front clear, find_needle some, Option.map_some, Nat.zero_add]

theorem find_append {i : Nat} (some : needle ≠ []) (found : find needle text = .some i) (more : List α) :
    find needle (text ++ more) = .some i := by
  obtain ⟨front, back, rfl, rfl, clear⟩ := find_some found
  rw [List.append_assoc]
  exact find_eq some clear.extend

theorem find_append_none {i : Nat} {more : List α} (some : needle ≠ []) (absent : find needle text = none)
    (found : find needle (text ++ more) = .some i) : text.length < i + needle.length := by
  obtain ⟨front, back, whole, rfl, -⟩ := find_some found
  by_contra early
  have front : front ++ needle <+: text := by
    refine List.prefix_of_prefix_length_le ⟨back, whole.symm⟩ (List.prefix_append _ more) ?_
    rw [List.length_append]
    omega
  obtain ⟨rest, split⟩ := front
  refine find_none absent _ (needle ++ rest) (by rw [← split, List.append_assoc]) (by simp [some]) ?_
  rw [List.append_assoc]
  exact List.prefix_append _ _

theorem clear_mark {d : α} (absent : find needle front = none) (other : d ∉ needle) : Clear needle front (d :: back) := by
  intro first last split filled starts
  by_cases short : last.length < needle.length
  · have inside : last ++ [d] <+: needle := by
      refine List.prefix_of_prefix_length_le ⟨back, by simp⟩ starts ?_
      rwa [List.length_append]
    exact other (inside.subset (by simp))
  · have inside : needle <+: last := List.prefix_of_prefix_length_le starts (List.prefix_append _ _) (Nat.le_of_not_lt short)
    refine find_none absent first last split filled ?_
    rwa [List.append_nil]

theorem find_before {d : α} (some : needle ≠ []) (other : d ∉ needle) :
    (find needle (front ++ d :: back)).any (· < front.length) = (find needle front).isSome := by
  cases found : find needle front with
  | none =>
    rw [find_front (clear_mark found other)]
    cases find needle (d :: back) <;> simp
  | some i =>
    obtain ⟨first, last, whole, size, -⟩ := find_some found
    have := List.length_pos_of_ne_nil some
    rw [find_append some found, whole]
    simp only [Option.any_some, List.length_append, decide_eq_true_eq, Option.isSome_some]
    omega

theorem overlap_le (needle text : List α) : overlap needle text ≤ text.length := by
  unfold overlap
  cases longest : (List.range' 1 (min text.length (needle.length - 1))).reverse.find? fun n => (needle.take n).isSuffixOf text with
  | none => exact Nat.zero_le _
  | some n =>
    have isIn := List.mem_of_find?_eq_some longest
    simp only [List.mem_reverse, List.mem_range'_1] at isIn
    simp only [Option.getD_some]
    omega

theorem le_overlap {n : Nat} (positive : 0 < n) (short : n < needle.length) (ends : needle.take n <:+ text) :
    n ≤ overlap needle text := by
  have size := ends.length_le
  rw [List.length_take, Nat.min_eq_left short.le] at size
  obtain ⟨m, longest⟩ : ∃ m, ((List.range' 1 (min text.length (needle.length - 1))).reverse.find?
      fun n => (needle.take n).isSuffixOf text) = .some m := by
    refine Option.isSome_iff_exists.mp (List.find?_isSome.mpr ⟨n, ?_, List.isSuffixOf_iff_suffix.mpr ends⟩)
    simp only [List.mem_reverse, List.mem_range'_1]
    omega
  obtain ⟨_, before, after, split, none⟩ := List.find?_eq_some_iff_append.mp longest
  rw [overlap, longest, Option.getD_some]
  by_contra longer
  -- the lengths go down, so a longer one has been tried before
  have sorted : (before ++ m :: after).Pairwise (· > ·) := by
    rw [← split, List.pairwise_reverse]
    exact List.pairwise_lt_range'
  have isIn : n ∈ before ++ m :: after := by
    rw [← split]
    simp only [List.mem_reverse, List.mem_range'_1]
    omega
  have early : n ∈ before := by
    refine (List.mem_append.mp isIn).resolve_right fun late => ?_
    obtain rfl | behind := List.mem_cons.mp late
    · exact longer le_rfl
    · have := List.rel_of_pairwise_cons (List.pairwise_append.mp sorted).2.1 behind
      omega
  have fails := none n early
  rw [List.isSuffixOf_iff_suffix.mpr ends] at fails
  cases fails

theorem overlap_clear {more : List α} (absent : find needle text = none) (whole : text = front ++ back)
    (size : back.length = overlap needle text) : Clear needle front (back ++ more) := by
  intro first last split filled starts
  have ends : last ++ back <:+ text := ⟨first, by rw [whole, split, List.append_assoc]⟩
  rw [← List.append_assoc] at starts
  have positive : 0 < last.length := List.length_pos_of_ne_nil filled
  by_cases short : (last ++ back).length < needle.length
  · -- the rest of the text would be a longer front of the needle
    have front : last ++ back <+: needle :=
      List.prefix_of_prefix_length_le (List.prefix_append _ more) starts short.le
    have taken : needle.take (last ++ back).length = last ++ back := (List.prefix_iff_eq_take.mp front).symm
    have := le_overlap (List.length_pos_of_ne_nil (by simp [filled])) short (taken.symm ▸ ends)
    rw [← size, List.length_append] at this
    omega
  · have inside : needle <+: last ++ back :=
      List.prefix_of_prefix_length_le starts (List.prefix_append _ more) (Nat.le_of_not_lt short)
    obtain ⟨first, whole⟩ := ends
    refine find_none absent first (last ++ back) whole.symm (by simp [filled]) ?_
    rwa [List.append_nil]

end

end Counselle.Search

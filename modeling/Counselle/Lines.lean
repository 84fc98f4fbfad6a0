import Mathlib.Data.List.DropRight
import Mathlib.Data.List.Forall2

/-! Texts as blocks of lines: what joining does to the lines, and when two joined
texts can only agree block by block. -/
namespace Counselle.Lines
variable {α : Type}

theorem length_flatten_le {first second : List (List α)}
    (longer : List.Forall₂ (fun a b => b.length ≤ a.length) first second) :
    second.flatten.length ≤ first.flatten.length := by
  induction longer with
  | nil => exact Nat.le_refl _
  | cons here _ ih =>
    simp only [List.flatten_cons, List.length_append]
    omega

/-- Of two sequences of blocks the one with the longer blocks flattens to more, so
they flatten to the same only when they are the same. -/
theorem flatten_inj {first second : List (List α)}
    (longer : List.Forall₂ (fun a b => b.length ≤ a.length) first second)
    (same : first.flatten = second.flatten) : first = second := by
  induction longer with
  | nil => rfl
  | @cons a b as bs here later ih =>
    have lengths := congrArg List.length same
    simp only [List.flatten_cons, List.length_append] at lengths
    have more := length_flatten_le later
    obtain ⟨fronts, backs⟩ := List.append_inj same (by omega)
    rw [fronts, ih backs]

section Split
variable [DecidableEq α] {mark : α}

theorem splitOn_inj {first second : List α} (same : first.splitOn mark = second.splitOn mark) :
    first = second :=
  calc
    first = [mark].intercalate (first.splitOn mark) := (List.intercalate_splitOn mark).symm
    _ = [mark].intercalate (second.splitOn mark) := by rw [same]
    _ = second := List.intercalate_splitOn mark

theorem splitOn_join (mark : α) {blocks : List (List α)} (some : blocks ≠ []) :
    ([mark].intercalate blocks).splitOn mark = (blocks.map (·.splitOn mark)).flatten := by
  induction blocks with
  | nil => exact absurd rfl some
  | cons block rest ih =>
    cases rest with
    | nil => simp
    | cons next rest =>
      rw [List.intercalate_cons_cons, List.append_assoc, List.singleton_append,
        List.splitOn_append_cons_self, ih (List.cons_ne_nil _ _)]
      rfl

theorem splitOn_spaced (mark : α) (block : List α) (rest : List (List α)) :
    ([mark, mark].intercalate (block :: rest)).splitOn mark =
      block.splitOn mark ++ (rest.map fun next => [] :: next.splitOn mark).flatten := by
  induction rest generalizing block with
  | nil => simp
  | cons next rest ih =>
    rw [List.intercalate_cons_cons]
    have split : block ++ [mark, mark] ++ [mark, mark].intercalate (next :: rest) =
        block ++ mark :: ([] ++ mark :: [mark, mark].intercalate (next :: rest)) := by simp
    rw [split, List.splitOn_append_cons_self, List.splitOn_append_cons_self, ih]
    simp

theorem length_splitOn_pos (mark : α) (text : List α) : 0 < (text.splitOn mark).length :=
  List.length_pos_iff.mpr (List.splitOn_ne_nil mark text)

theorem not_mem_of_mem_splitOn {text line : List α} (isLine : line ∈ text.splitOn mark) :
    mark ∉ line := by
  induction text generalizing line with
  | nil =>
    rw [List.splitOn_nil, List.mem_singleton] at isLine
    rw [isLine]
    exact List.not_mem_nil
  | cons c rest ih =>
    rw [List.splitOn_cons_eq_if_modifyHead] at isLine
    split at isLine
    · obtain rfl | later := List.mem_cons.mp isLine
      · exact List.not_mem_nil
      · exact ih later
    case isFalse other =>
      obtain ⟨first, lines, split⟩ := List.exists_cons_of_ne_nil (List.splitOn_ne_nil mark rest)
      rw [split, List.modifyHead_cons] at isLine
      rw [split] at ih
      obtain rfl | later := List.mem_cons.mp isLine
      · intro isIn
        obtain rfl | behind := List.mem_cons.mp isIn
        · simp at other
        · exact ih List.mem_cons_self behind
      · exact ih (List.mem_cons_of_mem _ later)

end Split

variable (blank : α → Bool)

/-- The lines as they stand, or with the end of the first one cut off. -/
def seen (trim : Bool) : List (List α) → List (List α)
  | [] => []
  | first :: rest => (if trim then first.rdropWhile blank else first) :: rest

@[simp] theorem seen_false (lines : List (List α)) : seen blank false lines = lines := by
  cases lines <;> rfl

@[simp] theorem length_seen (trim : Bool) (lines : List (List α)) :
    (seen blank trim lines).length = lines.length := by
  cases lines <;> rfl

theorem seen_append (trim : Bool) {lines : List (List α)} (some : lines ≠ [])
    (more : List (List α)) : seen blank trim (lines ++ more) = seen blank trim lines ++ more := by
  cases lines with
  | nil => exact absurd rfl some
  | cons first rest => rfl

theorem rdropWhile_append (front back : List α) :
    (front ++ back).rdropWhile blank =
      if back.all blank then front.rdropWhile blank else front ++ back.rdropWhile blank := by
  induction back using List.reverseRecOn with
  | nil => simp
  | append_singleton back last ih =>
    rw [← List.append_assoc, List.rdropWhile_concat, List.rdropWhile_concat]
    cases isBlank : blank last with
    | true => simpa [isBlank] using ih
    | false => simp [isBlank]

def joined (mark : α) (first : List α) (rest : List (List α)) : List α :=
  first ++ rest.flatMap (mark :: ·)

theorem intercalate_eq_joined (mark : α) (first : List α) (rest : List (List α)) :
    [mark].intercalate (first :: rest) = joined mark first rest := by
  induction rest generalizing first with
  | nil => simp [joined]
  | cons next rest ih =>
    rw [List.intercalate_cons_cons, ih]
    simp [joined]

section Joined
variable [DecidableEq α] {mark : α}

theorem splitOn_joined {first : List α} {rest : List (List α)} (clean : mark ∉ first)
    (cleanRest : ∀ piece ∈ rest, mark ∉ piece) : (joined mark first rest).splitOn mark = first :: rest := by
  rw [← intercalate_eq_joined]
  exact List.splitOn_intercalate mark (List.forall_mem_cons.mpr ⟨clean, cleanRest⟩) (List.cons_ne_nil _ _)

theorem exists_joined (mark : α) (text : List α) : ∃ first rest, text = joined mark first rest ∧
    mark ∉ first ∧ ∀ piece ∈ rest, mark ∉ piece := by
  obtain ⟨first, rest, split⟩ := List.exists_cons_of_ne_nil (List.splitOn_ne_nil mark text)
  have clean := fun piece isIn => @not_mem_of_mem_splitOn _ _ mark text piece isIn
  rw [split, List.forall_mem_cons] at clean
  refine ⟨first, rest, ?_, clean⟩
  rw [← intercalate_eq_joined, ← split, List.intercalate_splitOn]

end Joined

end Counselle.Lines

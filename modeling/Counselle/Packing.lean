import Mathlib.Data.List.Basic
import Mathlib.Tactic.Ring

/-! Lists cut into lists: equal slices, maximal runs of one key, and what it takes for a
segment of a list to stand in one piece. -/
namespace Counselle.Packing

variable {A K : Type}

/-- The slices of a list, each of the size but for the last. -/
def slices (size : Nat) (items : List A) : List (List A) :=
  (List.range ((items.length + size - 1) / size)).map fun turn => (items.drop (turn * size)).take size

theorem slices_step {size : Nat} (positive : 0 < size) {items : List A} (longer : items ≠ []) :
    slices size items = items.take size :: slices size (items.drop size) := by
  have some : 0 < items.length := List.length_pos_iff.mpr longer
  have count : (items.length + size - 1) / size = ((items.drop size).length + size - 1) / size + 1 := by
    rw [List.length_drop]
    rcases Nat.lt_or_ge size items.length with long | short
    · rw [show items.length + size - 1 = (items.length - size + size - 1) + size by omega,
        Nat.add_div_right _ positive]
    · have one : (items.length + size - 1) / size = 1 := Nat.div_eq_of_lt_le (by omega) (by omega)
      rw [one, show items.length - size = 0 by omega, Nat.div_eq_of_lt (by omega : 0 + size - 1 < size)]
  unfold slices
  rw [count, List.range_succ_eq_map, List.map_cons, List.map_map, Nat.zero_mul, List.drop_zero]
  refine congrArg _ (List.map_congr_left fun turn _ => ?_)
  simp only [Function.comp_apply, List.drop_drop, Nat.succ_mul, Nat.add_comm]

theorem slices_spec {size : Nat} (positive : 0 < size) (items : List A) :
    (slices size items).flatten = items ∧
      ∀ slice ∈ slices size items, slice ≠ [] ∧ slice.length ≤ size ∧ slice ⊆ items := by
  induction length : items.length using Nat.strong_induction_on generalizing items with
  | _ n ih =>
    by_cases empty : items = []
    · subst empty
      simp [slices]
    · have some : 0 < items.length := List.length_pos_iff.mpr empty
      obtain ⟨flat, each⟩ := ih (items.drop size).length (by rw [List.length_drop]; omega) _ rfl
      rw [slices_step positive empty]
      refine ⟨by rw [List.flatten_cons, flat, List.take_append_drop], fun slice isIn => ?_⟩
      rcases List.mem_cons.mp isIn with rfl | later
      · refine ⟨?_, List.length_take_le _ _, List.take_subset _ _⟩
        rw [← List.length_pos_iff, List.length_take]
        omega
      · obtain ⟨nonempty, bounded, inside⟩ := each slice later
        exact ⟨nonempty, bounded, fun _ isItem => List.drop_subset _ _ (inside isItem)⟩

/-- The segment that follows `front` lies inside one of the pieces. -/
def Whole (pieces : List (List A)) (front segment : List A) : Prop :=
  ∃ earlier left right later, pieces = earlier ++ (left ++ segment ++ right) :: later ∧
    earlier.flatten ++ left = front

theorem Whole.append {pieces : List (List A)} {front segment : List A} (whole : Whole pieces front segment)
    (more : List (List A)) : Whole (pieces ++ more) front segment := by
  obtain ⟨earlier, left, right, later, rfl, isFront⟩ := whole
  exact ⟨earlier, left, right, later ++ more, by rw [List.append_assoc, List.cons_append], isFront⟩

theorem Whole.grow {pieces : List (List A)} {last front segment : List A}
    (whole : Whole (pieces ++ [last]) front segment) (more : List A) :
    Whole (pieces ++ [last ++ more]) front segment := by
  obtain ⟨earlier, left, right, later, split, isFront⟩ := whole
  rcases List.eq_nil_or_concat' later with rfl | ⟨before, final, rfl⟩
  · obtain ⟨rfl, same⟩ := List.append_inj' split rfl
    refine ⟨pieces, left, right ++ more, [], ?_, isFront⟩
    rw [(List.cons.inj same).1, List.append_assoc _ right]
  · rw [← List.cons_append, ← List.append_assoc] at split
    obtain ⟨rfl, same⟩ := List.append_inj' split rfl
    exact ⟨earlier, left, right, before ++ [last ++ more], by simp, isFront⟩

theorem Whole.of_empty {pieces : List (List A)} {front segment : List A}
    (whole : Whole (pieces ++ [[]]) front segment) (nonempty : segment ≠ []) :
    Whole pieces front segment := by
  obtain ⟨earlier, left, right, later, split, isFront⟩ := whole
  rcases List.eq_nil_or_concat' later with rfl | ⟨before, final, rfl⟩
  · obtain ⟨rfl, same⟩ := List.append_inj' split rfl
    have holds := (List.cons.inj same).1
    simp only [List.nil_eq, List.append_eq_nil_iff] at holds
    exact absurd holds.1.2 nonempty
  · rw [← List.cons_append, ← List.append_assoc] at split
    obtain ⟨rfl, -⟩ := List.append_inj' split rfl
    exact ⟨earlier, left, right, before, rfl, isFront⟩

theorem whole_last (pieces : List (List A)) (last segment : List A) :
    Whole (pieces ++ [last ++ segment]) (pieces.flatten ++ last) segment :=
  ⟨pieces, last, [], [], by rw [List.append_nil], rfl⟩

/-- A nonempty segment of one key whose neighbours, if it has them, have another. -/
structure IsRun (key : A → K) (front segment back : List A) : Prop where
  nonempty : segment ≠ []
  uniform : ∀ one ∈ segment, ∀ other ∈ segment, key one = key other
  begins : ∀ before ∈ front.getLast?, ∀ one ∈ segment, key before ≠ key one
  ends : ∀ after ∈ back.head?, ∀ one ∈ segment, key after ≠ key one

end Counselle.Packing

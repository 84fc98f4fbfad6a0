import Mathlib.Data.List.Sort

/-! Closed ranges of integers, and what joining the ranges of a list leaves that overlap or
are at most a gap apart. -/
namespace Counselle.Ranges

abbrev Range := Int × Int

def below (a b : Range) : Prop := a.1 < b.1 ∨ a.1 = b.1 ∧ a.2 ≤ b.2

instance : DecidableRel below := fun a b => inferInstanceAs (Decidable (a.1 < b.1 ∨ a.1 = b.1 ∧ a.2 ≤ b.2))

instance : Std.Total below where
  total a b := by
    unfold below
    omega

instance : IsTrans Range below where
  trans a b c := by
    unfold below
    omega

def Inside (a b : Range) : Prop := b.1 ≤ a.1 ∧ a.2 ≤ b.2

theorem Inside.trans {a b c : Range} (first : Inside a b) (second : Inside b c) : Inside a c :=
  ⟨second.1.trans first.1, first.2.trans second.2⟩

structure Apart (gap : Int) (ranges : List Range) : Prop where
  filled : ∀ range ∈ ranges, range.1 ≤ range.2
  apart : ranges.Pairwise fun a b => a.2 + gap < b.1

theorem Apart.nil (gap : Int) : Apart gap [] := ⟨nofun, List.Pairwise.nil⟩

theorem Apart.single (gap : Int) {range : Range} (filled : range.1 ≤ range.2) : Apart gap [range] :=
  ⟨fun _ isIn => List.mem_singleton.mp isIn ▸ filled, List.pairwise_singleton _ _⟩

/-- The walk over sorted ranges with the last one of the result. -/
def joinFrom (gap : Int) (current : Range) : List Range → List Range
  | [] => [current]
  | next :: rest =>
    if next.1 ≤ current.2 + gap then joinFrom gap (current.1, max current.2 next.2) rest
    else current :: joinFrom gap next rest

def join (gap : Int) (ranges : List Range) : List Range :=
  match ranges.insertionSort below with
  | [] => []
  | first :: rest => joinFrom gap first rest

section Walk
variable {gap : Int} {current : Range} {rest : List Range}

theorem joinFrom_head (gap : Int) (current : Range) (rest : List Range) :
    ∃ last others, joinFrom gap current rest = (current.1, last) :: others := by
  induction rest generalizing current with
  | nil => exact ⟨_, [], rfl⟩
  | cons next rest ih =>
    rw [joinFrom]
    split
    case isTrue => exact ih (current.1, max current.2 next.2)
    case isFalse => exact ⟨current.2, _, rfl⟩

theorem joinFrom_apart (positive : 0 ≤ gap) (filled : ∀ range ∈ current :: rest, range.1 ≤ range.2) :
    Apart gap (joinFrom gap current rest) := by
  induction rest generalizing current with
  | nil => exact Apart.single gap (filled current List.mem_cons_self)
  | cons next rest ih =>
    have here := filled current List.mem_cons_self
    rw [joinFrom]
    split
    case isTrue =>
      refine ih fun range isIn => ?_
      rcases List.mem_cons.mp isIn with rfl | isIn
      · exact here.trans (le_max_left _ _)
      · exact filled range (List.mem_cons_of_mem _ (List.mem_cons_of_mem _ isIn))
    case isFalse far =>
      obtain ⟨bounded, apart⟩ := ih fun range isIn => filled range (List.mem_cons_of_mem _ isIn)
      obtain ⟨last, others, head⟩ := joinFrom_head gap next rest
      refine ⟨fun range isIn => ?_, List.pairwise_cons.mpr ⟨fun range isIn => ?_, apart⟩⟩
      · rcases List.mem_cons.mp isIn with rfl | isIn
        · exact here
        · exact bounded range isIn
      · -- The first of the rest starts further on, and the others behind it.
        rw [head] at isIn apart bounded
        rcases List.mem_cons.mp isIn with rfl | isIn
        · exact not_le.mp far
        · have first := bounded _ List.mem_cons_self
          have later := (List.pairwise_cons.mp apart).1 range isIn
          dsimp only at first later
          omega

theorem joinFrom_inside (sorted : (current :: rest).Pairwise fun a b => a.1 ≤ b.1) :
    ∀ range ∈ current :: rest, ∃ joined ∈ joinFrom gap current rest, Inside range joined := by
  induction rest generalizing current with
  | nil =>
    intro range isIn
    rw [List.mem_singleton.mp isIn]
    exact ⟨current, List.mem_singleton_self _, le_rfl, le_rfl⟩
  | cons next rest ih =>
    obtain ⟨first, sorted⟩ := List.pairwise_cons.mp sorted
    obtain ⟨second, later⟩ := List.pairwise_cons.mp sorted
    intro range isIn
    rw [joinFrom]
    split
    case isTrue =>
      have grown := @ih (current.1, max current.2 next.2)
        (List.pairwise_cons.mpr ⟨fun range isIn => first range (List.mem_cons_of_mem _ isIn), later⟩)
      obtain ⟨joined, isJoined, inside⟩ := grown _ List.mem_cons_self
      rcases List.mem_cons.mp isIn with rfl | isIn
      · exact ⟨joined, isJoined, inside.1, (le_max_left _ _).trans inside.2⟩
      · rcases List.mem_cons.mp isIn with rfl | isIn
        · exact ⟨joined, isJoined, inside.1.trans (first _ List.mem_cons_self), (le_max_right _ _).trans inside.2⟩
        · exact grown range (List.mem_cons_of_mem _ isIn)
    case isFalse =>
      rcases List.mem_cons.mp isIn with rfl | isIn
      · exact ⟨range, List.mem_cons_self, le_rfl, le_rfl⟩
      · obtain ⟨joined, isJoined, inside⟩ := ih sorted range isIn
        exact ⟨joined, List.mem_cons_of_mem _ isJoined, inside⟩

theorem joinFrom_bounds {bounds : Range} (within : ∀ range ∈ current :: rest, Inside range bounds) :
    ∀ joined ∈ joinFrom gap current rest, Inside joined bounds := by
  induction rest generalizing current with
  | nil => exact within
  | cons next rest ih =>
    have here := within current List.mem_cons_self
    have there := within next (List.mem_cons_of_mem _ List.mem_cons_self)
    rw [joinFrom]
    split
    case isTrue =>
      refine ih fun range isIn => ?_
      rcases List.mem_cons.mp isIn with rfl | isIn
      · exact ⟨here.1, max_le here.2 there.2⟩
      · exact within range (List.mem_cons_of_mem _ (List.mem_cons_of_mem _ isIn))
    case isFalse =>
      intro joined isIn
      rcases List.mem_cons.mp isIn with rfl | isIn
      · exact here
      · exact ih (fun range isIn => within range (List.mem_cons_of_mem _ isIn)) joined isIn

end Walk

section Join
variable {gap : Int} {ranges : List Range}

theorem join_apart (positive : 0 ≤ gap) (filled : ∀ range ∈ ranges, range.1 ≤ range.2) : Apart gap (join gap ranges) := by
  have same (range : Range) : range ∈ ranges.insertionSort below ↔ range ∈ ranges :=
    (List.perm_insertionSort below ranges).mem_iff
  rw [join]
  split
  case h_1 => exact Apart.nil gap
  case h_2 first rest sorted =>
    refine joinFrom_apart positive fun range isIn => filled range ?_
    rw [← same, sorted]
    exact isIn

theorem join_inside {range : Range} (isIn : range ∈ ranges) : ∃ joined ∈ join gap ranges, Inside range joined := by
  have sorted := List.pairwise_insertionSort below ranges
  have isIn := (List.perm_insertionSort below ranges).mem_iff.mpr isIn
  rw [join]
  split
  case h_1 none =>
    rw [none] at isIn
    cases isIn
  case h_2 first rest split =>
    rw [split] at isIn sorted
    refine joinFrom_inside (sorted.imp fun {a b} lower => ?_) range isIn
    unfold below at lower
    omega

theorem join_bounds {bounds : Range} (within : ∀ range ∈ ranges, Inside range bounds) :
    ∀ joined ∈ join gap ranges, Inside joined bounds := by
  have same (range : Range) : range ∈ ranges.insertionSort below ↔ range ∈ ranges :=
    (List.perm_insertionSort below ranges).mem_iff
  rw [join]
  split
  case h_1 => nofun
  case h_2 first rest sorted =>
    refine joinFrom_bounds fun range isIn => within range ?_
    rw [← same, sorted]
    exact isIn

end Join

end Counselle.Ranges

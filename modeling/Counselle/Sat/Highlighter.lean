import Counselle.Spans

/-! The offset arithmetic of the passage highlighter: marks are half-open character
ranges into a field's text, and one gesture adds or removes a whole selection. -/
namespace Counselle.Sat.Highlighter

open Spans

/-- A half-open character offset range, `[start, end)`. -/
abbrev Offset := Int × Int

def rangeLength (range : Offset) : Int := max 0 (range.2 - range.1)

/-- The comparator of `toSorted`: by start, then by end. -/
def compareOffsets (a b : Offset) : Int :=
  if a.1 - b.1 ≠ 0 then a.1 - b.1 else a.2 - b.2

/-- One turn of the merging loop: `merged.at(-1)` is grown when the next range
overlaps or touches it. -/
def mergeRange (merged : List Offset) (range : Offset) : List Offset :=
  match merged.getLast? with
  | some last =>
    if range.1 ≤ last.2 then merged.dropLast ++ [(last.1, max last.2 range.2)]
    else merged ++ [range]
  | none => merged ++ [range]

def normalize (ranges : List Offset) : List Offset :=
  ((ranges.filter fun range => rangeLength range > 0).insertionSort
    fun a b => compareOffsets a b ≤ 0).foldl mergeRange []

def addRange (existing : List Offset) (addition : Offset) : List Offset :=
  normalize (existing ++ [addition])

def subtractFrom (removal range : Offset) : List Offset :=
  if range.2 ≤ removal.1 ∨ range.1 ≥ removal.2 then [range]
  else
    (if range.1 < removal.1 then [(range.1, removal.1)] else []) ++
      (if range.2 > removal.2 then [(removal.2, range.2)] else [])

def subtractRange (existing : List Offset) (removal : Offset) : List Offset :=
  (normalize existing).flatMap (subtractFrom removal)

/-- The overlap's length of one turn of the counting loop. -/
def overlapLength (range other : Offset) : Int :=
  let overlapStart := max other.1 range.1
  let overlapEnd := min other.2 range.2
  if overlapEnd > overlapStart then overlapEnd - overlapStart else 0

def coveredLength (existing : List Offset) (range : Offset) : Int :=
  existing.foldl (fun total other => total + overlapLength range other) 0

def unionRanges (ranges : List Offset) : List Offset := normalize ranges

def totalLength (ranges : List Offset) : Int :=
  ranges.foldl (fun sum range => sum + rangeLength range) 0

def majorityCoverageThreshold : ℚ := 1 / 2

def shouldSubtract (existing selectionRanges : List Offset) : Bool :=
  let union := unionRanges selectionRanges
  let total := totalLength union
  if total = 0 then false
  else
    let covered := union.foldl (fun sum range => sum + coveredLength existing range) 0
    (covered : ℚ) / total > majorityCoverageThreshold

/-- The one decision applied to every range of the union. -/
def paint (subtract : Bool) (existing union : List Offset) : List Offset :=
  union.foldl (fun ranges range =>
    if subtract then subtractRange ranges range else addRange ranges range) existing

def applyHighlightToggle (existing selectionRanges : List Offset) : List Offset :=
  let union := unionRanges selectionRanges
  if union.length = 0 then normalize existing
  else paint (shouldSubtract existing union) (normalize existing) union

theorem rangeLength_pos {range : Offset} : rangeLength range > 0 ↔ range.1 < range.2 := by
  unfold rangeLength
  omega

theorem compareOffsets_starts {a b : Offset} (sorted : compareOffsets a b ≤ 0) : a.1 ≤ b.1 := by
  unfold compareOffsets at sorted
  split at sorted <;> omega

instance : Std.Total fun a b : Offset => compareOffsets a b ≤ 0 where
  total a b := by
    unfold compareOffsets
    split <;> split <;> omega

instance : IsTrans Offset fun a b => compareOffsets a b ≤ 0 where
  trans a b c ab bc := by
    unfold compareOffsets at *
    split at ab <;> split at bc <;> split <;> omega

theorem mergeRange_keeps {merged : List Offset} {range : Offset} (canonical : Canonical merged)
    (nonempty : range.1 < range.2) (earlier : ∀ mark ∈ merged, mark.1 ≤ range.1) :
    Canonical (mergeRange merged range) ∧
    cells (mergeRange merged range) = cells merged ∪ Finset.Ico range.1 range.2 ∧
    ∀ mark ∈ mergeRange merged range, mark.1 ≤ range.1 := by
  have single : cells [range] = Finset.Ico range.1 range.2 := by rw [cells_cons, cells_nil, Finset.union_empty]
  rcases List.eq_nil_or_concat' merged with rfl | ⟨before, last, rfl⟩
  · refine ⟨Canonical.nil.concat nonempty (by simp), ?_, ?_⟩
    · rw [cells_nil, Finset.empty_union]
      exact single
    · intro mark isIn
      rw [List.mem_singleton.mp isIn]
  · obtain ⟨beforeCanonical, lastNonempty, lastAfter⟩ := canonical.of_concat
    have lastEarlier := earlier last (by simp)
    have step : mergeRange (before ++ [last]) range =
        if range.1 ≤ last.2 then before ++ [(last.1, max last.2 range.2)]
        else before ++ [last] ++ [range] := by
      simp only [mergeRange, List.getLast?_append, List.getLast?_singleton, Option.some_or,
        List.dropLast_concat]
    rw [step]
    split
    · next touches =>
      refine ⟨beforeCanonical.concat (by simp only; omega) lastAfter, ?_, ?_⟩
      · ext point
        simp only [cells_append, cells_cons, cells_nil, Finset.mem_union, Finset.mem_Ico,
          Finset.notMem_empty, or_false, or_assoc]
        refine or_congr_right ?_
        omega
      · intro mark isIn
        rcases List.mem_append.mp isIn with old | new
        · exact earlier mark (List.mem_append_left _ old)
        · rw [List.mem_singleton.mp new]
          exact lastEarlier
    · next apart =>
      refine ⟨canonical.concat nonempty ?_, by rw [cells_append, single], ?_⟩
      · intro mark isIn
        rcases List.mem_append.mp isIn with old | new
        · have := lastAfter mark old
          omega
        · rw [List.mem_singleton.mp new]
          omega
      · intro mark isIn
        rcases List.mem_append.mp isIn with old | new
        · exact earlier mark old
        · rw [List.mem_singleton.mp new]

theorem merged_of_sorted {ranges merged : List Offset} (canonical : Canonical merged)
    (nonempty : ∀ range ∈ ranges, range.1 < range.2)
    (sorted : ranges.Pairwise fun a b => compareOffsets a b ≤ 0)
    (earlier : ∀ mark ∈ merged, ∀ range ∈ ranges, mark.1 ≤ range.1) :
    Canonical (ranges.foldl mergeRange merged) ∧
      cells (ranges.foldl mergeRange merged) = cells merged ∪ cells ranges := by
  induction ranges generalizing merged with
  | nil => exact ⟨canonical, by rw [cells_nil, Finset.union_empty]; rfl⟩
  | cons range rest ih =>
    obtain ⟨isFirst, restSorted⟩ := List.pairwise_cons.mp sorted
    obtain ⟨stepCanonical, stepCells, stepEarlier⟩ := mergeRange_keeps canonical
      (nonempty range List.mem_cons_self) fun mark isIn => earlier mark isIn range List.mem_cons_self
    have later : ∀ mark ∈ mergeRange merged range, ∀ next ∈ rest, mark.1 ≤ next.1 :=
      fun mark isIn next isNext =>
        (stepEarlier mark isIn).trans (compareOffsets_starts (isFirst next isNext))
    obtain ⟨foldCanonical, foldCells⟩ :=
      ih stepCanonical (fun next isNext => nonempty next (List.mem_cons_of_mem _ isNext)) restSorted later
    refine ⟨foldCanonical, ?_⟩
    rw [List.foldl_cons, foldCells, stepCells, cells_cons, Finset.union_assoc]

theorem normalize_spec (ranges : List Offset) :
    Canonical (normalize ranges) ∧ cells (normalize ranges) = cells ranges := by
  have nonempty : ∀ range ∈ (ranges.filter fun range => rangeLength range > 0).insertionSort
      (fun a b => compareOffsets a b ≤ 0), range.1 < range.2 := by
    intro range isIn
    have kept := (List.mem_filter.mp ((List.perm_insertionSort _ _).mem_iff.mp isIn)).2
    exact rangeLength_pos.mp (of_decide_eq_true kept)
  obtain ⟨canonical, covers⟩ := merged_of_sorted Canonical.nil nonempty
    (List.pairwise_insertionSort _ _) (by simp)
  refine ⟨canonical, covers.trans ?_⟩
  rw [cells_nil, Finset.empty_union, cells_perm (List.perm_insertionSort _ _)]
  simp only [rangeLength_pos]
  exact cells_filter_nonempty ranges

theorem addRange_spec (existing : List Offset) (addition : Offset) :
    Canonical (addRange existing addition) ∧
      cells (addRange existing addition) = cells existing ∪ Finset.Ico addition.1 addition.2 := by
  obtain ⟨canonical, covers⟩ := normalize_spec (existing ++ [addition])
  refine ⟨canonical, covers.trans ?_⟩
  rw [cells_append, cells_cons, cells_nil, Finset.union_empty]

theorem cells_subtractFrom (removal range : Offset) :
    cells (subtractFrom removal range) =
      Finset.Ico range.1 range.2 \ Finset.Ico removal.1 removal.2 := by
  ext point
  unfold subtractFrom
  split_ifs <;>
    simp only [List.append_nil, List.nil_append, List.cons_append, cells_cons, cells_nil,
      Finset.mem_union, Finset.mem_sdiff, Finset.mem_Ico, Finset.notMem_empty, or_false] <;>
    constructor <;> intro inside <;> first | omega | exact inside.elim

theorem subtractFrom_inside (removal range : Offset) :
    ∀ part ∈ subtractFrom removal range, range.1 ≤ part.1 ∧ part.2 ≤ range.2 := by
  intro part isIn
  unfold subtractFrom at isIn
  split_ifs at isIn with outside left right right
  · rw [List.mem_singleton.mp isIn]
    omega
  · rcases List.mem_append.mp isIn with before | after
    · rw [List.mem_singleton.mp before]
      exact ⟨le_rfl, by simp only; omega⟩
    · rw [List.mem_singleton.mp after]
      exact ⟨by simp only; omega, le_rfl⟩
  · rw [List.append_nil] at isIn
    rw [List.mem_singleton.mp isIn]
    exact ⟨le_rfl, by simp only; omega⟩
  · rw [List.nil_append] at isIn
    rw [List.mem_singleton.mp isIn]
    exact ⟨by simp only; omega, le_rfl⟩
  · exact absurd isIn List.not_mem_nil

theorem subtractFrom_canonical {removal range : Offset} (removes : removal.1 < removal.2)
    (nonempty : range.1 < range.2) : Canonical (subtractFrom removal range) := by
  have single {part : Offset} (nonempty : part.1 < part.2) : Canonical [part] :=
    Canonical.nil.concat nonempty (by simp)
  unfold subtractFrom
  split_ifs with outside left right right
  · exact single nonempty
  · -- the removal lies strictly inside: the mark is split around it
    refine (@single (range.1, removal.1) left).concat right ?_
    intro part isIn
    rw [List.mem_singleton.mp isIn]
    exact removes
  · exact single left
  · exact single right
  · exact Canonical.nil

theorem subtractRange_spec (existing : List Offset) {removal : Offset} (removes : removal.1 < removal.2) :
    Canonical (subtractRange existing removal) ∧
      cells (subtractRange existing removal) = cells existing \ Finset.Ico removal.1 removal.2 := by
  obtain ⟨canonical, covers⟩ := normalize_spec existing
  refine ⟨canonical.flatMap (fun range isIn => subtractFrom_canonical removes (canonical.nonempty range isIn))
    (fun range _ => subtractFrom_inside removal range), ?_⟩
  rw [← covers]
  exact cells_flatMap _ _ _ fun range _ => cells_subtractFrom removal range

theorem paint_spec (subtract : Bool) {existing union : List Offset} (canonical : Canonical existing)
    (nonempty : ∀ range ∈ union, range.1 < range.2) :
    Canonical (paint subtract existing union) ∧
      cells (paint subtract existing union) =
        if subtract then cells existing \ cells union else cells existing ∪ cells union := by
  induction union generalizing existing with
  | nil => exact ⟨canonical, by cases subtract <;> simp [paint]⟩
  | cons range rest ih =>
    have restNonempty : ∀ next ∈ rest, next.1 < next.2 :=
      fun next isNext => nonempty next (List.mem_cons_of_mem _ isNext)
    cases subtract with
    | true =>
      obtain ⟨stepCanonical, stepCells⟩ := subtractRange_spec existing (nonempty range List.mem_cons_self)
      obtain ⟨restCanonical, restCells⟩ := ih stepCanonical restNonempty
      refine ⟨restCanonical, restCells.trans ?_⟩
      rw [if_pos rfl, if_pos rfl, stepCells, cells_cons, sdiff_sdiff_left]
      rfl
    | false =>
      obtain ⟨stepCanonical, stepCells⟩ := addRange_spec existing range
      obtain ⟨restCanonical, restCells⟩ := ih stepCanonical restNonempty
      refine ⟨restCanonical, restCells.trans ?_⟩
      rw [if_neg Bool.false_ne_true, if_neg Bool.false_ne_true, stepCells, cells_cons, Finset.union_assoc]

theorem foldl_add (f : Offset → Int) (ranges : List Offset) (start : Int) :
    ranges.foldl (fun sum range => sum + f range) start = start + (ranges.map f).sum := by
  induction ranges generalizing start with
  | nil => simp
  | cons range rest ih => rw [List.foldl_cons, ih, List.map_cons, List.sum_cons, Int.add_assoc]

theorem totalLength_eq {ranges : List Offset} (canonical : Canonical ranges) :
    totalLength ranges = (cells ranges).card := by
  rw [card_cells canonical, totalLength, foldl_add, Int.zero_add]
  rfl

theorem coveredLength_eq {existing : List Offset} (canonical : Canonical existing) (range : Offset) :
    coveredLength existing range = (cells existing ∩ Finset.Ico range.1 range.2).card := by
  rw [card_cells_inter canonical, coveredLength, foldl_add, Int.zero_add]
  refine congrArg List.sum (List.map_congr_left fun other _ => ?_)
  simp only [overlapLength]
  split <;> omega

theorem shouldSubtract_iff {existing : List Offset} (canonical : Canonical existing)
    (selectionRanges : List Offset) :
    shouldSubtract existing selectionRanges = true ↔
      (cells selectionRanges).card < 2 * (cells existing ∩ cells selectionRanges).card := by
  obtain ⟨unionCanonical, unionCells⟩ := normalize_spec selectionRanges
  have total : totalLength (unionRanges selectionRanges) = (cells selectionRanges).card := by
    rw [unionRanges, totalLength_eq unionCanonical, unionCells]
  have covered : (unionRanges selectionRanges).foldl
      (fun sum range => sum + coveredLength existing range) 0 =
        (cells existing ∩ cells selectionRanges).card := by
    rw [foldl_add, Int.zero_add, ← unionCells, card_cells_inter_cells unionCanonical]
    exact congrArg List.sum (List.map_congr_left fun range _ => coveredLength_eq canonical range)
  have shared : (cells existing ∩ cells selectionRanges).card ≤ (cells selectionRanges).card :=
    Finset.card_le_card Finset.inter_subset_right
  simp only [shouldSubtract, total, covered, majorityCoverageThreshold]
  split
  · next isEmpty =>
    have : (cells selectionRanges).card = 0 := by exact_mod_cast isEmpty
    simp only [Bool.false_eq_true, false_iff]
    omega
  · next filled =>
    have positive : (0 : ℚ) < ((cells selectionRanges).card : Int) := by
      have : 0 < (cells selectionRanges).card := by omega
      exact_mod_cast this
    rw [decide_eq_true_eq, gt_iff_lt, lt_div_iff₀ positive, div_mul_eq_mul_div, one_mul,
      div_lt_iff₀ (by norm_num)]
    norm_cast
    rw [mul_comm]

/-- One gesture as one field sees it. A pointer gesture over several fields decides on
all of them together, so that a field is handed the decision. -/
inductive Gesture where
  | toggle (selectionRanges : List Offset)
  | pointerUp (subtract : Bool) (clipped : List Offset)

def Gesture.apply (existing : List Offset) : Gesture → List Offset
  | .toggle selectionRanges => applyHighlightToggle existing selectionRanges
  | .pointerUp subtract clipped => paint subtract existing (unionRanges clipped)

/-- What is stored for a field after some gestures on a fresh question. -/
def stored (gestures : List Gesture) : List Offset := gestures.foldl Gesture.apply []

theorem applyHighlightToggle_spec {existing : List Offset} (canonical : Canonical existing)
    (selectionRanges : List Offset) :
    Canonical (applyHighlightToggle existing selectionRanges) ∧
      cells (applyHighlightToggle existing selectionRanges) =
        if 2 * (cells existing ∩ cells selectionRanges).card ≤ (cells selectionRanges).card
        then cells existing ∪ cells selectionRanges
        else cells existing \ cells selectionRanges := by
  obtain ⟨unionCanonical, unionCells⟩ := normalize_spec selectionRanges
  obtain ⟨existingCanonical, existingCells⟩ := normalize_spec existing
  unfold applyHighlightToggle unionRanges
  simp only
  split
  · next isEmpty =>
    have nothing : cells selectionRanges = ∅ := by
      rw [← unionCells, List.length_eq_zero_iff.mp isEmpty, cells_nil]
    refine ⟨existingCanonical, existingCells.trans ?_⟩
    rw [nothing, Finset.union_empty, Finset.sdiff_empty, ite_self]
  · obtain ⟨paintCanonical, painted⟩ := paint_spec (shouldSubtract existing (normalize selectionRanges))
      existingCanonical unionCanonical.nonempty
    refine ⟨paintCanonical, painted.trans ?_⟩
    have decision := shouldSubtract_iff canonical (normalize selectionRanges)
    rw [existingCells, unionCells]
    rw [unionCells] at decision
    by_cases half : 2 * (cells existing ∩ cells selectionRanges).card ≤ (cells selectionRanges).card
    · rw [if_pos half, if_neg (fun subtracts => absurd (decision.mp subtracts) (by omega))]
    · rw [if_neg half, if_pos (decision.mpr (by omega))]

theorem Gesture.apply_canonical {existing : List Offset} (canonical : Canonical existing)
    (gesture : Gesture) : Canonical (gesture.apply existing) := by
  cases gesture with
  | toggle selectionRanges => exact (applyHighlightToggle_spec canonical selectionRanges).1
  | pointerUp subtract clipped =>
    exact (paint_spec subtract canonical (normalize_spec clipped).1.nonempty).1

theorem stored_canonical (gestures : List Gesture) : Canonical (stored gestures) := by
  unfold stored
  induction gestures using List.reverseRecOn with
  | nil => exact Canonical.nil
  | append_singleton before last ih =>
    rw [List.foldl_concat]
    exact last.apply_canonical ih

theorem mem_union_outside {marked selected : Finset Int} {character : Int}
    (outside : character ∉ selected) : character ∈ marked ∪ selected ↔ character ∈ marked := by
  rw [Finset.mem_union, or_iff_left outside]

theorem mem_sdiff_outside {marked selected : Finset Int} {character : Int}
    (outside : character ∉ selected) : character ∈ marked \ selected ↔ character ∈ marked := by
  rw [Finset.mem_sdiff, and_iff_left outside]

/-- A gesture marks its whole selection or clears it, by the majority of what was
marked before; repeated, it does the other one. -/
theorem toggle_set_algebra (gestures : List Gesture) (selectionRanges : List Offset) :
    let existing := stored gestures
    let next := applyHighlightToggle existing selectionRanges
    let again := applyHighlightToggle next selectionRanges
    let atMostHalf :=
      2 * (cells existing ∩ cells selectionRanges).card ≤ (cells selectionRanges).card
    Canonical next ∧
    cells next = (if atMostHalf then cells existing ∪ cells selectionRanges
      else cells existing \ cells selectionRanges) ∧
    cells again = (if atMostHalf then cells existing \ cells selectionRanges
      else cells existing ∪ cells selectionRanges) ∧
    ∀ character ∉ cells selectionRanges,
      (character ∈ cells next ↔ character ∈ cells existing) ∧
        (character ∈ cells again ↔ character ∈ cells existing) := by
  intro existing next again atMostHalf
  obtain ⟨canonical, nextCells⟩ := applyHighlightToggle_spec (stored_canonical gestures) selectionRanges
  obtain ⟨_, againCells⟩ := applyHighlightToggle_spec canonical selectionRanges
  have flipped : cells again = if atMostHalf then cells existing \ cells selectionRanges
      else cells existing ∪ cells selectionRanges := by
    refine againCells.trans ?_
    rw [nextCells]
    by_cases half : atMostHalf
    · -- all of the selection is marked now: only an empty one is at most half marked
      rw [if_pos half, if_pos half, Finset.union_inter_cancel_right, Finset.union_sdiff_right]
      split
      · next isHalf =>
        have nothing : cells selectionRanges = ∅ := Finset.card_eq_zero.mp (by omega)
        rw [nothing, Finset.union_empty, Finset.union_empty, Finset.sdiff_empty]
      · rfl
    · rw [if_neg half, if_neg half, Finset.sdiff_inter_self, Finset.card_empty, Nat.mul_zero,
        if_pos (Nat.zero_le _), Finset.sdiff_union_self_eq_union]
  refine ⟨canonical, nextCells, flipped, fun character outside => ⟨?_, ?_⟩⟩
  · rw [nextCells]
    split
    · exact mem_union_outside outside
    · exact mem_sdiff_outside outside
  · rw [flipped]
    split
    · exact mem_sdiff_outside outside
    · exact mem_union_outside outside

/-- Three gestures: a selection is marked, a touching one joins it, and one inside
splits the mark. -/
example : stored [.toggle [(2, 5)], .toggle [(5, 9), (8, 5)], .toggle [(4, 6)]] = [(2, 4), (6, 9)] := by
  decide +kernel

end Counselle.Sat.Highlighter

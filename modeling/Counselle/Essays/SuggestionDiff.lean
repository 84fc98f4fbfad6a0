import Counselle.Scan
import Mathlib.Data.List.Basic
import Mathlib.Order.Basic

/-! The trim of a suggestion, `suggestionDiff.ts`: the head and the tail that the old and
the new text share, each cut back to a word boundary. Texts are UTF-16 code units. -/
namespace Counselle.Essays.Trim
open Scan

abbrev Units : Type := List UInt16

def isHigh (u : UInt16) : Bool := 0xd800 ≤ u && u ≤ 0xdbff

def isLow (u : UInt16) : Bool := 0xdc00 ≤ u && u ≤ 0xdfff

/-- `WORD_CHARACTER`, tested on a text of one code unit: a letter, a number or an
underscore, which no half of a pair is. -/
structure WordCharacters where
  test : UInt16 → Bool
  noHigh : ∀ u, isHigh u = true → test u = false
  noLow : ∀ u, isLow u = true → test u = false

inductive SuggestionDiffShape where
  | deletion
  | insertion
  | replacement
  deriving DecidableEq

structure SuggestionDiff where
  newMiddle : Units
  oldMiddle : Units
  prefixLength : Nat
  shape : SuggestionDiffShape
  suffixLength : Nat

/-- `text[index - 1]` -/
def unitBefore (text : Units) : Nat → Option UInt16
  | 0 => none
  | index + 1 => text[index]?

def isWordBoundary (words : WordCharacters) (text : Units) (index : Nat) : Bool :=
  !((unitBefore text index).any words.test && text[index]?.any words.test)

/-- `text.slice(start, stop)` -/
def slice (text : Units) (start stop : Nat) : Units := (text.take stop).drop start

def prefixOf (words : WordCharacters) (old new : Units) : Nat :=
  retract (fun n => isWordBoundary words old n && isWordBoundary words new n)
    (scan (fun n => old[n]? = new[n]?) (min old.length new.length) 0)

def suffixOf (words : WordCharacters) (old new : Units) (ceiling : Nat) : Nat :=
  retract (fun n => isWordBoundary words old (old.length - n) && isWordBoundary words new (new.length - n))
    (scan (fun n => old[old.length - 1 - n]? = new[new.length - 1 - n]?) ceiling 0)

def diffSuggestionText (words : WordCharacters) (oldTextPlain newTextPlain : Units) : SuggestionDiff :=
  let prefixLength := prefixOf words oldTextPlain newTextPlain
  let suffixLength := suffixOf words oldTextPlain newTextPlain
    (min oldTextPlain.length newTextPlain.length - prefixLength)
  let oldMiddle := slice oldTextPlain prefixLength (oldTextPlain.length - suffixLength)
  let newMiddle := slice newTextPlain prefixLength (newTextPlain.length - suffixLength)
  { newMiddle, oldMiddle, prefixLength, suffixLength
    shape := if oldMiddle = [] then .insertion else if newMiddle = [] then .deletion else .replacement }

def insidePair (text : Units) (index : Nat) : Bool :=
  (unitBefore text index).any isHigh && text[index]?.any isLow

/-- The text is its head, a middle and its tail, and neither cut is within a word or a pair. -/
structure CleanParts (words : WordCharacters) (text middle : Units) (diff : SuggestionDiff) : Prop where
  apart : diff.prefixLength + diff.suffixLength ≤ text.length
  parts : text.take diff.prefixLength ++ middle ++ text.drop (text.length - diff.suffixLength) = text
  headBoundary : isWordBoundary words text diff.prefixLength = true
  tailBoundary : isWordBoundary words text (text.length - diff.suffixLength) = true
  headWhole : insidePair text diff.prefixLength = false
  tailWhole : insidePair text (text.length - diff.suffixLength) = false

structure CleanCut (words : WordCharacters) (old new : Units) (diff : SuggestionDiff) : Prop where
  heads : old.take diff.prefixLength = new.take diff.prefixLength
  tails : old.drop (old.length - diff.suffixLength) = new.drop (new.length - diff.suffixLength)
  oldParts : CleanParts words old diff.oldMiddle diff
  newParts : CleanParts words new diff.newMiddle diff

/-- Behind the same high half the texts differ, in a low half. -/
def SharesHigh (old new : Units) : Prop :=
  ∃ head high oldRest newRest, old = head ++ high :: oldRest ∧ new = head ++ high :: newRest ∧ isHigh high = true ∧
    oldRest.head? ≠ newRest.head? ∧ (oldRest.head?.any isLow = true ∨ newRest.head?.any isLow = true)

/-- Behind the head that they share, the texts differ in a high half before the same low
half, with the same tail. -/
def SharesLow (old new : Units) : Prop :=
  ∃ head oldMiddle newMiddle low tail, old = head ++ (oldMiddle ++ low :: tail) ∧ new = head ++ (newMiddle ++ low :: tail) ∧
    isLow low = true ∧ (oldMiddle ++ low :: tail).head? ≠ (newMiddle ++ low :: tail).head? ∧
    oldMiddle.getLast? ≠ newMiddle.getLast? ∧
    (oldMiddle.getLast?.any isHigh = true ∨ newMiddle.getLast?.any isHigh = true)

section Boundaries
variable {words : WordCharacters} {text : Units} {index : Nat} {u : UInt16}

theorem isWordBoundary_zero : isWordBoundary words text 0 = true := rfl

theorem isWordBoundary_length : isWordBoundary words text text.length = true := by
  rw [isWordBoundary, List.getElem?_eq_none le_rfl]
  simp

theorem isWordBoundary_at (here : text[index]? = some u) (noWord : words.test u = false) :
    isWordBoundary words text index = true := by
  simp [isWordBoundary, here, noWord]

theorem isWordBoundary_behind (here : text[index]? = some u) (noWord : words.test u = false) :
    isWordBoundary words text (index + 1) = true := by
  simp [isWordBoundary, unitBefore, here, noWord]

theorem insidePair_iff : insidePair text (index + 1) = true ↔
    ∃ high low, text[index]? = some high ∧ text[index + 1]? = some low ∧ isHigh high = true ∧ isLow low = true := by
  simp only [insidePair, unitBefore, Bool.and_eq_true, Option.any_eq_true]
  constructor
  · rintro ⟨⟨high, here, isHigh⟩, low, behind, isLow⟩
    exact ⟨high, low, here, behind, isHigh, isLow⟩
  · rintro ⟨high, low, here, behind, isHigh, isLow⟩
    exact ⟨⟨high, here, isHigh⟩, low, behind, isLow⟩

theorem insidePair_pos (inside : insidePair text index = true) : ∃ before, index = before + 1 := by
  cases index with
  | zero => cases inside
  | succ before => exact ⟨before, rfl⟩

end Boundaries

section Head
variable {words : WordCharacters} {old new : Units}

def cutsHead (words : WordCharacters) (old new : Units) (n : Nat) : Bool :=
  isWordBoundary words old n && isWordBoundary words new n

/-- The head that the texts share, `top` units long, and its part up to the cut. -/
structure HeadCut (words : WordCharacters) (old new : Units) (top : Nat) : Prop where
  scanned : Scanned (fun n => decide (old[n]? = new[n]?)) 0 (min old.length new.length) top
  retracted : Retracted (cutsHead words old new) top (prefixOf words old new)

theorem headCut (words : WordCharacters) (old new : Units) : ∃ top, HeadCut words old new top := by
  have scanned := scan_spec (fun n => decide (old[n]? = new[n]?)) (min old.length new.length) 0
  rw [Nat.zero_add] at scanned
  exact ⟨_, scanned, retract_spec (cutsHead words old new) _⟩

variable {top : Nat}

theorem HeadCut.same (cut : HeadCut words old new top) {i : Nat} (below : i < top) : old[i]? = new[i]? :=
  of_decide_eq_true (cut.scanned.passed i (Nat.zero_le i) below)

theorem HeadCut.differ (cut : HeadCut words old new top) (below : top < min old.length new.length) :
    old[top]? ≠ new[top]? := of_decide_eq_false (cut.scanned.stopped below)

theorem HeadCut.boundary (cut : HeadCut words old new top) :
    isWordBoundary words old (prefixOf words old new) = true ∧ isWordBoundary words new (prefixOf words old new) = true := by
  by_cases none : prefixOf words old new = 0
  · rw [none]
    exact ⟨isWordBoundary_zero, isWordBoundary_zero⟩
  · have passes := cut.retracted.passes none
    rwa [cutsHead, Bool.and_eq_true] at passes

theorem HeadCut.le_prefixOf (cut : HeadCut words old new top) {i : Nat} {u : UInt16} (below : i < top)
    (here : old[i]? = some u) (noWord : words.test u = false) : i + 1 ≤ prefixOf words old new := by
  by_contra before
  have fails := cut.retracted.failed (i + 1) (by omega) below
  rw [cutsHead, isWordBoundary_behind here noWord, isWordBoundary_behind (cut.same below ▸ here) noWord] at fails
  cases fails

theorem HeadCut.inside_top (cut : HeadCut words old new top)
    (inside : insidePair old (prefixOf words old new) = true ∨ insidePair new (prefixOf words old new) = true) :
    prefixOf words old new = top := by
  refine Nat.le_antisymm cut.retracted.le_top (Nat.le_of_not_lt fun below => ?_)
  have low : ∃ low, old[prefixOf words old new]? = some low ∧ isLow low = true := by
    rw [insidePair, insidePair, ← cut.same below] at inside
    simp only [Bool.and_eq_true, Option.any_eq_true] at inside
    exact inside.elim And.right And.right
  obtain ⟨low, here, isLow⟩ := low
  have later := cut.le_prefixOf below here (words.noLow low isLow)
  omega

theorem drop_of_getElem? {text : Units} {index : Nat} {u : UInt16} (here : text[index]? = some u) :
    text.drop index = u :: text.drop (index + 1) := by
  obtain ⟨inside, rfl⟩ := List.getElem?_eq_some_iff.mp here
  exact List.drop_eq_getElem_cons inside

theorem parts_of_getElem? {text : Units} {index : Nat} {u : UInt16} (here : text[index]? = some u) :
    text = text.take index ++ u :: text.drop (index + 1) := by
  rw [← drop_of_getElem? here, List.take_append_drop]

theorem take_congr (cut : HeadCut words old new top) {n : Nat} (below : n ≤ top) : old.take n = new.take n := by
  apply List.ext_getElem?
  intro i
  rw [List.getElem?_take, List.getElem?_take]
  split
  case isTrue before => exact cut.same (Nat.lt_of_lt_of_le before below)
  case isFalse _ => rfl

theorem HeadCut.sharesHigh (cut : HeadCut words old new top)
    (inside : insidePair old (prefixOf words old new) = true ∨ insidePair new (prefixOf words old new) = true) :
    SharesHigh old new := by
  have isTop := cut.inside_top inside
  rw [isTop] at inside
  obtain ⟨before, rfl⟩ : ∃ before, top = before + 1 := inside.elim insidePair_pos insidePair_pos
  have same := cut.same (Nat.lt_succ_self before)
  obtain ⟨high, here, isHigh⟩ : ∃ high, old[before]? = some high ∧ isHigh high = true := by
    rw [insidePair_iff, insidePair_iff, ← same] at inside
    obtain ⟨high, -, here, -, isHigh, -⟩ | ⟨high, -, here, -, isHigh, -⟩ := inside <;> exact ⟨high, here, isHigh⟩
  refine ⟨old.take before, high, old.drop (before + 1), new.drop (before + 1), parts_of_getElem? here, ?_, isHigh, ?_, ?_⟩
  · rw [take_congr cut (Nat.le_succ before)]
    exact parts_of_getElem? (same ▸ here)
  · rw [List.head?_drop, List.head?_drop]
    intro bad
    obtain below | full := Nat.lt_or_eq_of_le cut.scanned.le_ceiling
    · exact cut.differ below bad
    · -- one of the texts ends here, and the other goes on with a low half
      have ends : old[before + 1]? = none ∨ new[before + 1]? = none := by
        simp only [List.getElem?_eq_none_iff]
        omega
      rw [bad, or_self] at ends
      rw [insidePair_iff, insidePair_iff, bad, ends] at inside
      simp at inside
  · rw [List.head?_drop, List.head?_drop]
    rw [insidePair, insidePair] at inside
    simp only [Bool.and_eq_true] at inside
    exact inside.imp And.right And.right

theorem HeadCut.top_of_differ (cut : HeadCut words old new top) {front oldRest newRest : Units}
    (isOld : old = front ++ oldRest) (isNew : new = front ++ newRest) (differ : oldRest.head? ≠ newRest.head?) :
    top = front.length := by
  subst isOld isNew
  refine cut.scanned.eq (Nat.zero_le _) (by simp) (fun i _ below => ?_) fun _ => ?_
  · rw [decide_eq_true_eq, List.getElem?_append_left below, List.getElem?_append_left below]
  · rw [decide_eq_false_iff_not]
    simpa [List.getElem?_append_right, List.head?_eq_getElem?] using differ

theorem HeadCut.inside_of_sharesHigh (cut : HeadCut words old new top) (shares : SharesHigh old new) :
    insidePair old (prefixOf words old new) = true ∨ insidePair new (prefixOf words old new) = true := by
  obtain ⟨head, high, oldRest, newRest, rfl, rfl, isHigh, differ, low⟩ := shares
  have isTop : top = head.length + 1 := by
    have isTop : top = (head ++ [high]).length :=
      cut.top_of_differ (List.append_cons _ _ _) (List.append_cons _ _ _) differ
    rwa [List.length_append] at isTop
  have here (rest : Units) : (head ++ high :: rest)[head.length]? = some high := by simp
  have isCut : prefixOf words (head ++ high :: oldRest) (head ++ high :: newRest) = head.length + 1 := by
    refine (cut.retracted.eq_top ?_).trans isTop
    rw [isTop, cutsHead, isWordBoundary_behind (here oldRest) (words.noHigh high isHigh),
      isWordBoundary_behind (here newRest) (words.noHigh high isHigh)]
    rfl
  rw [isCut]
  refine low.imp (fun low => ?_) fun low => ?_
  all_goals
    obtain ⟨u, isHead, isLow⟩ := (Option.any_eq_true _ _).mp low
    refine insidePair_iff.mpr ⟨high, u, here _, ?_, isHigh, isLow⟩
    rw [List.getElem?_append_right (by omega), Nat.add_sub_cancel_left, List.getElem?_cons_succ, ← List.head?_eq_getElem?]
    exact isHead

end Head

section Tail
variable {words : WordCharacters} {old new : Units} {top : Nat}

def cutsTail (words : WordCharacters) (old new : Units) (n : Nat) : Bool :=
  isWordBoundary words old (old.length - n) && isWordBoundary words new (new.length - n)

def shorter (old new : Units) : Nat := min old.length new.length

/-- The suffix of `diffSuggestionText`. -/
def tailOf (words : WordCharacters) (old new : Units) : Nat :=
  suffixOf words old new (shorter old new - prefixOf words old new)

structure TailCut (words : WordCharacters) (old new : Units) (bottom : Nat) : Prop where
  scanned : Scanned (fun n => decide (old[old.length - 1 - n]? = new[new.length - 1 - n]?)) 0
    (shorter old new - prefixOf words old new) bottom
  retracted : Retracted (cutsTail words old new) bottom (tailOf words old new)

theorem tailCut (words : WordCharacters) (old new : Units) : ∃ bottom, TailCut words old new bottom := by
  have scanned := scan_spec (fun n => decide (old[old.length - 1 - n]? = new[new.length - 1 - n]?))
    (shorter old new - prefixOf words old new) 0
  rw [Nat.zero_add] at scanned
  exact ⟨_, scanned, retract_spec (cutsTail words old new) _⟩

variable {bottom : Nat}

theorem TailCut.same (cut : TailCut words old new bottom) {n : Nat} (below : n < bottom) :
    old[old.length - 1 - n]? = new[new.length - 1 - n]? :=
  of_decide_eq_true (cut.scanned.passed n (Nat.zero_le n) below)

theorem TailCut.differ (cut : TailCut words old new bottom) (below : bottom < shorter old new - prefixOf words old new) :
    old[old.length - 1 - bottom]? ≠ new[new.length - 1 - bottom]? := of_decide_eq_false (cut.scanned.stopped below)

theorem TailCut.apart (cut : TailCut words old new bottom) :
    prefixOf words old new + tailOf words old new ≤ shorter old new := by
  obtain ⟨top, head⟩ := headCut words old new
  have below : prefixOf words old new ≤ shorter old new := Nat.le_trans head.retracted.le_top head.scanned.le_ceiling
  have within := Nat.le_trans cut.retracted.le_top cut.scanned.le_ceiling
  omega

theorem TailCut.boundary (cut : TailCut words old new bottom) :
    isWordBoundary words old (old.length - tailOf words old new) = true ∧
      isWordBoundary words new (new.length - tailOf words old new) = true := by
  by_cases none : tailOf words old new = 0
  · rw [none]
    exact ⟨isWordBoundary_length, isWordBoundary_length⟩
  · have passes := cut.retracted.passes none
    rwa [cutsTail, Bool.and_eq_true] at passes

theorem shorter_le (old new : Units) : shorter old new ≤ old.length ∧ shorter old new ≤ new.length :=
  ⟨Nat.min_le_left _ _, Nat.min_le_right _ _⟩

theorem TailCut.le_tailOf (cut : TailCut words old new bottom) {n : Nat} {u : UInt16} (below : n < bottom)
    (here : old[old.length - 1 - n]? = some u) (noWord : words.test u = false) : n + 1 ≤ tailOf words old new := by
  by_contra before
  have fails := cut.retracted.failed (n + 1) (by omega) below
  rw [cutsTail, Nat.add_comm n 1, ← Nat.sub_sub, ← Nat.sub_sub, isWordBoundary_at here noWord,
    isWordBoundary_at (cut.same below ▸ here) noWord] at fails
  cases fails

theorem TailCut.inside_bottom (cut : TailCut words old new bottom)
    (inside : insidePair old (old.length - tailOf words old new) = true ∨
      insidePair new (new.length - tailOf words old new) = true) : tailOf words old new = bottom := by
  refine Nat.le_antisymm cut.retracted.le_top (Nat.le_of_not_lt fun below => ?_)
  have within := Nat.lt_of_lt_of_le (Nat.lt_of_lt_of_le below cut.scanned.le_ceiling) (Nat.sub_le _ _)
  obtain ⟨inOld, inNew⟩ := shorter_le old new
  have high : ∃ high, old[old.length - 1 - tailOf words old new]? = some high ∧ isHigh high = true := by
    have oldIndex : old.length - tailOf words old new = old.length - 1 - tailOf words old new + 1 := by omega
    have newIndex : new.length - tailOf words old new = new.length - 1 - tailOf words old new + 1 := by omega
    rw [oldIndex, newIndex, insidePair_iff, insidePair_iff, ← cut.same below] at inside
    obtain ⟨high, -, here, -, isHigh, -⟩ | ⟨high, -, here, -, isHigh, -⟩ := inside <;> exact ⟨high, here, isHigh⟩
  obtain ⟨high, here, isHigh⟩ := high
  have later := cut.le_tailOf below here (words.noHigh high isHigh)
  omega

theorem TailCut.drop_eq (cut : TailCut words old new bottom) {n : Nat} (below : n ≤ bottom) :
    old.drop (old.length - n) = new.drop (new.length - n) := by
  have within := Nat.le_trans below (Nat.le_trans cut.scanned.le_ceiling (Nat.sub_le _ _))
  obtain ⟨inOld, inNew⟩ := shorter_le old new
  apply List.ext_getElem?
  intro i
  rw [List.getElem?_drop, List.getElem?_drop]
  obtain inside | outside := Nat.lt_or_ge i n
  · have same := cut.same (n := n - 1 - i) (by omega)
    rwa [show old.length - 1 - (n - 1 - i) = old.length - n + i by omega,
      show new.length - 1 - (n - 1 - i) = new.length - n + i by omega] at same
  · rw [List.getElem?_eq_none (by omega), List.getElem?_eq_none (by omega)]

theorem unitBefore_append (front behind : Units) : unitBefore (front ++ behind) front.length = front.getLast? := by
  cases front with
  | nil => rfl
  | cons first rest =>
    rw [List.length_cons, unitBefore, List.getLast?_eq_getElem?, List.length_cons, Nat.add_sub_cancel]
    exact List.getElem?_append_left (by simp)

theorem getElem?_front (front : Units) (u : UInt16) (behind : Units) : (front ++ u :: behind)[front.length]? = some u := by
  simp

theorem getLast?_slice (text : Units) (start : Nat) {stop : Nat} (within : stop ≤ text.length) :
    (slice text start stop).getLast? = if start < stop then text[stop - 1]? else none := by
  rw [slice, List.getLast?_drop, List.length_take, Nat.min_eq_left within]
  split
  case isTrue none => rw [if_neg (by omega)]
  case isFalse some =>
    rw [if_pos (by omega), List.getLast?_eq_getElem?, List.length_take, Nat.min_eq_left within,
      List.getElem?_take_of_lt (by omega)]

theorem slice_append_drop (text : Units) {start stop : Nat} (below : start ≤ stop) :
    slice text start stop ++ text.drop stop = text.drop start := by
  apply @List.append_cancel_left _ (text.take start)
  have front : text.take start ++ slice text start stop = text.take stop := by
    conv_rhs => rw [← List.take_append_drop start (text.take stop), List.take_take, Nat.min_eq_left below]
    rfl
  rw [List.take_append_drop, ← List.append_assoc, front, List.take_append_drop]

theorem getElem?_tail (front : Units) {tail : Units} {i : Nat} (below : i < tail.length) :
    (front ++ tail)[(front ++ tail).length - 1 - i]? = tail[tail.length - 1 - i]? := by
  rw [List.length_append, List.getElem?_append_right (by omega)]
  congr 1
  omega

theorem unitBefore_sub {text : Units} {n : Nat} (below : n < text.length) :
    unitBefore text (text.length - n) = text[text.length - 1 - n]? := by
  rw [Nat.sub_right_comm]
  obtain ⟨before, isBefore⟩ : ∃ before, text.length - n = before + 1 := ⟨text.length - n - 1, by omega⟩
  rw [isBefore, Nat.add_sub_cancel, unitBefore]

theorem high_of_same {oldLast newLast frontLast : Option UInt16} (differ : oldLast ≠ newLast)
    (high : oldLast.any isHigh = true ∨ newLast.any isHigh = true) (same : oldLast.or frontLast = newLast.or frontLast) :
    frontLast.any isHigh = true ∧ (oldLast = none ∨ newLast = none) := by
  cases oldLast with
  | none =>
    cases newLast with
    | none => exact absurd rfl differ
    | some u =>
      rw [Option.none_or, Option.some_or] at same
      simp only [Option.any_none, Bool.false_eq_true, false_or] at high
      exact ⟨same ▸ high, Or.inl rfl⟩
  | some u =>
    cases newLast with
    | none =>
      rw [Option.none_or, Option.some_or] at same
      simp only [Option.any_none, Bool.false_eq_true, or_false] at high
      exact ⟨same ▸ high, Or.inr rfl⟩
    | some v => exact absurd same differ

/-- The head that the texts share ends before the low half that the tail starts with: the
cut of the head would be behind that half otherwise. -/
theorem top_le_low (head : HeadCut words old new top) (cut : TailCut words old new bottom) {low : UInt16}
    (inOld : old[old.length - tailOf words old new]? = some low)
    (inNew : new[new.length - tailOf words old new]? = some low) (isLow : isLow low = true) :
    top + tailOf words old new ≤ shorter old new := by
  by_contra later
  have apart := cut.apart
  have here : old[shorter old new - tailOf words old new]? = some low := by
    obtain oldShorter | newShorter := Nat.le_total old.length new.length
    · rwa [shorter, Nat.min_eq_left oldShorter]
    · rw [shorter, Nat.min_eq_right newShorter] at apart later ⊢
      rwa [head.same (by omega)]
  have behind := head.le_prefixOf (by omega) here (words.noLow low isLow)
  omega

theorem getLast?_high (head : HeadCut words old new top) {text : Units} (shared : ∀ i, i < top → text[i]? = old[i]?)
    (whole : insidePair text (prefixOf words old new) = false) {index : Nat} (behind : top ≤ index)
    (within : index ≤ text.length) (inside : insidePair text index = true) :
    (slice text top index).getLast?.any isHigh = true := by
  obtain ⟨before, rfl⟩ := insidePair_pos inside
  obtain ⟨high, low, here, -, isHigh, -⟩ := insidePair_iff.mp inside
  rw [getLast?_slice text top within]
  split
  case isTrue _ => rw [Nat.add_sub_cancel, here]; exact isHigh
  case isFalse none =>
    have isTop : top = before + 1 := by omega
    have behindHigh := head.le_prefixOf (i := before) (by omega) (shared before (by omega) ▸ here)
      (words.noHigh high isHigh)
    have isCut : prefixOf words old new = before + 1 :=
      Nat.le_antisymm (isTop ▸ head.retracted.le_top) behindHigh
    rw [isCut, inside] at whole
    cases whole

theorem getLast?_differ (head : HeadCut words old new top) (cut : TailCut words old new bottom)
    (apart : top + bottom ≤ shorter old new) (positive : 0 < bottom) :
    (slice old top (old.length - bottom)).getLast? ≠ (slice new top (new.length - bottom)).getLast? := by
  obtain ⟨inOld, inNew⟩ := shorter_le old new
  rw [getLast?_slice old top (Nat.sub_le _ _), getLast?_slice new top (Nat.sub_le _ _)]
  have differ := head.differ (show top < shorter old new by omega)
  have low := congrArg List.head? (cut.drop_eq le_rfl)
  rw [List.head?_drop, List.head?_drop] at low
  have notBoth : top < old.length - bottom ∨ top < new.length - bottom := by
    by_contra none
    rw [show old.length - bottom = top by omega, show new.length - bottom = top by omega] at low
    exact differ low
  have oldUnit : ∃ u, old[old.length - bottom - 1]? = some u := ⟨_, List.getElem?_eq_getElem (by omega)⟩
  have newUnit : ∃ u, new[new.length - bottom - 1]? = some u := ⟨_, List.getElem?_eq_getElem (by omega)⟩
  split <;> split
  case isTrue.isTrue oldMore newMore =>
    have below : bottom < shorter old new - prefixOf words old new := by
      have inHead := head.retracted.le_top
      rw [shorter] at *
      omega
    have apart := cut.differ below
    rwa [Nat.sub_right_comm, Nat.sub_right_comm new.length] at apart
  case isTrue.isFalse =>
    obtain ⟨u, here⟩ := oldUnit
    rw [here]
    exact Option.some_ne_none u
  case isFalse.isTrue =>
    obtain ⟨u, here⟩ := newUnit
    rw [here]
    exact (Option.some_ne_none u).symm
  case isFalse.isFalse oldNone newNone => exact absurd notBoth (by omega)

theorem TailCut.sharesLow (head : HeadCut words old new top) (cut : TailCut words old new bottom)
    (oldWhole : insidePair old (prefixOf words old new) = false)
    (newWhole : insidePair new (prefixOf words old new) = false)
    (inside : insidePair old (old.length - tailOf words old new) = true ∨
      insidePair new (new.length - tailOf words old new) = true) : SharesLow old new := by
  have isBottom := cut.inside_bottom inside
  have within := Nat.le_trans cut.scanned.le_ceiling (Nat.sub_le _ _)
  obtain ⟨inOld, inNew⟩ := shorter_le old new
  have tails := cut.drop_eq le_rfl
  have first := congrArg List.head? tails
  rw [List.head?_drop, List.head?_drop] at first
  rw [isBottom] at inside
  obtain ⟨low, oldLow, isLow⟩ : ∃ low, old[old.length - bottom]? = some low ∧ isLow low = true := by
    rw [insidePair, insidePair, ← first] at inside
    simp only [Bool.and_eq_true, Option.any_eq_true] at inside
    exact inside.elim And.right And.right
  have newLow := first ▸ oldLow
  have positive : 0 < bottom := by
    have inText := (List.getElem?_eq_some_iff.mp oldLow).1
    omega
  have apart := top_le_low head cut (isBottom ▸ oldLow) (isBottom ▸ newLow) isLow
  rw [isBottom] at apart
  have oldRest := slice_append_drop old (show top ≤ old.length - bottom by omega)
  have newRest := slice_append_drop new (show top ≤ new.length - bottom by omega)
  rw [← tails] at newRest
  rw [drop_of_getElem? oldLow] at oldRest newRest
  refine ⟨old.take top, slice old top (old.length - bottom), slice new top (new.length - bottom), low,
    old.drop (old.length - bottom + 1), ?_, ?_, isLow, ?_, ?_, ?_⟩
  · rw [oldRest, List.take_append_drop]
  · rw [newRest, take_congr head le_rfl, List.take_append_drop]
  · rw [oldRest, newRest, List.head?_drop, List.head?_drop]
    exact head.differ (show top < shorter old new by omega)
  · exact getLast?_differ head cut apart positive
  · refine inside.imp (fun inside => ?_) fun inside => ?_
    · exact getLast?_high head (fun _ _ => rfl) oldWhole (by omega) (Nat.sub_le _ _) inside
    · exact getLast?_high head (fun _ below => (head.same below).symm) newWhole (by omega) (Nat.sub_le _ _) inside

theorem insidePair_front {front middle behind : Units} {low : UInt16} (high : middle.getLast?.any isHigh = true)
    (isLow : isLow low = true) : insidePair (front ++ middle ++ low :: behind) (front ++ middle).length = true := by
  rw [insidePair, unitBefore_append, getElem?_front, Bool.and_eq_true, List.getLast?_append]
  obtain ⟨u, isLast, isHigh⟩ := (Option.any_eq_true _ _).mp high
  rw [isLast]
  exact ⟨isHigh, isLow⟩

theorem TailCut.inside_of_sharesLow (head : HeadCut words old new top) (cut : TailCut words old new bottom)
    (shares : SharesLow old new) :
    insidePair old (old.length - tailOf words old new) = true ∨ insidePair new (new.length - tailOf words old new) = true := by
  obtain ⟨front, oldMiddle, newMiddle, low, behind, isOld, isNew, isLow, differ, lasts, high⟩ := shares
  have isTop := head.top_of_differ isOld isNew differ
  rw [← List.append_assoc] at isOld isNew
  have oldLength := congrArg List.length isOld
  have newLength := congrArg List.length isNew
  rw [List.length_append, List.length_cons] at oldLength newLength
  have inHead := head.retracted.le_top
  have frontOld : front.length ≤ (front ++ oldMiddle).length := by simp
  have frontNew : front.length ≤ (front ++ newMiddle).length := by simp
  have isBottom : bottom = behind.length + 1 := by
    refine cut.scanned.eq (Nat.zero_le _) ?_ (fun i _ below => ?_) fun below => ?_
    · rw [shorter]
      omega
    · rw [decide_eq_true_eq, isOld, isNew, getElem?_tail _ below, getElem?_tail _ below]
    · -- the unit before the low half is shared, but then it is the last of the front
      rw [decide_eq_false_iff_not]
      intro same
      obtain ⟨inOld, inNew⟩ := shorter_le old new
      rw [← unitBefore_sub (by omega), ← unitBefore_sub (by omega), oldLength, newLength, Nat.add_sub_cancel,
        Nat.add_sub_cancel, isOld, isNew, unitBefore_append, unitBefore_append, List.getLast?_append,
        List.getLast?_append] at same
      obtain ⟨frontHigh, none⟩ := high_of_same lasts high same
      obtain ⟨u, isLast, isHigh⟩ := (Option.any_eq_true _ _).mp frontHigh
      rw [← unitBefore_append front (oldMiddle ++ low :: behind), ← List.append_assoc, ← isOld] at isLast
      obtain ⟨before, isBefore⟩ : ∃ before, front.length = before + 1 := by
        refine Nat.exists_eq_succ_of_ne_zero fun none => ?_
        rw [none] at isLast
        cases isLast
      rw [isBefore] at isLast
      have inPrefix := head.le_prefixOf (by omega) isLast (words.noHigh u isHigh)
      rw [List.getLast?_eq_none_iff, List.getLast?_eq_none_iff] at none
      obtain rfl | rfl := none <;> rw [List.append_nil] at * <;> omega
  have oldLow : old[old.length - bottom]? = some low := by
    rw [oldLength, isBottom, Nat.add_sub_cancel, isOld, getElem?_front]
  have newLow : new[new.length - bottom]? = some low := by
    rw [newLength, isBottom, Nat.add_sub_cancel, isNew, getElem?_front]
  have isCut : tailOf words old new = bottom := by
    refine cut.retracted.eq_top ?_
    rw [cutsTail, isWordBoundary_at oldLow (words.noLow low isLow), isWordBoundary_at newLow (words.noLow low isLow)]
    rfl
  rw [isCut, isBottom, oldLength, newLength, Nat.add_sub_cancel, Nat.add_sub_cancel, isOld, isNew]
  exact high.imp (fun high => insidePair_front high isLow) fun high => insidePair_front high isLow

end Tail

section Trimmed
variable {words : WordCharacters} {old new : Units} {top bottom : Nat}

theorem headWhole_iff (head : HeadCut words old new top) :
    (insidePair old (prefixOf words old new) = false ∧ insidePair new (prefixOf words old new) = false) ↔
      ¬ SharesHigh old new := by
  rw [← Bool.not_eq_true, ← Bool.not_eq_true, ← not_or]
  exact not_congr ⟨head.sharesHigh, head.inside_of_sharesHigh⟩

theorem tailWhole_iff (head : HeadCut words old new top) (tail : TailCut words old new bottom)
    (noHigh : ¬ SharesHigh old new) :
    (insidePair old (old.length - tailOf words old new) = false ∧
      insidePair new (new.length - tailOf words old new) = false) ↔ ¬ SharesLow old new := by
  obtain ⟨oldWhole, newWhole⟩ := (headWhole_iff head).mpr noHigh
  rw [← Bool.not_eq_true, ← Bool.not_eq_true, ← not_or]
  exact not_congr ⟨tail.sharesLow head oldWhole newWhole, tail.inside_of_sharesLow head⟩

theorem slice_reassembles (text : Units) {start stop : Nat} (below : start ≤ stop) :
    text.take start ++ slice text start stop ++ text.drop stop = text := by
  rw [List.append_assoc, slice_append_drop text below, List.take_append_drop]

/-- The cuts are between words and the heads and the tails are the same, always. A cut is
within a surrogate pair exactly where the texts share one half of it and differ in the
other. -/
theorem diffSuggestionText_clean (words : WordCharacters) (old new : Units) :
    CleanCut words old new (diffSuggestionText words old new) ↔ ¬ SharesHigh old new ∧ ¬ SharesLow old new := by
  obtain ⟨top, head⟩ := headCut words old new
  obtain ⟨bottom, tail⟩ := tailCut words old new
  constructor
  · intro clean
    have noHigh := (headWhole_iff head).mp ⟨clean.oldParts.headWhole, clean.newParts.headWhole⟩
    exact ⟨noHigh, (tailWhole_iff head tail noHigh).mp ⟨clean.oldParts.tailWhole, clean.newParts.tailWhole⟩⟩
  · rintro ⟨noHigh, noLow⟩
    obtain ⟨oldHead, newHead⟩ := (headWhole_iff head).mpr noHigh
    obtain ⟨oldTail, newTail⟩ := (tailWhole_iff head tail noHigh).mpr noLow
    obtain ⟨inOld, inNew⟩ := shorter_le old new
    have apart := tail.apart
    exact {
      heads := take_congr head head.retracted.le_top
      tails := tail.drop_eq tail.retracted.le_top
      oldParts := {
        apart := Nat.le_trans apart inOld
        parts := slice_reassembles old (Nat.le_sub_of_add_le (Nat.le_trans apart inOld))
        headBoundary := head.boundary.1
        tailBoundary := tail.boundary.1
        headWhole := oldHead
        tailWhole := oldTail }
      newParts := {
        apart := Nat.le_trans apart inNew
        parts := slice_reassembles new (Nat.le_sub_of_add_le (Nat.le_trans apart inNew))
        headBoundary := head.boundary.2
        tailBoundary := tail.boundary.2
        headWhole := newHead
        tailWhole := newTail } }

def isAsciiWord (u : UInt16) : Bool :=
  (48 ≤ u && u ≤ 57) || (65 ≤ u && u ≤ 90) || u == 95 || (97 ≤ u && u ≤ 122)

theorem isAsciiWord_beyond {u : UInt16} (beyond : 128 ≤ u) : isAsciiWord u = false := by
  simp only [isAsciiWord]
  grind

def asciiWords : WordCharacters where
  test := isAsciiWord
  noHigh u high := isAsciiWord_beyond (by simp only [isHigh] at high; grind)
  noLow u low := isAsciiWord_beyond (by simp only [isLow] at low; grind)

/-- Two faces that differ in their low half: both middles are half a face. -/
theorem faces_not_clean : ¬ CleanCut asciiWords [0xd83d, 0xde00] [0xd83d, 0xde01]
    (diffSuggestionText asciiWords [0xd83d, 0xde00] [0xd83d, 0xde01]) := fun clean =>
  absurd clean.oldParts.headWhole (by decide +kernel)

end Trimmed

end Counselle.Essays.Trim

import Mathlib.Algebra.Order.Ring.Rat
import Mathlib.Data.List.Sort

/-! The honesty core of goal mode, `domain/goal.py`: judged criteria, the ledger and
the terminal states. Dollars and seconds are exact rationals. -/
namespace Counselle.Goal

inductive GoalStatus where
  | achieved
  | partiallyDone
  | stoppedBudget
  | stoppedNoProgress
  | stoppedUser
  | stoppedCheckFailed
  | awaitingInput
deriving DecidableEq, Repr

structure GoalCriterion where
  id : String
  text : String
deriving DecidableEq, Repr

structure CriterionVerdict where
  criterionId : String
  /-- corrected by `computeChecked`; `none`: never assessed -/
  met : Option Bool
  reason : String
  evidenceStepIds : List String
deriving DecidableEq, Repr

structure GoalVerdict where
  criteria : List CriterionVerdict
  critique : String
deriving DecidableEq, Repr

def GoalVerdict.met (verdict : GoalVerdict) : Bool :=
  !verdict.criteria.isEmpty && verdict.criteria.all fun c => c.met == some true

def GoalVerdict.metIds (verdict : GoalVerdict) : List String :=
  (verdict.criteria.filter fun c => c.met == some true).map CriterionVerdict.criterionId

structure GoalLedger where
  requestsUsed : Nat := 0
  tokensUsed : Nat := 0
  costUsd : ℚ := 0
  elapsedS : ℚ := 0
  iteration : Nat := 0
  consecutiveToolErrors : Nat := 0
deriving DecidableEq

structure GoalLimits where
  maxIterations : Nat
  maxWallClockS : ℚ
  maxCostUsd : Option ℚ
  maxConsecutiveToolErrors : Nat
  maxFlatChecks : Nat

/-- A limit of the whole goal is reached: rounds, active time or cost. -/
def GoalLedger.exhausted (ledger : GoalLedger) (limits : GoalLimits) : Bool :=
  limits.maxIterations ≤ ledger.iteration || limits.maxWallClockS ≤ ledger.elapsedS ||
    limits.maxCostUsd.any (· ≤ ledger.costUsd)

def decideTerminalStatus (verdict : Option GoalVerdict) (ledger : GoalLedger) (limits : GoalLimits)
    (stalled cancelled : Bool) : Option GoalStatus :=
  if cancelled then some .stoppedUser
  else
    match verdict with
    | none => some .stoppedCheckFailed
    | some verdict =>
      if verdict.met then some .achieved
      else if ledger.exhausted limits then some .stoppedBudget
      else if stalled then some .stoppedNoProgress
      else if limits.maxConsecutiveToolErrors ≤ ledger.consecutiveToolErrors then
        some .partiallyDone
      else none

/-- The count of consecutive checks that met nothing new. -/
def flatChecksAfter (prevMet : Option (List String)) (currentMet : List String)
    (flatChecks : Nat) : Nat :=
  match prevMet with
  | none => 0
  | some prevMet => if currentMet.all (· ∈ prevMet) then flatChecks + 1 else 0

def isStalled (flatChecks : Nat) (limits : GoalLimits) : Bool := limits.maxFlatChecks ≤ flatChecks

def validateEvidenceIds (evidenceStepIds bundleStepIds : List String) : List String :=
  evidenceStepIds.filter (· ∈ bundleStepIds)

/-- `(checked, met)` for one criterion, from the citations that the bundle has. -/
def computeChecked (verdictMet : Bool) (evidenceStepIds bundleStepIds unknownStepIds : List String) :
    Bool × Bool :=
  let valid := validateEvidenceIds evidenceStepIds bundleStepIds
  let checked := !valid.isEmpty
  let allUnknown := checked && valid.all (· ∈ unknownStepIds)
  (checked, verdictMet && checked && !allUnknown)

theorem computeChecked_met {verdictMet : Bool} {evidence bundle unknown : List String} :
    (computeChecked verdictMet evidence bundle unknown).2 = true ↔
      verdictMet = true ∧ ∃ id ∈ evidence, id ∈ bundle ∧ id ∉ unknown := by
  have valid : ∀ id, id ∈ validateEvidenceIds evidence bundle ↔ id ∈ evidence ∧ id ∈ bundle := by
    intro id
    simp [validateEvidenceIds]
  simp only [computeChecked, Bool.and_eq_true, Bool.not_eq_true', Bool.and_eq_false_iff]
  constructor
  · rintro ⟨⟨claimed, checked⟩, unchecked | known⟩
    · rw [checked] at unchecked
      cases unchecked
    · refine ⟨claimed, ?_⟩
      obtain ⟨id, present, unseen⟩ := List.all_eq_false.mp known
      obtain ⟨cited, sent⟩ := (valid id).mp present
      exact ⟨id, cited, sent, by simpa using unseen⟩
  · rintro ⟨claimed, id, cited, sent, known⟩
    have present := (valid id).mpr ⟨cited, sent⟩
    refine ⟨⟨claimed, ?_⟩, Or.inr ?_⟩
    · cases found : validateEvidenceIds evidence bundle with
      | nil =>
        rw [found] at present
        cases present
      | cons first rest => rfl
    · exact List.all_eq_false.mpr ⟨id, present, by simpa using known⟩

end Counselle.Goal

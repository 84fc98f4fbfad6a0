import Counselle.Clarify.Spec
import Counselle.Goal.Verdict
import Mathlib

/-! The criteria and the judge of a goal run, `app/goal_judge.py`: the bounded
evidence bundle, and the judge's raw claims corrected against it. Both models may
answer anything their output type allows. -/
namespace Counselle.Goal
open Protocol

def defaultNotCheckedNote : String :=
  "Counselle only checked the criteria above. Anything outside your Counselle " ++
  "workspace — application portals, transcripts, test scores, recommendation " ++
  "letters — was not checked."

structure GoalCriteriaOutput where
  criteria : List GoalCriterion
  notCheckedNote : String
  criteria_nonempty : criteria ≠ []
  notCheckedNote_nonempty : notCheckedNote ≠ ""

/-- `derive_criteria` on the model's output, `none` after its retries. -/
def deriveCriteria (maxCriteria : Nat) (output : Option GoalCriteriaOutput) :
    Except String (List GoalCriterion × String) :=
  match output with
  | none => .error "criteria derivation failed after retries"
  | some output =>
    let note := Clarify.strip output.notCheckedNote
    .ok (output.criteria.take maxCriteria, if note = "" then defaultNotCheckedNote else note)

structure RawCriterionVerdict where
  criterionId : String
  met : Bool
  reason : String
  evidenceStepIds : List String
deriving DecidableEq, Repr

structure RawGoalVerdict where
  criteria : List RawCriterionVerdict
  critique : String
deriving DecidableEq, Repr

def finalTextEvidenceId : String := "final-text"

section Bundle
-- `unknownOutcome`: the receipt's mutation has the outcome `"unknown"`; `size`: the
-- length of `_receipt_text`. Both read a receipt's detail.
variable (unknownOutcome : StepData → Bool) (size : StepData → Nat)

def unknownStepIds (receipts : List StepData) : List String :=
  (receipts.filter unknownOutcome).map (·.stepId)

/-- The loop of `select_evidence` over the receipts nobody cited, newest first. -/
def takeNewest (maxChars : Nat) :
    List StepData → List StepData → Nat → Nat → List StepData × Nat
  | [], selected, _, dropped => (selected, dropped)
  | receipt :: rest, selected, usedChars, dropped =>
    if maxChars < usedChars + size receipt then
      takeNewest maxChars rest selected usedChars (dropped + 1)
    else takeNewest maxChars rest (selected ++ [receipt]) (usedChars + size receipt) dropped

/-- The receipts sent to the judge, and how many were dropped. -/
def selectEvidence (receipts : List StepData) (alwaysKeepStepIds : List String) (maxChars : Nat) :
    List StepData × Nat :=
  let kept := receipts.filter fun r => r.stepId ∈ alwaysKeepStepIds
  let restNewestFirst := receipts.reverse.filter fun r => r.stepId ∉ alwaysKeepStepIds
  takeNewest size maxChars restNewestFirst kept (kept.map size).sum 0

/-- What the judge is shown: the selected receipts, and the final text unless blank. -/
structure Evidence where
  selected : List StepData
  dropped : Nat
  finalText : String

def gatherEvidence (receipts : List StepData) (finalText : String) (priorCitedStepIds : List String)
    (maxChars : Nat) : Evidence :=
  let (selected, dropped) := selectEvidence size receipts priorCitedStepIds maxChars
  { selected, dropped, finalText := Clarify.strip finalText }

def Evidence.bundleStepIds (evidence : Evidence) : List String :=
  evidence.selected.map (·.stepId) ++
    if evidence.finalText = "" then [] else [finalTextEvidenceId]

/-- `{v.criterion_id: v for v in raw.criteria}`: the last claim of an id counts. -/
def rawById (raw : List RawCriterionVerdict) (id : String) : Option RawCriterionVerdict :=
  raw.reverse.find? (·.criterionId == id)

/-- One step of `_correct_criterion_verdicts`, with the criterion's `checked`. -/
def correctVerdict (raw : List RawCriterionVerdict) (bundle unknown : List String)
    (criterion : GoalCriterion) : CriterionVerdict × Bool :=
  match rawById raw criterion.id with
  | none => (⟨criterion.id, none, "", []⟩, false)
  | some claim =>
    let (checked, met) := computeChecked claim.met claim.evidenceStepIds bundle unknown
    (⟨criterion.id, some met, claim.reason, claim.evidenceStepIds⟩, checked)

/-- `judge_goal` on the raw output, `none` after its retries: the corrected verdict
and `checked` by criterion. -/
def judgeGoal (maxChars : Nat) (criteria : List GoalCriterion) (receipts : List StepData)
    (finalText : String) (priorCitedStepIds : List String) (raw : Option RawGoalVerdict) :
    Option (GoalVerdict × List (String × Bool)) := do
  let evidence := gatherEvidence size receipts finalText priorCitedStepIds maxChars
  let raw ← raw
  let corrected := criteria.map
    (correctVerdict raw.criteria evidence.bundleStepIds
      (unknownStepIds unknownOutcome evidence.selected))
  some (⟨corrected.map (·.1), raw.critique⟩, corrected.map fun c => (c.1.criterionId, c.2))

/-- A claim that its criterion is met, on evidence the judge was sent and with some
cited evidence whose outcome is known. -/
structure Supports (evidence : Evidence) (criterion : GoalCriterion) (claim : RawCriterionVerdict) :
    Prop where
  own : claim.criterionId = criterion.id
  met : claim.met = true
  real : ∃ id ∈ claim.evidenceStepIds, id ∈ evidence.bundleStepIds
  known : ∃ id ∈ claim.evidenceStepIds, id ∉ unknownStepIds unknownOutcome evidence.selected

/-- Every criterion of the list has a supporting claim of its own. -/
def EachSupported (evidence : Evidence) (criteria : List GoalCriterion)
    (claims : List RawCriterionVerdict) : Prop :=
  ∃ own : Fin criteria.length → Fin claims.length, own.Injective ∧
    ∀ i, Supports unknownOutcome evidence criteria[i] claims[own i]

end Bundle

variable {unknownOutcome : StepData → Bool} {size : StepData → Nat}

theorem rawById_some {raw : List RawCriterionVerdict} {id : String} {claim : RawCriterionVerdict}
    (found : rawById raw id = some claim) : claim ∈ raw ∧ claim.criterionId = id := by
  refine ⟨List.mem_reverse.mp (List.mem_of_find?_eq_some found), ?_⟩
  simpa using List.find?_some found

theorem correctVerdict_met {raw : List RawCriterionVerdict} {evidence : Evidence}
    {criterion : GoalCriterion}
    (met : (correctVerdict raw evidence.bundleStepIds
      (unknownStepIds unknownOutcome evidence.selected) criterion).1.met = some true) :
    ∃ claim ∈ raw, Supports unknownOutcome evidence criterion claim := by
  unfold correctVerdict at met
  split at met
  case h_1 => cases met
  case h_2 claim found =>
    obtain ⟨present, own⟩ := rawById_some found
    obtain ⟨claimed, id, cited, sent, known⟩ := computeChecked_met.mp (Option.some.inj met)
    exact ⟨claim, present, own, claimed, ⟨id, cited, sent⟩, ⟨id, cited, known⟩⟩

theorem judgeGoal_met {maxChars : Nat} {criteria : List GoalCriterion} {receipts : List StepData}
    {finalText : String} {prior : List String} {raw : RawGoalVerdict} {verdict : GoalVerdict}
    {checked : List (String × Bool)}
    (judged : judgeGoal unknownOutcome size maxChars criteria receipts finalText prior (some raw) =
      some (verdict, checked)) :
    verdict.met = true ↔ criteria ≠ [] ∧ ∀ criterion ∈ criteria,
      (correctVerdict raw.criteria (gatherEvidence size receipts finalText prior
        maxChars).bundleStepIds (unknownStepIds unknownOutcome (gatherEvidence size receipts
          finalText prior maxChars).selected) criterion).1.met = some true := by
  cases judged
  simp [GoalVerdict.met]

theorem eachSupported_of_nodup {evidence : Evidence} {criteria : List GoalCriterion}
    {claims : List RawCriterionVerdict} (distinct : (criteria.map (·.id)).Nodup)
    (supported : ∀ criterion ∈ criteria, ∃ claim ∈ claims,
      Supports unknownOutcome evidence criterion claim) :
    EachSupported unknownOutcome evidence criteria claims := by
  have place : ∀ i : Fin criteria.length, ∃ k : Fin claims.length,
      Supports unknownOutcome evidence criteria[i] claims[k] := by
    intro i
    obtain ⟨claim, present, supports⟩ := supported criteria[i] (List.getElem_mem i.isLt)
    obtain ⟨k, bound, rfl⟩ := List.mem_iff_getElem.mp present
    exact ⟨⟨k, bound⟩, supports⟩
  choose own supports using place
  refine ⟨own, ?_, supports⟩
  intro i j same
  have sameId : criteria[i].id = criteria[j].id := by
    rw [← (supports i).own, ← (supports j).own, same]
  have first : i.val < (criteria.map (·.id)).length := by simp
  have second : j.val < (criteria.map (·.id)).length := by simp
  have equal : (criteria.map (·.id))[i.val] = (criteria.map (·.id))[j.val] := by
    simpa using sameId
  exact Fin.ext ((distinct.getElem_inj_iff).mp equal)

def claimEachId (criteria : List GoalCriterion) : RawGoalVerdict where
  criteria := (criteria.map (·.id)).dedup.map fun id => ⟨id, true, "", [finalTextEvidenceId]⟩
  critique := ""

theorem rawById_claimEachId {criteria : List GoalCriterion} {criterion : GoalCriterion}
    (present : criterion ∈ criteria) :
    rawById (claimEachId criteria).criteria criterion.id =
      some ⟨criterion.id, true, "", [finalTextEvidenceId]⟩ := by
  cases found : rawById (claimEachId criteria).criteria criterion.id with
  | none =>
    have absent := List.find?_eq_none.mp found
    have claimed : (⟨criterion.id, true, "", [finalTextEvidenceId]⟩ : RawCriterionVerdict) ∈
        (claimEachId criteria).criteria :=
      List.mem_map.mpr ⟨_, List.mem_dedup.mpr (List.mem_map.mpr ⟨_, present, rfl⟩), rfl⟩
    have other := absent _ (List.mem_reverse.mpr claimed)
    simp at other
  | some claim =>
    obtain ⟨claimed, own⟩ := rawById_some found
    obtain ⟨id, _, rfl⟩ := List.mem_map.mp claimed
    cases own
    rfl

theorem judgeGoal_claimEachId (unknownOutcome : StepData → Bool) (size : StepData → Nat)
    {criteria : List GoalCriterion} (nonempty : criteria ≠ []) :
    ∃ verdict checked,
      judgeGoal unknownOutcome size 0 criteria [] "done" [] (some (claimEachId criteria)) =
        some (verdict, checked) ∧ verdict.met = true := by
  refine ⟨_, _, rfl, ?_⟩
  rw [judgeGoal_met rfl]
  refine ⟨nonempty, ?_⟩
  intro criterion present
  have sent : finalTextEvidenceId ∈
      (gatherEvidence size [] "done" [] 0).bundleStepIds := by
    have spoken : (gatherEvidence size [] "done" [] 0).finalText ≠ "" := by
      show Clarify.strip "done" ≠ ""
      decide +kernel
    rw [Evidence.bundleStepIds, if_neg spoken]
    exact List.mem_append_right _ (.head _)
  rw [correctVerdict, rawById_claimEachId present]
  refine congrArg some (computeChecked_met.mpr ⟨rfl, finalTextEvidenceId, .head _, sent, ?_⟩)
  exact List.not_mem_nil

theorem not_eachSupported_claimEachId {evidence : Evidence} {criteria : List GoalCriterion}
    (shared : ¬ (criteria.map (·.id)).Nodup) :
    ¬ EachSupported unknownOutcome evidence criteria (claimEachId criteria).criteria := by
  rintro ⟨own, injective, _⟩
  have fits := Fintype.card_le_of_injective own injective
  simp only [Fintype.card_fin, claimEachId, List.length_map] at fits
  have full : (criteria.map (·.id)).dedup = criteria.map (·.id) :=
    (List.dedup_sublist _).eq_of_length_le (by simpa using fits)
  exact shared (List.dedup_eq_self.mp full)

/-- A list of derived criteria is called achieved only with a real claim of its own for
each criterion, whatever the judge answers on whatever evidence, if and only if
its ids are distinct. -/
theorem achieved_on_own_evidence_iff (unknownOutcome : StepData → Bool) (size : StepData → Nat)
    {maxCriteria : Nat} {output : GoalCriteriaOutput} {criteria : List GoalCriterion} {note : String}
    (derived : deriveCriteria maxCriteria (some output) = .ok (criteria, note)) :
    (∀ (maxChars : Nat) (receipts : List StepData) (finalText : String) (prior : List String)
        (raw : RawGoalVerdict) (verdict : GoalVerdict) (checked : List (String × Bool)),
      judgeGoal unknownOutcome size maxChars criteria receipts finalText prior (some raw) =
          some (verdict, checked) → verdict.met = true →
        EachSupported unknownOutcome (gatherEvidence size receipts finalText prior maxChars)
          criteria raw.criteria) ↔
      (criteria.map (·.id)).Nodup := by
  constructor
  · intro honest
    by_contra shared
    have nonempty : criteria ≠ [] := by
      rintro rfl
      exact shared List.nodup_nil
    obtain ⟨verdict, checked, judged, met⟩ := judgeGoal_claimEachId unknownOutcome size nonempty
    exact not_eachSupported_claimEachId shared (honest 0 [] "done" [] _ verdict checked judged met)
  · intro distinct maxChars receipts finalText prior raw verdict checked judged met
    obtain ⟨_, all⟩ := (judgeGoal_met judged).mp met
    exact eachSupported_of_nodup distinct fun criterion present =>
      correctVerdict_met (all criterion present)

def essayOutput : GoalCriteriaOutput where
  criteria := [⟨"c1", "The essay is saved."⟩, ⟨"c2", "The activity list is ordered."⟩]
  notCheckedNote := "Portals were not checked."
  criteria_nonempty := by simp
  notCheckedNote_nonempty := by simp

theorem achieved_on_own_evidence_iff_essay :
    (∀ (maxChars : Nat) (receipts : List StepData) (finalText : String) (prior : List String)
        (raw : RawGoalVerdict) (verdict : GoalVerdict) (checked : List (String × Bool)),
      judgeGoal (fun _ => false) (fun _ => 0) maxChars essayOutput.criteria receipts finalText prior
          (some raw) = some (verdict, checked) → verdict.met = true →
        EachSupported (fun _ => false)
          (gatherEvidence (fun _ => 0) receipts finalText prior maxChars) essayOutput.criteria
          raw.criteria) ↔
      (essayOutput.criteria.map (·.id)).Nodup := by
  have derived : deriveCriteria 6 (some essayOutput) =
      .ok (essayOutput.criteria, "Portals were not checked.") := by
    decide +kernel
  exact achieved_on_own_evidence_iff _ _ derived

/-- Two criteria of one id: the essay is judged unsaved, the list ordered. -/
def sharedOutput : GoalCriteriaOutput where
  criteria := [⟨"c1", "The essay is saved."⟩, ⟨"c1", "The activity list is ordered."⟩]
  notCheckedNote := "Portals were not checked."
  criteria_nonempty := by simp
  notCheckedNote_nonempty := by simp

def sharedClaims : RawGoalVerdict where
  criteria := [⟨"c1", false, "No save receipt.", []⟩,
    ⟨"c1", true, "The reply lists them in order.", ["final-text"]⟩]
  critique := "Save the essay."

/-- The later claim stands for both criteria, and the goal is called achieved. -/
theorem achieved_on_shared_claim : ∃ note verdict checked,
    deriveCriteria 6 (some sharedOutput) = .ok (sharedOutput.criteria, note) ∧
      judgeGoal (fun _ => false) (fun _ => 0) 30000 sharedOutput.criteria [] "1. Band 2. Chess" []
        (some sharedClaims) = some (verdict, checked) ∧
      verdict.met = true ∧
      ¬ EachSupported (fun _ => false)
        (gatherEvidence (fun _ => 0) [] "1. Band 2. Chess" [] 30000) sharedOutput.criteria
        sharedClaims.criteria := by
  refine ⟨_, _, _, rfl, rfl, by decide +kernel, ?_⟩
  rintro ⟨own, injective, supports⟩
  have last : ∀ k : Fin sharedClaims.criteria.length,
      sharedClaims.criteria[k].met = true → k.val = 1 := by
    decide +kernel
  have first : 0 < sharedOutput.criteria.length := by decide
  have second : 1 < sharedOutput.criteria.length := by decide
  have same : own ⟨0, first⟩ = own ⟨1, second⟩ :=
    Fin.ext ((last _ (supports _).met).trans (last _ (supports _).met).symm)
  cases injective same

end Counselle.Goal

import Counselle.Clarify.Lifecycle
import Counselle.Goal.Loop
import Counselle.Transition

/-! A goal run across its pauses: the segments of `_run_goal_loop`, the goal record
an `ask_student` pause leaves, and `_inherited_goal` of `app/clarify_lifecycle.py`,
which the answer resumes from. -/
namespace Counselle.Goal
open Protocol Transition

structure GoalSetup where
  limits : GoalLimits
  evidenceMaxChars : Nat
  /-- length of a rendered receipt -/
  size : StepData → Nat
  startedAt : ℚ
  /-- what deriving the criteria cost -/
  initialCostUsd : ℚ

inductive GoalPhase where
  | running
  | paused (carried : GoalCarry)
  | stopped

/-- A bundle judged first behind a pause, and what the verdict before the pause cited. -/
structure PausedOffer where
  citedReceipts : List StepData
  citedText : Bool
  evidence : Evidence

structure GoalRun where
  phase : GoalPhase
  loop : LoopState
  priorReceipts : List StepData
  ownReceipts : List StepData
  citedStepIds : List String
  /-- history: rounds played and decisions taken -/
  rounds : List Round
  decisions : List GoalDecision
  /-- history: the ledgers that rounds behind the first were started on -/
  startedOn : List GoalLedger
  /-- history: what the last verdict cited, under the names it has now -/
  citedPrior : List StepData
  citedOwn : List StepData
  citedText : Bool
  /-- history: resumed, and nothing judged since -/
  resumed : Bool
  offers : List PausedOffer

inductive GoalAction where
  | round (r : Round)
  /-- the student answers the question of the turn `messageId` -/
  | resume (now : ℚ) (messageId : String)

/-- A receipt of the paused turn under its name in the next one. -/
def carriedStep (messageId : String) (step : StepData) : StepData :=
  { step with stepId := String.ofList (messageId.toList.take 8) ++ "-" ++ step.stepId }

namespace GoalRun

def initial (setup : GoalSetup) : LoopState :=
  .start setup.limits setup.startedAt none setup.initialCostUsd

def start (setup : GoalSetup) : GoalRun where
  phase := .running
  loop := initial setup
  priorReceipts := []
  ownReceipts := []
  citedStepIds := []
  rounds := []
  decisions := []
  startedOn := []
  citedPrior := []
  citedOwn := []
  citedText := false
  resumed := false
  offers := []

def bundle (setup : GoalSetup) (s : GoalRun) (r : Round) : Evidence :=
  gatherEvidence setup.size (s.priorReceipts ++ (s.ownReceipts ++ r.receipts)) r.finalText
    s.citedStepIds setup.evidenceMaxChars

def played (s : GoalRun) (r : Round) : GoalRun :=
  { s with
    loop := (s.loop.play r).1
    ownReceipts := s.ownReceipts ++ r.receipts
    rounds := s.rounds ++ [r]
    decisions := s.decisions ++ (s.loop.play r).2.toList
    startedOn := if s.rounds.isEmpty then [] else s.startedOn ++ [s.loop.ledger] }

/-- The receipts a verdict cites, of those the judge could be sent. -/
def cites (s : GoalRun) (evidence : Evidence) (verdict : GoalVerdict) : GoalRun :=
  let cited := verdict.criteria.flatMap (·.evidenceStepIds)
  { s with
    citedStepIds := cited
    citedPrior := s.priorReceipts.filter fun r => r.stepId ∈ cited
    citedOwn := s.ownReceipts.filter fun r => r.stepId ∈ cited
    citedText := decide (finalTextEvidenceId ∈ cited) && decide (evidence.finalText ≠ "") }

def judged (setup : GoalSetup) (s : GoalRun) (r : Round) (verdict : Option GoalVerdict) : GoalRun :=
  let evidence := s.bundle setup r
  let offers := if s.resumed then
      s.offers ++ [⟨s.citedPrior ++ s.citedOwn, s.citedText, evidence⟩]
    else s.offers
  let next := { s.played r with
    phase := if (s.loop.play r).2.any (·.stop) then .stopped else .running
    resumed := false
    offers }
  verdict.elim next (next.cites evidence)

def step (setup : GoalSetup) (s : GoalRun) : GoalAction → Option GoalRun
  | .round r =>
    match s.phase with
    | .running =>
      match r.outcome with
      | .hitBudget => some { s.played r with phase := .stopped }
      | .asked _ =>
        let loop := (s.loop.play r).1
        some { s.played r with phase := .paused (loop.controller.carryState loop.ledger) }
      | .answered verdict => some (s.judged setup r verdict)
    | _ => none
  | .resume now messageId =>
    match s.phase with
    | .paused carried => some
        { s with
          phase := .running
          loop := .start setup.limits now (some carried) 0
          priorReceipts := s.priorReceipts ++ s.ownReceipts.map (carriedStep messageId)
          ownReceipts := []
          -- a fresh frozenset in every segment
          citedStepIds := []
          citedPrior := s.citedPrior ++ s.citedOwn.map (carriedStep messageId)
          citedOwn := []
          resumed := true }
    | _ => none

end GoalRun

/-- Every receipt of `cited` fits into the budget with all that is newer. -/
def newestFit (size : StepData → Nat) (maxChars : Nat) (cited : List StepData) :
    List StepData → Bool
  | [] => true
  | receipt :: newer =>
    (decide (receipt ∉ cited) || decide (((receipt :: newer).map size).sum ≤ maxChars)) &&
      newestFit size maxChars cited newer

/-- What a pause must not cost: a goal resumes with budget left, and a first judged
round behind it has room for what was cited and repeats a cited reply with one. -/
def GoalRun.affords (setup : GoalSetup) (s : GoalRun) : GoalAction → Bool
  | .resume _ _ =>
    match s.phase with
    | .paused carried => !(GoalLedger.fromCarry (some carried)).exhausted setup.limits
    | _ => true
  | .round r =>
    match r.outcome with
    | .answered _ =>
      !s.resumed || (newestFit setup.size setup.evidenceMaxChars (s.citedPrior ++ s.citedOwn)
        (s.priorReceipts ++ (s.ownReceipts ++ r.receipts)) &&
        (!s.citedText || decide (Clarify.strip r.finalText ≠ "")))
    | _ => true

def PausedOffer.Kept (offer : PausedOffer) : Prop :=
  (∀ receipt ∈ offer.citedReceipts, receipt ∈ offer.evidence.selected) ∧
    (offer.citedText = true → finalTextEvidenceId ∈ offer.evidence.bundleStepIds)

/-- Budgets, decisions and evidence are those of the whole goal. -/
structure WholeGoal (setup : GoalSetup) (s : GoalRun) : Prop where
  budget : ∀ ledger ∈ s.startedOn, ledger.exhausted setup.limits = false
  decisions : s.decisions = (playAll (GoalRun.initial setup) s.rounds).2
  evidence : ∀ offer ∈ s.offers, offer.Kept

/-- The loop of the run goes on like one that never paused. -/
structure Continues (setup : GoalSetup) (s : GoalRun) : Prop where
  decisions : s.decisions = (playAll (GoalRun.initial setup) s.rounds).2
  limits : s.loop.controller.limits = setup.limits
  running : s.phase = .running → Alike s.loop (playAll (GoalRun.initial setup) s.rounds).1
  paused : ∀ carried, s.phase = .paused carried → ∀ now,
    Alike (.start setup.limits now (some carried) 0) (playAll (GoalRun.initial setup) s.rounds).1

theorem continues_start (setup : GoalSetup) : Continues setup (GoalRun.start setup) where
  decisions := rfl
  limits := rfl
  running := fun _ => Alike.refl _
  paused := by
    intro carried paused
    cases paused

variable {setup : GoalSetup} {s t : GoalRun}

theorem Continues.played (continues : Continues setup s) (running : s.phase = .running) (r : Round) :
    (s.played r).decisions = (playAll (GoalRun.initial setup) (s.played r).rounds).2 ∧
      (s.played r).loop.controller.limits = setup.limits ∧
      Alike (s.played r).loop (playAll (GoalRun.initial setup) (s.played r).rounds).1 := by
  obtain ⟨decided, alike⟩ := (continues.running running).play r
  simp only [GoalRun.played, playAll_snoc]
  refine ⟨?_, ?_, alike⟩
  · rw [continues.decisions, decided]
  · rw [LoopState.play_limits, continues.limits]

theorem Continues.judged (continues : Continues setup s) (running : s.phase = .running) (r : Round)
    (verdict : Option GoalVerdict) : Continues setup (s.judged setup r verdict) := by
  obtain ⟨decisions, limits, alike⟩ := continues.played running r
  have paused : ∀ carried, (s.judged setup r verdict).phase ≠ .paused carried := by
    intro carried same
    cases verdict <;> simp only [GoalRun.judged, Option.elim, GoalRun.cites] at same <;>
      split at same <;> cases same
  cases verdict with
  | none =>
    exact ⟨decisions, limits, fun _ => alike, fun carried same => absurd same (paused carried)⟩
  | some verdict =>
    exact ⟨decisions, limits, fun _ => alike, fun carried same => absurd same (paused carried)⟩

theorem Continues.step {action : GoalAction} (continues : Continues setup s)
    (stepped : s.step setup action = some t) : Continues setup t := by
  cases action with
  | round r =>
    cases phase : s.phase with
    | paused carried => simp [GoalRun.step, phase] at stepped
    | stopped => simp [GoalRun.step, phase] at stepped
    | running =>
      obtain ⟨decisions, limits, alike⟩ := continues.played phase r
      cases outcome : r.outcome with
      | hitBudget =>
        simp only [GoalRun.step, phase, outcome] at stepped
        cases stepped
        refine ⟨decisions, limits, ?_, ?_⟩
        · intro running
          cases running
        · intro carried paused
          cases paused
      | asked draft =>
        simp only [GoalRun.step, phase, outcome] at stepped
        cases stepped
        refine ⟨decisions, limits, ?_, ?_⟩
        · intro running
          cases running
        · intro carried paused now
          cases paused
          have stamped : (s.loop.play r).1.ledger.elapsedS =
              (s.loop.play r).1.controller.priorElapsedS +
                ((s.loop.play r).1.now - (s.loop.play r).1.controller.startedMonotonic) := by
            simp only [LoopState.play, outcome]
            rfl
          exact (alike_resumed limits stamped now).trans alike
      | answered verdict =>
        simp only [GoalRun.step, phase, outcome] at stepped
        cases stepped
        exact continues.judged phase r verdict
  | resume now messageId =>
    cases phase : s.phase with
    | running => simp [GoalRun.step, phase] at stepped
    | stopped => simp [GoalRun.step, phase] at stepped
    | paused carried =>
      simp only [GoalRun.step, phase] at stepped
      cases stepped
      refine ⟨continues.decisions, rfl, ?_, ?_⟩
      · intro _
        exact continues.paused carried phase now
      · intro other paused
        cases paused

section Bundle
variable {size : StepData → Nat} {maxChars : Nat} {cited : List StepData} {receipt : StepData}

theorem mem_takeNewest_selected {rest selected : List StepData} {used dropped : Nat}
    (chosen : receipt ∈ selected) :
    receipt ∈ (takeNewest size maxChars rest selected used dropped).1 := by
  induction rest generalizing selected used dropped with
  | nil => exact chosen
  | cons next rest ih =>
    rw [takeNewest]
    split
    · exact ih chosen
    · exact ih (List.mem_append_left _ chosen)

theorem mem_takeNewest {newer older selected : List StepData} {used dropped : Nat}
    (fits : used + (newer.map size).sum + size receipt ≤ maxChars) :
    receipt ∈ (takeNewest size maxChars (newer ++ receipt :: older) selected used dropped).1 := by
  induction newer generalizing selected used dropped with
  | nil =>
    have room : ¬ maxChars < used + size receipt := by
      simpa using fits
    rw [List.nil_append, takeNewest, if_neg room]
    exact mem_takeNewest_selected (List.mem_append_right _ (.head _))
  | cons next newer ih =>
    rw [List.map_cons, List.sum_cons] at fits
    rw [List.cons_append, takeNewest, if_neg (by omega)]
    exact ih (by omega)

theorem newestFit_split {older newer : List StepData}
    (fit : newestFit size maxChars cited (older ++ receipt :: newer) = true)
    (owed : receipt ∈ cited) : ((receipt :: newer).map size).sum ≤ maxChars := by
  induction older with
  | nil =>
    rw [List.nil_append, newestFit, Bool.and_eq_true] at fit
    simpa [owed] using fit.1
  | cons first older ih =>
    rw [List.cons_append, newestFit, Bool.and_eq_true] at fit
    exact ih fit.2

theorem selected_of_fit {receipts : List StepData}
    (fit : newestFit size maxChars cited receipts = true) (owed : receipt ∈ cited)
    (present : receipt ∈ receipts) :
    receipt ∈ (selectEvidence size receipts [] maxChars).1 := by
  obtain ⟨older, newer, rfl⟩ := List.append_of_mem present
  have total := newestFit_split fit owed
  rw [List.map_cons, List.sum_cons] at total
  have order : (older ++ receipt :: newer).reverse.filter (fun r => r.stepId ∉ ([] : List String)) =
      newer.reverse ++ receipt :: older.reverse := by
    simp
  rw [selectEvidence, order]
  apply mem_takeNewest
  simp only [List.map_reverse, List.sum_reverse]
  simp
  omega

end Bundle

/-- What the last verdict cited is among the receipts, and a resumed segment knows
of no citation. -/
structure Remembers (s : GoalRun) : Prop where
  prior : ∀ receipt ∈ s.citedPrior, receipt ∈ s.priorReceipts
  own : ∀ receipt ∈ s.citedOwn, receipt ∈ s.ownReceipts
  forgets : s.resumed = true → s.citedStepIds = []

theorem Remembers.played (remembers : Remembers s) (r : Round) : Remembers (s.played r) where
  prior := remembers.prior
  own := fun receipt cited => List.mem_append_left _ (remembers.own receipt cited)
  forgets := remembers.forgets

theorem Remembers.judged (remembers : Remembers s) (r : Round) (verdict : Option GoalVerdict) :
    Remembers (s.judged setup r verdict) := by
  cases verdict with
  | none =>
    refine ⟨remembers.prior, (remembers.played r).own, ?_⟩
    intro resumed
    cases resumed
  | some verdict =>
    refine ⟨?_, ?_, ?_⟩
    · intro receipt cited
      exact (List.mem_filter.mp cited).1
    · intro receipt cited
      exact (List.mem_filter.mp cited).1
    · intro resumed
      cases resumed

theorem Remembers.kept (remembers : Remembers s) {r : Round} (resumed : s.resumed = true)
    (fit : newestFit setup.size setup.evidenceMaxChars (s.citedPrior ++ s.citedOwn)
      (s.priorReceipts ++ (s.ownReceipts ++ r.receipts)) = true)
    (replies : s.citedText = true → Clarify.strip r.finalText ≠ "") :
    (⟨s.citedPrior ++ s.citedOwn, s.citedText, s.bundle setup r⟩ : PausedOffer).Kept := by
  constructor
  · intro receipt owed
    have present : receipt ∈ s.priorReceipts ++ (s.ownReceipts ++ r.receipts) := by
      cases List.mem_append.mp owed with
      | inl prior => exact List.mem_append_left _ (remembers.prior receipt prior)
      | inr own =>
        exact List.mem_append_right _ (List.mem_append_left _ (remembers.own receipt own))
    show receipt ∈ (selectEvidence _ _ s.citedStepIds _).1
    rw [remembers.forgets resumed]
    exact selected_of_fit fit owed present
  · intro cited
    show finalTextEvidenceId ∈ _ ++ ite (Clarify.strip r.finalText = "") _ _
    rw [if_neg (replies cited)]
    exact List.mem_append_right _ (.head _)

structure Safe (setup : GoalSetup) (s : GoalRun) : Prop where
  continues : Continues setup s
  remembers : Remembers s
  budget : ∀ ledger ∈ s.startedOn, ledger.exhausted setup.limits = false
  evidence : ∀ offer ∈ s.offers, offer.Kept
  /-- a round behind the first may be started -/
  left : s.phase = .running → s.rounds ≠ [] → s.loop.ledger.exhausted setup.limits = false

theorem safe_start (setup : GoalSetup) : Safe setup (GoalRun.start setup) where
  continues := continues_start setup
  remembers := ⟨fun _ cited => cited, fun _ cited => cited, fun _ => rfl⟩
  budget := by
    intro ledger started
    cases started
  evidence := by
    intro offer offered
    cases offered
  left := fun _ played => absurd rfl played

theorem Safe.played (safe : Safe setup s) (running : s.phase = .running) (r : Round) :
    ∀ ledger ∈ (s.played r).startedOn, ledger.exhausted setup.limits = false := by
  intro ledger started
  cases first : s.rounds with
  | nil => simp [GoalRun.played, first] at started
  | cons _ _ =>
    simp only [GoalRun.played, first, List.isEmpty_cons, Bool.false_eq_true, if_false] at started
    cases List.mem_append.mp started with
    | inl earlier => exact safe.budget ledger earlier
    | inr here =>
      cases List.mem_singleton.mp here
      exact safe.left running (by simp [first])

theorem play_goOn {s : LoopState} {r : Round} {verdict : Option GoalVerdict}
    (outcome : r.outcome = .answered verdict) (goesOn : (s.play r).2.any (·.stop) = false) :
    (s.play r).1.ledger.exhausted s.controller.limits = false := by
  simp only [LoopState.play, outcome, Option.any_some] at goesOn ⊢
  have left := decide_goOn goesOn
  exact left

theorem judged_left {r : Round} {verdict : Option GoalVerdict}
    (limits : s.loop.controller.limits = setup.limits) (outcome : r.outcome = .answered verdict)
    (running : (s.judged setup r verdict).phase = .running) :
    (s.judged setup r verdict).loop.ledger.exhausted setup.limits = false := by
  have phase : (s.judged setup r verdict).phase =
      if (s.loop.play r).2.any (·.stop) then .stopped else .running := by
    cases verdict <;> rfl
  have loop : (s.judged setup r verdict).loop = (s.loop.play r).1 := by
    cases verdict <;> rfl
  rw [phase] at running
  rw [loop, ← limits]
  cases stops : (s.loop.play r).2.any (·.stop) with
  | true => simp [stops] at running
  | false => exact play_goOn outcome stops

theorem judged_offers {r : Round} {verdict : Option GoalVerdict} {offer : PausedOffer}
    (offered : offer ∈ (s.judged setup r verdict).offers) :
    offer ∈ s.offers ∨ (s.resumed = true ∧
      offer = ⟨s.citedPrior ++ s.citedOwn, s.citedText, s.bundle setup r⟩) := by
  have offers : (s.judged setup r verdict).offers = if s.resumed then
      s.offers ++ [⟨s.citedPrior ++ s.citedOwn, s.citedText, s.bundle setup r⟩] else s.offers := by
    cases verdict <;> rfl
  rw [offers] at offered
  cases resumed : s.resumed with
  | false => exact Or.inl (by simpa [resumed] using offered)
  | true =>
    simp only [resumed, if_true, List.mem_append, List.mem_singleton] at offered
    exact offered.imp id fun last => ⟨rfl, last⟩

theorem Safe.judged (safe : Safe setup s) (running : s.phase = .running) {r : Round}
    {verdict : Option GoalVerdict} (outcome : r.outcome = .answered verdict)
    (affords : s.affords setup (.round r) = true) : Safe setup (s.judged setup r verdict) where
  continues := safe.continues.judged running r verdict
  remembers := safe.remembers.judged r verdict
  budget := by
    have same : (s.judged setup r verdict).startedOn = (s.played r).startedOn := by
      cases verdict <;> rfl
    rw [same]
    exact safe.played running r
  evidence := by
    intro offer offered
    obtain earlier | ⟨resumed, rfl⟩ := judged_offers offered
    · exact safe.evidence offer earlier
    · simp only [GoalRun.affords, outcome, resumed, Bool.not_true, Bool.false_or,
        Bool.and_eq_true] at affords
      obtain ⟨fit, replies⟩ := affords
      refine safe.remembers.kept resumed fit ?_
      intro cited
      simpa [cited] using replies
  left := fun stillRuns _ => judged_left safe.continues.limits outcome stillRuns

theorem Safe.step {action : GoalAction} (safe : Safe setup s)
    (affords : s.affords setup action = true) (stepped : s.step setup action = some t) :
    Safe setup t := by
  have continues := safe.continues.step stepped
  cases action with
  | round r =>
    cases phase : s.phase with
    | paused carried => simp [GoalRun.step, phase] at stepped
    | stopped => simp [GoalRun.step, phase] at stepped
    | running =>
      cases outcome : r.outcome with
      | hitBudget =>
        simp only [GoalRun.step, phase, outcome] at stepped
        cases stepped
        refine ⟨continues, ?_, safe.played phase r, safe.evidence, ?_⟩
        · exact ⟨safe.remembers.prior, (safe.remembers.played r).own, safe.remembers.forgets⟩
        · intro running
          cases running
      | asked draft =>
        simp only [GoalRun.step, phase, outcome] at stepped
        cases stepped
        refine ⟨continues, ?_, safe.played phase r, safe.evidence, ?_⟩
        · exact ⟨safe.remembers.prior, (safe.remembers.played r).own, safe.remembers.forgets⟩
        · intro running
          cases running
      | answered verdict =>
        simp only [GoalRun.step, phase, outcome] at stepped
        cases stepped
        exact safe.judged phase outcome affords
  | resume now messageId =>
    cases phase : s.phase with
    | running => simp [GoalRun.step, phase] at stepped
    | stopped => simp [GoalRun.step, phase] at stepped
    | paused carried =>
      simp only [GoalRun.step, phase] at stepped
      cases stepped
      refine ⟨continues, ⟨?_, ?_, fun _ => rfl⟩, safe.budget, safe.evidence, ?_⟩
      · intro receipt cited
        cases List.mem_append.mp cited with
        | inl prior => exact List.mem_append_left _ (safe.remembers.prior receipt prior)
        | inr own =>
          obtain ⟨before, present, rfl⟩ := List.mem_map.mp own
          exact List.mem_append_right _
            (List.mem_map.mpr ⟨before, safe.remembers.own before present, rfl⟩)
      · intro receipt cited
        cases cited
      · intro _ _
        simp only [GoalRun.affords, phase, Bool.not_eq_true'] at affords
        have same : (LoopState.start setup.limits now (some carried) 0).ledger =
            GoalLedger.fromCarry (some carried) := by
          show { GoalLedger.fromCarry (some carried) with costUsd := carried.costUsd + 0 } = _
          rw [add_zero]
          rfl
        rw [same]
        exact affords

/-- A goal whose pauses are all affordable keeps its budget, its decisions and its
evidence across them. -/
theorem goal_whole_across_pauses (setup : GoalSetup) {actions : List GoalAction} {t : GoalRun}
    (path : run (GoalRun.step setup) (GoalRun.start setup) actions = some t)
    (affordable : Meets (GoalRun.step setup) (fun s action => s.affords setup action = true)
      (GoalRun.start setup) actions) : WholeGoal setup t := by
  have safe : Safe setup t :=
    invariant_of_meets (fun before affords stepped => before.step affords stepped)
      (safe_start setup) path affordable
  exact ⟨safe.budget, safe.continues.decisions, safe.evidence⟩

/-- The settings' defaults, with receipts of one rendered size. -/
def defaultSetup (size : Nat) : GoalSetup where
  limits := ⟨6, 3600, some 3, 3, 2⟩
  evidenceMaxChars := 30000
  size := fun _ => size
  startedAt := 0
  initialCostUsd := 0

def shortRound (cost : ℚ) (stepId : String) (outcome : RoundEnd) : Round where
  agentCost := cost
  judgeCost := 0
  seconds := 30
  hadToolError := false
  requests := 1
  tokens := 1000
  receipts := [⟨stepId, .ended, .workspace, "Saved", none, none, none, none, none⟩]
  finalText := "Saved the essay."
  outcome := outcome

def essayVerdict (met : Bool) : GoalVerdict :=
  ⟨[⟨"c1", some met, "The essay is saved.", ["s1", "final-text"]⟩], ""⟩

/-- The essay is judged, the student is asked, and the goal is resumed and judged. -/
def askedOnce : List GoalAction :=
  [.round (shortRound 0 "s1" (.answered (some (essayVerdict false)))),
    .round (shortRound 0 "s2" (.asked ⟨[]⟩)), .resume 1000 "m1",
    .round (shortRound 0 "s1" (.answered (some (essayVerdict true))))]

theorem goal_whole_across_pauses_essay : ∃ t,
    run (GoalRun.step (defaultSetup 500)) (GoalRun.start (defaultSetup 500)) askedOnce = some t ∧
      t.offers.length = 1 ∧ WholeGoal (defaultSetup 500) t := by
  have ended : (run (GoalRun.step (defaultSetup 500)) (GoalRun.start (defaultSetup 500))
      askedOnce).any (fun t => decide (t.offers.length = 1)) = true := by
    decide +kernel
  obtain ⟨t, path, one⟩ := (Option.any_eq_true _ _).mp ended
  exact ⟨t, path, of_decide_eq_true one,
    goal_whole_across_pauses (defaultSetup 500) path (by decide +kernel)⟩

def askedBroke : List GoalAction :=
  [.round (shortRound 3 "s1" (.asked ⟨[]⟩)), .resume 1000 "m1", .round (shortRound 0 "s1" (.asked ⟨[]⟩))]

/-- The goal starts its next round on a spent budget, and the essay's receipt is not
in the bundle behind the pause when receipts are long. -/
theorem pause_forgets :
    (∃ t, run (GoalRun.step (defaultSetup 500)) (GoalRun.start (defaultSetup 500)) askedBroke =
        some t ∧ ∃ ledger ∈ t.startedOn, ledger.exhausted (defaultSetup 500).limits = true) ∧
      ∃ t, run (GoalRun.step (defaultSetup 20000)) (GoalRun.start (defaultSetup 20000)) askedOnce =
        some t ∧ ∃ offer ∈ t.offers, ∃ receipt ∈ offer.citedReceipts,
          receipt ∉ offer.evidence.selected := by
  have broke : (run (GoalRun.step (defaultSetup 500)) (GoalRun.start (defaultSetup 500))
      askedBroke).any (fun t => decide (∃ ledger ∈ t.startedOn,
        ledger.exhausted (defaultSetup 500).limits = true)) = true := by
    decide +kernel
  have forgot : (run (GoalRun.step (defaultSetup 20000)) (GoalRun.start (defaultSetup 20000))
      askedOnce).any (fun t => decide (∃ offer ∈ t.offers, ∃ receipt ∈ offer.citedReceipts,
        receipt ∉ offer.evidence.selected)) = true := by
    decide +kernel
  constructor
  · obtain ⟨t, path, spent⟩ := (Option.any_eq_true _ _).mp broke
    exact ⟨t, path, of_decide_eq_true spent⟩
  · obtain ⟨t, path, dropped⟩ := (Option.any_eq_true _ _).mp forgot
    exact ⟨t, path, of_decide_eq_true dropped⟩

end Counselle.Goal

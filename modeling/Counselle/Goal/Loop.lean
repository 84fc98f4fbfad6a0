import Counselle.Goal.Judge
import Mathlib.Tactic.Linarith

/-! The iteration controller of a goal run, `app/goal_loop.py`, and one round of
`_run_goal_loop`, up to the decision about the next. -/
namespace Counselle.Goal
open Protocol

def statusReason : GoalStatus → String
  | .achieved => "Every criterion was met and checked."
  | .partiallyDone => "Stopped after repeated tool failures; some criteria remain."
  | .stoppedBudget => "Stopped: the run's budget (requests, tokens, cost, or time) was reached."
  | .stoppedNoProgress => "Stopped: no new progress across consecutive rounds."
  | .stoppedUser => "Stopped: you asked Counselle to stop."
  | .stoppedCheckFailed => "Stopped: the independent check could not complete."
  | .awaitingInput => "Paused: Counselle needs your answer to continue."

structure GoalDecision where
  stop : Bool
  /-- `none` while the run continues -/
  status : Option GoalStatus
  reason : String
deriving DecidableEq

def GoalDecision.goOn : GoalDecision := ⟨false, none, ""⟩

def GoalDecision.stopAt (status : GoalStatus) : GoalDecision := ⟨true, some status, statusReason status⟩

structure GoalLoopController where
  limits : GoalLimits
  startedMonotonic : ℚ
  avgCostPerIteration : ℚ
  /-- active seconds of the segments before this one -/
  priorElapsedS : ℚ
  prevMet : Option (List String)
  flatChecks : Nat

/-- What a pausing run leaves on its record, `carry_state`. -/
structure GoalCarry where
  iteration : Nat
  costUsd : ℚ
  elapsedS : ℚ
  consecutiveToolErrors : Nat
  prevMetIds : Option (List String)
  flatChecks : Nat

def GoalLedger.fromCarry : Option GoalCarry → GoalLedger
  | none => {}
  | some carried =>
    { iteration := carried.iteration
      costUsd := carried.costUsd
      elapsedS := carried.elapsedS
      consecutiveToolErrors := carried.consecutiveToolErrors }

/-- `sorted(frozenset)` -/
def sortedIds (ids : List String) : List String := ids.dedup.mergeSort (fun a b => decide (a ≤ b))

namespace GoalLoopController

def fromCarry (limits : GoalLimits) (now : ℚ) (carried : Option GoalCarry) :
    GoalLedger × GoalLoopController :=
  let ledger := GoalLedger.fromCarry carried
  (ledger,
    { limits
      startedMonotonic := now
      avgCostPerIteration := 0
      priorElapsedS := ledger.elapsedS
      prevMet := carried.bind (·.prevMetIds)
      flatChecks := carried.elim 0 (·.flatChecks) })

def stampElapsed (controller : GoalLoopController) (now : ℚ) (ledger : GoalLedger) : GoalLedger :=
  { ledger with elapsedS := controller.priorElapsedS + (now - controller.startedMonotonic) }

/-- The soft guard on the cost of the next round, from what this one cost. -/
def overspends (controller : GoalLoopController) (verdict : Option GoalVerdict) (ledger : GoalLedger) :
    Bool :=
  verdict.any (fun verdict => !verdict.met) &&
    controller.limits.maxCostUsd.any (· < ledger.costUsd + controller.avgCostPerIteration)

/-- `decide` on a ledger stamped already; the controller changes if the run continues. -/
def decide (controller : GoalLoopController) (verdict : Option GoalVerdict) (ledger : GoalLedger)
    (cancelled : Bool) : GoalDecision × GoalLoopController :=
  let metIds := verdict.elim [] GoalVerdict.metIds
  let flatChecks := flatChecksAfter controller.prevMet metIds controller.flatChecks
  let stalled := isStalled flatChecks controller.limits
  if !cancelled && controller.overspends verdict ledger then (.stopAt .stoppedBudget, controller)
  else
    match decideTerminalStatus verdict ledger controller.limits stalled cancelled with
    | some status => (.stopAt status, controller)
    | none => (.goOn, { controller with prevMet := some metIds, flatChecks })

def carryState (controller : GoalLoopController) (ledger : GoalLedger) : GoalCarry where
  iteration := ledger.iteration
  costUsd := ledger.costUsd
  elapsedS := ledger.elapsedS
  consecutiveToolErrors := ledger.consecutiveToolErrors
  prevMetIds := controller.prevMet.map sortedIds
  flatChecks := controller.flatChecks

end GoalLoopController

inductive RoundEnd where
  /-- `UsageLimitExceeded` -/
  | hitBudget
  | asked (draft : Clarify.ClarifyDraftV2)
  /-- the judge's verdict, `none` when it failed -/
  | answered (verdict : Option GoalVerdict)

/-- What the models, the tools and the clock make of one round. -/
structure Round where
  agentCost : ℚ
  judgeCost : ℚ
  seconds : ℚ
  hadToolError : Bool
  /-- the shared `RunUsage` of the segment behind the round -/
  requests : Nat
  tokens : Nat
  /-- the round's tool receipts that count as evidence -/
  receipts : List StepData
  /-- the text the agent ended with, empty if it ended otherwise -/
  finalText : String
  outcome : RoundEnd

/-- The variables of `_run_goal_loop` that decide about the next round. -/
structure LoopState where
  ledger : GoalLedger
  controller : GoalLoopController
  now : ℚ

namespace LoopState

/-- A segment's first lines, with the cost of the criteria if they were derived in it. -/
def start (limits : GoalLimits) (now : ℚ) (carried : Option GoalCarry) (initialCostUsd : ℚ) :
    LoopState :=
  let (ledger, controller) := GoalLoopController.fromCarry limits now carried
  { ledger := { ledger with costUsd := ledger.costUsd + initialCostUsd }, controller, now }

def charged (s : LoopState) (r : Round) : GoalLedger :=
  { s.ledger with
    iteration := s.ledger.iteration + 1
    costUsd := s.ledger.costUsd + r.agentCost
    requestsUsed := r.requests
    tokensUsed := r.tokens
    consecutiveToolErrors := if r.hadToolError then s.ledger.consecutiveToolErrors + 1 else 0 }

/-- One pass of the `while True` loop, and its decision unless the round paused. -/
def play (s : LoopState) (r : Round) : LoopState × Option GoalDecision :=
  let now := s.now + r.seconds
  let ledger := s.controller.stampElapsed now (s.charged r)
  match r.outcome with
  | .hitBudget => (⟨ledger, s.controller, now⟩, some (.stopAt .stoppedBudget))
  | .asked _ => (⟨ledger, s.controller, now⟩, none)
  | .answered verdict =>
    let judged := { ledger with costUsd := ledger.costUsd + r.judgeCost }
    let controller := { s.controller with avgCostPerIteration := r.agentCost + r.judgeCost }
    let (decision, controller) := controller.decide verdict judged false
    (⟨judged, controller, now⟩, some decision)

end LoopState

/-- One controller over all the rounds, with nothing carried in between. -/
def playAll (s : LoopState) : List Round → LoopState × List GoalDecision
  | [] => (s, [])
  | r :: rest =>
    let (next, decision) := s.play r
    let (last, decisions) := playAll next rest
    (last, decision.toList ++ decisions)

theorem playAll_snoc (s : LoopState) (rounds : List Round) (r : Round) :
    playAll s (rounds ++ [r]) =
      (((playAll s rounds).1.play r).1,
        (playAll s rounds).2 ++ ((playAll s rounds).1.play r).2.toList) := by
  induction rounds generalizing s with
  | nil => simp [playAll]
  | cons first rest ih => simp [playAll, ih]

def SameIds : Option (List String) → Option (List String) → Prop
  | none, none => True
  | some ids, some others => ∀ id, id ∈ ids ↔ id ∈ others
  | _, _ => False

theorem SameIds.refl (ids : Option (List String)) : SameIds ids ids := by
  cases ids with
  | none => trivial
  | some ids => exact fun _ => Iff.rfl

theorem SameIds.sorted {ids others : Option (List String)} (same : SameIds ids others) :
    SameIds (ids.map sortedIds) others := by
  cases ids with
  | none => exact same
  | some ids =>
    cases others with
    | none => exact same
    | some others =>
      intro id
      rw [← same id]
      simp [sortedIds]

theorem flatChecksAfter_congr {prev other : Option (List String)} (same : SameIds prev other)
    (met : List String) (flatChecks : Nat) :
    flatChecksAfter prev met flatChecks = flatChecksAfter other met flatChecks := by
  cases prev with
  | none =>
    cases other with
    | none => rfl
    | some _ => exact same.elim
  | some ids =>
    cases other with
    | none => exact same.elim
    | some others =>
      have all : met.all (fun id => Decidable.decide (id ∈ ids)) =
          met.all fun id => Decidable.decide (id ∈ others) := by
        congr 1
        funext id
        simp [same id]
      simp only [flatChecksAfter, all]

/-- Two loops that decide alike from here on: they agree on everything but where
their clocks stand, what a segment's own requests and tokens are, and the last mean cost. -/
structure Alike (s t : LoopState) : Prop where
  iteration : s.ledger.iteration = t.ledger.iteration
  cost : s.ledger.costUsd = t.ledger.costUsd
  errors : s.ledger.consecutiveToolErrors = t.ledger.consecutiveToolErrors
  active : s.controller.priorElapsedS + (s.now - s.controller.startedMonotonic) =
    t.controller.priorElapsedS + (t.now - t.controller.startedMonotonic)
  limits : s.controller.limits = t.controller.limits
  prevMet : SameIds s.controller.prevMet t.controller.prevMet
  flatChecks : s.controller.flatChecks = t.controller.flatChecks

theorem Alike.refl (s : LoopState) : Alike s s :=
  ⟨rfl, rfl, rfl, rfl, rfl, SameIds.refl _, rfl⟩

structure SameLedger (a b : GoalLedger) : Prop where
  iteration : a.iteration = b.iteration
  cost : a.costUsd = b.costUsd
  elapsed : a.elapsedS = b.elapsedS
  errors : a.consecutiveToolErrors = b.consecutiveToolErrors

theorem SameLedger.status {a b : GoalLedger} (same : SameLedger a b) (verdict : Option GoalVerdict)
    (limits : GoalLimits) (stalled cancelled : Bool) :
    decideTerminalStatus verdict a limits stalled cancelled =
      decideTerminalStatus verdict b limits stalled cancelled := by
  have exhausted : a.exhausted limits = b.exhausted limits := by
    rw [GoalLedger.exhausted, GoalLedger.exhausted, same.iteration, same.cost, same.elapsed]
  cases cancelled with
  | true => rfl
  | false =>
    cases verdict with
    | none => rfl
    | some verdict => simp only [decideTerminalStatus, exhausted, same.errors]

theorem Alike.charged {s t : LoopState} (alike : Alike s t) (r : Round) :
    SameLedger (s.controller.stampElapsed (s.now + r.seconds) (s.charged r))
      (t.controller.stampElapsed (t.now + r.seconds) (t.charged r)) where
  iteration := congrArg (· + 1) alike.iteration
  cost := congrArg (· + r.agentCost) alike.cost
  elapsed := by
    have active := alike.active
    simp only [GoalLoopController.stampElapsed]
    linarith
  errors := by
    simp only [GoalLoopController.stampElapsed, LoopState.charged, alike.errors]

theorem decide_segment (c : GoalLoopController) (verdict : Option GoalVerdict) (ledger : GoalLedger)
    (cancelled : Bool) :
    (c.decide verdict ledger cancelled).2.limits = c.limits ∧
      (c.decide verdict ledger cancelled).2.priorElapsedS = c.priorElapsedS ∧
      (c.decide verdict ledger cancelled).2.startedMonotonic = c.startedMonotonic := by
  rw [GoalLoopController.decide]
  split
  · exact ⟨rfl, rfl, rfl⟩
  · split
    · exact ⟨rfl, rfl, rfl⟩
    · exact ⟨rfl, rfl, rfl⟩

theorem decide_goOn {c : GoalLoopController} {verdict : Option GoalVerdict} {ledger : GoalLedger}
    (goesOn : (c.decide verdict ledger false).1.stop = false) :
    ledger.exhausted c.limits = false := by
  rw [GoalLoopController.decide] at goesOn
  split at goesOn
  case isTrue spends => cases goesOn
  case isFalse allowed =>
    split at goesOn
    case h_1 status ended => cases goesOn
    case h_2 unended =>
      cases verdict with
      | none => cases unended
      | some verdict =>
        simp only [decideTerminalStatus, Bool.false_eq_true, if_false] at unended
        split at unended
        · cases unended
        · split at unended
          · cases unended
          case isFalse left => simpa using left

theorem decide_congr {c d : GoalLoopController} (limits : c.limits = d.limits)
    (prevMet : SameIds c.prevMet d.prevMet) (flatChecks : c.flatChecks = d.flatChecks)
    (avg : c.avgCostPerIteration = d.avgCostPerIteration) {a b : GoalLedger}
    (same : SameLedger a b) (verdict : Option GoalVerdict) (cancelled : Bool) :
    (c.decide verdict a cancelled).1 = (d.decide verdict b cancelled).1 ∧
      (c.decide verdict a cancelled).2.limits = (d.decide verdict b cancelled).2.limits ∧
      SameIds (c.decide verdict a cancelled).2.prevMet (d.decide verdict b cancelled).2.prevMet ∧
      (c.decide verdict a cancelled).2.flatChecks = (d.decide verdict b cancelled).2.flatChecks := by
  have spends : c.overspends verdict a = d.overspends verdict b := by
    rw [GoalLoopController.overspends, GoalLoopController.overspends, limits, same.cost, avg]
  have flat := flatChecksAfter_congr prevMet (verdict.elim [] GoalVerdict.metIds) c.flatChecks
  have status := same.status verdict d.limits
  rw [flatChecks] at flat
  simp only [GoalLoopController.decide, spends, flatChecks, flat, limits, status]
  by_cases guarded : (!cancelled && d.overspends verdict b) = true
  · simp only [guarded, if_true]
    exact ⟨trivial, limits, prevMet, flatChecks⟩
  · simp only [guarded, Bool.false_eq_true, if_false]
    cases decideTerminalStatus verdict b d.limits _ cancelled with
    | some status => exact ⟨rfl, limits, prevMet, flatChecks⟩
    | none => exact ⟨rfl, rfl, SameIds.refl _, rfl⟩

theorem Alike.play {s t : LoopState} (alike : Alike s t) (r : Round) :
    (s.play r).2 = (t.play r).2 ∧ Alike (s.play r).1 (t.play r).1 := by
  have ledger := alike.charged r
  have active := alike.active
  have later : s.controller.priorElapsedS + (s.now + r.seconds - s.controller.startedMonotonic) =
      t.controller.priorElapsedS + (t.now + r.seconds - t.controller.startedMonotonic) := by
    linarith
  simp only [LoopState.play]
  cases r.outcome with
  | hitBudget =>
    exact ⟨rfl, ledger.iteration, ledger.cost, ledger.errors, later, alike.limits, alike.prevMet,
      alike.flatChecks⟩
  | asked draft =>
    exact ⟨rfl, ledger.iteration, ledger.cost, ledger.errors, later, alike.limits, alike.prevMet,
      alike.flatChecks⟩
  | answered verdict =>
    have judged : SameLedger
        { s.controller.stampElapsed (s.now + r.seconds) (s.charged r) with
          costUsd := (s.controller.stampElapsed (s.now + r.seconds) (s.charged r)).costUsd +
            r.judgeCost }
        { t.controller.stampElapsed (t.now + r.seconds) (t.charged r) with
          costUsd := (t.controller.stampElapsed (t.now + r.seconds) (t.charged r)).costUsd +
            r.judgeCost } :=
      ⟨ledger.iteration, congrArg (· + r.judgeCost) ledger.cost, ledger.elapsed, ledger.errors⟩
    obtain ⟨decision, limits, prevMet, flatChecks⟩ := decide_congr
      (c := { s.controller with avgCostPerIteration := r.agentCost + r.judgeCost })
      (d := { t.controller with avgCostPerIteration := r.agentCost + r.judgeCost })
      alike.limits alike.prevMet alike.flatChecks rfl judged verdict false
    refine ⟨congrArg some decision, ledger.iteration, judged.cost, ledger.errors, ?_, limits,
      prevMet, flatChecks⟩
    obtain ⟨_, prior, started⟩ := decide_segment
      { s.controller with avgCostPerIteration := r.agentCost + r.judgeCost } verdict _ false
    obtain ⟨_, prior', started'⟩ := decide_segment
      { t.controller with avgCostPerIteration := r.agentCost + r.judgeCost } verdict _ false
    dsimp only
    rw [prior, started, prior', started']
    exact later

theorem LoopState.play_limits (s : LoopState) (r : Round) :
    (s.play r).1.controller.limits = s.controller.limits := by
  simp only [LoopState.play]
  cases r.outcome with
  | hitBudget => rfl
  | asked draft => rfl
  | answered verdict => exact (decide_segment _ _ _ _).1

theorem alike_resumed {s : LoopState} {limits : GoalLimits} (same : s.controller.limits = limits)
    (stamped : s.ledger.elapsedS =
      s.controller.priorElapsedS + (s.now - s.controller.startedMonotonic)) (now : ℚ) :
    Alike (.start limits now (some (s.controller.carryState s.ledger)) 0) s where
  iteration := rfl
  cost := add_zero _
  errors := rfl
  active := by
    show s.ledger.elapsedS + (now - now) = _
    rw [sub_self, add_zero, stamped]
  limits := same.symm
  prevMet := (SameIds.refl _).sorted
  flatChecks := rfl

theorem SameIds.trans {ids others more : Option (List String)} (first : SameIds ids others)
    (second : SameIds others more) : SameIds ids more := by
  cases ids <;> cases others <;> cases more
  all_goals first
    | trivial
    | exact first.elim
    | exact second.elim
    | exact fun id => (first id).trans (second id)

theorem Alike.trans {s t u : LoopState} (first : Alike s t) (second : Alike t u) : Alike s u where
  iteration := first.iteration.trans second.iteration
  cost := first.cost.trans second.cost
  errors := first.errors.trans second.errors
  active := first.active.trans second.active
  limits := first.limits.trans second.limits
  prevMet := first.prevMet.trans second.prevMet
  flatChecks := first.flatChecks.trans second.flatChecks

end Counselle.Goal

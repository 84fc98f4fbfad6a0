import Counselle.Chat.Live

/-! `deriveReceipt` of `turn-reducer.ts` against the receipt the record stores. -/
namespace Counselle.Chat
open Protocol Records Upsert

def deriveReceipt (steps : List StepData) (thinking : List String) : String :=
  if steps.length = 0 ∧ thinking.length = 0 then ""
  else
    let counts (kind : StepKind) : Nat := steps.countP (·.kind = kind)
    let db := counts .dbTool + counts .sql
    let web := counts .webSearch + counts .eduSearch
    let reddit := counts .redditSearch
    let viz := counts .viz
    let other : Int := steps.length - db - web - reddit - viz
    receiptSeparator.intercalate
      ((if db > 0 then [receiptLabel .database db] else []) ++
        (if web > 0 then [receiptLabel .web web] else []) ++
        (if reddit > 0 then [receiptLabel .reddit reddit] else []) ++
        (if viz > 0 then [receiptLabel .visualization viz] else []) ++
        (if other > 0 then [receiptLabel .other other.toNat] else []))

/-- The receipt a client derives from its folded state (`toStepRecord`). -/
def receiptOf (state : TurnState) : String :=
  deriveReceipt (stepsOf state) (narrationTextsOf state)

theorem count_kinds (steps : List StepData) :
    steps.countP (·.kind = .dbTool) + steps.countP (·.kind = .sql) =
        (steps.map (·.kind)).countP (categoryOf · = .database) ∧
      steps.countP (·.kind = .webSearch) + steps.countP (·.kind = .eduSearch) =
        (steps.map (·.kind)).countP (categoryOf · = .web) ∧
      steps.countP (·.kind = .redditSearch) =
        (steps.map (·.kind)).countP (categoryOf · = .reddit) ∧
      steps.countP (·.kind = .viz) =
        (steps.map (·.kind)).countP (categoryOf · = .visualization) := by
  induction steps with
  | nil => decide
  | cons step steps ih =>
    obtain ⟨db, web, reddit, viz⟩ := ih
    simp only [List.map_cons, List.countP_cons, ← db, ← web, ← reddit, ← viz]
    cases step.kind <;> simp [categoryOf] <;> omega

theorem deriveReceipt_counts (steps : List StepData) (thinking : List String) :
    deriveReceipt steps thinking =
      receiptLine fun category => (steps.map (·.kind)).countP (categoryOf · = category) := by
  obtain ⟨db, web, reddit, viz⟩ := count_kinds steps
  have total := count_categories (steps.map (·.kind))
  rw [List.length_map] at total
  unfold deriveReceipt
  split
  case isTrue nothing =>
    have none : steps = [] := List.length_eq_zero_iff.mp nothing.1
    subst none
    decide
  case isFalse _ =>
    have other : ((steps.length : Int) - ((steps.map (·.kind)).countP (categoryOf · = .database) : Nat)
        - ((steps.map (·.kind)).countP (categoryOf · = .web) : Nat)
        - ((steps.map (·.kind)).countP (categoryOf · = .reddit) : Nat)
        - ((steps.map (·.kind)).countP (categoryOf · = .visualization) : Nat)) =
        ((steps.map (·.kind)).countP (categoryOf · = .other) : Nat) := by omega
    simp only [db, web, reddit, viz, other, Int.toNat_natCast]
    refine congrArg receiptSeparator.intercalate ?_
    simp only [receiptLabels, List.filterMap_cons, List.filterMap_nil, gt_iff_lt, Nat.pos_iff_ne_zero,
      Nat.cast_pos, ite_not]
    split_ifs <;> rfl

theorem mem_stepsOf {state : TurnState} {step : StepData} :
    step ∈ stepsOf state ↔ .tool step ∈ state.segments := by
  unfold stepsOf
  rw [List.mem_filterMap]
  constructor
  · rintro ⟨segment, present, isStep⟩
    cases segment <;> simp_all
  · intro present
    exact ⟨_, present, rfl⟩

theorem count_stepsOf (state : TurnState) (stepId : String) :
    ((stepsOf state).map (·.stepId)).count stepId =
      state.segments.countP (Segment.isTool stepId) := by
  unfold stepsOf
  induction state.segments with
  | nil => rfl
  | cons segment rest ih =>
    cases segment with
    | tool step => simp [List.count_cons, List.countP_cons, Segment.isTool, ih]
    | _ => simpa [List.countP_cons, Segment.isTool] using ih

theorem lastKinds_live (observed signature : Payload → String) (turn : StreamedTurn) :
    LastKinds (stepFrames turn.emissions)
      ((stepsOf (reduceEvents signature (turn.stream observed))).map
        fun step => (step.stepId, step.kind)) := by
  have folded := folded_reduceEvents signature (turn.stream observed)
  have kindOf : ∀ step, .tool step ∈ (reduceEvents signature (turn.stream observed)).segments →
      lastKind (stepFrames turn.emissions) step.stepId = some step.kind := by
    intro step present
    have merged := folded.tools step present
    rw [framesOf_stream] at merged
    obtain ⟨last, ends, _, kind⟩ := mergedFrames_last merged
    rw [lastKind, ends, Option.map_some, kind]
  constructor
  · rw [List.map_map, List.nodup_iff_count_le_one]
    intro stepId
    have once := (folded.tool_once stepId).1
    rw [← count_stepsOf] at once
    exact once
  · intro stepId kind
    constructor
    · intro present
      obtain ⟨step, member, same⟩ := List.mem_map.mp present
      cases same
      exact kindOf step (mem_stepsOf.mp member)
    · intro last
      have framed : .tool stepId ∈ (turn.stream observed).map beatOf := by
        by_contra absent
        have none := framesOf_eq_nil absent
        rw [framesOf_stream] at none
        rw [lastKind, none] at last
        cases last
      obtain ⟨segment, present, here⟩ := List.any_eq_true.mp ((folded.tool_once stepId).2.mpr framed)
      cases segment with
      | tool step =>
        have same : step.stepId = stepId := by simpa [Segment.isTool] using here
        subst same
        have kinds := Option.some.inj ((kindOf step present).symm.trans last)
        exact List.mem_map.mpr ⟨step, mem_stepsOf.mpr present, by rw [kinds]⟩
      | _ => cases here

/-- Every step that was framed has an `end` or `error` frame. -/
def Finished (emissions : List Emission) : Prop :=
  ∀ frame ∈ stepFrames emissions, ∃ last ∈ recordSteps emissions, last.stepId = frame.stepId

instance (emissions : List Emission) : Decidable (Finished emissions) :=
  inferInstanceAs (Decidable (∀ frame ∈ stepFrames emissions, _))

theorem receiptOf_live (observed signature : Payload → String) (turn : StreamedTurn) :
    receiptOf (reduceEvents signature (turn.stream observed)) =
      receiptLine fun category => (endingIn (stepFrames turn.emissions) category).length := by
  rw [receiptOf, deriveReceipt_counts]
  refine congrArg receiptLine (funext fun category => ?_)
  rw [← (lastKinds_live observed signature turn).count category, List.map_map]
  rfl

theorem recordSteps_subset {emissions : List Emission} {step : StepData}
    (present : step ∈ recordSteps emissions) : step ∈ stepFrames emissions := by
  obtain ⟨emission, member, recorded⟩ := List.mem_filterMap.mp present
  refine List.mem_filterMap.mpr ⟨emission, member, ?_⟩
  cases emission with
  | step data =>
    simp only [Option.ite_none_left_eq_some, Option.some.injEq] at recorded ⊢
    exact recorded.2
  | _ => cases recorded

theorem finished_of_counts {emissions : List Emission}
    (counts : ∀ category, (endingIn (stepFrames emissions) category).length =
      (endingIn (recordSteps emissions) category).length) : Finished emissions := by
  have total := endingIn_total (stepFrames emissions)
  rw [counts, counts, counts, counts, counts, endingIn_total] at total
  have subset : ((recordSteps emissions).map (·.stepId)).dedup ⊆
      ((stepFrames emissions).map (·.stepId)).dedup := by
    intro stepId present
    obtain ⟨step, member, same⟩ := List.mem_map.mp (List.mem_dedup.mp present)
    exact List.mem_dedup.mpr (List.mem_map.mpr ⟨step, recordSteps_subset member, same⟩)
  have perm := (List.subperm_of_subset (List.nodup_dedup _) subset).perm_of_length_le
    (le_of_eq total.symm)
  intro frame member
  have listed := perm.mem_iff.mpr
    (List.mem_dedup.mpr (List.mem_map.mpr ⟨frame, member, rfl⟩))
  exact List.mem_map.mp (List.mem_dedup.mp listed)

def OneKind (emissions : List Emission) : Prop :=
  ∀ first ∈ stepFrames emissions, ∀ second ∈ stepFrames emissions,
    first.stepId = second.stepId → first.kind = second.kind

instance (emissions : List Emission) : Decidable (OneKind emissions) :=
  inferInstanceAs (Decidable (∀ first ∈ stepFrames emissions, _))

theorem lastKind_mem {frames : List StepData} {stepId : String} {kind : StepKind}
    (last : lastKind frames stepId = some kind) :
    ∃ frame ∈ frames, frame.stepId = stepId ∧ frame.kind = kind := by
  obtain ⟨frame, ends, same⟩ := Option.map_eq_some_iff.mp last
  have present := List.mem_filter.mp (List.mem_of_getLast? ends)
  exact ⟨frame, present.1, by simpa using present.2, same⟩

theorem counts_of_finished {emissions : List Emission} (kinds : OneKind emissions)
    (finished : Finished emissions) (category : ReceiptCategory) :
    (endingIn (stepFrames emissions) category).length =
      (endingIn (recordSteps emissions) category).length := by
  have agree : ∀ stepId kind, lastKind (stepFrames emissions) stepId = some kind ↔
      lastKind (recordSteps emissions) stepId = some kind := by
    intro stepId kind
    constructor
    · intro last
      obtain ⟨frame, member, same, isKind⟩ := lastKind_mem last
      obtain ⟨ended, endedMember, endedSame⟩ := finished frame member
      obtain ⟨other, endedLast⟩ := lastKind_isSome endedMember
      rw [endedSame, same] at endedLast
      obtain ⟨witness, present, witnessSame, isOther⟩ := lastKind_mem endedLast
      have one := kinds frame member witness (recordSteps_subset present) (same.trans witnessSame.symm)
      rw [endedLast, ← isOther, ← one, isKind]
    · intro last
      obtain ⟨ended, member, same, isKind⟩ := lastKind_mem last
      obtain ⟨other, framedLast⟩ := lastKind_isSome (recordSteps_subset member)
      rw [same] at framedLast
      obtain ⟨witness, present, witnessSame, isOther⟩ := lastKind_mem framedLast
      have one := kinds ended (recordSteps_subset member) witness present
        (same.trans witnessSame.symm)
      rw [framedLast, ← isOther, ← one, isKind]
  have left : (endingIn (stepFrames emissions) category).Nodup := (List.nodup_dedup _).filter _
  have right : (endingIn (recordSteps emissions) category).Nodup := (List.nodup_dedup _).filter _
  refine ((List.perm_ext_iff_of_nodup left right).mpr fun stepId => ?_).length_eq
  simp only [mem_endingIn, agree]

/-- The stored receipt is the live one exactly when each category has as many steps
by their last frame as by their last `end` or `error` frame; where no step changes
its kind, exactly when every step was finished. -/
theorem receipts_agree_iff (observed signature : Payload → String) (turn : StreamedTurn) :
    ((buildTurnRecord observed turn.emissions turn.context).receipt =
        receiptOf (reduceEvents signature (turn.stream observed)) ↔
      ∀ category, (endingIn (stepFrames turn.emissions) category).length =
        (endingIn (recordSteps turn.emissions) category).length) ∧
      (OneKind turn.emissions →
        ((buildTurnRecord observed turn.emissions turn.context).receipt =
            receiptOf (reduceEvents signature (turn.stream observed)) ↔
          Finished turn.emissions)) := by
  have stored : (buildTurnRecord observed turn.emissions turn.context).receipt =
      receiptLine fun category => (endingIn (recordSteps turn.emissions) category).length :=
    deriveReceipt_eq _ _
  have exact_counts : (buildTurnRecord observed turn.emissions turn.context).receipt =
        receiptOf (reduceEvents signature (turn.stream observed)) ↔
      ∀ category, (endingIn (stepFrames turn.emissions) category).length =
        (endingIn (recordSteps turn.emissions) category).length := by
    rw [stored, receiptOf_live]
    constructor
    · intro same category
      exact (congrFun (receiptLine_inj same) category).symm
    · intro counts
      exact congrArg receiptLine (funext fun category => (counts category).symm)
  refine ⟨exact_counts, fun kinds => ?_⟩
  rw [exact_counts]
  constructor
  · exact finished_of_counts
  · intro finished category
    exact counts_of_finished kinds finished category

def steppedTurn (frames : List StepData) (status : Records.TurnStatus) : StreamedTurn where
  metadata := ⟨"t1", "s1", "m", "m1", "u1", some "quick"⟩
  emissions := frames.map Emission.step
  context := { ids := ⟨"m1", "u1", none, none⟩, status := status, messagesOffset := 0 }
  sources := none

def startedQuery : StepData := { stepId := "a", status := .start, kind := .sql, label := "Query" }

def endedQuery : StepData := { startedQuery with status := .ended }

def finishedTurn : StreamedTurn := steppedTurn [startedQuery, endedQuery] .complete

theorem receipts_agree_finished :
    (buildTurnRecord id finishedTurn.emissions finishedTurn.context).receipt =
      receiptOf (reduceEvents id (finishedTurn.stream id)) :=
  ((receipts_agree_iff id id finishedTurn).2 (by decide)).mpr (by decide)

def cutOffTurn : StreamedTurn := steppedTurn [startedQuery] .cancelled

/-- Cancelled while its only step runs, a turn stores no receipt and shows one. -/
theorem cancelled_step_receipts_differ :
    (buildTurnRecord id cutOffTurn.emissions cutOffTurn.context).receipt = "" ∧
      receiptOf (reduceEvents id (cutOffTurn.stream id)) = "1 database lookup" := by
  decide

end Counselle.Chat

import Counselle.Goal.Loop
import Counselle.Turns.Anchors
import Counselle.Turns.Steering

/-! How a turn that ends without an exception ends: what the agent's runs come to,
the record the agent node commits for them (`app/agent_node.py`), and the last events
`run_turn` and `run_continuation_turn` send. -/
namespace Counselle.Turns
open Protocol Records Clarify Goal

/-- `result.output` -/
inductive AgentOutput where
  | text (text : String)
  | asks (draft : ClarifyDraftV2)

def AgentOutput.draft : AgentOutput → Option ClarifyDraftV2
  | .text _ => none
  | .asks draft => some draft

/-- The agent's runs in one turn, as far as models and tools decide about them. -/
inductive AgentRuns where
  /-- one run; `none` if it hits its budget -/
  | once (output : Option AgentOutput)
  /-- the rounds of a goal from where its loop starts, and the text of a wrap-up -/
  | goal (loop : LoopState) (rounds : List Round) (wrapup : Option String)
  | criteriaFailed
  /-- a tool interrupts, as the v1 `ask_student` does -/
  | interrupted (spec : Payload)

/-- `_run_goal_loop`: the result of the rounds it takes, if it ends with the last. -/
def goalOutput (wrapup : Option String) (loop : LoopState) : List Round → Option (Option AgentOutput)
  | [] => none
  | r :: rest =>
    match r.outcome with
    | .hitBudget => if rest.isEmpty then some (wrapup.map .text) else none
    | .asked draft => if rest.isEmpty then some (some (.asks draft)) else none
    | .answered _ =>
      let (next, decision) := loop.play r
      if decision.any (·.stop) then
        if rest.isEmpty then
          if decision.bind (·.status) = some .achieved then some (some (.text r.finalText))
          else some (wrapup.map .text)
        else none
      else goalOutput wrapup next rest

def RoundEnd.draft : RoundEnd → Option ClarifyDraftV2
  | .asked draft => some draft
  | _ => none

def AgentRuns.draft : AgentRuns → Option ClarifyDraftV2
  | .once output => output.bind (·.draft)
  | .goal _ rounds _ => rounds.getLast?.bind fun r => RoundEnd.draft r.outcome
  | _ => none

/-- A turn behind its last chunk, as the generator and the node have it. -/
structure EndedTurn where
  /-- `goal_mode` of a turn that is no continuation -/
  goalMode : Bool
  runs : AgentRuns
  messagesOut : List ModelMessage
  emissions : List Emission
  /-- what a paused goal keeps on its record -/
  goal : Payload
  opening : MetaData
  clarifyResponse : Payload
  chunks : List Event
  /-- `aget_state` raises behind the run -/
  stateUnreadable : Bool
  sources : Payload
  usage : Option Payload

namespace OpenTurn

def driver (turn : OpenTurn) : TurnDriver :=
  match turn.kind with
  | .unread | .fresh => .ordinary
  | .resume _ => .legacyResume
  | .continuation _ => .continuation

/-- A continuation is a goal turn exactly when the run it resumes was one. -/
def isGoal (turn : OpenTurn) (goalMode : Bool) : Bool :=
  turn.continuation?.elim goalMode (·.inheritedGoal.isSome)

/-- `output_type` has `ask_student` next to plain text. -/
def advertisesAskStudent (turn : OpenTurn) (goalMode : Bool) : Bool :=
  !(turn.continuation?.isSome && !turn.isGoal goalMode)

/-- The node's result; the outer `none` for runs that this turn cannot have. -/
def output (turn : OpenTurn) (goalMode : Bool) : AgentRuns → Option (Option AgentOutput)
  | .once output =>
    if turn.isGoal goalMode || ((output.bind (·.draft)).isSome && !turn.advertisesAskStudent goalMode)
    then none
    else some output
  | .goal loop rounds wrapup =>
    if turn.isGoal goalMode then goalOutput wrapup loop rounds else none
  -- a continuation inherits its criteria
  | .criteriaFailed =>
    if turn.isGoal goalMode && turn.continuation?.isNone then some none else none
  | .interrupted _ => none

end OpenTurn

/-- The custom chunks as the generator yields them; other kinds match no branch. -/
def chunkEvents (signature : Payload → String) (driver : TurnDriver) :
    List String → List Event → List Event
  | _, [] => []
  | seenViz, chunk :: rest =>
    if isContentChunk chunk || isUserMessage chunk then
      let (seen, event) := dispatch signature driver seenViz chunk
      event.toList ++ chunkEvents signature driver seen rest
    else chunkEvents signature driver seenViz rest

def latestAwaitingV2ClarifySpec (codec : Codec) (records : List TurnRecord) : Option ClarifySpecV2 :=
  match records.getLast? with
  | some latest =>
    if latest.status = .awaitingInput then
      latest.clarify.bind fun block => codec.parseSpec block.spec
    else none
  | none => none

structure TurnEnd where
  events : List Event
  checkpoint : Checkpoint

section End
variable (codec : Codec) (dumpSpec : ClarifySpecV2 → Payload) (signature : Payload → String)

namespace EndedTurn

def streamed (ended : EndedTurn) (turn : OpenTurn) : List Event :=
  let answered : List Event := match turn.kind with
    | .continuation prepared =>
      [.clarifyResponse prepared.rootMessageId prepared.continuationMessageId ended.clarifyResponse]
    | _ => []
  .metadata ended.opening :: answered ++ chunkEvents signature turn.driver [] ended.chunks

/-- The `ask_student` result as the node stores it. -/
def question (ended : EndedTurn) (turn : OpenTurn) (output : AgentOutput) : Option Question :=
  output.draft.map fun draft =>
    { spec := dumpSpec (normalizeClarifyDraft draft)
      goal := if turn.isGoal ended.goalMode then some ended.goal else none }

def commit (ended : EndedTurn) (thread : Thread) (turn : OpenTurn) :
    Option AgentOutput → Option Thread
  | none => thread.exhaust signature turn ended.emissions
  | some output => thread.commit signature turn ended.messagesOut ended.emissions
    (ended.question dumpSpec turn output)

/-- The events behind the chunk loop: `stored` is the list `aget_state` reads,
`dumped` the one of the node's update in the stream. -/
def terminal (ended : EndedTurn) (driver : TurnDriver) (stored dumped : List TurnRecord) :
    List Event :=
  let usage := ended.usage.toList.map Event.usage
  match driver with
  | .continuation => .sources ended.sources :: usage ++ [.done .complete]
  | .ordinary | .legacyResume =>
    let pending := latestAwaitingV2ClarifySpec codec (if ended.stateUnreadable then dumped else stored)
    (pending.map fun spec => Event.clarify (dumpSpec spec)).toList ++ .sources ended.sources ::
      usage ++ [.done (if pending.isSome then .awaitingInput else .complete)]

/-- The end of the thread's open turn, `none` where it cannot end so. -/
def close (ended : EndedTurn) (thread : Thread) (turn : OpenTurn) : Option TurnEnd :=
  match ended.runs with
  -- the parked record is written behind the terminal
  | .interrupted spec => (thread.park signature turn (some spec) ended.emissions).map fun after =>
    { events := ended.streamed signature turn ++ [.clarify spec, .done .awaitingInput]
      checkpoint := after.checkpoint }
  | runs => do
    let output ← turn.output ended.goalMode runs
    let after ← ended.commit dumpSpec signature thread turn output
    let records := after.checkpoint.turnRecords
    some
      { events := ended.streamed signature turn ++
          ended.terminal codec dumpSpec turn.driver records records
        checkpoint := after.checkpoint }

end EndedTurn
end End

def recordStatus : DoneStatus → TurnStatus
  | .complete => .complete
  | .awaitingInput => .awaitingInput
  | .cancelled => .cancelled

/-- A clarify event, and the stream ends with `done(awaiting_input)` behind it. -/
def AsksLive (events : List Event) : Prop :=
  ∃ before spec between,
    events = before ++ .clarify spec :: (between ++ [.done .awaitingInput])

structure TellsTruth (turn : OpenTurn) (last : TurnEnd) : Prop where
  status : ∃ record status, last.checkpoint.turnRecords.getLast? = some record ∧
    record.messageId = turn.ids.messageId ∧ last.events.getLast? = some (.done status) ∧
    record.status = recordStatus status
  question : AsksLive last.events ↔ isParked last.checkpoint.turnRecords = true

theorem goalOutput_draft {wrapup : Option String} {loop : LoopState} {rounds : List Round}
    {output : Option AgentOutput} (ends : goalOutput wrapup loop rounds = some output) :
    output.bind (·.draft) = rounds.getLast?.bind fun r => RoundEnd.draft r.outcome := by
  induction rounds generalizing loop with
  | nil => cases ends
  | cons r rest ih =>
    have wrapped : (wrapup.map AgentOutput.text).bind (·.draft) = none := by
      cases wrapup <;> rfl
    cases rest with
    | nil =>
      rw [List.getLast?_singleton, Option.bind_some]
      cases outcome : r.outcome with
      | hitBudget =>
        simp only [goalOutput, outcome, List.isEmpty_nil, if_true, Option.some.injEq] at ends
        rw [← ends, wrapped]
        rfl
      | asked draft =>
        simp only [goalOutput, outcome, List.isEmpty_nil, if_true, Option.some.injEq] at ends
        rw [← ends]
        rfl
      | answered verdict =>
        simp only [goalOutput, outcome, List.isEmpty_nil, if_true] at ends
        split at ends
        · split at ends
          · cases ends
            rfl
          · cases ends
            exact wrapped
        · cases ends
    | cons next more =>
      rw [List.getLast?_cons_cons]
      cases outcome : r.outcome with
      | hitBudget => simp [goalOutput, outcome] at ends
      | asked draft => simp [goalOutput, outcome] at ends
      | answered verdict =>
        rw [goalOutput] at ends
        simp only [outcome, List.isEmpty_cons, Bool.false_eq_true, if_false] at ends
        split at ends
        · cases ends
        · exact ih ends

namespace OpenTurn
variable {turn : OpenTurn} {goalMode : Bool} {runs : AgentRuns} {output : Option AgentOutput}

theorem output_draft (ends : turn.output goalMode runs = some output) :
    output.bind (·.draft) = runs.draft := by
  cases runs with
  | once _ =>
    rw [OpenTurn.output] at ends
    split at ends
    · cases ends
    · cases ends
      rfl
  | goal loop rounds wrapup =>
    rw [OpenTurn.output] at ends
    split at ends
    · exact goalOutput_draft ends
    · cases ends
  | criteriaFailed =>
    rw [OpenTurn.output] at ends
    split at ends
    · cases ends
      rfl
    · cases ends
  | interrupted spec => cases ends

end OpenTurn

variable {codec : Codec} {dumpSpec : ClarifySpecV2 → Payload} {signature : Payload → String}
  {thread after : Thread} {turn : OpenTurn} {ended : EndedTurn} {last : TurnEnd}

/-- The tail behind a node's update: this turn's record, waiting exactly if it asks. -/
structure Tail (turn : OpenTurn) (question : Option Payload) (records : List TurnRecord)
    (record : TurnRecord) : Prop where
  last : records.getLast? = some record
  own : record.messageId = turn.ids.messageId
  status : record.status = if question.isSome then .awaitingInput else .complete
  clarify : ∀ spec, question = some spec → record.clarify = some ⟨spec, true, none, none⟩

theorem tail_commit {out : List ModelMessage} {emissions : List Emission} {asks : Option Question}
    (committed : thread.commit signature turn out emissions asks = some after) :
    ∃ record, Tail turn (asks.map (·.spec)) after.checkpoint.turnRecords record := by
  rw [Thread.commit] at committed
  split at committed
  case isFalse early => cases committed
  case isTrue landed =>
    cases committed
    refine ⟨_, getLast?_commit _ _, rfl, ?_, ?_⟩
    · cases asks <;> rfl
    · intro spec asked
      obtain ⟨question, rfl, rfl⟩ := Option.map_eq_some_iff.mp asked
      rfl

theorem tail_output {output : Option AgentOutput}
    (committed : ended.commit dumpSpec signature thread turn output = some after) :
    ∃ record, Tail turn ((output.bind (·.draft)).map fun draft =>
      dumpSpec (normalizeClarifyDraft draft)) after.checkpoint.turnRecords record := by
  cases output with
  | none => exact tail_commit committed
  | some output =>
    have tail := tail_commit committed
    rw [EndedTurn.question, Option.map_map] at tail
    exact tail

theorem Tail.latestAwaiting {draft : Option ClarifyDraftV2} {records : List TurnRecord}
    {record : TurnRecord}
    (tail : Tail turn (draft.map fun draft => dumpSpec (normalizeClarifyDraft draft)) records record)
    (stored : ∀ d, draft = some d →
      codec.parseSpec (dumpSpec (normalizeClarifyDraft d)) = some (normalizeClarifyDraft d)) :
    latestAwaitingV2ClarifySpec codec records = draft.map normalizeClarifyDraft := by
  rw [latestAwaitingV2ClarifySpec, tail.last]
  dsimp only
  cases draft with
  | none =>
    have status : record.status = .complete := tail.status
    rw [if_neg (by simp [status])]
    rfl
  | some draft =>
    have status : record.status = .awaitingInput := tail.status
    rw [if_pos status, tail.clarify _ rfl]
    exact stored draft rfl

theorem Tail.isParked {question : Option Payload} {records : List TurnRecord} {record : TurnRecord}
    (tail : Tail turn question records record) :
    isParked records = true ↔ question.isSome = true := by
  rw [isParked_iff, tail.last]
  constructor
  · rintro ⟨_, same, awaits⟩
    cases same
    rw [tail.status] at awaits
    by_contra unasked
    rw [if_neg unasked] at awaits
    cases awaits
  · intro asked
    refine ⟨record, rfl, ?_⟩
    rw [tail.status, if_pos asked]

theorem AsksLive.ends {events : List Event} (asks : AsksLive events) :
    events.getLast? = some (.done .awaitingInput) := by
  obtain ⟨before, spec, between, rfl⟩ := asks
  rw [← List.cons_append, ← List.append_assoc, List.getLast?_concat]

theorem close_cases (closed : ended.close codec dumpSpec signature thread turn = some last) :
    (∃ spec after, ended.runs = .interrupted spec ∧
      thread.park signature turn (some spec) ended.emissions = some after ∧
      last = ⟨ended.streamed signature turn ++ [.clarify spec, .done .awaitingInput],
        after.checkpoint⟩) ∨
    ∃ output after, turn.output ended.goalMode ended.runs = some output ∧
      ended.commit dumpSpec signature thread turn output = some after ∧
      last = ⟨ended.streamed signature turn ++ ended.terminal codec dumpSpec turn.driver
        after.checkpoint.turnRecords after.checkpoint.turnRecords, after.checkpoint⟩ := by
  rw [EndedTurn.close] at closed
  split at closed
  case h_1 spec runs =>
    obtain ⟨after, parked, rfl⟩ := Option.map_eq_some_iff.mp closed
    exact Or.inl ⟨spec, after, runs, parked, rfl⟩
  case h_2 =>
    obtain ⟨output, ends, rest⟩ := Option.bind_eq_some_iff.mp closed
    obtain ⟨after, committed, same⟩ := Option.bind_eq_some_iff.mp rest
    cases same
    exact Or.inr ⟨output, after, ends, committed, rfl⟩

theorem tellsTruth_parked {spec : Payload} (before : List Event)
    (parked : thread.park signature turn (some spec) ended.emissions = some after) :
    turn.continuation? = none ∧
      TellsTruth turn ⟨before ++ [.clarify spec, .done .awaitingInput], after.checkpoint⟩ := by
  rw [Thread.park] at parked
  split at parked
  case isFalse barred => cases parked
  case isTrue allowed =>
    cases parked
    refine ⟨Option.isNone_iff_eq_none.mp allowed.2, ?_, ?_⟩
    · exact ⟨_, .awaitingInput, getLast?_commit _ _, rfl, by simp, rfl⟩
    · constructor
      · intro _
        exact isParked_iff.mpr ⟨_, getLast?_commit _ _, rfl⟩
      · intro _
        exact ⟨before, spec, [], rfl⟩

theorem tellsTruth_ordinary {draft : Option ClarifyDraftV2} {records : List TurnRecord}
    {record : TurnRecord} {before : List Event} {checkpoint : Checkpoint} {driver : TurnDriver}
    (stays : checkpoint.turnRecords = records)
    (tail : Tail turn (draft.map fun draft => dumpSpec (normalizeClarifyDraft draft)) records record)
    (stored : ∀ d, draft = some d →
      codec.parseSpec (dumpSpec (normalizeClarifyDraft d)) = some (normalizeClarifyDraft d))
    (ordinary : driver ≠ .continuation) :
    TellsTruth turn
      ⟨before ++ ended.terminal codec dumpSpec driver records records, checkpoint⟩ := by
  cases stays
  have events : ended.terminal codec dumpSpec driver checkpoint.turnRecords checkpoint.turnRecords =
      ((draft.map normalizeClarifyDraft).map fun spec => Event.clarify (dumpSpec spec)).toList ++
        .sources ended.sources :: ended.usage.toList.map Event.usage ++
          [.done (if draft.isSome then .awaitingInput else .complete)] := by
    cases driver with
    | continuation => exact absurd rfl ordinary
    | ordinary => simp [EndedTurn.terminal, tail.latestAwaiting stored]
    | legacyResume => simp [EndedTurn.terminal, tail.latestAwaiting stored]
  rw [events, ← List.append_assoc]
  constructor
  · refine ⟨record, if draft.isSome then .awaitingInput else .complete, tail.last, tail.own,
      List.getLast?_concat, ?_⟩
    rw [tail.status]
    cases draft <;> rfl
  · rw [tail.isParked]
    cases draft with
    | none =>
      refine iff_of_false ?_ (by simp)
      intro asks
      have ends := asks.ends
      rw [List.getLast?_concat] at ends
      cases ends
    | some draft =>
      refine iff_of_true ?_ rfl
      refine ⟨before, dumpSpec (normalizeClarifyDraft draft),
        .sources ended.sources :: ended.usage.toList.map Event.usage, ?_⟩
      simp

theorem tellsTruth_continuation {question : Option Payload} {records : List TurnRecord}
    {record : TurnRecord} {before : List Event} {checkpoint : Checkpoint}
    (stays : checkpoint.turnRecords = records) (tail : Tail turn question records record) :
    TellsTruth turn
        ⟨before ++ ended.terminal codec dumpSpec .continuation records records, checkpoint⟩ ↔
      question = none := by
  cases stays
  have ends : (before ++ ended.terminal codec dumpSpec .continuation checkpoint.turnRecords
      checkpoint.turnRecords).getLast? = some (.done .complete) := by
    rw [EndedTurn.terminal, ← List.append_assoc, List.getLast?_concat]
  constructor
  · rintro ⟨⟨found, status, isLast, _, said, same⟩, _⟩
    cases isLast.symm.trans tail.last
    cases said.symm.trans ends
    rw [tail.status] at same
    cases question with
    | none => rfl
    | some spec => cases same
  · rintro rfl
    refine ⟨⟨record, .complete, tail.last, tail.own, ends, tail.status⟩, ?_⟩
    rw [tail.isParked]
    refine iff_of_false ?_ (by simp)
    intro asks
    cases asks.ends.symm.trans ends

/-- The stream of a turn ends with what its record says, except where a continuation
asks again, whatever the kind of the turn, its goal rounds and the state it was read in. -/
theorem terminal_tells_truth_iff
    (closed : ended.close codec dumpSpec signature thread turn = some last)
    (stored : ∀ draft, ended.runs.draft = some draft →
      codec.parseSpec (dumpSpec (normalizeClarifyDraft draft)) =
        some (normalizeClarifyDraft draft)) :
    TellsTruth turn last ↔
      ¬ (turn.continuation?.isSome = true ∧ ended.runs.draft.isSome = true) := by
  obtain ⟨spec, after, runs, parked, rfl⟩ | ⟨output, after, ends, committed, rfl⟩ :=
    close_cases closed
  · obtain ⟨first, truth⟩ := tellsTruth_parked (ended.streamed signature turn) parked
    refine iff_of_true truth ?_
    rintro ⟨again, _⟩
    rw [first] at again
    cases again
  · obtain ⟨record, tail⟩ := tail_output committed
    rw [OpenTurn.output_draft ends] at tail
    cases kind : turn.kind with
    | continuation prepared =>
      have driver : turn.driver = .continuation := by rw [OpenTurn.driver, kind]
      have again : turn.continuation?.isSome = true := by rw [OpenTurn.continuation?, kind]; rfl
      rw [driver, tellsTruth_continuation rfl tail]
      simp [again]
    | unread =>
      have driver : turn.driver = .ordinary := by rw [OpenTurn.driver, kind]
      rw [driver]
      refine iff_of_true (tellsTruth_ordinary rfl tail stored (by simp)) ?_
      simp [OpenTurn.continuation?, kind]
    | fresh =>
      have driver : turn.driver = .ordinary := by rw [OpenTurn.driver, kind]
      rw [driver]
      refine iff_of_true (tellsTruth_ordinary rfl tail stored (by simp)) ?_
      simp [OpenTurn.continuation?, kind]
    | resume parked =>
      have driver : turn.driver = .legacyResume := by rw [OpenTurn.driver, kind]
      rw [driver]
      refine iff_of_true (tellsTruth_ordinary rfl tail stored (by simp)) ?_
      simp [OpenTurn.continuation?, kind]

def stateDraft : ClarifyDraftV2 :=
  ⟨[⟨"Which state?", .single, [⟨"Texas", none⟩, ⟨"Ohio", none⟩]⟩]⟩

def stateCodec : Codec where
  parseSpec := fun payload => if payload = "spec" then some (normalizeClarifyDraft stateDraft) else none
  parseWidget := fun _ => none
  dump := fun _ => ""

def landedTurn (kind : TurnKind) : OpenTurn where
  ids := ⟨"a1", "u1", none, none⟩
  kind := kind
  userText := "Plan my applications"
  skills := []
  input := some [.request "Plan my applications"]
  sourceConfig := some "{}"
  offset := some 0
  landed := true

def landedThread (kind : TurnKind) : Thread where
  checkpoint := { messages := [.request "Plan my applications"] }
  turn := some (landedTurn kind)

def endedWith (goalMode : Bool) (runs : AgentRuns) : EndedTurn where
  goalMode := goalMode
  runs := runs
  messagesOut := [.request "Plan my applications", .response []]
  emissions := []
  goal := "{}"
  opening := ⟨"t", "s", "m", "a1", "u1", none⟩
  clarifyResponse := "{}"
  chunks := [.delta "Let me check."]
  stateUnreadable := false
  sources := "[]"
  usage := none

theorem terminal_tells_truth_asked : ∃ last,
    (endedWith false (.once (some (.asks stateDraft)))).close stateCodec (fun _ => "spec") id
        (landedThread .fresh) (landedTurn .fresh) = some last ∧
      (TellsTruth (landedTurn .fresh) last ↔
        ¬ ((landedTurn .fresh).continuation?.isSome = true ∧
          (endedWith false (.once (some (.asks stateDraft)))).runs.draft.isSome = true)) := by
  have closed : (endedWith false (.once (some (.asks stateDraft)))).close stateCodec
      (fun _ => "spec") id (landedThread .fresh) (landedTurn .fresh) = some _ := rfl
  refine ⟨_, closed, terminal_tells_truth_iff closed ?_⟩
  intro draft asked
  cases asked
  rfl

def resumedGoal : PreparedContinuation where
  rootMessageId := "a0"
  continuationMessageId := "a1"
  triggerRequestId := "t1"
  origin := .reply
  completedMessageHistory := []
  modelInputText := "In Texas"
  projectUser := true
  recordUserText := some "In Texas"
  userMessageId := some "u1"
  inheritedSkills := []
  inheritedSourceConfig := none
  inheritedResponseMode := "quick"
  responsePayload := "{}"
  editableRootMessageId := "u0"
  messagesOffset := 0
  inheritedScope := none
  inheritedGoal := some ⟨"{}", []⟩

def askedAgain : Round where
  agentCost := 0
  judgeCost := 0
  seconds := 0
  hadToolError := false
  requests := 1
  tokens := 10
  receipts := []
  finalText := ""
  outcome := .asked stateDraft

def resumedLoop : LoopState := .start ⟨6, 3600, some 3, 3, 2⟩ 0 none 0

/-- The continuation of a goal says `complete` over a record that waits for an answer. -/
theorem complete_while_awaiting : ∃ last record,
    (endedWith false (.goal resumedLoop [askedAgain] none)).close stateCodec (fun _ => "spec") id
        (landedThread (.continuation resumedGoal)) (landedTurn (.continuation resumedGoal)) =
          some last ∧
      last.events.getLast? = some (.done .complete) ∧
      last.checkpoint.turnRecords.getLast? = some record ∧ record.status = .awaitingInput ∧
      ¬ TellsTruth (landedTurn (.continuation resumedGoal)) last := by
  refine ⟨_, _, rfl, rfl, rfl, rfl, ?_⟩
  rintro ⟨⟨record, status, isLast, _, said, same⟩, _⟩
  cases isLast
  cases said
  cases same

end Counselle.Turns

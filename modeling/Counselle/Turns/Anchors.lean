import Counselle.Clarify.Lifecycle
import Counselle.Turns.Session

/-! The messages of one session under turns that end in every way, one turn after
another, and the offsets their records keep for an edit. -/
namespace Counselle.Turns
open Protocol Records Clarify

def ResponsePart.isThinking : ResponsePart → Bool
  | .thinking _ => true
  | _ => false

def ModelMessage.quiet : ModelMessage → ModelMessage
  | .request content => .request content
  | .response parts => .response (parts.filter (·.isThinking = false))

/-- `_strip_thinking` on one message; a response left empty is dropped. -/
def ModelMessage.stripped (message : ModelMessage) : Option ModelMessage :=
  if message.quiet = .response [] then none else some message.quiet

/-- `_strip_thinking`: the history as the model gets it. -/
def stripThinking (messages : List ModelMessage) : List ModelMessage :=
  messages.filterMap (·.stripped)

/-- What a turn is and what its graph input is built from. -/
inductive TurnKind where
  | unread
  | fresh
  /-- the answer to a parked question, with the parked record -/
  | resume (parked : TurnRecord)
  | continuation (prepared : PreparedContinuation)

structure OpenTurn where
  ids : Records.TurnIds
  kind : TurnKind
  userText : String
  skills : List String
  /-- the messages of the graph input, once it is built -/
  input : Option (List ModelMessage) := none
  /-- the source config of the graph input -/
  sourceConfig : Option Payload := none
  /-- `messages_offset` in the runner -/
  offset : Option Nat := none
  landed : Bool := false
  /-- the run handle's history, with the emissions it covers -/
  handle : Option (List ModelMessage × Nat) := none

/-- The `ask_student` result of a run, with the state of its goal. -/
structure Question where
  spec : Payload
  goal : Option Payload := none

structure Thread where
  checkpoint : Checkpoint := {}
  turn : Option OpenTurn := none
  /-- ghost: the messages each turn started from, by its user message -/
  starts : List (String × List ModelMessage) := []

inductive ThreadLabel where
  | begin (ids : Records.TurnIds) (userText : String) (skills : List String) (readable : Bool)
  /-- an answer is accepted and its continuation begins -/
  | answer (fresh : FreshIds) (request : AnswerRequest)
  /-- the graph input is built around this prompt -/
  | prepare (prompt : Payload) (sourceConfig : Payload)
  | land
  /-- a safe history of the run -/
  | snapshot (history : List ModelMessage) (emissionsLen : Nat)
  /-- the node returns the run's messages, with a question if it asks -/
  | commit (out : List ModelMessage) (emissions : List Emission) (asks : Option Question)
  /-- the node returns without a result: the tool budget is spent -/
  | exhaust (emissions : List Emission)
  /-- the legacy interrupt -/
  | park (spec : Option Payload) (emissions : List Emission)
  | fail (emissions : List Emission) (error : ErrorData)
  /-- cancelled, or timed out with an error -/
  | stop (emissions : List Emission) (error : Option ErrorData)
  | lose
  | unpark
  | edit (replaceMessageId : String)

namespace OpenTurn

def continuation? (turn : OpenTurn) : Option PreparedContinuation :=
  match turn.kind with
  | .continuation prepared => some prepared
  | _ => none

def parked? (turn : OpenTurn) : Option TurnRecord :=
  match turn.kind with
  | .resume parked => some parked
  | _ => none

/-- The messages before the turn's own request in its graph input. -/
def base (turn : OpenTurn) (messages : List ModelMessage) : List ModelMessage :=
  match turn.kind with
  | .resume parked => messages.take parked.messagesOffset
  | .continuation prepared => prepared.completedMessageHistory
  | _ => messages

/-- `messages_offset` as `_prepare_turn_input` or the accepted answer sets it. -/
def preparedOffset (turn : OpenTurn) (messages : List ModelMessage) : Option Nat :=
  match turn.kind with
  | .resume parked => some parked.messagesOffset
  | .continuation prepared => some prepared.messagesOffset
  | _ => some messages.length

/-- `turn_ids["messages_offset"]`, which a continuation does not set. -/
def nodeOffset (turn : OpenTurn) : Option Nat :=
  if turn.continuation?.isSome then none else turn.offset

def recordUserText (turn : OpenTurn) : Option String :=
  match turn.kind with
  | .resume parked => parked.userText
  | .continuation prepared => if prepared.projectUser then prepared.recordUserText else none
  | _ => some turn.userText

def context (turn : OpenTurn) (status : TurnStatus) : TurnContext :=
  { ids := turn.ids
    status := status
    messagesOffset := 0
    selectedSkills := turn.skills
    continuationOf := turn.continuation?.map (·.rootMessageId)
    triggerRequestId := turn.continuation?.map (·.triggerRequestId)
    responseOrigin := turn.continuation?.map fun prepared =>
      if prepared.origin = .reply then "reply" else "widget"
    projectUser := turn.continuation?.map (·.projectUser) }

/-- The run handle's history as `partial_history`. -/
def partialHistory (turn : OpenTurn) : Option (List ModelMessage) :=
  (turn.handle.map Prod.fst).filter (· ≠ [])

def emissionsLen (turn : OpenTurn) : Nat := turn.handle.elim 0 Prod.snd

/-- `_resume_clarify`: the parked question with its answer. -/
def resumeClarify (turn : OpenTurn) (records : List TurnRecord) : Option Clarification × Bool :=
  match turn.kind, records.getLast? with
  | .resume _, some latest =>
    if latest.status ≠ .awaitingInput ∨ latest.messageId ≠ turn.ids.messageId then (none, false)
    else
      match latest.clarify with
      | some block => (some { block with answer := some turn.userText, response := none }, true)
      | none => (none, false)
  | _, _ => (none, false)

/-- The agent node's record over the messages in its state. -/
def nodeTerminal (turn : OpenTurn) (checkpoint : Checkpoint) (emissions : List Emission)
    (asks : Option Question) : Terminal :=
  let (resumed, synthesized) := turn.resumeClarify checkpoint.turnRecords
  let prompt := checkpoint.messages.getLast?.bind fun
    | .request content => some content
    | .response _ => none
  { emissions := if asks.isSome then emissions ++ [.clarify] else emissions
    messagesOffset := turn.nodeOffset
    context :=
      { turn.context (if asks.isSome then .awaitingInput else .complete) with
        userText :=
          if turn.continuation?.isSome then turn.recordUserText
          else if synthesized then
            (checkpoint.turnRecords.getLast?.bind (·.userText)).filter (· ≠ "") <|> prompt
          else prompt
        clarify := (asks.map fun asked => ⟨asked.spec, true, none, none⟩) <|> resumed
        synthesizedAnswer := synthesized
        sourceConfig := if asks.isSome then checkpoint.sourceConfig else none
        goal := asks.bind (·.goal) } }

/-- `_write_failure_record`, its arguments up to the offset. -/
def failureTerminal (turn : OpenTurn) (emissions : List Emission) (error : ErrorData)
    (offset : Nat) : Terminal :=
  let resumed := turn.input.bind fun _ => turn.parked?
  { emissions := emissions
    messagesOffset := some offset
    partialHistory := if turn.continuation?.isSome then none else turn.partialHistory
    emissionsLenAtSnapshot := if turn.continuation?.isSome then 0 else turn.emissionsLen
    context :=
      { turn.context .error with
        userText := turn.recordUserText
        error := some error
        clarify := resumed.bind fun parked =>
          parked.clarify.map fun block =>
            { block with answer := some turn.userText, response := none }
        synthesizedAnswer := resumed.isSome } }

/-- `_partial_anchor`, with the record of a cancel or a timeout. -/
def partialTerminal (turn : OpenTurn) (checkpoint : Checkpoint) (emissions : List Emission)
    (error : Option ErrorData) : Terminal :=
  let resumed := (parkedRecord checkpoint.turnRecords).filter fun parked =>
    turn.continuation?.isNone ∧ parked.messageId = turn.ids.messageId
  { emissions := emissions
    messagesOffset := some (resolveOffset (resumed.map (·.messagesOffset)) checkpoint.messages)
    partialHistory := turn.partialHistory
    emissionsLenAtSnapshot := turn.emissionsLen
    context :=
      { turn.context (if error.isSome then .error else .cancelled) with
        userText :=
          if turn.continuation?.isSome then turn.recordUserText
          else resumed.elim (some turn.userText) (·.userText)
        error := error
        clarify := resumed.bind fun parked =>
          parked.clarify.map fun block =>
            { block with answer := some turn.userText, response := none }
        synthesizedAnswer := resumed.isSome
        selectedSkills := resumed.elim turn.skills (·.skills) } }

end OpenTurn

/-- `_resolve_edit_target`: the record's index and its offset. -/
def resolveEditTarget (checkpoint : Checkpoint) (replaceMessageId : String) : Option (Nat × Nat) := do
  let index ← editIndex checkpoint.turnRecords replaceMessageId
  let target ← checkpoint.turnRecords[index]?
  if target.messagesOffset ≤ checkpoint.messages.length then some (index, target.messagesOffset)
  else none

namespace Thread
variable (codec : Codec) (signature : Payload → String)

def setTurn (thread : Thread) (turn : OpenTurn) : Thread := { thread with turn := some turn }

def close (thread : Thread) (update : StateUpdate) : Thread :=
  { thread with checkpoint := thread.checkpoint.update update, turn := none }

def beginTurn (thread : Thread) (turn : OpenTurn) (start : List ModelMessage) : Thread :=
  { thread with
    turn := some turn
    starts := (turn.ids.userMessageId, start) :: thread.starts }

/-- A turn that finds a parked question resumes it, from where the turn that asked began. -/
def begin (thread : Thread) (ids : Records.TurnIds) (userText : String) (skills : List String)
    (readable : Bool) : Option Thread :=
  if thread.turn.isSome ∨ (thread.starts.lookup ids.userMessageId).isSome then none
  else
    match readable, parkedRecord thread.checkpoint.turnRecords with
    | true, some parked =>
      if parked.messageId = ids.messageId then
        some (thread.beginTurn { ids, kind := .resume parked, userText, skills := parked.skills }
          ((thread.starts.lookup parked.userMessageId).getD thread.checkpoint.messages))
      else none
    | true, none =>
      if ids.messageId ∈ messageIds thread.checkpoint.turnRecords then none
      else
        some (thread.beginTurn { ids, kind := .fresh, userText, skills } thread.checkpoint.messages)
    | false, _ =>
      if ids.messageId ∈ messageIds thread.checkpoint.turnRecords then none
      else
        some (thread.beginTurn { ids, kind := .unread, userText, skills } thread.checkpoint.messages)

def continuationIds (prepared : PreparedContinuation) : Records.TurnIds where
  messageId := prepared.continuationMessageId
  userMessageId := prepared.userMessageId.getD prepared.triggerRequestId
  responseMode := some prepared.inheritedResponseMode

def answer (thread : Thread) (fresh : FreshIds) (request : AnswerRequest) : Option Thread :=
  if thread.turn.isSome then none
  else
    match prepareAnswer codec thread.checkpoint fresh request with
    | .error _ => none
    | .ok (prepared, update) =>
      let ids := continuationIds prepared
      if (thread.starts.lookup ids.userMessageId).isSome ∨
          ids.messageId ∈ messageIds thread.checkpoint.turnRecords then none
      else
        let turn : OpenTurn :=
          { ids
            kind := .continuation prepared
            userText := prepared.modelInputText
            skills := prepared.inheritedSkills
            offset := some prepared.messagesOffset }
        some { thread.beginTurn turn thread.checkpoint.messages with
          checkpoint := thread.checkpoint.update update }

def prepare (thread : Thread) (turn : OpenTurn) (prompt sourceConfig : Payload) : Option Thread :=
  match turn.kind, turn.input with
  | .unread, _ | _, some _ => none
  | _, none =>
    some (thread.setTurn
      { turn with
        input := some (turn.base thread.checkpoint.messages ++ [.request prompt])
        sourceConfig := some sourceConfig
        offset := turn.preparedOffset thread.checkpoint.messages })

def land (thread : Thread) (turn : OpenTurn) : Option Thread :=
  match turn.input with
  | some input =>
    if turn.landed then none
    else some
      { thread with
        checkpoint :=
          { thread.checkpoint with messages := input, sourceConfig := turn.sourceConfig }
        turn := some { turn with landed := true } }
  | none => none

def nodeUpdate (checkpoint : Checkpoint) (terminal : Terminal) (out : List ModelMessage) :
    StateUpdate :=
  let record := buildTurnRecord signature terminal.emissions
    { terminal.context with
      messagesOffset := resolveOffset terminal.messagesOffset checkpoint.messages
      editableRootMessageId :=
        if terminal.context.continuationOf.isSome then
          findRootUserMessageId checkpoint.turnRecords terminal.context.continuationOf
        else if terminal.context.status = .awaitingInput then
          some terminal.context.ids.userMessageId
        else none }
  { turnRecords := some (appendOrReplace checkpoint.turnRecords record), messages := some out }

def commit (thread : Thread) (turn : OpenTurn) (out : List ModelMessage)
    (emissions : List Emission) (asks : Option Question) : Option Thread :=
  if turn.landed then
    let terminal := turn.nodeTerminal thread.checkpoint emissions asks
    some (thread.close (nodeUpdate signature thread.checkpoint terminal out))
  else none

def exhaust (thread : Thread) (turn : OpenTurn) (emissions : List Emission) : Option Thread :=
  commit signature thread turn (partialMessages thread.checkpoint.messages emissions).1 emissions
    none

def park (thread : Thread) (turn : OpenTurn) (spec : Option Payload)
    (emissions : List Emission) : Option Thread :=
  if turn.landed ∧ turn.continuation?.isNone then
    let context :=
      { turn.context .awaitingInput with
        userText := turn.recordUserText
        clarify := spec.map fun spec => ⟨spec, false, none, none⟩ }
    let update := buildTerminalUpdate signature [] thread.checkpoint.turnRecords
      { emissions := emissions, context := context, messagesOffset := turn.offset }
    some (thread.close { turnRecords := update.turnRecords })
  else none

/-- The messages `_write_failure_record` takes: the stored ones, or the turn's input
where that never landed. -/
def failureMessages (checkpoint : Checkpoint) (turn : OpenTurn) : List ModelMessage :=
  if turn.continuation?.isSome then checkpoint.messages
  else
    match turn.input with
    | some input =>
      if checkpoint.messages.length < input.length then input else checkpoint.messages
    | none => checkpoint.messages

def fail (thread : Thread) (turn : OpenTurn) (emissions : List Emission)
    (error : ErrorData) : Option Thread :=
  if turn.recordUserText.all (· = "") ∧ deltaProse emissions = "" ∧
      turn.continuation?.isNone then
    some (thread.close {})
  else
    let messages := failureMessages thread.checkpoint turn
    let offset := turn.offset.getD (messages.length - 1)
    let update := buildTerminalUpdate signature messages thread.checkpoint.turnRecords
      (turn.failureTerminal emissions error offset)
    some (thread.close
      { update with
        messages := update.messages <|>
          if thread.checkpoint.messages.length < messages.length then some messages else none
        continuationIntent := if turn.continuation?.isSome then some none else none })

def stop (thread : Thread) (turn : OpenTurn) (emissions : List Emission)
    (error : Option ErrorData) : Option Thread :=
  let records := thread.checkpoint.turnRecords
  let replacesParked := (parkedRecord records).any fun tail =>
    tail.messageId = turn.ids.messageId ∧ tail.isV2Clarify = false
  let intent := if turn.continuation?.isSome then some none else none
  if turn.ids.messageId ∈ messageIds records ∧ replacesParked = false then
    some (thread.close { continuationIntent := intent })
  else
    let update := buildTerminalUpdate signature thread.checkpoint.messages records
      (turn.partialTerminal thread.checkpoint emissions error)
    some (thread.close { update with continuationIntent := intent })

/-- `_rewrite_history` -/
def rewrite (thread : Thread) (replaceMessageId : String) : Option Thread :=
  (resolveEditTarget thread.checkpoint replaceMessageId).map fun (index, offset) =>
    thread.close
      { messages := some (thread.checkpoint.messages.take offset)
        turnRecords := some (thread.checkpoint.turnRecords.take index) }

/-- `_unpark_if_parked` -/
def unpark (thread : Thread) : Option Thread :=
  (parkedRecord thread.checkpoint.turnRecords).map fun parked =>
    thread.close
      { turnRecords := some
          (thread.checkpoint.turnRecords.dropLast ++ [{ parked with status := .cancelled }]) }

def step (thread : Thread) : ThreadLabel → Option Thread
  | .begin ids userText skills readable => thread.begin ids userText skills readable
  | .answer fresh request => thread.answer codec fresh request
  | .unpark => if thread.turn.isSome then none else thread.unpark
  | .edit replaceMessageId =>
    if thread.turn.isSome then none else thread.rewrite replaceMessageId
  | .prepare prompt sourceConfig => thread.turn.bind fun turn =>
    thread.prepare turn prompt sourceConfig
  | .land => thread.turn.bind fun turn => thread.land turn
  | .snapshot history emissionsLen => thread.turn.bind fun turn =>
    if turn.landed then
      some (thread.setTurn { turn with handle := some (history, emissionsLen) })
    else none
  | .commit out emissions asks => thread.turn.bind fun turn =>
    thread.commit signature turn out emissions asks
  | .exhaust emissions => thread.turn.bind fun turn => thread.exhaust signature turn emissions
  | .park spec emissions => thread.turn.bind fun turn => thread.park signature turn spec emissions
  | .fail emissions error => thread.turn.bind fun turn => thread.fail signature turn emissions error
  | .stop emissions error => thread.turn.bind fun turn => thread.stop signature turn emissions error
  | .lose => thread.turn.map fun _ => thread.close {}

end Thread

end Counselle.Turns

import Counselle.Clarify.Spec
import Counselle.Records.TurnRecord

/-! The checkpoint of a session and `app/turn_persistence.py`, the single owner of
the updates a terminal writes to it. -/
namespace Counselle.Turns
open Protocol Records Clarify

inductive ResponsePart where
  | thinking (content : String)
  | text (content : String)
  | call (payload : Payload)
deriving DecidableEq, Repr

/-- A serialized message; a request is a user prompt or tool returns. -/
inductive ModelMessage where
  | request (content : Payload)
  | response (parts : List ResponsePart)
deriving DecidableEq, Repr

def ModelMessage.isRequest : ModelMessage → Bool
  | .request _ => true
  | .response _ => false

structure TurnScope where
  surface : Option String := none
  essayId : Option String := none
  essaySelection : Option String := none
deriving DecidableEq, Repr

/-- The graph state of one thread, as far as turns read it. -/
structure Checkpoint where
  messages : List ModelMessage := []
  turnRecords : List TurnRecord := []
  sourceConfig : Option Payload := none
  turnScope : TurnScope := {}
  continuationIntent : Option ContinuationIntent := none
deriving DecidableEq

def isParked (records : List TurnRecord) : Bool :=
  records.getLast?.any (·.status = .awaitingInput)

def parkedRecord (records : List TurnRecord) : Option TurnRecord :=
  records.getLast?.filter (·.status = .awaitingInput)

def resolveOffset (explicit : Option Nat) (messages : List ModelMessage) : Nat :=
  match explicit with
  | some offset => offset
  | none =>
    if messages.getLast?.any (·.isRequest) then messages.length - 1 else messages.length

def deltaProse (emissions : List Emission) : String :=
  String.join (emissions.filterMap fun | .delta text => some text | _ => none)

/-- The empty-partial rule: prose is kept only behind a request that can anchor it. -/
def anchorProse (messages : List ModelMessage) (prose : String) : List ModelMessage × Bool :=
  if prose = "" ∨ messages.getLast?.any (·.isRequest) = false then (messages, false)
  else (messages ++ [.response [.text prose]], true)

def partialMessages (messages : List ModelMessage) (emissions : List Emission) :
    List ModelMessage × Bool :=
  anchorProse messages (deltaProse emissions)

def appendLegalUncommittedTail (partialHistory : List ModelMessage) (emissions : List Emission)
    (emissionsLenAtSnapshot : Nat) : List ModelMessage × Bool :=
  anchorProse partialHistory (deltaProse (emissions.drop emissionsLenAtSnapshot))

def findRootUserMessageId (records : List TurnRecord) (rootMessageId : Option String) :
    Option String :=
  rootMessageId.bind fun root => (records.find? (·.messageId = root)).map (·.userMessageId)

/-- An `aupdate_state` payload: an absent key leaves its channel alone. -/
structure StateUpdate where
  turnRecords : Option (List TurnRecord) := none
  messages : Option (List ModelMessage) := none
  turnScope : Option TurnScope := none
  sourceConfig : Option Payload := none
  continuationIntent : Option (Option ContinuationIntent) := none

def Checkpoint.update (checkpoint : Checkpoint) (update : StateUpdate) : Checkpoint where
  messages := update.messages.getD checkpoint.messages
  turnRecords := update.turnRecords.getD checkpoint.turnRecords
  sourceConfig := update.sourceConfig.orElse fun _ => checkpoint.sourceConfig
  turnScope := update.turnScope.getD checkpoint.turnScope
  continuationIntent := update.continuationIntent.getD checkpoint.continuationIntent

/-- What a terminal path passes to `build_terminal_update`: the record's arguments, in
which `messagesOffset` and the edit root are still to be resolved. -/
structure Terminal where
  emissions : List Emission
  context : TurnContext
  messagesOffset : Option Nat
  partialHistory : Option (List ModelMessage) := none
  emissionsLenAtSnapshot : Nat := 0

/-- The messages a terminal leaves, and whether it changed them. -/
def Terminal.messages (terminal : Terminal) (messages : List ModelMessage) :
    List ModelMessage × Bool :=
  match terminal.partialHistory with
  | none => partialMessages messages terminal.emissions
  | some history =>
    let (kept, tailChanged) :=
      appendLegalUncommittedTail history terminal.emissions terminal.emissionsLenAtSnapshot
    (kept, history ≠ messages || tailChanged)

def buildTerminalUpdate (signature : Payload → String) (messages : List ModelMessage)
    (records : List TurnRecord) (terminal : Terminal) : StateUpdate :=
  let (kept, changed) := terminal.messages messages
  let record := buildTurnRecord signature terminal.emissions
    { terminal.context with
      messagesOffset := resolveOffset terminal.messagesOffset kept
      editableRootMessageId := findRootUserMessageId records terminal.context.continuationOf }
  { turnRecords := some (appendOrReplace records record)
    messages := if changed then some kept else none }

theorem parkedRecord_eq_some {records : List TurnRecord} {record : TurnRecord} :
    parkedRecord records = some record ↔
      records.getLast? = some record ∧ record.status = .awaitingInput := by
  simp [parkedRecord, Option.filter_eq_some_iff]

theorem isParked_iff {records : List TurnRecord} :
    isParked records = true ↔
      ∃ record, records.getLast? = some record ∧ record.status = .awaitingInput := by
  simp [isParked, Option.any_eq_true]

end Counselle.Turns

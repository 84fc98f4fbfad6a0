import Counselle.Records.Receipt

/-! The turn record builder of `app/records.py` and the list operations a record
is committed with. -/
namespace Counselle.Records
open Protocol

/-- The wire's done statuses plus the record-only `error`. -/
inductive TurnStatus where
  | complete
  | awaitingInput
  | cancelled
  | error
deriving DecidableEq, Repr

inductive Part where
  | text (text : String)
  | viz (spec : Payload)
deriving DecidableEq, Repr

inductive TranscriptSegment where
  | narration (text : String)
  | thinking (text : String)
  | user (data : UserMessage)
  | step (data : StepData)
  | delta (text : String)
  | viz (spec : Payload)
  | clarify
deriving DecidableEq, Repr

structure PartsBuilder where
  parts : List Part := []
  segment : List String := []
  seenViz : List String := []

def PartsBuilder.flush (builder : PartsBuilder) : PartsBuilder :=
  if builder.segment = [] then builder
  else
    { builder with
      parts := builder.parts ++ [.text (String.join builder.segment)]
      segment := [] }

def PartsBuilder.add (signature : Payload → String) (builder : PartsBuilder) :
    Emission → PartsBuilder
  | .delta text =>
    if text = "" then builder else { builder with segment := builder.segment ++ [text] }
  | .viz spec =>
    let (kept, seen) := keepViz signature builder.seenViz spec
    if kept then
      { builder.flush with parts := builder.flush.parts ++ [.viz spec], seenViz := seen }
    else { builder with seenViz := seen }
  | _ => builder

def buildParts (signature : Payload → String) (emissions : List Emission) : List Part :=
  (emissions.foldl (PartsBuilder.add signature) {}).flush.parts

def proseOf (parts : List Part) : String :=
  String.join (parts.filterMap fun | .text text => some text | .viz _ => none)

structure SegmentsBuilder where
  segments : List TranscriptSegment := []
  deltaSegment : List String := []
  stepIndexById : List (String × Nat) := []
  userIndexById : List (String × Nat) := []
  seenViz : List String := []

def SegmentsBuilder.flushDelta (builder : SegmentsBuilder) : SegmentsBuilder :=
  if builder.deltaSegment = [] then builder
  else
    { builder with
      segments := builder.segments ++ [.delta (String.join builder.deltaSegment)]
      deltaSegment := [] }

def SegmentsBuilder.append (builder : SegmentsBuilder) (segment : TranscriptSegment) :
    SegmentsBuilder :=
  { builder with segments := builder.segments ++ [segment] }

def SegmentsBuilder.addStep (builder : SegmentsBuilder) (data : StepData) : SegmentsBuilder :=
  match builder.stepIndexById.lookup data.stepId with
  | none =>
    { builder.append (.step data) with
      stepIndexById := (data.stepId, builder.segments.length) :: builder.stepIndexById }
  | some index => { builder with segments := builder.segments.set index (.step data) }

def SegmentsBuilder.addUser (builder : SegmentsBuilder) (data : UserMessage) : SegmentsBuilder :=
  match builder.userIndexById.lookup data.userMessageId with
  | none =>
    { builder.append (.user data) with
      userIndexById := (data.userMessageId, builder.segments.length) :: builder.userIndexById }
  | some index => { builder with segments := builder.segments.set index (.user data) }

def SegmentsBuilder.add (signature : Payload → String) (builder : SegmentsBuilder) :
    Emission → SegmentsBuilder
  | .delta text =>
    if text = "" then builder else { builder with deltaSegment := builder.deltaSegment ++ [text] }
  | .narration text =>
    if text = "" then builder.flushDelta else builder.flushDelta.append (.narration text)
  | .thinking text =>
    if text = "" then builder.flushDelta else builder.flushDelta.append (.thinking text)
  | .viz spec =>
    let (kept, seen) := keepViz signature builder.seenViz spec
    if kept then { builder.flushDelta.append (.viz spec) with seenViz := seen }
    else { builder with seenViz := seen }
  | .step data => builder.flushDelta.addStep data
  | .user data => builder.flushDelta.addUser data
  | .clarify => builder.flushDelta.append .clarify

def TranscriptSegment.replayed : TranscriptSegment → Bool
  | .user data => data.injected
  | _ => true

def buildSegments (signature : Payload → String) (emissions : List Emission) :
    List TranscriptSegment :=
  (emissions.foldl (SegmentsBuilder.add signature) {}).flushDelta.segments.filter
    TranscriptSegment.replayed

/-- A record's clarifying question and, once given, its answer. -/
structure Clarification where
  spec : Payload
  /-- `spec["v"] == 2` -/
  isV2 : Bool
  answer : Option String := none
  response : Option Payload := none
deriving DecidableEq, Repr

structure TurnIds where
  messageId : String
  userMessageId : String
  responseMode : Option String := none
  model : Option String := none
deriving DecidableEq, Repr

structure TurnRecord where
  messageId : String
  userMessageId : String
  responseMode : String
  model : Option String
  userText : Option String
  skills : List String
  parts : List Part
  segments : List TranscriptSegment
  steps : List StepData
  narration : List String
  thinking : List String
  receipt : String
  sources : Payload
  usage : Option Payload
  status : TurnStatus
  error : Option ErrorData
  clarify : Option Clarification
  messagesOffset : Nat
  synthesizedAnswer : Bool
  continuationOf : Option String
  sourceConfig : Option Payload
  editableRootMessageId : Option String
  triggerRequestId : Option String
  responseOrigin : Option String
  projectUser : Option Bool
  clarificationReply : Bool
  goal : Option Payload
deriving DecidableEq, Repr

/-- The keyword arguments of `build_turn_record`; `ts` is left out. -/
structure TurnContext where
  ids : TurnIds
  status : TurnStatus
  sources : Payload := "[]"
  userText : Option String := none
  usage : Option Payload := none
  error : Option ErrorData := none
  clarify : Option Clarification := none
  messagesOffset : Nat
  synthesizedAnswer : Bool := false
  selectedSkills : List String := []
  continuationOf : Option String := none
  sourceConfig : Option Payload := none
  editableRootMessageId : Option String := none
  triggerRequestId : Option String := none
  responseOrigin : Option String := none
  projectUser : Option Bool := none
  goal : Option Payload := none

/-- The end-state step events: `start` frames are live-stream-only. -/
def recordSteps (emissions : List Emission) : List StepData :=
  emissions.filterMap fun
    | .step data => if data.status = .start then none else some data
    | _ => none

def recordNarration (emissions : List Emission) : List String :=
  emissions.filterMap fun | .narration text => some text | _ => none

def recordThinking (emissions : List Emission) : List String :=
  emissions.filterMap fun | .thinking text => some text | _ => none

def buildTurnRecord (signature : Payload → String) (emissions : List Emission)
    (context : TurnContext) : TurnRecord where
  messageId := context.ids.messageId
  userMessageId := context.ids.userMessageId
  responseMode :=
    match context.ids.responseMode with
    | none | some "" => "quick"
    | some mode => mode
  model := context.ids.model
  userText := context.userText
  skills := context.selectedSkills
  parts := buildParts signature emissions
  segments := buildSegments signature emissions
  steps := recordSteps emissions
  narration := recordNarration emissions
  thinking := recordThinking emissions
  receipt := deriveReceipt (recordSteps emissions) (recordThinking emissions)
  sources := context.sources
  usage := context.usage
  status := context.status
  error := context.error
  clarify := context.clarify
  messagesOffset := context.messagesOffset
  synthesizedAnswer := context.synthesizedAnswer
  continuationOf := context.continuationOf
  sourceConfig := context.sourceConfig
  editableRootMessageId := context.editableRootMessageId
  triggerRequestId := context.triggerRequestId
  responseOrigin := context.responseOrigin
  projectUser := context.projectUser
  clarificationReply :=
    context.continuationOf.any (· != "") && context.responseOrigin == some "reply"
  goal := context.goal

def TurnRecord.isV2Clarify (record : TurnRecord) : Bool := record.clarify.any (·.isV2)

def appendOrReplace (prior : List TurnRecord) (record : TurnRecord) : List TurnRecord :=
  match prior.getLast? with
  | some latest =>
    if latest.status = .awaitingInput ∧ latest.messageId = record.messageId ∧
        latest.isV2Clarify = false then
      prior.dropLast ++ [record]
    else prior ++ [record]
  | none => prior ++ [record]

/-- `none` is the `ValueError` of a target that is not the latest pending record. -/
def replaceLatestPendingV2 (prior : List TurnRecord) (record : TurnRecord) :
    Option (List TurnRecord) :=
  match prior.getLast? with
  | some latest =>
    if latest.status ≠ .awaitingInput ∨ latest.messageId ≠ record.messageId then none
    else some (prior.dropLast ++ [record])
  | none => none

end Counselle.Records

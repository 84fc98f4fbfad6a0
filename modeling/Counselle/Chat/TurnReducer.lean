import Counselle.Protocol.Event
import Counselle.Upsert

/-! The frontend's fold of one turn's events into what it shows, `turn-reducer.ts`.
Arrival times are left out: nothing below reads them. -/
namespace Counselle.Chat
open Protocol Upsert

inductive Segment where
  | narration (id text : String)
  | thinking (id text : String)
  | user (id text : String) (injected : Bool)
  | tool (step : StepData)
  | answer (text : String)
  | viz (spec : Payload)
  | clarify (spec : Payload) (response : Option Payload)
deriving DecidableEq, Repr

inductive TurnStatus where
  | idle
  | streaming
  | awaitingInput
  | complete
  | cancelled
  | error
deriving DecidableEq, Repr

structure TurnState where
  metadata : Option MetaData
  segments : List Segment
  vizSignatures : List String
  clarify : Option Payload
  clarifyResponse : Option Payload
  sources : Option Payload
  usage : Option Payload
  status : TurnStatus
  error : Option ErrorData
  /-- `lastEventType === "thinking"`, all that is asked of it -/
  lastWasThinking : Bool
deriving DecidableEq, Repr

def initialTurnState : TurnState where
  metadata := none
  segments := []
  vizSignatures := []
  clarify := none
  clarifyResponse := none
  sources := none
  usage := none
  status := .idle
  error := none
  lastWasThinking := false

def appendAnswerText (segments : List Segment) (text : String) : List Segment :=
  match segments.getLast? with
  | some (.answer before) => segments.dropLast ++ [.answer (before ++ text)]
  | _ => segments ++ [.answer text]

/-- `{ ...existing, ...step }`: a key the new frame does not have keeps its value. -/
def mergeStep (existing step : StepData) : StepData :=
  { step with
    tool := step.tool <|> existing.tool
    sources := step.sources <|> existing.sources
    ui := step.ui <|> existing.ui }

def Segment.isTool (stepId : String) : Segment → Bool
  | .tool step => step.stepId == stepId
  | _ => false

/-- `segment.step` merged with a later frame. -/
def Segment.mergeTool (step : StepData) : Segment → Segment
  | .tool existing => .tool (mergeStep existing step)
  | segment => segment

def mergeToolSegment (segments : List Segment) (step : StepData) : List Segment :=
  upsert (Segment.isTool step.stepId) (Segment.mergeTool step) (.tool step) segments

def thinkingSegmentCount (segments : List Segment) : Nat :=
  segments.countP fun | .thinking _ _ => true | _ => false

def narrationSegmentCount (segments : List Segment) : Nat :=
  segments.countP fun | .narration _ _ => true | _ => false

def appendThinkingSegment (segments : List Segment) (text : String) (shouldCoalesce : Bool) :
    List Segment :=
  match shouldCoalesce, segments.getLast? with
  | true, some (.thinking id before) =>
    segments.dropLast ++ [.thinking id (before ++ "\n\n" ++ text)]
  | _, _ => segments ++ [.thinking ("thinking-" ++ toString (thinkingSegmentCount segments)) text]

def Segment.isUser (userMessageId : String) : Segment → Bool
  | .user id _ _ => id == userMessageId
  | _ => false

def Segment.mergeUser (data : UserMessage) : Segment → Segment
  | .user _ _ injected => .user data.userMessageId data.text (injected || data.injected)
  | segment => segment

def mergeUserSegment (segments : List Segment) (data : UserMessage) : List Segment :=
  upsert (Segment.isUser data.userMessageId) (Segment.mergeUser data)
    (.user data.userMessageId data.text data.injected) segments

def applyClarifyResponseToSegments (segments : List Segment) (response : Payload) : List Segment :=
  (attach segments.reverse).reverse
where
  attach : List Segment → List Segment
    | [] => []
    | .clarify spec _ :: rest => .clarify spec (some response) :: rest
    | segment :: rest => segment :: attach rest

def appendViz (signature : Payload → String) (state : TurnState) (spec : Payload) : TurnState :=
  if signature spec ∈ state.vizSignatures then state
  else
    { state with
      segments := state.segments ++ [.viz spec]
      vizSignatures := signature spec :: state.vizSignatures }

def doneStatusToTurnStatus : DoneStatus → TurnStatus
  | .complete => .complete
  | .cancelled => .cancelled
  | .awaitingInput => .awaitingInput

/-- The first prose or user message of an idle turn starts it streaming. -/
def TurnState.started (state : TurnState) : TurnState :=
  if state.status = .idle then { state with status := .streaming } else state

/-- `reduceTurn`; `signature` is `vizSignature`. -/
def reduceTurn (signature : Payload → String) (state : TurnState) (event : Event) : TurnState :=
  match event with
  | .metadata data =>
    { state with metadata := some data, status := .streaming, lastWasThinking := false }
  | .delta text =>
    { state.started with
      segments := appendAnswerText state.segments text
      lastWasThinking := false }
  | .step data =>
    { state with segments := mergeToolSegment state.segments data, lastWasThinking := false }
  | .narration text =>
    { state with
      segments := state.segments ++
        [.narration ("narration-" ++ toString (narrationSegmentCount state.segments)) text]
      lastWasThinking := false }
  | .thinking text =>
    { state with
      segments := appendThinkingSegment state.segments text state.lastWasThinking
      lastWasThinking := true }
  | .userMessage data =>
    { state.started with
      segments := mergeUserSegment state.segments data
      lastWasThinking := false }
  | .viz spec => { appendViz signature state spec with lastWasThinking := false }
  | .clarify spec =>
    { state with
      clarify := some spec
      segments := state.segments ++ [.clarify spec none]
      lastWasThinking := false }
  | .clarifyResponse _ _ response =>
    { state with
      clarifyResponse := some response
      segments := applyClarifyResponseToSegments state.segments response
      lastWasThinking := false }
  | .sources data => { state with sources := some data, lastWasThinking := false }
  | .usage data => { state with usage := some data, lastWasThinking := false }
  | .done status =>
    { state with status := doneStatusToTurnStatus status, lastWasThinking := false }
  | .error data => { state with status := .error, error := some data, lastWasThinking := false }

def reduceEvents (signature : Payload → String) (events : List Event) : TurnState :=
  events.foldl (reduceTurn signature) initialTurnState

def stepsOf (state : TurnState) : List StepData :=
  state.segments.filterMap fun | .tool step => some step | _ => none

def narrationTextsOf (state : TurnState) : List String :=
  state.segments.filterMap fun | .narration _ text => some text | _ => none

end Counselle.Chat

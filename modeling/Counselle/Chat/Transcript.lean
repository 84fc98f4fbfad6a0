import Counselle.Chat.TurnReducer
import Counselle.Records.TurnRecord

/-! A turn as its client sees it: streamed live, and replayed from the record. -/
namespace Counselle.Chat
open Protocol Records

structure Observed where
  events : List Event := []
  seenViz : List String := []

/-- `_observe`: an emission goes to the buffer, a viz only once. -/
def observe (signature : Payload → String) (question : Payload) (observed : Observed) :
    Emission → Observed
  | .delta text => { observed with events := observed.events ++ [.delta text] }
  | .narration text => { observed with events := observed.events ++ [.narration text] }
  | .thinking text => { observed with events := observed.events ++ [.thinking text] }
  | .step data => { observed with events := observed.events ++ [.step data] }
  | .user data => { observed with events := observed.events ++ [.userMessage data] }
  | .viz spec =>
    let (kept, seen) := keepViz signature observed.seenViz spec
    { events := if kept then observed.events ++ [.viz spec] else observed.events, seenViz := seen }
  | .clarify => { observed with events := observed.events ++ [.clarify question] }

/-- What replay shows of a clarify pointer whose record has no spec. -/
def missingClarifySpec : Payload := "\x7b\"v\":999,\"type\":\"missing_clarify_spec\"\x7d"

def questionOf (clarify : Option Clarification) : Payload :=
  (clarify.map (·.spec)).getD missingClarifySpec

structure StreamedTurn where
  metadata : MetaData
  emissions : List Emission
  context : TurnContext
  sources : Option Payload

def StreamedTurn.liveEvents (signature : Payload → String) (turn : StreamedTurn) : List Event :=
  (turn.emissions.foldl (observe signature (questionOf turn.context.clarify)) {}).events

/-- The question of a legacy interrupt has no pointer among the emissions. -/
def interruptEvents (emissions : List Emission) (clarify : Option Clarification) : List Event :=
  match clarify with
  | some question => if .clarify ∈ emissions then [] else [.clarify question.spec]
  | none => []

def interruptedError : ErrorData where
  message := "The answer was interrupted by an error."
  traceId := ""

def endingEvent (status : Records.TurnStatus) (error : Option ErrorData) : Event :=
  match status with
  | .complete => .done .complete
  | .awaitingInput => .done .awaitingInput
  | .cancelled => .done .cancelled
  | .error => .error (error.getD interruptedError)

def StreamedTurn.stream (signature : Payload → String) (turn : StreamedTurn) : List Event :=
  .metadata turn.metadata :: turn.liveEvents signature ++
    interruptEvents turn.emissions turn.context.clarify ++
    (turn.sources.toList.map Event.sources ++ turn.context.usage.toList.map Event.usage ++
      [endingEvent turn.context.status turn.context.error])

structure StepRecord where
  steps : List StepData
  narration : Option (List String)
  thinking : List String
  receipt : String
deriving DecidableEq, Repr

structure TranscriptAssistantEntry where
  text : String
  messageId : Option String
  stepRecord : Option StepRecord
  parts : Option (List Part)
  segments : Option (List TranscriptSegment)
  clarify : Option Clarification
  sources : Option Payload
  usage : Option Payload
  status : Option Records.TurnStatus
  error : Option ErrorData
deriving DecidableEq, Repr

/-- `_assistant_entry_for_record` for a record that has its segments. -/
def assistantEntryForRecord (record : TurnRecord) : TranscriptAssistantEntry where
  text := proseOf record.parts
  messageId := some record.messageId
  stepRecord := some
    { steps := record.steps
      narration := some record.narration
      thinking := record.thinking
      receipt := record.receipt }
  parts := some record.parts
  segments := some record.segments
  clarify := record.clarify
  sources := some record.sources
  usage := record.usage
  status := some record.status
  error := if record.status = .error then record.error else none

def transcriptSegmentToEvent (clarify : Option Clarification) : TranscriptSegment → Event
  | .narration text => .narration text
  | .thinking text => .thinking text
  | .user data => .userMessage data
  | .step data => .step data
  | .delta text => .delta text
  | .viz spec => .viz spec
  | .clarify => .clarify (questionOf clarify)

def transcriptSegmentsToEvents (segments : List TranscriptSegment)
    (clarify : Option Clarification) : List Event :=
  segments.map (transcriptSegmentToEvent clarify)

def stepRecordEvents (record : StepRecord) : List Event :=
  record.steps.map Event.step ++ (record.narration.getD record.thinking).map Event.narration ++
    if record.narration.isSome then record.thinking.map Event.thinking else []

def partEvents (part : Part) : List Event :=
  match part with
  | .text text => if text.length > 0 then [.delta text] else []
  | .viz spec => [.viz spec]

def clarifyEvents (entry : TranscriptAssistantEntry) : List Event :=
  match entry.clarify with
  | none => []
  | some question =>
    (if (entry.segments.getD []).any (· = .clarify) then [] else [.clarify question.spec]) ++
      match question.response with
      | none => []
      | some response =>
        [.clarifyResponse (entry.messageId.getD "") (entry.messageId.getD "") response]

def transcriptEntryToEvents (entry : TranscriptAssistantEntry) : List Event :=
  (match entry.segments with
    | some segments => transcriptSegmentsToEvents segments entry.clarify
    | none =>
      (entry.stepRecord.toList.flatMap stepRecordEvents) ++
        (entry.parts.getD [.text entry.text]).flatMap partEvents) ++
    clarifyEvents entry ++ entry.usage.toList.map Event.usage ++
    [endingEvent (entry.status.getD .complete) entry.error]

def reduceTranscriptEntry (signature : Payload → String) (entry : TranscriptAssistantEntry) :
    TurnState :=
  let state := reduceEvents signature (transcriptEntryToEvents entry)
  match entry.sources with
  | none => state
  | some sources => { state with sources := some sources }

end Counselle.Chat

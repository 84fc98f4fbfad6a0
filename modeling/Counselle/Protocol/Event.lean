import Mathlib.Data.List.Basic

/-! The v1 wire events of `domain/events.py`. Data the backend passes through
without looking into it (specs, receipts, source lists) stays serialized. -/
namespace Counselle.Protocol

abbrev Payload := String

inductive StepStatus where
  | start
  | ended
  | error
deriving DecidableEq, Repr

inductive StepKind where
  | dbTool
  | sql
  | webSearch
  | eduSearch
  | redditSearch
  | viz
  | skill
  | research
  | writePlan
  | workspace
  | memory
  | compaction
  | goal
deriving DecidableEq, Repr

inductive DoneStatus where
  | complete
  | awaitingInput
  | cancelled
deriving DecidableEq, Repr

/-- `ev_step`'s data: `tier` and `detail` are explicit nulls when unset, the
keys `tool`, `sources` and `ui` are dropped. -/
structure StepData where
  stepId : String
  status : StepStatus
  kind : StepKind
  label : String
  tier : Option String := none
  detail : Option Payload := none
  tool : Option String := none
  sources : Option Payload := none
  ui : Option Payload := none
deriving DecidableEq, Repr

structure UserMessage where
  text : String
  userMessageId : String
  injected : Bool
deriving DecidableEq, Repr

structure MetaData where
  traceId : String
  sessionId : String
  model : String
  messageId : String
  userMessageId : String
  responseMode : Option String
deriving DecidableEq, Repr

structure ErrorData where
  message : String
  traceId : String
  code : Option String := none
deriving DecidableEq, Repr

inductive Event where
  | metadata (data : MetaData)
  | delta (text : String)
  | step (data : StepData)
  | narration (text : String)
  | thinking (text : String)
  | userMessage (data : UserMessage)
  | viz (spec : Payload)
  | clarify (spec : Payload)
  | clarifyResponse (clarifyMessageId continuationMessageId : String) (response : Payload)
  | sources (data : Payload)
  | usage (data : Payload)
  | done (status : DoneStatus)
  | error (data : ErrorData)
deriving DecidableEq, Repr

def Event.isTerminal : Event → Bool
  | .done _ => true
  | .error _ => true
  | _ => false

end Counselle.Protocol

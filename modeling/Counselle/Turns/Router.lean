import Counselle.PyText
import Counselle.Receipts.Contract
import Counselle.Transition
import Counselle.Upsert

/-! `EmissionRouter` of `app/steps.py`: the events of a model run become the chunks that
the student sees. -/
namespace Counselle.Turns.Emission
open PyText (strip)
open Receipts (MutationFamily MutationAction MutationOutcome)

abbrev Chars : Type := List Char

inductive StepStatus where
  | start
  | finish
  | error
  deriving DecidableEq

inductive CloseReason where
  | complete
  | interrupt
  | error
  | budget
  deriving DecidableEq

structure MappedStep where
  kind : String
  tier : Option String
  label : String
  tool : String

structure Unresolved where
  family : MutationFamily
  action : MutationAction
  outcome : MutationOutcome
  deriving DecidableEq

/-- A receipt: what the router reads and sets of it, and the fields of the mapper. -/
structure StepDetail (V : Type) where
  mutationContract : Option Nat
  mutation : Option Unresolved
  fields : Option V

structure StepData (V : Type) where
  stepId : String
  status : StepStatus
  kind : String
  label : String
  tier : Option String
  tool : String
  detail : Option (StepDetail V)
  sources : Option V
  ui : Option V

inductive Chunk (V : Type) where
  | delta (text : Chars)
  | narration (text : Chars)
  | thinking (text : Chars)
  | step (data : StepData V)

/-- `StepMapper`; a call whose arguments it cannot label raises. -/
structure StepMapper (V : Type) where
  isVisible : String → Bool
  mapCall : String → V → Option MappedStep
  resultIsError : Bool → Option V → Bool
  detailFor : String → V → Option V → Nat → StepDetail V
  terminalLabel : MappedStep → V → Option (StepDetail V) → Bool → Bool → String
  sourcesFor : String → V → Option V → Option V
  uiFor : String → V → Option V → Option V

structure Settings (V : Type) where
  mapper : StepMapper V
  unmounted : List String
  emitThinking : Bool

structure OpenStep (V : Type) where
  stepId : String
  toolName : String
  args : V
  mapped : MappedStep

structure Router (V : Type) where
  stepRecords : List (StepData V)
  narrationLines : List Chars
  thinkingLines : List Chars
  finalAnswerStarted : Bool
  openSteps : List (String × OpenStep V)
  counter : Nat
  textBuf : Chars
  thinkingBuf : Chars
  narrationStreamedLen : Nat
  finalCandidate : Bool
  closed : Bool
  /-- what the writer was given -/
  written : List (Chunk V)

/-- The stream events of a run; a result comes with the time that its call took. -/
inductive StreamEvent (V : Type) where
  | finalResult
  | runResult
  | textStart (content : Chars)
  | textDelta (content : Chars)
  | textEnd (nextPartKind : Option String)
  | thinkingStart (content : Chars)
  | thinkingDelta (content : Chars)
  | thinkingEnd
  | toolCall (toolCallId toolName : String) (args : V)
  | toolResult (toolCallId : String) (retry : Bool) (content : Option V) (durationMs : Nat)
  | other

def excludedTool : String := "ask_student"

/-- `WRITE_TOOL_FAMILY_ACTION` -/
def writeTools : List (String × MutationFamily × MutationAction) :=
  [("create_tasks", .task, .create), ("update_task", .task, .update), ("archive_tasks", .task, .archive),
   ("restore_task", .task, .restore), ("add_schools", .school, .create), ("update_school", .school, .update),
   ("archive_schools", .school, .archive), ("restore_school", .school, .restore), ("create_essays", .essay, .create),
   ("update_essay", .essay, .update), ("duplicate_essay", .essay, .duplicate), ("archive_essays", .essay, .archive),
   ("restore_essay", .essay, .restore), ("edit_essay", .essayContent, .edit), ("write_essay", .essayContent, .write),
   ("create_activities", .activity, .create), ("update_activity", .activity, .update),
   ("archive_activities", .activity, .archive), ("restore_activity", .activity, .restore),
   ("reorder_activities", .activity, .reorder), ("create_honors", .honor, .create), ("update_honor", .honor, .update),
   ("archive_honors", .honor, .archive), ("restore_honor", .honor, .restore), ("reorder_honors", .honor, .reorder),
   ("update_profile", .profile, .update), ("remember", .memory, .remember), ("update_memory", .memory, .updateMemory),
   ("forget", .memory, .forget)]

def familyAction (toolName : String) : Option (MutationFamily × MutationAction) := writeTools.lookup toolName

section Router
variable {V : Type} (settings : Settings V)

def Router.new : Router V where
  stepRecords := []
  narrationLines := []
  thinkingLines := []
  finalAnswerStarted := false
  openSteps := []
  counter := 0
  textBuf := []
  thinkingBuf := []
  narrationStreamedLen := 0
  finalCandidate := false
  closed := false
  written := []

def Router.write (r : Router V) (chunk : Chunk V) : Router V := { r with written := r.written ++ [chunk] }

def unstreamedText (r : Router V) : Chars := r.textBuf.drop r.narrationStreamedLen

def clearTextBuffer (r : Router V) : Router V :=
  { r with textBuf := [], narrationStreamedLen := 0, finalCandidate := false }

def emitNarration (r : Router V) (text : Chars) : Router V :=
  let line := strip text
  if line = [] then r
  else { r.write (.narration line) with narrationLines := r.narrationLines ++ [line] }

def emitUnstreamedTextAsNarration (r : Router V) : Router V :=
  if unstreamedText r = [] then r
  else { emitNarration r (unstreamedText r) with narrationStreamedLen := r.textBuf.length }

def flushTextAsNarration (r : Router V) : Router V :=
  { emitUnstreamedTextAsNarration r with textBuf := [], narrationStreamedLen := 0 }

def flushTextDelta (r : Router V) : Router V :=
  if r.textBuf = [] then r
  else if unstreamedText r = [] then clearTextBuffer r
  else (clearTextBuffer r).write (.delta (unstreamedText r))

def startFinalAnswer (r : Router V) : Router V :=
  if r.finalAnswerStarted then r else { r with finalAnswerStarted := true, finalCandidate := false }

def emitThinking (r : Router V) (text : Chars) : Router V :=
  let line := strip text
  if line = [] ∨ settings.emitThinking = false then r
  else { r.write (.thinking line) with thinkingLines := r.thinkingLines ++ [line] }

/-- The paragraphs that end in an empty line, and what is behind the last of them. -/
def paragraphs : Chars → List Chars × Chars
  | [] => ([], [])
  | '\n' :: '\n' :: rest => ([] :: (paragraphs rest).1, (paragraphs rest).2)
  | c :: rest =>
    match paragraphs rest with
    | ([], behind) => ([], c :: behind)
    | (first :: more, behind) => ((c :: first) :: more, behind)

def feedThinking (r : Router V) (text : Chars) : Router V :=
  if text = [] then r
  else
    let (complete, behind) := paragraphs (r.thinkingBuf ++ text)
    { complete.foldl (emitThinking settings) r with thinkingBuf := behind }

def flushThinking (r : Router V) : Router V :=
  if r.thinkingBuf = [] then r else { emitThinking settings r r.thinkingBuf with thinkingBuf := [] }

def feedText (r : Router V) (text : Chars) : Router V :=
  if text = [] then r
  else if r.finalAnswerStarted then r.write (.delta text)
  else { r with textBuf := r.textBuf ++ text }

def handleFinalResult (r : Router V) : Router V :=
  if r.finalAnswerStarted then r
  else if r.textBuf = [] then startFinalAnswer r
  else if r.narrationStreamedLen = 0 then { r with finalCandidate := true }
  else
    let text := unstreamedText r
    let cleared := clearTextBuffer r
    { (if text = [] then cleared else emitNarration cleared text) with finalCandidate := true }

def handleRunResult (r : Router V) : Router V :=
  if r.finalAnswerStarted = true ∨ r.textBuf = [] then r
  else if unstreamedText r = [] then clearTextBuffer r
  else flushTextDelta (startFinalAnswer r)

/-- The text is the answer: what has not been streamed starts it. -/
def answerText (r : Router V) : Router V :=
  flushTextDelta (if r.finalAnswerStarted = false ∧ unstreamedText r ≠ [] then startFinalAnswer r else r)

def endTextPart (r : Router V) (nextPartKind : Option String) : Router V :=
  if r.textBuf = [] ∨ nextPartKind = some "text" then r
  else if r.finalAnswerStarted = true ∨ (r.finalCandidate = true ∧ (nextPartKind = none ∨ nextPartKind = some "thinking")) then
    answerText r
  else { flushTextAsNarration r with finalCandidate := false }

def emitStep (r : Router V) (data : StepData V) : Router V :=
  { r.write (.step data) with stepRecords := if data.status = .start then r.stepRecords else r.stepRecords ++ [data] }

def stepData (step : OpenStep V) (status : StepStatus) (label : String) (detail : Option (StepDetail V))
    (sources ui : Option V) : StepData V where
  stepId := step.stepId
  status
  kind := step.mapped.kind
  label
  tier := step.mapped.tier
  tool := step.mapped.tool
  detail
  sources
  ui

def startStep (r : Router V) (toolCallId toolName : String) (args : V) : Router V :=
  let r := { (if r.textBuf = [] then r else flushTextAsNarration r) with finalCandidate := false }
  if toolName = excludedTool ∨ toolName ∈ settings.unmounted ∨ settings.mapper.isVisible toolName = false then r
  else
    match settings.mapper.mapCall toolName args with
    | none => r
    | some mapped =>
      let counter := r.counter + 1
      let step : OpenStep V := ⟨"s" ++ toString counter, toolName, args, mapped⟩
      emitStep { r with counter, openSteps := Upsert.insertKey Prod.fst r.openSteps (toolCallId, step) }
        (stepData step .start mapped.label none none none)

def finishedData (step : OpenStep V) (retry : Bool) (result : Option V) (durationMs : Nat) : StepData V :=
  let content := if retry then none else result
  let errored := settings.mapper.resultIsError retry content
  let detail := settings.mapper.detailFor step.toolName step.args content durationMs
  let detail :=
    if errored ∧ detail.mutationContract = none then
      match familyAction step.toolName with
      | some (family, action) => { detail with mutationContract := some 1, mutation := some ⟨family, action, .failed⟩ }
      | none => detail
    else detail
  let sources := if errored then none else settings.mapper.sourcesFor step.toolName step.args content
  let ui := if errored then none else settings.mapper.uiFor step.toolName step.args content
  stepData step (if errored then .error else .finish)
    (settings.mapper.terminalLabel step.mapped step.args (some detail) errored retry) (some detail) sources ui

def finishStep (r : Router V) (toolCallId : String) (retry : Bool) (content : Option V) (durationMs : Nat) : Router V :=
  match r.openSteps.lookup toolCallId with
  | none => r
  | some step =>
    emitStep { r with openSteps := r.openSteps.filter (·.1 ≠ toolCallId) } (finishedData settings step retry content durationMs)

def handle (r : Router V) (event : StreamEvent V) : Router V :=
  if r.closed then r
  else
    match event with
    | .finalResult => handleFinalResult r
    | .runResult => handleRunResult r
    | .textStart content => feedText r content
    | .textDelta content => feedText r content
    | .textEnd nextPartKind => endTextPart r nextPartKind
    | .thinkingStart content => feedThinking settings r content
    | .thinkingDelta content => feedThinking settings r content
    | .thinkingEnd => flushThinking settings r
    | .toolCall toolCallId toolName args => startStep settings r toolCallId toolName args
    | .toolResult toolCallId retry content durationMs => finishStep settings r toolCallId retry content durationMs
    | .other => r

def beginIteration (r : Router V) : Router V :=
  { r with
    closed := false
    finalAnswerStarted := false
    finalCandidate := false
    textBuf := []
    thinkingBuf := []
    narrationStreamedLen := 0 }

def closedData (reason : CloseReason) (step : OpenStep V) : StepData V :=
  let status : StepStatus := if reason = .complete ∨ reason = .interrupt then .finish else .error
  match familyAction step.toolName with
  | some (family, action) =>
    let detail : StepDetail V := ⟨some 1, some ⟨family, action, .unknown⟩, none⟩
    stepData step .error (settings.mapper.terminalLabel step.mapped step.args (some detail) true false) (some detail) none none
  | none =>
    stepData step status
      (settings.mapper.terminalLabel step.mapped step.args none (status = .error) false) none none none

def closeText (r : Router V) (reason : CloseReason) : Router V :=
  if r.textBuf = [] then r
  else if r.finalAnswerStarted = true ∨ (reason = .complete ∧ r.finalCandidate = true) then answerText r
  else flushTextAsNarration r

def close (r : Router V) (reason : CloseReason) : Router V :=
  if r.closed then r
  else
    let r := flushThinking settings { r with closed := true }
    let r := { closeText r reason with finalCandidate := false }
    { (r.openSteps.foldl (fun r entry => emitStep r (closedData settings reason entry.2)) r) with openSteps := [] }

inductive Command (V : Type) where
  | begin
  | handle (event : StreamEvent V)
  | close (reason : CloseReason)

/-- The iterations begin after a close, or with nothing pending, and a call has an id that
no open call has. -/
def step (r : Router V) : Command V → Option (Router V)
  | .begin =>
    if r.closed = true ∨ (r.textBuf = [] ∧ r.thinkingBuf = [] ∧ r.openSteps = []) then some (beginIteration r) else none
  | .handle (.toolCall toolCallId toolName args) =>
    if r.closed = false ∧ (r.openSteps.lookup toolCallId).isSome then none
    else some (handle settings r (.toolCall toolCallId toolName args))
  | .handle event => some (handle settings r event)
  | .close reason => some (close settings r reason)

end Router

end Counselle.Turns.Emission

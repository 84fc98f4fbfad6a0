import Counselle.Receipts.Contract
import Counselle.Upsert

/-! `app/workspace_mutation_receipts.py`: the builders of the write receipts and what they are
given. Each cuts what it is given before a model is built. -/
namespace Counselle.Receipts
open CompactJson (Value)
open Fallible (validated)

def RECEIPT_MAX_BYTES := 6144
def BATCH_ITEMS_MAX := 20
def SUBJECTS_MAX := 20
def CHANGES_MAX := 20
def REORDER_MAX := 20
def NOTICES_MAX := 6
def TITLE_MAX_GRAPHEMES := 240
def REASON_MAX_GRAPHEMES := 240
def RECOVERY_MAX_GRAPHEMES := 320
def MEMORY_NOTE_MAX_GRAPHEMES := 200
def TEXT_LIST_MAX_ITEMS := 20

section Builders
-- `_GRAPHEME_RE.findall`
variable (graphemes : String → List String)

def clipped (text : String) (maxGraphemes : Nat) : String :=
  String.join ((graphemes text).take maxGraphemes)

def truncateGraphemes (text : String) (maxGraphemes : Nat) : String × Bool × Option Nat :=
  if (graphemes text).length ≤ maxGraphemes then (text, false, none)
  else (clipped graphemes text maxGraphemes, true, some (graphemes text).length)

def boundedDisplayText (text : String) (maxGraphemes : Nat) : Except String BoundedDisplayText :=
  let (shown, truncated, original) := truncateGraphemes graphemes text maxGraphemes
  validated (truncationProblem shown truncated original) fun consistent =>
    { text := shown, truncated, originalGraphemes := original, consistent }

def subject (title : String) (resourceRef : Option String) : Except String MutationSubject :=
  (boundedDisplayText graphemes title TITLE_MAX_GRAPHEMES).map fun title => { title, resourceRef }

def textValue (text : String) : Except String MutationValue :=
  (boundedDisplayText graphemes text TITLE_MAX_GRAPHEMES).map fun text =>
    { kind := .text, fields := { text := some text }, payload := rfl }

def enumValue (value : String) : MutationValue :=
  { kind := .enum, fields := { enum := some value }, payload := rfl }

def dateValue (value : String) : MutationValue :=
  { kind := .date, fields := { date := some value }, payload := rfl }

def booleanValue (value : Bool) : MutationValue :=
  { kind := .boolean, fields := { boolean := some value }, payload := rfl }

def referenceValue (ref : MutationSubject) : MutationValue :=
  { kind := .reference, fields := { reference := some ref }, payload := rfl }

def integerValue (value : Int) : MutationValue :=
  { kind := .integer, fields := { integer := some value }, payload := rfl }

def decimalValue (value : String) : MutationValue :=
  { kind := .decimal, fields := { decimal := some value }, payload := rfl }

def textListValue (items : List String) : MutationValue where
  kind := .textList
  fields := { listItems := some (items.take TEXT_LIST_MAX_ITEMS) }
  payload := rfl
  listed := by simp [TEXT_LIST_MAX_ITEMS]

def change (fieldKey : String) (operation : MutationChangeOperation)
    (before after : Option MutationValue) : Except String MutationChange :=
  validated (operationProblem operation before.isSome after.isSome) fun shaped =>
    { fieldKey, operation, before, after, shaped }

def batchItem (inputIndex : Nat) (disposition : ItemDisposition) (itemSubject : Option MutationSubject)
    (reason recovery : Option String) : Except String MutationItem := do
  let reason ← (reason.filter (· ≠ "")).mapM (boundedDisplayText graphemes · REASON_MAX_GRAPHEMES)
  let recovery ←
    (recovery.filter (· ≠ "")).mapM (boundedDisplayText graphemes · RECOVERY_MAX_GRAPHEMES)
  return { inputIndex, disposition, subject := itemSubject, reason, recovery }

def workspaceMutationReceipt (family : MutationFamily) (action : MutationAction)
    (outcome : MutationOutcome) (body : MutationBody) (notices : List MutationNotice)
    (omissions : MutationOmissions) : Except String WorkspaceMutationReceipt :=
  validated ((lengthProblem 0 6 notices.length).or (receiptProblem family action outcome body.kind))
    fun fine =>
      { family, action, outcome, body, notices, omissions,
        noticed := (Option.or_eq_none_iff.mp fine).1, allowed := (Option.or_eq_none_iff.mp fine).2 }

def reduceItemsForBounds (items : List MutationItem) : List MutationItem :=
  if items.length ≤ BATCH_ITEMS_MAX then items
  else
    (items.mapIdx fun index item =>
      if BATCH_ITEMS_MAX ≤ index then { item with subject := none, reason := none, recovery := none }
      else item).take BATCH_ITEMS_MAX

def outcomeForBatch (dispositions : List ItemDisposition) : MutationOutcome :=
  if dispositions.contains .unknown then .unknown
  else if !dispositions.contains .changed then
    if dispositions.all (· == .failed) then .failed else .noChange
  else if dispositions.any fun d => d == .failed || d == .skipped || d == .notAttempted then .partly
  else .success

def batchReceipt (family : MutationFamily) (action : MutationAction) (items : List MutationItem)
    (outcome : Option MutationOutcome) (notices : List MutationNotice) :
    Except String WorkspaceMutationReceipt := do
  let body ← validated (batchProblem (reduceItemsForBounds items)) fun valid =>
    MutationBody.batch (reduceItemsForBounds items) valid
  workspaceMutationReceipt family action
    (outcome.getD (outcomeForBatch (items.map MutationItem.disposition))) body
    (notices.take NOTICES_MAX) {}

def fitsBudget (receipt : WorkspaceMutationReceipt) : Bool :=
  receipt.dump.size ≤ RECEIPT_MAX_BYTES

/-- One round of the loop of `update_receipt`. -/
def updateAttempt (family : MutationFamily) (action : MutationAction) (outcome : MutationOutcome)
    (updateSubject : MutationSubject) (notices : List MutationNotice)
    (boundedChanges : List MutationChange) (omitted : Nat) : Except String WorkspaceMutationReceipt := do
  let body ← validated (lengthProblem 1 20 boundedChanges.length) fun valid =>
    MutationBody.update updateSubject boundedChanges valid
  workspaceMutationReceipt family action outcome body (notices.take NOTICES_MAX)
    { changes := omitted }

/-- The loop of `update_receipt`: the tail changes go until the receipt fits. -/
def reduceChanges (attempt : List MutationChange → Nat → Except String WorkspaceMutationReceipt)
    (boundedChanges : List MutationChange) (omitted : Nat) : Except String WorkspaceMutationReceipt :=
  match attempt boundedChanges omitted with
  | .error message => .error message
  | .ok receipt =>
    if fitsBudget receipt || boundedChanges.length ≤ 1 then .ok receipt
    else reduceChanges attempt boundedChanges.dropLast (omitted + 1)
termination_by boundedChanges.length
decreasing_by
  rename_i large
  simp only [Bool.or_eq_true, decide_eq_true_eq, not_or] at large
  simp only [List.length_dropLast]
  omega

def updateReceipt (family : MutationFamily) (action : MutationAction) (updateSubject : MutationSubject)
    (changes : List MutationChange) (outcome : MutationOutcome) (notices : List MutationNotice) :
    Except String WorkspaceMutationReceipt :=
  reduceChanges (updateAttempt family action outcome updateSubject notices)
    (changes.take CHANGES_MAX) 0

def stateTransitionReceipt (family : MutationFamily) (action : MutationAction)
    (state : StateTransitionState) (subjects : List MutationSubject) (outcome : MutationOutcome)
    (cascade : Option MutationNotice) : Except String WorkspaceMutationReceipt := do
  let body ← validated (lengthProblem 1 20 (subjects.take SUBJECTS_MAX).length) fun valid =>
    MutationBody.stateTransition state (subjects.take SUBJECTS_MAX) cascade valid
  workspaceMutationReceipt family action outcome body [] {}

def duplicateReceipt (family : MutationFamily) (source copy : MutationSubject) :
    Except String WorkspaceMutationReceipt :=
  workspaceMutationReceipt family .duplicate .success (.duplicate source copy) [] {}

def reorderReceipt (family : MutationFamily) (newOrder : List MutationSubject)
    (oldRanks : Option (List Nat)) (movedIndex movedFromRank : Option Nat)
    (outcome : MutationOutcome) : Except String WorkspaceMutationReceipt := do
  let body ← validated (reorderProblem (newOrder.take REORDER_MAX).length oldRanks movedFromRank)
    fun valid => .reorder (newOrder.take REORDER_MAX) oldRanks movedIndex movedFromRank valid
  workspaceMutationReceipt family .reorder outcome body [] {}

def essayEditOperation (kind : EssayEditOperationKind) (beforeWords afterWords : Nat)
    (paragraph word : Option Nat × Option Nat) : EssayEditOperation :=
  let location :=
    match paragraph, word with
    | (some start, some stop), _ => .paragraphRange start stop
    | _, (some start, some stop) => .wordRange start stop
    | _, _ => .unavailable
  { location, operation := kind, beforeWords, afterWords }

def essayEditReceipt (essaySubject : MutationSubject) (operations : List EssayEditOperation)
    (finalWordCount : Nat) (wordLimit : Option Nat) : Except String WorkspaceMutationReceipt := do
  let body ← validated (lengthProblem 1 20 (operations.take BATCH_ITEMS_MAX).length) fun valid =>
    .essayEdit essaySubject (operations.take BATCH_ITEMS_MAX) finalWordCount wordLimit valid
  workspaceMutationReceipt .essayContent .edit .success body [] {}

def essayWriteReceipt (essaySubject : MutationSubject) (mode : EssayWriteMode)
    (finalWordCount : Nat) (previousWordCount wordLimit : Option Nat) :
    Except String WorkspaceMutationReceipt :=
  workspaceMutationReceipt .essayContent .write .success
    (.essayWrite essaySubject mode previousWordCount finalWordCount wordLimit) [] {}

def profileSection (sectionKey sectionLabel : String) (changes : List MutationChange)
    (keyed : isSectionKey sectionKey = true) : Except String ProfileSectionChange :=
  validated (lengthProblem 1 20 (changes.take CHANGES_MAX).length) fun bounded =>
    { sectionKey, sectionLabel, changes := changes.take CHANGES_MAX, keyed, bounded }

def profileReceipt (sections : List ProfileSectionChange) : Except String WorkspaceMutationReceipt := do
  let body ← validated (lengthProblem 1 10 (sections.take 10).length) fun valid =>
    .profile (sections.take 10) valid
  workspaceMutationReceipt .profile .update .success body [] {}

def memoryReceipt (operation : MemoryOperation) (noteCount : Nat) (activeNotes : List String) :
    Except String WorkspaceMutationReceipt := do
  let notes ← activeNotes.mapM (boundedDisplayText graphemes · MEMORY_NOTE_MAX_GRAPHEMES)
  let body ← validated (memoryProblem operation noteCount notes.length) fun valid =>
    .memory operation noteCount notes valid
  workspaceMutationReceipt .memory operation.action .success body [] {}

def verificationByFamily : MutationFamily → UnresolvedVerification
  | .task => .taskList
  | .school => .schoolList
  | .essay | .essayContent => .essayList
  | .activity => .activityList
  | .honor => .honorList
  | .profile => .profile
  | .memory => .memoryList

def unresolvedReceipt (family : MutationFamily) (action : MutationAction) (outcome : MutationOutcome)
    (attemptedCount : Option Nat) : Except String WorkspaceMutationReceipt :=
  workspaceMutationReceipt family action outcome
    (.unresolved family (verificationByFamily family) attemptedCount) [] {}

end Builders

/-- `dict[key] = value` -/
def put (key : String) (value : Value) (dict : List (String × Value)) : List (String × Value) :=
  Upsert.upsert (fun entry => entry.1 == key) (fun _ => (key, value)) (key, value) dict

def attachMutation (payload : List (String × Value)) (receipt : WorkspaceMutationReceipt) :
    Except String (List (String × Value)) :=
  if RECEIPT_MAX_BYTES < receipt.dump.size then
    .error ("mutation receipt exceeds 6144 bytes (" ++ toString receipt.dump.size ++ " bytes)")
  else
    let existing := match payload.lookup "public_receipt" with
      | some (.object entries) => entries
      | _ => []
    .ok (put "mutation_contract" (.int 1)
      (put "public_receipt" (.object (put "mutation" receipt.dump existing)) payload))

end Counselle.Receipts

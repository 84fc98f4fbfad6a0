import Counselle.CompactJson
import Counselle.Fallible
import Mathlib.Data.List.Sort

/-! `domain/mutation_receipts.py`: the receipt of a write. A value of these types has passed
the validator of its model. -/
namespace Counselle.Receipts
open CompactJson (Value)

inductive MutationFamily where
  | task | school | essay | essayContent | activity | honor | profile | memory
deriving DecidableEq

def MutationFamily.word : MutationFamily → String
  | .task => "task"
  | .school => "school"
  | .essay => "essay"
  | .essayContent => "essay_content"
  | .activity => "activity"
  | .honor => "honor"
  | .profile => "profile"
  | .memory => "memory"

inductive MutationAction where
  | create | update | archive | restore | duplicate | reorder | edit | write | remember | updateMemory
  | forget
deriving DecidableEq

def MutationAction.word : MutationAction → String
  | .create => "create"
  | .update => "update"
  | .archive => "archive"
  | .restore => "restore"
  | .duplicate => "duplicate"
  | .reorder => "reorder"
  | .edit => "edit"
  | .write => "write"
  | .remember => "remember"
  | .updateMemory => "update_memory"
  | .forget => "forget"

inductive MutationOutcome where
  | success | noChange | partly | failed | unknown
deriving DecidableEq

def MutationOutcome.word : MutationOutcome → String
  | .success => "success"
  | .noChange => "no_change"
  | .partly => "partial"
  | .failed => "failed"
  | .unknown => "unknown"

inductive MutationBodyKind where
  | batch | update | stateTransition | duplicate | reorder | essayEdit | essayWrite | profile | memory
  | unresolved
deriving DecidableEq

def MutationBodyKind.word : MutationBodyKind → String
  | .batch => "batch"
  | .update => "update"
  | .stateTransition => "state_transition"
  | .duplicate => "duplicate"
  | .reorder => "reorder"
  | .essayEdit => "essay_edit"
  | .essayWrite => "essay_write"
  | .profile => "profile"
  | .memory => "memory"
  | .unresolved => "unresolved"

/-- `tuple` fields with `min_length` and `max_length`. -/
def lengthProblem (least most length : Nat) : Option String :=
  if length < least then some "too_short" else if most < length then some "too_long" else none

theorem lengthProblem_eq_none {least most length : Nat} :
    lengthProblem least most length = none ↔ least ≤ length ∧ length ≤ most := by
  simp only [lengthProblem]
  split
  · simp only [reduceCtorEq, false_iff]
    omega
  · split
    · simp only [reduceCtorEq, false_iff]
      omega
    · simp only [true_iff]
      omega

/-- `None` as `null`. -/
def nullable {A : Type} (dump : A → Value) : Option A → Value
  | none => .null
  | some a => dump a

def count (n : Nat) : Value := .int n

/-- `_truncation_consistency` -/
def truncationProblem (text : String) (truncated : Bool) (originalGraphemes : Option Nat) :
    Option String :=
  if truncated then
    match originalGraphemes with
    | some original =>
      if original ≤ text.length then
        some "truncated=True requires original_graphemes to exceed the serialized text's length"
      else none
    | none =>
      some "truncated=True requires original_graphemes to exceed the serialized text's length"
  else if originalGraphemes.isSome then
    some "truncated=False forbids a contradictory original_graphemes"
  else none

structure BoundedDisplayText where
  text : String
  truncated : Bool
  originalGraphemes : Option Nat
  consistent : truncationProblem text truncated originalGraphemes = none

def BoundedDisplayText.dump (display : BoundedDisplayText) : Value :=
  .object [("text", .text display.text), ("truncated", .bool display.truncated),
    ("original_graphemes", nullable count display.originalGraphemes)]

structure MutationSubject where
  title : BoundedDisplayText
  resourceRef : Option String

def MutationSubject.dump (subject : MutationSubject) : Value :=
  .object [("title", subject.title.dump), ("resource_ref", nullable .text subject.resourceRef)]

inductive MutationValueKind where
  | text | enum | enumList | textList | reference | referenceList | date | datetime | integer
  | decimal | boolean | count | wordBudget
deriving DecidableEq

def MutationValueKind.word : MutationValueKind → String
  | .text => "text"
  | .enum => "enum"
  | .enumList => "enum_list"
  | .textList => "text_list"
  | .reference => "reference"
  | .referenceList => "reference_list"
  | .date => "date"
  | .datetime => "datetime"
  | .integer => "integer"
  | .decimal => "decimal"
  | .boolean => "boolean"
  | .count => "count"
  | .wordBudget => "word_budget"

structure ValueFields where
  text : Option BoundedDisplayText := none
  enum : Option String := none
  listItems : Option (List String) := none
  reference : Option MutationSubject := none
  referenceList : Option (List MutationSubject) := none
  date : Option String := none
  datetime : Option String := none
  integer : Option Int := none
  decimal : Option String := none
  boolean : Option Bool := none
  count : Option Nat := none
  wordBudgetUsed : Option Nat := none
  wordBudgetLimit : Option Nat := none

def ValueFields.has (fields : ValueFields) : MutationValueKind → Bool
  | .text => fields.text.isSome
  | .enum => fields.enum.isSome
  | .enumList | .textList => fields.listItems.isSome
  | .reference => fields.reference.isSome
  | .referenceList => fields.referenceList.isSome
  | .date => fields.date.isSome
  | .datetime => fields.datetime.isSome
  | .integer => fields.integer.isSome
  | .decimal => fields.decimal.isSome
  | .boolean => fields.boolean.isSome
  | .count => fields.count.isSome
  | .wordBudget => fields.wordBudgetUsed.isSome

structure MutationValue where
  kind : MutationValueKind
  fields : ValueFields
  payload : fields.has kind = true
  listed : ∀ items ∈ fields.listItems, items.length ≤ 20 := by simp
  referenced : ∀ items ∈ fields.referenceList, items.length ≤ 20 := by simp

def MutationValue.dump (value : MutationValue) : Value :=
  .object [("kind", .text value.kind.word),
    ("text", nullable BoundedDisplayText.dump value.fields.text),
    ("enum", nullable .text value.fields.enum),
    ("list_items", nullable (fun items => .array (items.map .text)) value.fields.listItems),
    ("reference", nullable MutationSubject.dump value.fields.reference),
    ("reference_list",
      nullable (fun items => .array (items.map MutationSubject.dump)) value.fields.referenceList),
    ("date", nullable .text value.fields.date),
    ("datetime", nullable .text value.fields.datetime),
    ("integer", nullable .int value.fields.integer),
    ("decimal", nullable .text value.fields.decimal),
    ("boolean", nullable .bool value.fields.boolean),
    ("count", nullable Receipts.count value.fields.count),
    ("word_budget_used", nullable Receipts.count value.fields.wordBudgetUsed),
    ("word_budget_limit", nullable Receipts.count value.fields.wordBudgetLimit)]

inductive MutationChangeOperation where
  | set | clear | replace | delete | move | stateOnly
deriving DecidableEq

def MutationChangeOperation.word : MutationChangeOperation → String
  | .set => "set"
  | .clear => "clear"
  | .replace => "replace"
  | .delete => "delete"
  | .move => "move"
  | .stateOnly => "state_only"

/-- `_operation_shape`, of whether the change has a value before and one after. -/
def operationProblem (operation : MutationChangeOperation) (before after : Bool) : Option String :=
  match operation with
  | .set => if !after then some "operation='set' requires after" else none
  | .clear | .delete =>
    if before || after then
      some ("operation='" ++ operation.word ++ "' must not carry before/after values")
    else none
  | .replace => if !after then some "operation='replace' requires after" else none
  | .move =>
    if !before || !after then some "operation='move' requires typed before/after ranks" else none
  | .stateOnly => if before || after then some "operation='state_only' carries no value" else none

structure MutationChange where
  fieldKey : String
  operation : MutationChangeOperation
  before : Option MutationValue
  after : Option MutationValue
  shaped : operationProblem operation before.isSome after.isSome = none

def MutationChange.dump (change : MutationChange) : Value :=
  .object [("field_key", .text change.fieldKey), ("operation", .text change.operation.word),
    ("before", nullable MutationValue.dump change.before),
    ("after", nullable MutationValue.dump change.after)]

inductive NoticeKind where
  | info | warning

def NoticeKind.word : NoticeKind → String
  | .info => "info"
  | .warning => "warning"

def lowercase (c : Char) : Bool := 'a'.toNat ≤ c.toNat && c.toNat ≤ 'z'.toNat

/-- `^[a-z0-9_-]{1,64}$` -/
def isNoticeCode (code : String) : Bool :=
  code.toList.all (fun c => lowercase c || c.isDigit || c == '_' || c == '-') &&
    1 ≤ code.length && code.length ≤ 64

structure MutationNotice where
  kind : NoticeKind
  code : String
  message : BoundedDisplayText
  coded : isNoticeCode code = true

def MutationNotice.dump (notice : MutationNotice) : Value :=
  .object [("kind", .text notice.kind.word), ("code", .text notice.code),
    ("message", notice.message.dump)]

inductive ItemDisposition where
  | changed | unchanged | skipped | failed | notAttempted | unknown
deriving DecidableEq

def ItemDisposition.word : ItemDisposition → String
  | .changed => "changed"
  | .unchanged => "unchanged"
  | .skipped => "skipped"
  | .failed => "failed"
  | .notAttempted => "not_attempted"
  | .unknown => "unknown"

structure MutationItem where
  inputIndex : Nat
  disposition : ItemDisposition
  subject : Option MutationSubject
  reason : Option BoundedDisplayText
  recovery : Option BoundedDisplayText

def MutationItem.dump (item : MutationItem) : Value :=
  .object [("input_index", count item.inputIndex), ("disposition", .text item.disposition.word),
    ("subject", nullable MutationSubject.dump item.subject),
    ("reason", nullable BoundedDisplayText.dump item.reason),
    ("recovery", nullable BoundedDisplayText.dump item.recovery)]

structure MutationOmissions where
  subjects : Nat := 0
  changes : Nat := 0
  itemDetails : Nat := 0
  notices : Nat := 0
  editOperations : Nat := 0
deriving DecidableEq

def MutationOmissions.dump (omissions : MutationOmissions) : Value :=
  .object [("subjects", count omissions.subjects), ("changes", count omissions.changes),
    ("item_details", count omissions.itemDetails), ("notices", count omissions.notices),
    ("edit_operations", count omissions.editOperations)]

inductive StateTransitionState where
  | created | restored | archived

def StateTransitionState.word : StateTransitionState → String
  | .created => "created"
  | .restored => "restored"
  | .archived => "archived"

/-- The builder leaves `start` and `end` out where the location is unavailable. -/
inductive EssayEditLocation where
  | paragraphRange (start stop : Nat)
  | wordRange (start stop : Nat)
  | unavailable

def EssayEditLocation.dump : EssayEditLocation → Value
  | .paragraphRange start stop =>
    .object [("kind", .text "paragraph_range"), ("start", count start), ("end", count stop)]
  | .wordRange start stop =>
    .object [("kind", .text "word_range"), ("start", count start), ("end", count stop)]
  | .unavailable => .object [("kind", .text "unavailable"), ("start", .null), ("end", .null)]

inductive EssayEditOperationKind where
  | insert | delete | replace

def EssayEditOperationKind.word : EssayEditOperationKind → String
  | .insert => "insert"
  | .delete => "delete"
  | .replace => "replace"

structure EssayEditOperation where
  location : EssayEditLocation
  operation : EssayEditOperationKind
  beforeWords : Nat
  afterWords : Nat

def EssayEditOperation.dump (edit : EssayEditOperation) : Value :=
  .object [("location", edit.location.dump), ("operation", .text edit.operation.word),
    ("before_words", count edit.beforeWords), ("after_words", count edit.afterWords)]

inductive EssayWriteMode where
  | drafted | replaced

def EssayWriteMode.word : EssayWriteMode → String
  | .drafted => "drafted"
  | .replaced => "replaced"

/-- `^[a-z][a-z0-9_]*$` -/
def isSectionKey (key : String) : Bool :=
  key.toList.head?.any lowercase &&
    key.toList.all (fun c => lowercase c || c.isDigit || c == '_')

structure ProfileSectionChange where
  sectionKey : String
  sectionLabel : String
  changes : List MutationChange
  keyed : isSectionKey sectionKey = true
  bounded : lengthProblem 1 20 changes.length = none

def ProfileSectionChange.dump (change : ProfileSectionChange) : Value :=
  .object [("section_key", .text change.sectionKey), ("section_label", .text change.sectionLabel),
    ("changes", .array (change.changes.map MutationChange.dump))]

inductive MemoryOperation where
  | remember | updateMemory | forget
deriving DecidableEq

def MemoryOperation.action : MemoryOperation → MutationAction
  | .remember => .remember
  | .updateMemory => .updateMemory
  | .forget => .forget

/-- `_contiguous_unique_indices`, behind the bounds of the tuple. -/
def batchProblem (items : List MutationItem) : Option String :=
  (lengthProblem 1 20 items.length).or <|
    if (items.map MutationItem.inputIndex).insertionSort (· ≤ ·) ≠ List.range items.length then
      some "items must have contiguous, unique input_index values from 0"
    else none

/-- `_old_ranks_shape`, behind the bounds of the fields. -/
def reorderProblem (subjects : Nat) (oldRanks : Option (List Nat)) (movedFromRank : Option Nat) :
    Option String :=
  (lengthProblem 1 20 subjects).or <|
    (if movedFromRank = some 0 then some "greater_than_equal" else none).or <|
      if oldRanks.any (·.length != subjects) then
        some "old_ranks must have one entry per new_order subject"
      else none

/-- `_forget_carries_no_content`, behind the bounds of the fields. -/
def memoryProblem (operation : MemoryOperation) (noteCount activeNotes : Nat) : Option String :=
  (if noteCount < 1 then some "greater_than_equal" else none).or <|
    (lengthProblem 0 20 activeNotes).or <|
      if operation = .forget then
        if activeNotes ≠ 0 then some "forget must not carry note content" else none
      else if activeNotes = 0 then
        some ("operation='" ++ operation.action.word ++ "' requires active_notes")
      else if activeNotes ≠ noteCount then some "active_notes length must match note_count"
      else none

inductive UnresolvedVerification where
  | taskList | schoolList | essayList | activityList | honorList | profile | memoryList

def UnresolvedVerification.word : UnresolvedVerification → String
  | .taskList => "task_list"
  | .schoolList => "school_list"
  | .essayList => "essay_list"
  | .activityList => "activity_list"
  | .honorList => "honor_list"
  | .profile => "profile"
  | .memoryList => "memory_list"

inductive MutationBody where
  | batch (items : List MutationItem) (valid : batchProblem items = none)
  | update (subject : MutationSubject) (changes : List MutationChange)
      (valid : lengthProblem 1 20 changes.length = none)
  | stateTransition (state : StateTransitionState) (subjects : List MutationSubject)
      (cascade : Option MutationNotice) (valid : lengthProblem 1 20 subjects.length = none)
  | duplicate (source copy : MutationSubject)
  | reorder (newOrder : List MutationSubject) (oldRanks : Option (List Nat))
      (movedIndex movedFromRank : Option Nat)
      (valid : reorderProblem newOrder.length oldRanks movedFromRank = none)
  | essayEdit (subject : MutationSubject) (operations : List EssayEditOperation)
      (finalWordCount : Nat) (wordLimit : Option Nat)
      (valid : lengthProblem 1 20 operations.length = none)
  | essayWrite (subject : MutationSubject) (mode : EssayWriteMode) (previousWordCount : Option Nat)
      (finalWordCount : Nat) (wordLimit : Option Nat)
  | profile (sections : List ProfileSectionChange) (valid : lengthProblem 1 10 sections.length = none)
  | memory (operation : MemoryOperation) (noteCount : Nat) (activeNotes : List BoundedDisplayText)
      (valid : memoryProblem operation noteCount activeNotes.length = none)
  | unresolved (family : MutationFamily) (verification : UnresolvedVerification)
      (attemptedCount : Option Nat)

def MutationBody.kind : MutationBody → MutationBodyKind
  | .batch .. => .batch
  | .update .. => .update
  | .stateTransition .. => .stateTransition
  | .duplicate .. => .duplicate
  | .reorder .. => .reorder
  | .essayEdit .. => .essayEdit
  | .essayWrite .. => .essayWrite
  | .profile .. => .profile
  | .memory .. => .memory
  | .unresolved .. => .unresolved

/-- The fields behind the kind, in the order of the model. -/
def MutationBody.members : MutationBody → List (String × Value)
  | .batch items _ => [("items", .array (items.map MutationItem.dump))]
  | .update subject changes _ =>
    [("subject", subject.dump), ("changes", .array (changes.map MutationChange.dump))]
  | .stateTransition state subjects cascade _ =>
    [("state", .text state.word), ("subjects", .array (subjects.map MutationSubject.dump)),
      ("cascade", nullable MutationNotice.dump cascade)]
  | .duplicate source copy => [("source", source.dump), ("copy", copy.dump)]
  | .reorder newOrder oldRanks movedIndex movedFromRank _ =>
    [("new_order", .array (newOrder.map MutationSubject.dump)),
      ("old_ranks", nullable (fun ranks => .array (ranks.map count)) oldRanks),
      ("moved_index", nullable count movedIndex),
      ("moved_from_rank", nullable count movedFromRank)]
  | .essayEdit subject operations finalWordCount wordLimit _ =>
    [("subject", subject.dump), ("operations", .array (operations.map EssayEditOperation.dump)),
      ("final_word_count", count finalWordCount), ("word_limit", nullable count wordLimit)]
  | .essayWrite subject mode previousWordCount finalWordCount wordLimit =>
    [("subject", subject.dump), ("mode", .text mode.word),
      ("previous_word_count", nullable count previousWordCount),
      ("final_word_count", count finalWordCount), ("word_limit", nullable count wordLimit)]
  | .profile sections _ => [("sections", .array (sections.map ProfileSectionChange.dump))]
  | .memory operation noteCount activeNotes _ =>
    [("operation", .text operation.action.word), ("note_count", count noteCount),
      ("active_notes", .array (activeNotes.map BoundedDisplayText.dump))]
  | .unresolved family verification attemptedCount =>
    [("family", .text family.word), ("verification", .text verification.word),
      ("attempted_count", nullable count attemptedCount)]

def MutationBody.dump (body : MutationBody) : Value :=
  .object (("kind", .text body.kind.word) :: body.members)

def allowedBodyKinds : MutationFamily → MutationAction → Option (List MutationBodyKind)
  | .task, .create | .school, .create | .essay, .create | .activity, .create | .honor, .create
  | .task, .archive | .school, .archive | .essay, .archive | .activity, .archive
  | .honor, .archive => some [.batch]
  | .task, .update | .school, .update | .essay, .update | .activity, .update
  | .honor, .update => some [.update]
  | .task, .restore | .school, .restore | .essay, .restore | .activity, .restore
  | .honor, .restore => some [.stateTransition]
  | .essay, .duplicate => some [.duplicate]
  | .essayContent, .edit => some [.essayEdit]
  | .essayContent, .write => some [.essayWrite]
  | .activity, .reorder | .honor, .reorder => some [.reorder]
  | .profile, .update => some [.profile]
  | .memory, .remember | .memory, .updateMemory | .memory, .forget => some [.memory]
  | _, _ => none

/-- `_family_action_body_allowed` -/
def receiptProblem (family : MutationFamily) (action : MutationAction) (outcome : MutationOutcome)
    (kind : MutationBodyKind) : Option String :=
  if kind = .unresolved then
    if outcome ≠ .failed ∧ outcome ≠ .unknown then
      some "an unresolved body is only valid for failed/unknown outcomes"
    else none
  else if outcome = .unknown then some "outcome='unknown' must use an unresolved body"
  else
    match allowedBodyKinds family action with
    | none =>
      some ("family='" ++ family.word ++ "', action='" ++ action.word ++ "' is not a valid pair")
    | some kinds =>
      if kind ∈ kinds then none
      else
        some ("family='" ++ family.word ++ "', action='" ++ action.word ++ "' cannot use body.kind='" ++
          kind.word ++ "'")

structure WorkspaceMutationReceipt where
  family : MutationFamily
  action : MutationAction
  outcome : MutationOutcome
  body : MutationBody
  notices : List MutationNotice
  omissions : MutationOmissions
  noticed : lengthProblem 0 6 notices.length = none
  allowed : receiptProblem family action outcome body.kind = none

/-- `model_dump(mode="json", by_alias=True)` -/
def WorkspaceMutationReceipt.dump (receipt : WorkspaceMutationReceipt) : Value :=
  .object [("v", .int 1), ("family", .text receipt.family.word),
    ("action", .text receipt.action.word), ("outcome", .text receipt.outcome.word),
    ("body", receipt.body.dump), ("notices", .array (receipt.notices.map MutationNotice.dump)),
    ("omissions", receipt.omissions.dump)]

end Counselle.Receipts

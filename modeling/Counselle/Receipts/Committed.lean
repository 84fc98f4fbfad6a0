import Counselle.Receipts.Builders

/-! What the write tools commit and report: the arguments of each builder as the services return
them, the receipt built from them, and when a committed write has kept its receipt. -/
namespace Counselle.Receipts
open CompactJson (Value)

/-- The arguments of `subject`. -/
structure Named where
  title : String
  resourceRef : Option String

/-- One argument of `change`, in front of its value builder. -/
inductive TypedValue where
  | text (text : String)
  | enum (value : String)
  | date (value : String)
  | boolean (value : Bool)
  | reference (ref : Named)
  | integer (value : Int)
  | decimal (value : String)
  | textList (items : List String)

/-- A changed field: its operation comes with the values it requires. -/
structure FieldChange where
  fieldKey : String
  operation : MutationChangeOperation
  before : Option TypedValue
  after : Option TypedValue
  shaped : operationProblem operation before.isSome after.isSome = none

structure Notice where
  kind : NoticeKind
  code : String
  message : String
  coded : isNoticeCode code = true

structure ItemResult where
  disposition : ItemDisposition
  subject : Option Named
  reason : Option String
  recovery : Option String

/-- The arguments of `essay_edit_operation`. -/
structure AppliedEdit where
  kind : EssayEditOperationKind
  beforeWords : Nat
  afterWords : Nat
  paragraph : Option Nat × Option Nat
  word : Option Nat × Option Nat

structure SectionChange where
  sectionKey : String
  sectionLabel : String
  changes : List FieldChange
  keyed : isSectionKey sectionKey = true
  changed : changes ≠ []

/-- A committed write, one constructor a body kind, with what its builder is given. A family and
action come with the body kind they allow, a batch has 1 to 20 positions. -/
inductive Committed where
  | batch (family : MutationFamily) (action : MutationAction) (items : List ItemResult)
      (outcome : Option MutationOutcome) (notices : List Notice)
      (paired : allowedBodyKinds family action = some [.batch])
      (sized : 1 ≤ items.length ∧ items.length ≤ 20)
  | update (family : MutationFamily) (action : MutationAction) (subject : Named)
      (changes : List FieldChange) (outcome : MutationOutcome) (notices : List Notice)
      (paired : allowedBodyKinds family action = some [.update]) (changed : changes ≠ [])
  | stateTransition (family : MutationFamily) (action : MutationAction)
      (state : StateTransitionState) (subjects : List Named) (outcome : MutationOutcome)
      (cascade : Option Notice) (paired : allowedBodyKinds family action = some [.stateTransition])
      (sized : 1 ≤ subjects.length ∧ subjects.length ≤ 20)
  | duplicate (family : MutationFamily) (source copy : Named)
      (paired : allowedBodyKinds family .duplicate = some [.duplicate])
  | reorder (family : MutationFamily) (newOrder : List Named) (oldRanks : Option (List Nat))
      (movedIndex movedFromRank : Option Nat) (outcome : MutationOutcome)
      (paired : allowedBodyKinds family .reorder = some [.reorder])
      (sized : 1 ≤ newOrder.length ∧ newOrder.length ≤ 20)
      (ranked : ∀ ranks ∈ oldRanks, ranks.length = newOrder.length) (placed : movedFromRank ≠ some 0)
  | essayEdit (subject : Named) (operations : List AppliedEdit) (finalWordCount : Nat)
      (wordLimit : Option Nat) (sized : 1 ≤ operations.length ∧ operations.length ≤ 20)
  | essayWrite (subject : Named) (mode : EssayWriteMode) (finalWordCount : Nat)
      (previousWordCount wordLimit : Option Nat)
  | profile (sections : List SectionChange) (sized : 1 ≤ sections.length ∧ sections.length ≤ 10)
  | memory (operation : MemoryOperation) (noteCount : Nat) (activeNotes : List String)
      (counted : memoryProblem operation noteCount activeNotes.length = none)
  | unresolved (family : MutationFamily) (action : MutationAction) (outcome : MutationOutcome)
      (attemptedCount : Option Nat) (terminal : outcome = .failed ∨ outcome = .unknown)

section Build
variable (graphemes : String → List String)

def Named.build (named : Named) : Except String MutationSubject :=
  subject graphemes named.title named.resourceRef

def TypedValue.build : TypedValue → Except String MutationValue
  | .text written => textValue graphemes written
  | .enum value => .ok (enumValue value)
  | .date day => .ok (dateValue day)
  | .boolean value => .ok (booleanValue value)
  | .reference ref => (ref.build graphemes).map referenceValue
  | .integer value => .ok (integerValue value)
  | .decimal value => .ok (decimalValue value)
  | .textList items => .ok (textListValue items)

def FieldChange.build (field : FieldChange) : Except String MutationChange := do
  let before ← field.before.mapM (TypedValue.build graphemes)
  let after ← field.after.mapM (TypedValue.build graphemes)
  change field.fieldKey field.operation before after

def Notice.build (notice : Notice) : Except String MutationNotice :=
  (boundedDisplayText graphemes notice.message TITLE_MAX_GRAPHEMES).map fun message =>
    { kind := notice.kind, code := notice.code, message, coded := notice.coded }

def ItemResult.build (position : ItemResult × Nat) : Except String MutationItem := do
  let itemSubject ← position.1.subject.mapM (Named.build graphemes)
  batchItem graphemes position.2 position.1.disposition itemSubject position.1.reason
    position.1.recovery

def AppliedEdit.operation (edit : AppliedEdit) : EssayEditOperation :=
  essayEditOperation edit.kind edit.beforeWords edit.afterWords edit.paragraph edit.word

def SectionChange.build (change : SectionChange) : Except String ProfileSectionChange := do
  let changes ← change.changes.mapM (FieldChange.build graphemes)
  profileSection change.sectionKey change.sectionLabel changes change.keyed

def Committed.receipt : Committed → Except String WorkspaceMutationReceipt
  | .batch family action items outcome notices _ _ => do
    let items ← items.zipIdx.mapM (ItemResult.build graphemes)
    let notices ← notices.mapM (Notice.build graphemes)
    batchReceipt family action items outcome notices
  | .update family action subject changes outcome notices _ _ => do
    let changes ← changes.mapM (FieldChange.build graphemes)
    let subject ← subject.build graphemes
    let notices ← notices.mapM (Notice.build graphemes)
    updateReceipt family action subject changes outcome notices
  | .stateTransition family action state subjects outcome cascade _ _ => do
    let subjects ← subjects.mapM (Named.build graphemes)
    let cascade ← cascade.mapM (Notice.build graphemes)
    stateTransitionReceipt family action state subjects outcome cascade
  | .duplicate family source copy _ => do
    let source ← source.build graphemes
    let copy ← copy.build graphemes
    duplicateReceipt family source copy
  | .reorder family newOrder oldRanks movedIndex movedFromRank outcome _ _ _ _ => do
    let newOrder ← newOrder.mapM (Named.build graphemes)
    reorderReceipt family newOrder oldRanks movedIndex movedFromRank outcome
  | .essayEdit subject operations finalWordCount wordLimit _ => do
    let subject ← subject.build graphemes
    essayEditReceipt subject (operations.map AppliedEdit.operation) finalWordCount wordLimit
  | .essayWrite subject mode finalWordCount previousWordCount wordLimit => do
    let subject ← subject.build graphemes
    essayWriteReceipt subject mode finalWordCount previousWordCount wordLimit
  | .profile sections _ => do
    let sections ← sections.mapM (SectionChange.build graphemes)
    profileReceipt sections
  | .memory operation noteCount activeNotes _ =>
    memoryReceipt graphemes operation noteCount activeNotes
  | .unresolved family action outcome attemptedCount _ =>
    unresolvedReceipt family action outcome attemptedCount

end Build

abbrev Detail := MutationOmissions

def Detail.add (first second : Detail) : Detail where
  subjects := first.subjects + second.subjects
  changes := first.changes + second.changes
  itemDetails := first.itemDetails + second.itemDetails
  notices := first.notices + second.notices
  editOperations := first.editOperations + second.editOperations

def parts (subject reason recovery : Bool) : Nat :=
  subject.toNat + reason.toNat + recovery.toNat

def MutationValue.listed? (value : MutationValue) : Nat := (value.fields.listItems.getD []).length

def TypedValue.listed? : TypedValue → Nat
  | .textList items => items.length
  | _ => 0

def MutationChange.lists (change : MutationChange) : Option Nat × Option Nat :=
  (change.before.map MutationValue.listed?, change.after.map MutationValue.listed?)

def FieldChange.lists (field : FieldChange) : Option Nat × Option Nat :=
  (field.before.map TypedValue.listed?, field.after.map TypedValue.listed?)

def MutationBody.changes : MutationBody → List (List MutationChange)
  | .update _ changes _ => [changes]
  | .profile sections _ => sections.map ProfileSectionChange.changes
  | _ => []

def Committed.changes : Committed → List (List FieldChange)
  | .update _ _ _ changes _ _ _ _ => [changes]
  | .profile sections _ => sections.map SectionChange.changes
  | _ => []

def MutationBody.detail : MutationBody → Detail
  | .batch items _ =>
    { itemDetails := (items.map fun item =>
        parts item.subject.isSome item.reason.isSome item.recovery.isSome).sum }
  | .update _ changes _ => { changes := changes.length }
  | .stateTransition _ subjects _ _ => { subjects := subjects.length }
  | .reorder newOrder _ _ _ _ => { subjects := newOrder.length }
  | .essayEdit _ operations _ _ _ => { editOperations := operations.length }
  | .profile sections _ => { changes := (sections.map fun change => change.changes.length).sum }
  | .duplicate .. | .essayWrite .. | .memory .. | .unresolved .. => {}

def ItemResult.parts (item : ItemResult) : Nat :=
  Receipts.parts item.subject.isSome (item.reason.filter (· ≠ "")).isSome
    (item.recovery.filter (· ≠ "")).isSome

def Committed.detail : Committed → Detail
  | .batch _ _ items _ notices _ _ =>
    { itemDetails := (items.map ItemResult.parts).sum, notices := notices.length }
  | .update _ _ _ changes _ notices _ _ => { changes := changes.length, notices := notices.length }
  | .stateTransition _ _ _ subjects _ _ _ _ => { subjects := subjects.length }
  | .reorder _ newOrder _ _ _ _ _ _ _ _ => { subjects := newOrder.length }
  | .essayEdit _ operations _ _ _ => { editOperations := operations.length }
  | .profile sections _ => { changes := (sections.map fun change => change.changes.length).sum }
  | .duplicate .. | .essayWrite .. | .memory .. | .unresolved .. => {}

def WorkspaceMutationReceipt.detail (receipt : WorkspaceMutationReceipt) : Detail :=
  { receipt.body.detail with notices := receipt.notices.length }

/-- Every requested position in order, with what became of it. -/
def Committed.positions : Committed → List (Nat × ItemDisposition)
  | .batch _ _ items _ _ _ _ => items.zipIdx.map fun (item, index) => (index, item.disposition)
  | _ => []

def MutationBody.positions : MutationBody → List (Nat × ItemDisposition)
  | .batch items _ => items.map fun item => (item.inputIndex, item.disposition)
  | _ => []

/-- The receipt answers every position, what it leaves out is what its omissions count, and a list
value it shows is whole. -/
structure Accounted (write : Committed) (receipt : WorkspaceMutationReceipt) : Prop where
  answered : receipt.body.positions = write.positions
  counted : receipt.detail.add receipt.omissions = write.detail
  whole : List.Forall₂ (fun shown asked => shown.map MutationChange.lists =
    (asked.take shown.length).map FieldChange.lists) receipt.body.changes write.changes

/-- `payload["public_receipt"]["mutation"]` -/
def mutationOf (payload : List (String × Value)) : Option Value :=
  match payload.lookup "public_receipt" with
  | some (.object entries) => entries.lookup "mutation"
  | _ => none

/-- The receipt of the write is built and attached within the budget, and accounts for it. -/
def Kept (graphemes : String → List String) (payload : List (String × Value)) (write : Committed) :
    Prop :=
  ∃ receipt attached, write.receipt graphemes = .ok receipt ∧
    attachMutation payload receipt = .ok attached ∧
    mutationOf attached = some receipt.dump ∧ receipt.dump.size ≤ RECEIPT_MAX_BYTES ∧
    Accounted write receipt

end Counselle.Receipts

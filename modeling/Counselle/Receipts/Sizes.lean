import Counselle.Receipts.Committed

/-! The bytes of a receipt from what it is built of: one formula for each model, and for each
builder when it succeeds and that its result takes these bytes. -/
namespace Counselle.Receipts
open CompactJson
open Fallible (Yields)

section Sizes
variable (graphemes : String → List String)

/-- The text stays whole, or what stays of it has fewer code points than the text has graphemes. -/
def Legible (text : String) (maxGraphemes : Nat) : Prop :=
  (graphemes text).length ≤ maxGraphemes ∨
    (clipped graphemes text maxGraphemes).length < (graphemes text).length

def textBytes (text : String) (maxGraphemes : Nat) : Nat :=
  if (graphemes text).length ≤ maxGraphemes then 53 + quoted text
  else 48 + quoted (clipped graphemes text maxGraphemes) + digits (graphemes text).length

def nullableBytes {A : Type} (bytes : A → Nat) : Option A → Nat
  | none => 4
  | some a => bytes a

theorem size_nullable {A : Type} (dump : A → Value) (item : Option A) :
    (nullable dump item).size = nullableBytes (fun a => (dump a).size) item := by
  cases item with
  | none => exact size_null
  | some a => rfl

theorem size_nullable_text (item : Option String) :
    (nullable .text item).size = nullableBytes quoted item := by
  rw [size_nullable, funext size_text]

theorem size_nullable_int (item : Option Int) :
    (nullable .int item).size = nullableBytes digits item := by
  rw [size_nullable, funext size_int]

theorem size_texts (items : List String) : (items.map Value.text).map Value.size = items.map quoted := by
  rw [List.map_map, ← funext size_text]
  rfl

theorem size_count (n : Nat) : (count n).size = digits n := size_int n

theorem truncation_fine_iff {shown : String} {original : Nat} :
    truncationProblem shown true (some original) = none ↔ shown.length < original := by
  simp [truncationProblem]

theorem size_display (display : BoundedDisplayText) : display.dump.size =
    44 + quoted display.text + (if display.truncated then 4 else 5) +
      nullableBytes (fun n : Nat => digits n) display.originalGraphemes := by
  have keys : quoted "text" = 6 ∧ quoted "truncated" = 11 ∧ quoted "original_graphemes" = 20 := by
    decide
  obtain ⟨text, truncated, original⟩ := keys
  simp only [BoundedDisplayText.dump, size_object, List.map_cons, List.map_nil, member, enclosed_cons,
    size_text, size_bool, size_nullable, size_count, List.sum_cons, List.sum_nil, text, truncated,
    original]
  omega

theorem boundedDisplayText_yields (text : String) (maxGraphemes : Nat) :
    Yields (boundedDisplayText graphemes text maxGraphemes) (Legible graphemes text maxGraphemes)
      (fun display => display.dump.size = textBytes graphemes text maxGraphemes) := by
  simp only [boundedDisplayText, truncateGraphemes]
  split
  · rename_i short
    refine (Yields.validated fun fine => ?_).congr ?_
    · rw [size_display]
      simp only [textBytes, short, if_true, Bool.false_eq_true, if_false, nullableBytes]
      omega
    · simp only [Legible, short, true_or, iff_true]
      rfl
  · rename_i long
    refine (Yields.validated fun fine => ?_).congr ?_
    · rw [size_display]
      simp only [textBytes, long, if_false, if_true, nullableBytes]
      omega
    · simp only [long, if_false, truncation_fine_iff, Legible, false_or]

def Named.Legible (named : Named) : Prop := Receipts.Legible graphemes named.title TITLE_MAX_GRAPHEMES

def namedBytes (named : Named) : Nat :=
  26 + textBytes graphemes named.title TITLE_MAX_GRAPHEMES + nullableBytes quoted named.resourceRef

theorem named_yields (named : Named) : Yields (named.build graphemes) (named.Legible graphemes)
    (fun subject => subject.dump.size = namedBytes graphemes named) := by
  refine (boundedDisplayText_yields graphemes named.title TITLE_MAX_GRAPHEMES).map
    fun title sized => ?_
  have keys : quoted "title" = 7 ∧ quoted "resource_ref" = 14 := by decide
  simp only [MutationSubject.dump, size_object, List.map_cons, List.map_nil, member, enclosed_cons,
    size_nullable_text, List.sum_cons, List.sum_nil, sized, namedBytes, keys.1, keys.2]
  omega

def TypedValue.Legible : TypedValue → Prop
  | .text written => Receipts.Legible graphemes written TITLE_MAX_GRAPHEMES
  | .reference ref => ref.Legible graphemes
  | _ => True

def TypedValue.kind : TypedValue → MutationValueKind
  | .text _ => .text
  | .enum _ => .enum
  | .date _ => .date
  | .boolean _ => .boolean
  | .reference _ => .reference
  | .integer _ => .integer
  | .decimal _ => .decimal
  | .textList _ => .textList

def payloadBytes : TypedValue → Nat
  | .text written => textBytes graphemes written TITLE_MAX_GRAPHEMES
  | .enum value | .date value | .decimal value => quoted value
  | .boolean value => if value then 4 else 5
  | .reference ref => namedBytes graphemes ref
  | .integer value => digits value
  | .textList items => enclosed ((items.take TEXT_LIST_MAX_ITEMS).map quoted)

def valueBytes (value : TypedValue) : Nat :=
  221 + quoted value.kind.word + payloadBytes graphemes value

theorem size_value (value : MutationValue) : value.dump.size =
    173 + quoted value.kind.word +
      nullableBytes (fun text => text.dump.size) value.fields.text +
      nullableBytes quoted value.fields.enum +
      nullableBytes (fun items => enclosed (items.map quoted)) value.fields.listItems +
      nullableBytes (fun ref => ref.dump.size) value.fields.reference +
      nullableBytes (fun refs => enclosed (refs.map fun ref => ref.dump.size))
        value.fields.referenceList +
      nullableBytes quoted value.fields.date + nullableBytes quoted value.fields.datetime +
      nullableBytes digits value.fields.integer + nullableBytes quoted value.fields.decimal +
      nullableBytes (fun b => if b then 4 else 5) value.fields.boolean +
      nullableBytes (fun n : Nat => digits n) value.fields.count +
      nullableBytes (fun n : Nat => digits n) value.fields.wordBudgetUsed +
      nullableBytes (fun n : Nat => digits n) value.fields.wordBudgetLimit := by
  have keys : [quoted "kind", quoted "text", quoted "enum", quoted "list_items", quoted "reference",
      quoted "reference_list", quoted "date", quoted "datetime", quoted "integer", quoted "decimal",
      quoted "boolean", quoted "count", quoted "word_budget_used", quoted "word_budget_limit"] =
      [6, 6, 6, 12, 11, 16, 6, 10, 9, 9, 9, 7, 18, 19] := by decide
  simp only [List.cons.injEq, and_true] at keys
  simp only [MutationValue.dump, size_object, List.map_cons, List.map_nil, member, enclosed_cons,
    size_nullable_text, size_nullable_int, size_text, List.sum_cons, List.sum_nil]
  simp only [size_nullable, size_array, size_texts, size_bool, size_count]
  simp only [List.map_map, Function.comp_def]
  omega

/-- A value shows no more than the first items of a list. -/
def TypedValue.shown (value : TypedValue) : Nat := min value.listed? TEXT_LIST_MAX_ITEMS

theorem value_yields (value : TypedValue) : Yields (value.build graphemes) (value.Legible graphemes)
    (fun built => built.dump.size = valueBytes graphemes value ∧ built.listed? = value.shown) := by
  cases value with
  | text written =>
    refine (boundedDisplayText_yields graphemes written TITLE_MAX_GRAPHEMES).map
      fun text sized => ⟨?_, by rfl⟩
    rw [size_value]
    simp only [nullableBytes, sized, valueBytes, payloadBytes, TypedValue.kind]
    omega
  | reference ref =>
    refine (named_yields graphemes ref).map fun subject sized => ⟨?_, by rfl⟩
    rw [referenceValue, size_value]
    simp only [nullableBytes, sized, valueBytes, payloadBytes, TypedValue.kind]
    omega
  | textList items =>
    refine Yields.ok ⟨?_, by simp [textListValue, MutationValue.listed?, TypedValue.shown,
      TypedValue.listed?, Nat.min_comm]⟩
    rw [textListValue, size_value]
    simp only [nullableBytes, valueBytes, payloadBytes, TypedValue.kind]
    omega
  | enum word | date word | boolean word | integer word | decimal word =>
    refine Yields.ok ⟨?_, by rfl⟩
    rw [size_value]
    simp only [enumValue, dateValue, booleanValue, integerValue, decimalValue, nullableBytes,
      valueBytes, payloadBytes, TypedValue.kind]
    omega

section Parts
variable {A B C : Type} {related : A → B → Prop} {f : A → C} {g : B → C}

theorem isSome_of_rel {a : Option A} {b : Option B} (rel : Option.Rel related a b) :
    b.isSome = a.isSome := by
  cases rel <;> rfl

theorem map_of_rel {a : Option A} {b : Option B} (each : ∀ a b, related a b → g b = f a)
    (rel : Option.Rel related a b) : b.map g = a.map f := by
  cases rel with
  | none => rfl
  | some is => exact congrArg some (each _ _ is)

theorem bytes_of_rel {f : A → Nat} {g : B → Nat} {a : Option A} {b : Option B}
    (each : ∀ a b, related a b → g b = f a) (rel : Option.Rel related a b) :
    nullableBytes g b = nullableBytes f a := by
  cases rel with
  | none => rfl
  | some is => exact each _ _ is

theorem map_of_forall₂ {as : List A} {bs : List B} (each : ∀ a b, related a b → g b = f a)
    (all : List.Forall₂ related as bs) : bs.map g = as.map f := by
  induction all with
  | nil => rfl
  | cons is _ ih => rw [List.map_cons, List.map_cons, each _ _ is, ih]

end Parts

def FieldChange.Legible (field : FieldChange) : Prop :=
  (∀ value ∈ field.before, value.Legible graphemes) ∧ ∀ value ∈ field.after, value.Legible graphemes

def changeBytes (field : FieldChange) : Nat :=
  46 + quoted field.fieldKey + quoted field.operation.word +
    nullableBytes (valueBytes graphemes) field.before + nullableBytes (valueBytes graphemes) field.after

def FieldChange.shown (field : FieldChange) : Option Nat × Option Nat :=
  (field.before.map TypedValue.shown, field.after.map TypedValue.shown)

theorem size_change (change : MutationChange) : change.dump.size =
    46 + quoted change.fieldKey + quoted change.operation.word +
      nullableBytes (fun value => value.dump.size) change.before +
      nullableBytes (fun value => value.dump.size) change.after := by
  have keys : [quoted "field_key", quoted "operation", quoted "before", quoted "after"] =
      [11, 11, 8, 7] := by decide
  simp only [List.cons.injEq, and_true] at keys
  simp only [MutationChange.dump, size_object, List.map_cons, List.map_nil, member, enclosed_cons,
    size_nullable, size_text, List.sum_cons, List.sum_nil]
  omega

theorem change_yields (field : FieldChange) : Yields (field.build graphemes) (field.Legible graphemes)
    (fun change => change.dump.size = changeBytes graphemes field ∧ change.lists = field.shown) := by
  refine ((Yields.optionMapM (value_yields graphemes) field.before).bind fun before befores =>
    (Yields.optionMapM (value_yields graphemes) field.after).bind fun after afters =>
      (Yields.validated fun fine => ⟨?_, ?_⟩).congr (iff_true_intro ?_)).congr
        (and_congr_right fun _ => and_iff_left trivial)
  · rw [isSome_of_rel befores, isSome_of_rel afters]
    exact field.shaped
  · rw [size_change, changeBytes, bytes_of_rel (fun _ _ is => is.1) befores,
      bytes_of_rel (fun _ _ is => is.1) afters]
  · exact congrArg₂ Prod.mk (map_of_rel (fun _ _ is => is.2) befores)
      (map_of_rel (fun _ _ is => is.2) afters)

def Notice.Legible (notice : Notice) : Prop :=
  Receipts.Legible graphemes notice.message TITLE_MAX_GRAPHEMES

def noticeBytes (notice : Notice) : Nat :=
  28 + quoted notice.kind.word + quoted notice.code +
    textBytes graphemes notice.message TITLE_MAX_GRAPHEMES

theorem notice_yields (notice : Notice) : Yields (notice.build graphemes) (notice.Legible graphemes)
    (fun built => built.dump.size = noticeBytes graphemes notice) := by
  refine (boundedDisplayText_yields graphemes notice.message TITLE_MAX_GRAPHEMES).map
    fun message sized => ?_
  have keys : [quoted "kind", quoted "code", quoted "message"] = [6, 6, 9] := by decide
  simp only [List.cons.injEq, and_true] at keys
  simp only [MutationNotice.dump, size_object, List.map_cons, List.map_nil, member, enclosed_cons,
    size_text, List.sum_cons, List.sum_nil, sized, noticeBytes]
  omega

def ItemResult.Legible (item : ItemResult) : Prop :=
  (∀ named ∈ item.subject, named.Legible graphemes) ∧
    (∀ text ∈ item.reason.filter (· ≠ ""), Receipts.Legible graphemes text REASON_MAX_GRAPHEMES) ∧
      ∀ text ∈ item.recovery.filter (· ≠ ""), Receipts.Legible graphemes text RECOVERY_MAX_GRAPHEMES

def itemBytes (position : ItemResult × Nat) : Nat :=
  64 + digits position.2 + quoted position.1.disposition.word +
    nullableBytes (namedBytes graphemes) position.1.subject +
    nullableBytes (textBytes graphemes · REASON_MAX_GRAPHEMES) (position.1.reason.filter (· ≠ "")) +
    nullableBytes (textBytes graphemes · RECOVERY_MAX_GRAPHEMES) (position.1.recovery.filter (· ≠ ""))

theorem size_item (item : MutationItem) : item.dump.size =
    64 + digits item.inputIndex + quoted item.disposition.word +
      nullableBytes (fun subject => subject.dump.size) item.subject +
      nullableBytes (fun text => text.dump.size) item.reason +
      nullableBytes (fun text => text.dump.size) item.recovery := by
  have keys : [quoted "input_index", quoted "disposition", quoted "subject", quoted "reason",
      quoted "recovery"] = [13, 13, 9, 8, 10] := by decide
  simp only [List.cons.injEq, and_true] at keys
  simp only [MutationItem.dump, size_object, List.map_cons, List.map_nil, member, enclosed_cons,
    size_nullable, size_text, size_count, List.sum_cons, List.sum_nil]
  omega

theorem item_yields (position : ItemResult × Nat) :
    Yields (ItemResult.build graphemes position) (position.1.Legible graphemes) (fun item =>
      item.dump.size = itemBytes graphemes position ∧
        (item.inputIndex, item.disposition) = (position.2, position.1.disposition) ∧
        parts item.subject.isSome item.reason.isSome item.recovery.isSome = position.1.parts) := by
  refine ((Yields.optionMapM (named_yields graphemes) position.1.subject).bind fun subject subjects =>
    (Yields.optionMapM (fun text => boundedDisplayText_yields graphemes text REASON_MAX_GRAPHEMES)
      _).bind fun reason reasons =>
      (Yields.optionMapM (fun text =>
        boundedDisplayText_yields graphemes text RECOVERY_MAX_GRAPHEMES) _).bind
        fun recovery recoveries => Yields.ok ⟨?_, rfl, ?_⟩).congr ?_
  · exact and_congr_right fun _ => and_congr_right fun _ => and_iff_left trivial
  · rw [size_item, itemBytes, bytes_of_rel (fun _ _ is => is) subjects,
      bytes_of_rel (fun _ _ is => is) reasons, bytes_of_rel (fun _ _ is => is) recoveries]
  · simp only [isSome_of_rel subjects, isSome_of_rel reasons, isSome_of_rel recoveries,
      ItemResult.parts]

def SectionChange.Legible (change : SectionChange) : Prop :=
  ∀ field ∈ change.changes, field.Legible graphemes

def sectionBytes (change : SectionChange) : Nat :=
  44 + quoted change.sectionKey + quoted change.sectionLabel +
    enclosed ((change.changes.take CHANGES_MAX).map (changeBytes graphemes))

theorem bounded_take {A : Type} {items : List A} {most : Nat} (some : items ≠ []) (positive : 1 ≤ most) :
    lengthProblem 1 most (items.take most).length = none := by
  rw [lengthProblem_eq_none, List.length_take]
  have := List.length_pos_iff.mpr some
  omega

theorem section_yields (change : SectionChange) :
    Yields (change.build graphemes) (change.Legible graphemes) (fun built =>
      built.dump.size = sectionBytes graphemes change ∧
        built.changes.map MutationChange.lists =
          (change.changes.take CHANGES_MAX).map FieldChange.shown) := by
  refine ((Yields.mapM (change_yields graphemes) change.changes).bind fun changes built =>
    (Yields.validated fun fine => ⟨?_, ?_⟩).congr (iff_true_intro ?_)).congr (and_iff_left trivial)
  · refine bounded_take (fun empty => change.changed ?_) (by decide)
    exact List.forall₂_nil_right_iff.mp (empty ▸ built)
  · have keys : [quoted "section_key", quoted "section_label", quoted "changes"] = [13, 15, 9] := by
      decide
    simp only [List.cons.injEq, and_true] at keys
    have sizes : (changes.take CHANGES_MAX).map (fun built => built.dump.size) =
        (change.changes.take CHANGES_MAX).map (changeBytes graphemes) :=
      map_of_forall₂ (fun _ _ is => is.1) (List.forall₂_take _ built)
    simp only [ProfileSectionChange.dump, size_object, List.map_cons, List.map_nil, member,
      enclosed_cons, size_text, size_array, List.map_map, Function.comp_def, sizes, List.sum_cons,
      List.sum_nil, sectionBytes]
    omega
  · exact map_of_forall₂ (fun _ _ is => is.2) (List.forall₂_take _ built)

end Sizes

def locationBytes : EssayEditLocation → Nat
  | .paragraphRange start stop => 42 + digits start + digits stop
  | .wordRange start stop => 37 + digits start + digits stop
  | .unavailable => 46

theorem size_location (location : EssayEditLocation) :
    location.dump.size = locationBytes location := by
  have keys : [quoted "kind", quoted "start", quoted "end", quoted "paragraph_range",
      quoted "word_range", quoted "unavailable"] = [6, 7, 5, 17, 12, 13] := by decide
  simp only [List.cons.injEq, and_true] at keys
  cases location with
  | paragraphRange start stop | wordRange start stop | unavailable =>
    simp only [EssayEditLocation.dump, size_object, List.map_cons, List.map_nil, member,
      enclosed_cons, size_text, size_count, size_null, List.sum_cons, List.sum_nil, locationBytes]
    omega

def operationBytes (edit : EssayEditOperation) : Nat :=
  57 + locationBytes edit.location + quoted edit.operation.word + digits edit.beforeWords +
    digits edit.afterWords

theorem size_operation (edit : EssayEditOperation) : edit.dump.size = operationBytes edit := by
  have keys : [quoted "location", quoted "operation", quoted "before_words", quoted "after_words"] =
      [10, 11, 14, 13] := by decide
  simp only [List.cons.injEq, and_true] at keys
  simp only [EssayEditOperation.dump, size_object, List.map_cons, List.map_nil, member,
    enclosed_cons, size_text, size_count, size_location, List.sum_cons, List.sum_nil,
    operationBytes]
  omega

def bodyBytes : MutationBody → Nat
  | .batch items _ => 25 + enclosed (items.map fun item => item.dump.size)
  | .update subject changes _ =>
    39 + subject.dump.size + enclosed (changes.map fun change => change.dump.size)
  | .stateTransition state subjects cascade _ =>
    59 + quoted state.word + enclosed (subjects.map fun subject => subject.dump.size) +
      nullableBytes (fun notice => notice.dump.size) cascade
  | .duplicate source copy => 38 + source.dump.size + copy.dump.size
  | .reorder newOrder oldRanks movedIndex movedFromRank _ =>
    78 + enclosed (newOrder.map fun subject => subject.dump.size) +
      nullableBytes (fun ranks => enclosed (ranks.map fun rank : Nat => digits rank)) oldRanks +
      nullableBytes (fun n : Nat => digits n) movedIndex +
      nullableBytes (fun n : Nat => digits n) movedFromRank
  | .essayEdit subject operations finalWordCount wordLimit _ =>
    80 + subject.dump.size + enclosed (operations.map fun edit => edit.dump.size) + digits finalWordCount +
      nullableBytes (fun n : Nat => digits n) wordLimit
  | .essayWrite subject mode previousWordCount finalWordCount wordLimit =>
    98 + subject.dump.size + quoted mode.word +
      nullableBytes (fun n : Nat => digits n) previousWordCount + digits finalWordCount +
      nullableBytes (fun n : Nat => digits n) wordLimit
  | .profile sections _ => 30 + enclosed (sections.map fun change => change.dump.size)
  | .memory operation noteCount activeNotes _ =>
    60 + quoted operation.action.word + digits noteCount +
      enclosed (activeNotes.map fun text => text.dump.size)
  | .unresolved family verification attemptedCount =>
    66 + quoted family.word + quoted verification.word +
      nullableBytes (fun n : Nat => digits n) attemptedCount

theorem size_body (body : MutationBody) : body.dump.size = bodyBytes body := by
  have kinds : [quoted "batch", quoted "update", quoted "state_transition", quoted "duplicate",
      quoted "reorder", quoted "essay_edit", quoted "essay_write", quoted "profile",
      quoted "memory", quoted "unresolved"] = [7, 8, 18, 11, 9, 12, 13, 9, 8, 12] := by decide
  have keys : [quoted "kind", quoted "items", quoted "subject", quoted "changes", quoted "state",
      quoted "subjects", quoted "cascade", quoted "source", quoted "copy", quoted "new_order",
      quoted "old_ranks", quoted "moved_index", quoted "moved_from_rank", quoted "operations",
      quoted "final_word_count", quoted "word_limit", quoted "mode", quoted "previous_word_count",
      quoted "sections", quoted "operation", quoted "note_count", quoted "active_notes",
      quoted "family", quoted "verification", quoted "attempted_count"] =
      [6, 7, 9, 9, 7, 10, 9, 8, 6, 11, 11, 13, 17, 12, 18, 12, 6, 21, 10, 11, 12, 14, 8, 14, 17] := by
    decide
  simp only [List.cons.injEq, and_true] at kinds keys
  cases body with
  | batch | update | stateTransition | duplicate | reorder | essayEdit | essayWrite | profile | memory
  | unresolved =>
    simp only [MutationBody.dump, MutationBody.members, MutationBody.kind, MutationBodyKind.word,
      size_object, List.map_cons, List.map_nil, member, enclosed_cons, size_text, size_array,
      size_count, size_nullable, List.map_map, Function.comp_def, List.sum_cons,
      List.sum_nil, bodyBytes]
    omega

def envelope (family : MutationFamily) (action : MutationAction) (outcome : MutationOutcome)
    (body : Nat) (notices : List Nat) (omitted : Nat) : Nat :=
  144 + quoted family.word + quoted action.word + quoted outcome.word + body + enclosed notices +
    digits omitted

theorem size_receipt {receipt : WorkspaceMutationReceipt} {omitted : Nat}
    (counts : receipt.omissions = { changes := omitted }) : receipt.dump.size =
      envelope receipt.family receipt.action receipt.outcome (bodyBytes receipt.body)
        (receipt.notices.map fun notice => notice.dump.size) omitted := by
  have keys : [quoted "v", quoted "family", quoted "action", quoted "outcome", quoted "body",
      quoted "notices", quoted "omissions", quoted "subjects", quoted "changes",
      quoted "item_details", quoted "edit_operations"] =
      [3, 8, 8, 9, 6, 9, 11, 10, 9, 14, 17] := by decide
  have zero : digits (0 : Nat) = 1 ∧ digits 1 = 1 := by decide
  simp only [List.cons.injEq, and_true] at keys
  simp only [WorkspaceMutationReceipt.dump, counts, MutationOmissions.dump, size_object,
    List.map_cons, List.map_nil, member, enclosed_cons, size_text, size_int, size_array, size_count,
    size_body, List.map_map, Function.comp_def, List.sum_cons, List.sum_nil, envelope]
  omega

theorem envelope_yields {family : MutationFamily} {action : MutationAction}
    {outcome : MutationOutcome} {body : MutationBody} {notices : List MutationNotice} {omitted : Nat}
    (paired : allowedBodyKinds family action = some [body.kind]) (few : notices.length ≤ 6)
    (resolved : body.kind ≠ .unresolved) :
    Yields (workspaceMutationReceipt family action outcome body notices { changes := omitted })
      (outcome ≠ .unknown) (fun receipt =>
        receipt.body = body ∧ receipt.notices = notices ∧ receipt.omissions = { changes := omitted } ∧
          receipt.dump.size = envelope family action outcome (bodyBytes body)
            (notices.map fun notice => notice.dump.size) omitted) := by
  refine (Yields.validated fun fine => ⟨rfl, rfl, rfl, size_receipt rfl⟩).congr ?_
  rw [Option.or_eq_none_iff, lengthProblem_eq_none]
  simp only [receiptProblem, resolved, if_false, paired, List.mem_singleton, if_true,
    ite_eq_right_iff, reduceCtorEq, imp_false, few, Nat.zero_le, and_self, true_and, ne_eq]

end Counselle.Receipts

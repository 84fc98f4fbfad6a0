import Counselle.Receipts.Sizes

/-! When a committed write has its receipt: the condition on what is reported, for every builder. -/
namespace Counselle.Receipts
open CompactJson (Value quoted digits enclosed enclosed_append)
open Fallible (Yields)

theorem lookup_put (key other : String) (value : Value) (dict : List (String × Value)) :
    (put key value dict).lookup other = if other = key then some value else dict.lookup other := by
  induction dict with
  | nil =>
    rw [put, Upsert.upsert, List.lookup_cons, List.lookup_nil]
    split <;> simp_all
  | cons entry rest ih =>
    obtain ⟨name, old⟩ := entry
    rw [put, Upsert.upsert]
    split
    · rename_i here
      have same : name = key := by simpa using here
      rw [List.lookup_cons, List.lookup_cons, same]
      split <;> simp_all
    · rename_i apart
      have distinct : name ≠ key := by simpa using apart
      rw [List.lookup_cons, List.lookup_cons, ← put, ih]
      split <;> simp_all

theorem attach_iff {payload : List (String × Value)} {receipt : WorkspaceMutationReceipt} :
    (∃ attached, attachMutation payload receipt = .ok attached ∧
      mutationOf attached = some receipt.dump ∧ receipt.dump.size ≤ RECEIPT_MAX_BYTES) ↔
      receipt.dump.size ≤ RECEIPT_MAX_BYTES := by
  constructor
  · rintro ⟨_, _, _, fits⟩
    exact fits
  · intro fits
    refine ⟨_, if_neg (Nat.not_lt.mpr fits), ?_, fits⟩
    simp only [mutationOf, lookup_put, if_true, if_false,
      show ("public_receipt" : String) ≠ "mutation_contract" by decide]

section Delivered
variable {graphemes : String → List String} {payload : List (String × Value)} {write : Committed}
  {condition further : Prop} {described : WorkspaceMutationReceipt → Prop}

theorem kept_iff (yields : Yields (write.receipt graphemes) condition described)
    (final : condition → ∀ receipt, described receipt →
      (receipt.dump.size ≤ RECEIPT_MAX_BYTES ∧ Accounted write receipt ↔ further)) :
    Kept graphemes payload write ↔ condition ∧ further := by
  constructor
  · rintro ⟨receipt, attached, built, isAttached, carried, fits, accounted⟩
    have holds := yields.needs receipt built
    exact ⟨holds, (final holds receipt (yields.returns receipt built)).mp ⟨fits, accounted⟩⟩
  · rintro ⟨holds, remains⟩
    obtain ⟨receipt, built⟩ := yields.succeeds holds
    obtain ⟨fits, accounted⟩ :=
      (final holds receipt (yields.returns receipt built)).mpr remains
    obtain ⟨attached, isAttached, carried, _⟩ := attach_iff.mpr fits
    exact ⟨receipt, attached, built, isAttached, carried, fits, accounted⟩

theorem sealed_yields {family : MutationFamily} {action : MutationAction} {outcome : MutationOutcome}
    {problem : Option String} {body : problem = none → MutationBody} {notices : List MutationNotice}
    {omitted : Nat} (fine : problem = none)
    (paired : allowedBodyKinds family action = some [(body fine).kind]) (few : notices.length ≤ 6)
    (resolved : (body fine).kind ≠ .unresolved) :
    Yields (Fallible.validated problem body >>= fun body =>
        workspaceMutationReceipt family action outcome body notices { changes := omitted })
      (outcome ≠ .unknown) (fun receipt =>
        receipt.body = body fine ∧ receipt.notices = notices ∧
          receipt.omissions = { changes := omitted } ∧
          receipt.dump.size = envelope family action outcome (bodyBytes (body fine))
            (notices.map fun notice => notice.dump.size) omitted) := by
  rw [Fallible.validated_ok_iff.mpr ⟨fine, rfl⟩]
  exact envelope_yields paired few resolved

theorem outcome_unknown_iff {dispositions : List ItemDisposition} :
    outcomeForBatch dispositions = .unknown ↔ .unknown ∈ dispositions := by
  simp only [outcomeForBatch, List.contains_iff_mem, Bool.not_eq_true']
  split
  · rename_i present
    simp only [present]
  · rename_i absent
    simp only [absent, iff_false]
    split
    · split <;> simp
    · split <;> simp

theorem batch_fine {items : List ItemResult} {built : List MutationItem}
    (sized : 1 ≤ items.length ∧ items.length ≤ 20)
    (positions : built.map (fun item => (item.inputIndex, item.disposition)) =
      items.zipIdx.map fun position => (position.2, position.1.disposition)) :
    batchProblem built = none := by
  have long : built.length = items.length := by
    simpa using congrArg List.length positions
  have indices : built.map MutationItem.inputIndex = List.range built.length := by
    have firsts := congrArg (List.map Prod.fst) positions
    rw [List.map_map, List.map_map] at firsts
    rw [long, List.range_eq_range', ← List.zipIdx_map_snd 0 items]
    exact firsts
  rw [batchProblem, Option.or_eq_none_iff, lengthProblem_eq_none, long, indices, long]
  have ascending : (List.range items.length).Pairwise (· ≤ ·) :=
    List.pairwise_lt_range.imp Nat.le_of_lt
  exact ⟨sized, if_neg (not_not_intro ascending.insertionSort_eq)⟩

theorem resolved_iff {items : List ItemResult} {outcome : Option MutationOutcome} :
    outcome.getD (outcomeForBatch (items.map ItemResult.disposition)) ≠ .unknown ↔
      outcome ≠ some .unknown ∧
        (outcome = none → ∀ item ∈ items, item.disposition ≠ .unknown) := by
  cases outcome with
  | none =>
    simp only [Option.getD_none, ne_eq, outcome_unknown_iff, List.mem_map, not_exists, not_and,
      reduceCtorEq, not_false_eq_true, true_and, forall_const]
  | some outcome => simp

def batchBytes (graphemes : String → List String) (family : MutationFamily) (action : MutationAction)
    (items : List ItemResult) (outcome : Option MutationOutcome) (notices : List Notice) : Nat :=
  envelope family action (outcome.getD (outcomeForBatch (items.map ItemResult.disposition)))
    (25 + enclosed (items.zipIdx.map (itemBytes graphemes))) (notices.map (noticeBytes graphemes)) 0

theorem batch_yields {family : MutationFamily} {action : MutationAction} {items : List ItemResult}
    {outcome : Option MutationOutcome} {notices : List Notice}
    (paired : allowedBodyKinds family action = some [.batch])
    (sized : 1 ≤ items.length ∧ items.length ≤ 20) :
    Yields ((Committed.batch family action items outcome notices paired sized).receipt graphemes)
      ((∀ item ∈ items, item.Legible graphemes) ∧ (∀ notice ∈ notices, notice.Legible graphemes) ∧
        outcome ≠ some .unknown ∧ (outcome = none → ∀ item ∈ items, item.disposition ≠ .unknown))
      (fun receipt =>
        receipt.body.positions = items.zipIdx.map (fun (item, index) => (index, item.disposition)) ∧
          receipt.body.detail = { itemDetails := (items.map ItemResult.parts).sum } ∧
          receipt.body.changes = [] ∧ receipt.notices.length = min NOTICES_MAX notices.length ∧
          receipt.omissions = {} ∧ (notices.length ≤ NOTICES_MAX →
            receipt.dump.size = batchBytes graphemes family action items outcome notices)) := by
  have legible : (∀ position ∈ items.zipIdx, position.1.Legible graphemes) ↔
      ∀ item ∈ items, item.Legible graphemes := by
    conv_rhs => rw [← List.zipIdx_map_fst 0 items]
    simp only [List.mem_map, forall_exists_index, and_imp, forall_apply_eq_imp_iff₂]
  refine ((Yields.mapM (item_yields graphemes) items.zipIdx).bind fun built areItems =>
    (Yields.mapM (notice_yields graphemes) notices).bind fun noted areNotices => ?_).congr
      (and_congr legible (and_congr_right fun _ => resolved_iff))
  have positions : built.map (fun item => (item.inputIndex, item.disposition)) =
      items.zipIdx.map fun position => (position.2, position.1.disposition) :=
    map_of_forall₂ (fun _ _ is => is.2.1) areItems
  have sizes : built.map (fun item => item.dump.size) = items.zipIdx.map (itemBytes graphemes) :=
    map_of_forall₂ (fun _ _ is => is.1) areItems
  have details : built.map (fun item =>
      parts item.subject.isSome item.reason.isSome item.recovery.isSome) =
        items.map ItemResult.parts := by
    rw [map_of_forall₂ (fun _ _ is => is.2.2) areItems]
    conv_rhs => rw [← List.zipIdx_map_fst 0 items, List.map_map]
    rfl
  have noticed : noted.map (fun notice => notice.dump.size) = notices.map (noticeBytes graphemes) :=
    map_of_forall₂ (fun _ _ is => is) areNotices
  have dispositions : built.map MutationItem.disposition = items.map ItemResult.disposition := by
    have seconds := congrArg (List.map Prod.snd) positions
    rw [List.map_map, List.map_map] at seconds
    conv_rhs => rw [← List.zipIdx_map_fst 0 items, List.map_map]
    exact seconds
  have whole : reduceItemsForBounds built = built :=
    if_pos (areItems.length_eq ▸ by simpa [BATCH_ITEMS_MAX] using sized.2)
  rw [batchReceipt, whole, dispositions]
  refine (sealed_yields (batch_fine sized positions) paired (List.length_take_le _ _)
    (by simp [MutationBody.kind])).imp fun receipt is => ?_
  obtain ⟨body, shown, omissions, size⟩ := is
  refine ⟨?_, ?_, ?_, ?_, omissions, fun few => ?_⟩
  · rw [body]
    exact positions
  · rw [body, MutationBody.detail, details]
  · rw [body]
    rfl
  · rw [shown, List.length_take, ← areNotices.length_eq]
    rfl
  · rw [size, batchBytes, ← noticed, List.take_of_length_le (areNotices.length_eq ▸ few), bodyBytes,
      sizes]

theorem batch_kept_iff {family : MutationFamily} {action : MutationAction} {items : List ItemResult}
    {outcome : Option MutationOutcome} {notices : List Notice}
    {paired : allowedBodyKinds family action = some [.batch]}
    {sized : 1 ≤ items.length ∧ items.length ≤ 20} :
    Kept graphemes payload (.batch family action items outcome notices paired sized) ↔
      ((∀ item ∈ items, item.Legible graphemes) ∧ (∀ notice ∈ notices, notice.Legible graphemes) ∧
        outcome ≠ some .unknown ∧ (outcome = none → ∀ item ∈ items, item.disposition ≠ .unknown)) ∧
      notices.length ≤ NOTICES_MAX ∧
        batchBytes graphemes family action items outcome notices ≤ RECEIPT_MAX_BYTES := by
  refine kept_iff (batch_yields paired sized) fun _ receipt is => ?_
  obtain ⟨positions, detail, changes, noticed, omissions, size⟩ := is
  constructor
  · rintro ⟨fits, accounted⟩
    have counted : min NOTICES_MAX notices.length + receipt.omissions.notices = notices.length :=
      noticed ▸ congrArg MutationOmissions.notices accounted.counted
    rw [omissions] at counted
    have few : notices.length ≤ NOTICES_MAX := by
      simp only at counted
      omega
    exact ⟨few, size few ▸ fits⟩
  · rintro ⟨few, fits⟩
    refine ⟨size few ▸ fits, positions, ?_, changes ▸ .nil⟩
    rw [WorkspaceMutationReceipt.detail, detail, noticed, omissions, Nat.min_eq_right few]
    rfl

theorem reduceChanges_spec {attempt : List MutationChange → Nat → Except String WorkspaceMutationReceipt}
    {changes : List MutationChange} {omitted : Nat} (some : changes ≠ [])
    (attempts : ∀ kept, 1 ≤ kept → kept ≤ changes.length →
      ∃ receipt, attempt (changes.take kept) (omitted + (changes.length - kept)) = .ok receipt) :
    ∃ kept receipt, 1 ≤ kept ∧ kept ≤ changes.length ∧
      attempt (changes.take kept) (omitted + (changes.length - kept)) = .ok receipt ∧
      reduceChanges attempt changes omitted = .ok receipt ∧
      (fitsBudget receipt = true ∨ kept = 1) ∧
      ∀ more other, kept < more → more ≤ changes.length →
        attempt (changes.take more) (omitted + (changes.length - more)) = .ok other →
        fitsBudget other = false := by
  have positive : 1 ≤ changes.length := List.length_pos_iff.mpr some
  have whole : attempt (changes.take changes.length) (omitted + (changes.length - changes.length)) =
      attempt changes omitted := by
    rw [List.take_length, Nat.sub_self, Nat.add_zero]
  fun_induction reduceChanges attempt changes omitted with
  | case1 changes omitted message failed =>
    obtain ⟨receipt, isOk⟩ := attempts changes.length positive le_rfl
    rw [whole, failed] at isOk
    cases isOk
  | case2 changes omitted receipt isOk ends =>
    simp only [Bool.or_eq_true, decide_eq_true_eq] at ends
    refine ⟨changes.length, receipt, positive, le_rfl, whole.trans isOk, rfl, ?_, ?_⟩
    · exact ends.imp id fun single => Nat.le_antisymm single positive
    · intro more other beyond within
      omega
  | case3 changes omitted receipt isOk large ih =>
    simp only [Bool.or_eq_true, decide_eq_true_eq, not_or, Bool.not_eq_true] at large
    have shorter : changes.dropLast.length = changes.length - 1 := List.length_dropLast
    have same : ∀ kept, kept ≤ changes.length - 1 →
        attempt (changes.dropLast.take kept) (omitted + 1 + (changes.dropLast.length - kept)) =
          attempt (changes.take kept) (omitted + (changes.length - kept)) := by
      intro kept within
      rw [List.dropLast_eq_take, List.take_take, Nat.min_eq_left within, ← List.dropLast_eq_take,
        shorter]
      congr 1
      omega
    obtain ⟨kept, kept', least, most, tried, reduced, final, others⟩ :=
      ih (fun empty => by rw [empty] at shorter; simp at shorter; omega)
        (fun kept least most => by
          rw [same kept (shorter ▸ most)]
          exact attempts kept least (by omega))
        (by omega) (by rw [List.take_length, Nat.sub_self, Nat.add_zero])
    refine ⟨kept, kept', least, by omega, (same kept (shorter ▸ most)) ▸ tried, reduced, final, ?_⟩
    intro more other beyond within isOther
    rcases Nat.lt_or_ge (changes.length - 1) more with last | earlier
    · have all : more = changes.length := by omega
      subst all
      rw [whole, isOk] at isOther
      cases isOther
      exact large.1
    · exact others more other beyond (by omega) ((same more earlier).trans isOther)

theorem attempt_of_reduced
    {attempt : List MutationChange → Nat → Except String WorkspaceMutationReceipt}
    {changes : List MutationChange} {omitted : Nat} {receipt : WorkspaceMutationReceipt}
    (reduced : reduceChanges attempt changes omitted = .ok receipt) :
    ∃ first, attempt changes omitted = .ok first := by
  rw [reduceChanges] at reduced
  split at reduced
  · cases reduced
  · rename_i first isFirst
    exact ⟨first, isFirst⟩

/-- Bytes of the receipt of an update that shows the first changes. -/
def shownBytes (graphemes : String → List String) (family : MutationFamily) (action : MutationAction)
    (subject : Named) (changes : List FieldChange) (outcome : MutationOutcome) (notices : List Notice)
    (shown omitted : Nat) : Nat :=
  envelope family action outcome
    (39 + namedBytes graphemes subject + enclosed ((changes.take shown).map (changeBytes graphemes)))
    (notices.map (noticeBytes graphemes)) omitted

theorem attempt_yields {family : MutationFamily} {action : MutationAction} {outcome : MutationOutcome}
    {subject : MutationSubject} {notices : List MutationNotice} {changes : List MutationChange}
    {omitted : Nat} (paired : allowedBodyKinds family action = some [.update])
    (bounded : lengthProblem 1 20 changes.length = none) :
    Yields (updateAttempt family action outcome subject notices changes omitted) (outcome ≠ .unknown)
      (fun receipt =>
        receipt.body = .update subject changes bounded ∧
          receipt.notices = notices.take NOTICES_MAX ∧
          receipt.omissions = { changes := omitted } ∧
          receipt.dump.size = envelope family action outcome
            (bodyBytes (.update subject changes bounded))
            ((notices.take NOTICES_MAX).map fun notice => notice.dump.size) omitted) :=
  sealed_yields bounded paired (List.length_take_le _ _) (by simp [MutationBody.kind])

/-- Which changes the receipt of an update shows, and what it takes. -/
structure Reduced (graphemes : String → List String) (family : MutationFamily)
    (action : MutationAction) (subject : Named) (changes : List FieldChange)
    (outcome : MutationOutcome) (notices : List Notice) (receipt : WorkspaceMutationReceipt)
    (shown : Nat) : Prop where
  least : 1 ≤ shown
  most : shown ≤ min CHANGES_MAX changes.length
  positions : receipt.body.positions = []
  detail : receipt.body.detail = { changes := shown }
  lists : ∃ listed, receipt.body.changes = [listed] ∧
    listed.map MutationChange.lists = (changes.take shown).map FieldChange.shown
  noticed : receipt.notices.length = min NOTICES_MAX notices.length
  omissions : receipt.omissions = { changes := min CHANGES_MAX changes.length - shown }
  size : receipt.dump.size = shownBytes graphemes family action subject changes outcome
    (notices.take NOTICES_MAX) shown (min CHANGES_MAX changes.length - shown)
  final : receipt.dump.size ≤ RECEIPT_MAX_BYTES ∨ shown = 1
  beyond : ∀ more, shown < more → more ≤ min CHANGES_MAX changes.length →
    RECEIPT_MAX_BYTES < shownBytes graphemes family action subject changes outcome
      (notices.take NOTICES_MAX) more (min CHANGES_MAX changes.length - more)

theorem update_yields {family : MutationFamily} {action : MutationAction} {subject : Named}
    {changes : List FieldChange} {outcome : MutationOutcome} {notices : List Notice}
    (paired : allowedBodyKinds family action = some [.update]) (changed : changes ≠ []) :
    Yields ((Committed.update family action subject changes outcome notices paired changed).receipt
        graphemes)
      ((∀ field ∈ changes, field.Legible graphemes) ∧ subject.Legible graphemes ∧
        (∀ notice ∈ notices, notice.Legible graphemes) ∧ outcome ≠ .unknown)
      (fun receipt => ∃ shown,
        Reduced graphemes family action subject changes outcome notices receipt shown) := by
  refine (Yields.mapM (change_yields graphemes) changes).bind fun built areChanges =>
    (named_yields graphemes subject).bind fun named sized =>
    (Yields.mapM (notice_yields graphemes) notices).bind fun noted areNotices => ?_
  have long : (built.take CHANGES_MAX).length = min CHANGES_MAX changes.length := by
    rw [List.length_take, areChanges.length_eq]
  have some : built.take CHANGES_MAX ≠ [] := by
    intro empty
    have none := congrArg List.length empty
    rw [long, List.length_nil] at none
    have := List.length_pos_iff.mpr changed
    simp only [CHANGES_MAX] at none
    omega
  have bounded : ∀ kept, 1 ≤ kept → kept ≤ min CHANGES_MAX changes.length →
      lengthProblem 1 20 ((built.take CHANGES_MAX).take kept).length = none := by
    intro kept least most
    rw [lengthProblem_eq_none, List.length_take, long]
    simp only [CHANGES_MAX] at most ⊢
    omega
  have noticed : (noted.take NOTICES_MAX).map (fun notice => notice.dump.size) =
      (notices.take NOTICES_MAX).map (noticeBytes graphemes) :=
    map_of_forall₂ (fun _ _ is => is) (List.forall₂_take _ areNotices)
  have shows : ∀ kept, kept ≤ min CHANGES_MAX changes.length → List.Forall₂ (fun field change =>
      change.dump.size = changeBytes graphemes field ∧ change.lists = field.shown)
      (changes.take kept) ((built.take CHANGES_MAX).take kept) := by
    intro kept most
    rw [List.take_take, Nat.min_eq_left (Nat.le_min.mp most).1]
    exact List.forall₂_take kept areChanges
  have bytes : ∀ kept omitted fine, kept ≤ min CHANGES_MAX changes.length →
      envelope family action outcome
        (bodyBytes (.update named ((built.take CHANGES_MAX).take kept) fine))
        ((noted.take NOTICES_MAX).map fun notice => notice.dump.size) omitted =
      shownBytes graphemes family action subject changes outcome (notices.take NOTICES_MAX) kept
        omitted := by
    intro kept omitted fine most
    rw [shownBytes, noticed, bodyBytes, sized, map_of_forall₂ (fun _ _ is => is.1) (shows kept most)]
  have resolved : ∀ receipt, reduceChanges (updateAttempt family action outcome named noted)
      (built.take CHANGES_MAX) 0 = .ok receipt → outcome ≠ .unknown := by
    intro receipt isOk
    obtain ⟨first, isFirst⟩ := attempt_of_reduced isOk
    have whole := bounded _ (long ▸ List.length_pos_iff.mpr some) le_rfl
    rw [← long, List.take_length] at whole
    exact (attempt_yields paired whole).needs first isFirst
  have spec := fun known : outcome ≠ .unknown =>
    @reduceChanges_spec (updateAttempt family action outcome named noted) _ 0 some
      fun kept least most =>
        (attempt_yields paired (bounded kept least (long ▸ most))).succeeds known
  refine ⟨fun known => ?_, resolved, fun receipt isOk => ?_⟩
  · obtain ⟨_, receipt, _, _, _, reduced, _⟩ := spec known
    exact ⟨receipt, reduced⟩
  · obtain ⟨kept, receipt', least, most, tried, reduced, final, beyond⟩ := spec (resolved receipt isOk)
    cases Except.ok.inj (reduced.symm.trans isOk)
    rw [long] at most
    obtain ⟨body, shown, omissions, size⟩ :=
      (attempt_yields paired (bounded kept least most)).returns receipt tried
    rw [long, Nat.zero_add] at omissions size
    refine ⟨kept, least, most, body ▸ rfl, ?_,
      ⟨(built.take CHANGES_MAX).take kept, body ▸ rfl, ?_⟩, ?_, omissions, ?_, ?_, ?_⟩
    · rw [body, MutationBody.detail, List.length_take, long, Nat.min_eq_left most]
    · exact map_of_forall₂ (fun _ _ is => is.2) (shows kept most)
    · rw [shown, List.length_take, areNotices.length_eq]
    · rw [size, bytes _ _ _ most]
    · exact final.imp (fun fits => by simpa [fitsBudget] using fits) id
    · intro more later within
      obtain ⟨other, isOther⟩ := (attempt_yields paired (bounded more (by omega) within)).succeeds
        (resolved receipt isOk)
      have large := beyond more other later (long ▸ within) isOther
      have size := ((attempt_yields paired (bounded more (by omega) within)).returns other isOther).2.2.2
      rw [bytes _ _ _ within, long, Nat.zero_add] at size
      rw [← size]
      simpa [fitsBudget] using large

def FieldChange.Whole (field : FieldChange) : Prop :=
  (∀ value ∈ field.before, value.listed? ≤ TEXT_LIST_MAX_ITEMS) ∧
    ∀ value ∈ field.after, value.listed? ≤ TEXT_LIST_MAX_ITEMS

theorem shown_iff_whole {field : FieldChange} : field.shown = field.lists ↔ field.Whole := by
  have each : ∀ item : Option TypedValue, item.map TypedValue.shown = item.map TypedValue.listed? ↔
      ∀ value ∈ item, value.listed? ≤ TEXT_LIST_MAX_ITEMS := by
    intro item
    cases item with
    | none => simp
    | some value => simp [TypedValue.shown]
  simp only [FieldChange.shown, FieldChange.lists, Prod.mk.injEq, each, FieldChange.Whole]

/-- Bytes of the receipt of an update that shows the first changes and counts the others. -/
def updateBytes (graphemes : String → List String) (family : MutationFamily) (action : MutationAction)
    (subject : Named) (changes : List FieldChange) (outcome : MutationOutcome) (notices : List Notice)
    (shown : Nat) : Nat :=
  shownBytes graphemes family action subject changes outcome notices shown (changes.length - shown)

theorem digits_small (n : Nat) (small : n < 20) : 1 ≤ digits n ∧ digits n ≤ 2 := by
  have all : ∀ n : Fin 20, 1 ≤ digits n.val ∧ digits n.val ≤ 2 := by decide
  exact all ⟨n, small⟩

theorem updateBytes_mono {family : MutationFamily} {action : MutationAction} {subject : Named}
    {changes : List FieldChange} {outcome : MutationOutcome} {notices : List Notice}
    {fewer more : Nat} (few : changes.length ≤ 20) (least : 1 ≤ fewer) (fewer_le : fewer ≤ more)
    (within : more ≤ changes.length) :
    updateBytes graphemes family action subject changes outcome notices fewer ≤
      updateBytes graphemes family action subject changes outcome notices more := by
  induction fewer_le with
  | refl => exact le_rfl
  | step later ih =>
    rename_i shown
    refine (ih (by omega)).trans ?_
    have positive : 1 ≤ shown := least.trans later
    have here : shown < changes.length := within
    have front : (changes.take shown).map (changeBytes graphemes) ≠ [] := by
      intro empty
      have none := congrArg List.length empty
      rw [List.length_map, List.length_take, List.length_nil] at none
      omega
    have grown := digits_small (changes.length - shown) (by omega)
    have left := digits_small (changes.length - (shown + 1)) (by omega)
    rw [updateBytes, updateBytes, shownBytes, shownBytes, Nat.succ_eq_add_one,
      List.take_succ_eq_append_getElem here, List.map_append, List.map_cons, List.map_nil,
      enclosed_append front, envelope, envelope]
    omega

theorem update_kept_iff {family : MutationFamily} {action : MutationAction} {subject : Named}
    {changes : List FieldChange} {outcome : MutationOutcome} {notices : List Notice}
    {paired : allowedBodyKinds family action = some [.update]} {changed : changes ≠ []} :
    Kept graphemes payload (.update family action subject changes outcome notices paired changed) ↔
      ((∀ field ∈ changes, field.Legible graphemes) ∧ subject.Legible graphemes ∧
        (∀ notice ∈ notices, notice.Legible graphemes) ∧ outcome ≠ .unknown) ∧
      notices.length ≤ NOTICES_MAX ∧ changes.length ≤ CHANGES_MAX ∧
        updateBytes graphemes family action subject changes outcome notices 1 ≤ RECEIPT_MAX_BYTES ∧
        ∀ index (here : index < changes.length), ¬ changes[index].Whole →
          RECEIPT_MAX_BYTES <
            updateBytes graphemes family action subject changes outcome notices (index + 1) := by
  refine kept_iff (update_yields paired changed) fun _ receipt is => ?_
  obtain ⟨shown, is⟩ := is
  obtain ⟨listed, areChanges, lists⟩ := is.lists
  have most := is.most
  have length : listed.length = shown := by
    have lengths := congrArg List.length lists
    rw [List.length_map, List.length_map, List.length_take] at lengths
    omega
  have whole_iff : listed.map MutationChange.lists =
      (changes.take listed.length).map FieldChange.lists ↔
        ∀ index (here : index < changes.length), index < shown → changes[index].Whole := by
    rw [lists, length]
    constructor
    · intro same index here within
      have entries := congrArg (fun entries => entries[index]?) same
      simpa [within, here, shown_iff_whole] using entries
    · intro whole
      refine List.map_congr_left fun field isIn => shown_iff_whole.mpr ?_
      obtain ⟨index, within, rfl⟩ := List.getElem_of_mem isIn
      rw [List.length_take] at within
      rw [List.getElem_take]
      exact whole index (by omega) (by omega)
  constructor
  · rintro ⟨fits, accounted⟩
    have noted : min NOTICES_MAX notices.length + receipt.omissions.notices = notices.length :=
      is.noticed ▸ congrArg MutationOmissions.notices accounted.counted
    have counted : receipt.body.detail.changes + receipt.omissions.changes = changes.length :=
      congrArg MutationOmissions.changes accounted.counted
    rw [is.omissions] at noted
    rw [is.omissions, is.detail] at counted
    have few : notices.length ≤ NOTICES_MAX := by
      simp only at noted
      omega
    have all : changes.length ≤ CHANGES_MAX := by
      simp only at counted
      omega
    have size := is.size
    have beyond := is.beyond
    rw [List.take_of_length_le few, Nat.min_eq_right all] at size beyond
    have whole := accounted.whole
    rw [areChanges] at whole
    have shownWhole := whole_iff.mp (List.forall₂_cons.mp whole).1
    refine ⟨few, all, ?_, fun index here cut => ?_⟩
    · rw [size] at fits
      refine (updateBytes_mono all le_rfl is.least (by omega)).trans ?_
      rw [updateBytes]
      exact fits
    · refine beyond (index + 1) (Nat.lt_succ_of_le (Nat.le_of_not_lt fun within => ?_)) here
      exact cut (shownWhole index here within)
  · rintro ⟨few, all, first, cut⟩
    have size := is.size
    rw [List.take_of_length_le few, Nat.min_eq_right all] at size
    have fits : receipt.dump.size ≤ RECEIPT_MAX_BYTES := by
      rcases is.final with fits | single
      · exact fits
      · rw [size, single]
        rw [updateBytes] at first
        exact first
    refine ⟨fits, is.positions, ?_, ?_⟩
    · rw [WorkspaceMutationReceipt.detail, is.detail, is.noticed, is.omissions,
        Nat.min_eq_right few, Nat.min_eq_right all, Detail.add, Committed.detail]
      simp only [Nat.add_zero, MutationOmissions.mk.injEq, and_true, true_and]
      omega
    · rw [areChanges]
      refine .cons (whole_iff.mpr fun index here within => ?_) .nil
      by_contra long
      have large := cut index here long
      have smaller := @updateBytes_mono graphemes family action subject changes outcome notices _ _
        all (Nat.le_add_left 1 index) within (by omega)
      rw [updateBytes, updateBytes] at smaller
      rw [updateBytes] at large
      omega

theorem success_known : MutationOutcome.success ≠ .unknown := by decide

/-- A receipt without notices whose body shows everything, in so many bytes. -/
structure Plain (write : Committed) (size : Nat) (receipt : WorkspaceMutationReceipt) : Prop where
  positions : receipt.body.positions = write.positions
  detail : receipt.body.detail = write.detail
  changes : receipt.body.changes = []
  noticed : receipt.notices = []
  omissions : receipt.omissions = {}
  size : receipt.dump.size = size

theorem plain_kept_iff {size : Nat} (none : write.changes = []) (quiet : write.detail.notices = 0)
    (yields : Yields (write.receipt graphemes) condition (Plain write size)) :
    Kept graphemes payload write ↔ condition ∧ size ≤ RECEIPT_MAX_BYTES := by
  refine kept_iff yields fun _ receipt is => ?_
  rw [is.size]
  refine and_iff_left ⟨is.positions, ?_, ?_⟩
  · rw [WorkspaceMutationReceipt.detail, is.noticed, is.omissions, is.detail]
    cases counts : write.detail
    rw [counts] at quiet
    simp only at quiet
    simp only [Detail.add, List.length_nil, Nat.add_zero, quiet]
  · rw [is.changes, none]
    exact .nil

theorem plain_of_sealed {family : MutationFamily} {action : MutationAction}
    {outcome : MutationOutcome} {problem : Option String} {body : problem = none → MutationBody}
    {size : Nat} (fine : problem = none)
    (paired : allowedBodyKinds family action = some [(body fine).kind])
    (resolved : (body fine).kind ≠ .unresolved) (positions : (body fine).positions = write.positions)
    (detail : (body fine).detail = write.detail) (changes : (body fine).changes = [])
    (sized : envelope family action outcome (bodyBytes (body fine)) [] 0 = size) :
    Yields (Fallible.validated problem body >>= fun body =>
        workspaceMutationReceipt family action outcome body [] {})
      (outcome ≠ .unknown) (Plain write size) := by
  refine (sealed_yields fine paired (Nat.zero_le _) resolved).imp fun receipt is => ?_
  obtain ⟨isBody, noticed, omissions, bytes⟩ := is
  exact ⟨isBody ▸ positions, isBody ▸ detail, isBody ▸ changes, noticed, omissions,
    bytes.trans sized⟩

theorem plain_of_body {family : MutationFamily} {action : MutationAction} {body : MutationBody}
    {size : Nat} (paired : allowedBodyKinds family action = some [body.kind])
    (resolved : body.kind ≠ .unresolved) (positions : body.positions = write.positions)
    (detail : body.detail = write.detail) (changes : body.changes = [])
    (sized : envelope family action .success (bodyBytes body) [] 0 = size) :
    Yields (workspaceMutationReceipt family action .success body [] {}) True (Plain write size) := by
  refine ((envelope_yields paired (Nat.zero_le _) resolved).imp fun receipt is => ?_).congr
    (iff_true_intro (by decide))
  obtain ⟨isBody, noticed, omissions, bytes⟩ := is
  exact ⟨isBody ▸ positions, isBody ▸ detail, isBody ▸ changes, noticed, omissions,
    bytes.trans sized⟩

def stateTransitionBytes (graphemes : String → List String) (family : MutationFamily)
    (action : MutationAction) (state : StateTransitionState) (subjects : List Named)
    (outcome : MutationOutcome) (cascade : Option Notice) : Nat :=
  envelope family action outcome (59 + quoted state.word +
    enclosed (subjects.map (namedBytes graphemes)) + nullableBytes (noticeBytes graphemes) cascade) [] 0

theorem stateTransition_kept_iff {family : MutationFamily} {action : MutationAction}
    {state : StateTransitionState} {subjects : List Named} {outcome : MutationOutcome}
    {cascade : Option Notice} {paired : allowedBodyKinds family action = some [.stateTransition]}
    {sized : 1 ≤ subjects.length ∧ subjects.length ≤ 20} :
    Kept graphemes payload
        (.stateTransition family action state subjects outcome cascade paired sized) ↔
      ((∀ subject ∈ subjects, subject.Legible graphemes) ∧
        (∀ notice ∈ cascade, notice.Legible graphemes) ∧ outcome ≠ .unknown) ∧
      stateTransitionBytes graphemes family action state subjects outcome cascade ≤
        RECEIPT_MAX_BYTES := by
  refine plain_kept_iff rfl rfl ((Yields.mapM (named_yields graphemes) subjects).bind
    fun built areSubjects => (Yields.optionMapM (notice_yields graphemes) cascade).bind
      fun noted isNotice => ?_)
  have whole : built.take SUBJECTS_MAX = built :=
    List.take_of_length_le (areSubjects.length_eq ▸ sized.2)
  rw [stateTransitionReceipt, whole]
  refine plain_of_sealed (lengthProblem_eq_none.mpr (areSubjects.length_eq ▸ sized)) paired
    (by simp [MutationBody.kind]) rfl ?_ rfl ?_
  · rw [MutationBody.detail, ← areSubjects.length_eq]
    rfl
  · rw [stateTransitionBytes, bodyBytes, map_of_forall₂ (fun _ _ is => is) areSubjects,
      bytes_of_rel (fun _ _ is => is) isNotice]

theorem duplicate_kept_iff {family : MutationFamily} {source copy : Named}
    {paired : allowedBodyKinds family .duplicate = some [.duplicate]} :
    Kept graphemes payload (.duplicate family source copy paired) ↔
      (source.Legible graphemes ∧ copy.Legible graphemes) ∧
        envelope family .duplicate .success (38 + namedBytes graphemes source + namedBytes graphemes copy)
          [] 0 ≤ RECEIPT_MAX_BYTES := by
  refine plain_kept_iff rfl rfl (((named_yields graphemes source).bind fun from' isSource =>
    (named_yields graphemes copy).bind fun to' isCopy =>
      plain_of_body paired (by simp [MutationBody.kind]) rfl rfl rfl ?_).congr
        (and_congr_right fun _ => and_iff_left trivial))
  rw [bodyBytes, isSource, isCopy]

def reorderBytes (graphemes : String → List String) (family : MutationFamily) (newOrder : List Named)
    (oldRanks : Option (List Nat)) (movedIndex movedFromRank : Option Nat)
    (outcome : MutationOutcome) : Nat :=
  envelope family .reorder outcome (78 + enclosed (newOrder.map (namedBytes graphemes)) +
    nullableBytes (fun ranks => enclosed (ranks.map fun rank : Nat => digits rank)) oldRanks +
    nullableBytes (fun n : Nat => digits n) movedIndex +
    nullableBytes (fun n : Nat => digits n) movedFromRank) [] 0

theorem reorder_kept_iff {family : MutationFamily} {newOrder : List Named}
    {oldRanks : Option (List Nat)} {movedIndex movedFromRank : Option Nat} {outcome : MutationOutcome}
    {paired : allowedBodyKinds family .reorder = some [.reorder]}
    {sized : 1 ≤ newOrder.length ∧ newOrder.length ≤ 20}
    {ranked : ∀ ranks ∈ oldRanks, ranks.length = newOrder.length} {placed : movedFromRank ≠ some 0} :
    Kept graphemes payload
        (.reorder family newOrder oldRanks movedIndex movedFromRank outcome paired sized ranked placed) ↔
      ((∀ subject ∈ newOrder, subject.Legible graphemes) ∧ outcome ≠ .unknown) ∧
      reorderBytes graphemes family newOrder oldRanks movedIndex movedFromRank outcome ≤
        RECEIPT_MAX_BYTES := by
  refine plain_kept_iff rfl rfl ((Yields.mapM (named_yields graphemes) newOrder).bind
    fun built areSubjects => ?_)
  have whole : built.take REORDER_MAX = built :=
    List.take_of_length_le (areSubjects.length_eq ▸ sized.2)
  have fine : reorderProblem built.length oldRanks movedFromRank = none := by
    simp only [reorderProblem, Option.or_eq_none_iff, lengthProblem_eq_none,
      ← areSubjects.length_eq, placed, if_false, true_and]
    refine ⟨sized, if_neg ?_⟩
    cases oldRanks with
    | none => simp
    | some ranks => simpa using ranked ranks rfl
  rw [reorderReceipt, whole]
  refine plain_of_sealed fine paired (by simp [MutationBody.kind]) rfl ?_ rfl ?_
  · rw [MutationBody.detail, ← areSubjects.length_eq]
    rfl
  · rw [reorderBytes, bodyBytes, map_of_forall₂ (fun _ _ is => is) areSubjects]

def essayEditBytes (graphemes : String → List String) (subject : Named)
    (operations : List AppliedEdit) (finalWordCount : Nat) (wordLimit : Option Nat) : Nat :=
  envelope .essayContent .edit .success (80 + namedBytes graphemes subject +
    enclosed (operations.map fun edit => operationBytes edit.operation) + digits finalWordCount +
    nullableBytes (fun n : Nat => digits n) wordLimit) [] 0

theorem essayEdit_kept_iff {subject : Named} {operations : List AppliedEdit} {finalWordCount : Nat}
    {wordLimit : Option Nat} {sized : 1 ≤ operations.length ∧ operations.length ≤ 20} :
    Kept graphemes payload (.essayEdit subject operations finalWordCount wordLimit sized) ↔
      subject.Legible graphemes ∧
        essayEditBytes graphemes subject operations finalWordCount wordLimit ≤ RECEIPT_MAX_BYTES := by
  refine plain_kept_iff rfl rfl (((named_yields graphemes subject).bind fun built isSubject =>
    ?_).congr (and_iff_left success_known))
  have whole : (operations.map AppliedEdit.operation).take BATCH_ITEMS_MAX =
      operations.map AppliedEdit.operation :=
    List.take_of_length_le (by simpa [BATCH_ITEMS_MAX] using sized.2)
  rw [essayEditReceipt, whole]
  refine plain_of_sealed (lengthProblem_eq_none.mpr (by simpa using sized)) rfl
    (by simp [MutationBody.kind]) rfl ?_ rfl ?_
  · rw [MutationBody.detail, List.length_map]
    rfl
  · simp only [essayEditBytes, bodyBytes, isSubject, List.map_map, Function.comp_def, size_operation]

def essayWriteBytes (graphemes : String → List String) (subject : Named) (mode : EssayWriteMode)
    (finalWordCount : Nat) (previousWordCount wordLimit : Option Nat) : Nat :=
  envelope .essayContent .write .success (98 + namedBytes graphemes subject + quoted mode.word +
    nullableBytes (fun n : Nat => digits n) previousWordCount + digits finalWordCount +
    nullableBytes (fun n : Nat => digits n) wordLimit) [] 0

theorem essayWrite_kept_iff {subject : Named} {mode : EssayWriteMode} {finalWordCount : Nat}
    {previousWordCount wordLimit : Option Nat} :
    Kept graphemes payload (.essayWrite subject mode finalWordCount previousWordCount wordLimit) ↔
      subject.Legible graphemes ∧
        essayWriteBytes graphemes subject mode finalWordCount previousWordCount wordLimit ≤
          RECEIPT_MAX_BYTES := by
  refine plain_kept_iff rfl rfl (((named_yields graphemes subject).bind fun built isSubject =>
    plain_of_body rfl (by simp [MutationBody.kind]) rfl rfl rfl ?_).congr (and_iff_left trivial))
  rw [essayWriteBytes, bodyBytes, isSubject]

def memoryBytes (graphemes : String → List String) (operation : MemoryOperation) (noteCount : Nat)
    (activeNotes : List String) : Nat :=
  envelope .memory operation.action .success (60 + quoted operation.action.word + digits noteCount +
    enclosed (activeNotes.map (textBytes graphemes · MEMORY_NOTE_MAX_GRAPHEMES))) [] 0

theorem memory_kept_iff {operation : MemoryOperation} {noteCount : Nat} {activeNotes : List String}
    {counted : memoryProblem operation noteCount activeNotes.length = none} :
    Kept graphemes payload (.memory operation noteCount activeNotes counted) ↔
      (∀ note ∈ activeNotes, Legible graphemes note MEMORY_NOTE_MAX_GRAPHEMES) ∧
        memoryBytes graphemes operation noteCount activeNotes ≤ RECEIPT_MAX_BYTES := by
  refine plain_kept_iff rfl rfl (((Yields.mapM (fun note =>
    boundedDisplayText_yields graphemes note MEMORY_NOTE_MAX_GRAPHEMES) activeNotes).bind
      fun built areNotes => ?_).congr (and_iff_left success_known))
  refine plain_of_sealed (areNotes.length_eq ▸ counted) ?_ (by simp [MutationBody.kind]) rfl rfl rfl ?_
  · cases operation <;> rfl
  · rw [memoryBytes, bodyBytes, map_of_forall₂ (fun _ _ is => is) areNotes]

def unresolvedBytes (family : MutationFamily) (action : MutationAction) (outcome : MutationOutcome)
    (attemptedCount : Option Nat) : Nat :=
  envelope family action outcome (66 + quoted family.word +
    quoted (verificationByFamily family).word +
    nullableBytes (fun n : Nat => digits n) attemptedCount) [] 0

theorem unresolved_kept_iff {family : MutationFamily} {action : MutationAction}
    {outcome : MutationOutcome} {attemptedCount : Option Nat}
    {terminal : outcome = .failed ∨ outcome = .unknown} :
    Kept graphemes payload (.unresolved family action outcome attemptedCount terminal) ↔
      unresolvedBytes family action outcome attemptedCount ≤ RECEIPT_MAX_BYTES := by
  rw [← true_and (unresolvedBytes family action outcome attemptedCount ≤ RECEIPT_MAX_BYTES)]
  refine plain_kept_iff rfl rfl ((Yields.validated fun fine =>
    ⟨rfl, rfl, rfl, rfl, rfl, size_receipt rfl⟩).congr (iff_true_intro ?_))
  rcases terminal with rfl | rfl <;> rfl

theorem sum_min_eq_iff {most : Nat} (lengths : List Nat) :
    (lengths.map (min most)).sum = lengths.sum ↔ ∀ length ∈ lengths, length ≤ most := by
  have below : ∀ lengths : List Nat, (lengths.map (min most)).sum ≤ lengths.sum := by
    intro lengths
    induction lengths with
    | nil => exact le_rfl
    | cons length rest ih =>
      rw [List.map_cons, List.sum_cons, List.sum_cons]
      omega
  induction lengths with
  | nil => simp
  | cons length rest ih =>
    have := below rest
    simp only [List.map_cons, List.sum_cons, List.forall_mem_cons, ← ih]
    omega

def profileBytes (graphemes : String → List String) (sections : List SectionChange) : Nat :=
  envelope .profile .update .success (30 + enclosed (sections.map (sectionBytes graphemes))) [] 0

theorem profile_yields {sections : List SectionChange}
    (sized : 1 ≤ sections.length ∧ sections.length ≤ 10) :
    Yields ((Committed.profile sections sized).receipt graphemes)
      (∀ change ∈ sections, change.Legible graphemes) (fun receipt =>
        receipt.body.positions = [] ∧
          receipt.body.detail =
            { changes := ((sections.map fun change => change.changes.length).map (min CHANGES_MAX)).sum } ∧
          List.Forall₂ (fun shown change => shown.map MutationChange.lists =
            (change.changes.take CHANGES_MAX).map FieldChange.shown) receipt.body.changes sections ∧
          receipt.notices = [] ∧ receipt.omissions = {} ∧
          receipt.dump.size = profileBytes graphemes sections) := by
  refine ((Yields.mapM (section_yields graphemes) sections).bind fun built areSections => ?_).congr
    (and_iff_left success_known)
  have whole : built.take 10 = built := List.take_of_length_le (areSections.length_eq ▸ sized.2)
  rw [profileReceipt, whole]
  refine (sealed_yields (lengthProblem_eq_none.mpr (areSections.length_eq ▸ sized)) rfl
    (Nat.zero_le _) (by simp [MutationBody.kind])).imp fun receipt is => ?_
  obtain ⟨isBody, noticed, omissions, size⟩ := is
  refine ⟨isBody ▸ rfl, ?_, ?_, noticed, omissions, ?_⟩
  · have lengths : built.map (fun change => change.changes.length) =
        sections.map fun change => min CHANGES_MAX change.changes.length :=
      map_of_forall₂ (fun change built is => by
        simpa using congrArg List.length is.2) areSections
    rw [isBody, MutationBody.detail, lengths, List.map_map]
    rfl
  · rw [isBody, MutationBody.changes, List.forall₂_map_left_iff]
    exact areSections.flip.imp fun _ _ is => is.2
  · rw [size, profileBytes, bodyBytes, map_of_forall₂ (fun _ _ is => is.1) areSections]
    rfl

theorem lists_whole_iff {shown : List (List MutationChange)} {sections : List SectionChange}
    (all : ∀ change ∈ sections, change.changes.length ≤ CHANGES_MAX)
    (lists : List.Forall₂ (fun shown change => shown.map MutationChange.lists =
      (change.changes.take CHANGES_MAX).map FieldChange.shown) shown sections) :
    List.Forall₂ (fun shown asked => shown.map MutationChange.lists =
        (asked.take shown.length).map FieldChange.lists) shown (sections.map SectionChange.changes) ↔
      ∀ change ∈ sections, ∀ field ∈ change.changes, field.Whole := by
  induction lists with
  | nil => simp
  | cons is _ ih =>
    rename_i change _ rest
    obtain ⟨here, others⟩ := List.forall_mem_cons.mp all
    rw [List.take_of_length_le here] at is
    have length := congrArg List.length is
    rw [List.length_map, List.length_map] at length
    rw [List.map_cons, List.forall₂_cons, ih others, List.forall_mem_cons, is, length,
      List.take_length, List.map_inj_left]
    simp only [shown_iff_whole]

theorem profile_kept_iff {sections : List SectionChange}
    {sized : 1 ≤ sections.length ∧ sections.length ≤ 10} :
    Kept graphemes payload (.profile sections sized) ↔
      (∀ change ∈ sections, change.Legible graphemes) ∧
        (∀ change ∈ sections, change.changes.length ≤ CHANGES_MAX) ∧
          (∀ change ∈ sections, ∀ field ∈ change.changes, field.Whole) ∧
            profileBytes graphemes sections ≤ RECEIPT_MAX_BYTES := by
  refine kept_iff (profile_yields sized) fun _ receipt is => ?_
  obtain ⟨positions, detail, lists, noticed, omissions, size⟩ := is
  have all_iff := @sum_min_eq_iff CHANGES_MAX (sections.map fun change => change.changes.length)
  rw [List.forall_mem_map] at all_iff
  rw [size]
  constructor
  · rintro ⟨fits, accounted⟩
    have counted : receipt.body.detail.changes + receipt.omissions.changes =
        (sections.map fun change => change.changes.length).sum :=
      congrArg MutationOmissions.changes accounted.counted
    rw [detail, omissions] at counted
    have all := all_iff.mp counted
    exact ⟨all, (lists_whole_iff all lists).mp accounted.whole, fits⟩
  · rintro ⟨all, whole, fits⟩
    refine ⟨fits, positions, ?_, (lists_whole_iff all lists).mpr whole⟩
    rw [WorkspaceMutationReceipt.detail, detail, noticed, omissions, all_iff.mpr all]
    rfl

end Delivered

/-- What is reported reaches the student: every text that is cut keeps fewer code points than it had
graphemes, nothing is left out that no count has, no outcome is unknown, and the receipt takes no
more than its budget. -/
def Committed.Fits (graphemes : String → List String) : Committed → Prop
  | .batch family action items outcome notices _ _ =>
    ((∀ item ∈ items, item.Legible graphemes) ∧ (∀ notice ∈ notices, notice.Legible graphemes) ∧
      outcome ≠ some .unknown ∧ (outcome = none → ∀ item ∈ items, item.disposition ≠ .unknown)) ∧
    notices.length ≤ NOTICES_MAX ∧
      batchBytes graphemes family action items outcome notices ≤ RECEIPT_MAX_BYTES
  | .update family action subject changes outcome notices _ _ =>
    ((∀ field ∈ changes, field.Legible graphemes) ∧ subject.Legible graphemes ∧
      (∀ notice ∈ notices, notice.Legible graphemes) ∧ outcome ≠ .unknown) ∧
    notices.length ≤ NOTICES_MAX ∧ changes.length ≤ CHANGES_MAX ∧
      updateBytes graphemes family action subject changes outcome notices 1 ≤ RECEIPT_MAX_BYTES ∧
      ∀ index (here : index < changes.length), ¬ changes[index].Whole →
        RECEIPT_MAX_BYTES <
          updateBytes graphemes family action subject changes outcome notices (index + 1)
  | .stateTransition family action state subjects outcome cascade _ _ =>
    ((∀ subject ∈ subjects, subject.Legible graphemes) ∧
      (∀ notice ∈ cascade, notice.Legible graphemes) ∧ outcome ≠ .unknown) ∧
    stateTransitionBytes graphemes family action state subjects outcome cascade ≤ RECEIPT_MAX_BYTES
  | .duplicate family source copy _ =>
    (source.Legible graphemes ∧ copy.Legible graphemes) ∧
      envelope family .duplicate .success (38 + namedBytes graphemes source + namedBytes graphemes copy)
        [] 0 ≤ RECEIPT_MAX_BYTES
  | .reorder family newOrder oldRanks movedIndex movedFromRank outcome _ _ _ _ =>
    ((∀ subject ∈ newOrder, subject.Legible graphemes) ∧ outcome ≠ .unknown) ∧
      reorderBytes graphemes family newOrder oldRanks movedIndex movedFromRank outcome ≤
        RECEIPT_MAX_BYTES
  | .essayEdit subject operations finalWordCount wordLimit _ =>
    subject.Legible graphemes ∧
      essayEditBytes graphemes subject operations finalWordCount wordLimit ≤ RECEIPT_MAX_BYTES
  | .essayWrite subject mode finalWordCount previousWordCount wordLimit =>
    subject.Legible graphemes ∧
      essayWriteBytes graphemes subject mode finalWordCount previousWordCount wordLimit ≤
        RECEIPT_MAX_BYTES
  | .profile sections _ =>
    (∀ change ∈ sections, change.Legible graphemes) ∧
      (∀ change ∈ sections, change.changes.length ≤ CHANGES_MAX) ∧
        (∀ change ∈ sections, ∀ field ∈ change.changes, field.Whole) ∧
          profileBytes graphemes sections ≤ RECEIPT_MAX_BYTES
  | .memory operation noteCount activeNotes _ =>
    (∀ note ∈ activeNotes, Legible graphemes note MEMORY_NOTE_MAX_GRAPHEMES) ∧
      memoryBytes graphemes operation noteCount activeNotes ≤ RECEIPT_MAX_BYTES
  | .unresolved family action outcome attemptedCount _ =>
    unresolvedBytes family action outcome attemptedCount ≤ RECEIPT_MAX_BYTES

theorem receipt_kept_iff (graphemes : String → List String) (payload : List (String × Value))
    (write : Committed) : Kept graphemes payload write ↔ write.Fits graphemes := by
  cases write with
  | batch => exact batch_kept_iff
  | update => exact update_kept_iff
  | stateTransition => exact stateTransition_kept_iff
  | duplicate => exact duplicate_kept_iff
  | reorder => exact reorder_kept_iff
  | essayEdit => exact essayEdit_kept_iff
  | essayWrite => exact essayWrite_kept_iff
  | profile => exact profile_kept_iff
  | memory => exact memory_kept_iff
  | unresolved => exact unresolved_kept_iff

/-- Clusters of letters and combining marks: a mark stays with what is in front of it. -/
def letterClusters (text : String) : List String :=
  (text.toList.splitBy fun _ next => 0x300 ≤ next.toNat && next.toNat ≤ 0x36F).map String.ofList

def accentedTitle : String := String.ofList (List.replicate 241 ['e', '\u0301']).flatten

theorem accentedTitle_clusters :
    letterClusters accentedTitle = (List.replicate 241 ['e', '\u0301']).map String.ofList := by
  have pairs : (List.replicate 241 ['e', '\u0301']).flatten.splitBy
      (fun _ next => 0x300 ≤ next.toNat && next.toNat ≤ 0x36F) = List.replicate 241 ['e', '\u0301'] := by
    decide +kernel
  unfold letterClusters accentedTitle
  rw [String.toList_ofList]
  exact congrArg (List.map String.ofList) pairs

theorem accentedTitle_refused : ¬ Legible letterClusters accentedTitle TITLE_MAX_GRAPHEMES := by
  have points : ((letterClusters accentedTitle).take TITLE_MAX_GRAPHEMES).map String.length =
      List.replicate 240 2 := by
    rw [accentedTitle_clusters]
    decide +kernel
  have clusters : (letterClusters accentedTitle).length = 241 := by
    rw [accentedTitle_clusters]
    decide +kernel
  rintro (short | fewer)
  · rw [clusters] at short
    exact absurd short (by decide)
  · rw [clipped, String.length_join, points, clusters] at fewer
    exact absurd fewer (by decide +kernel)

def createdTasks (titles : List String) (sized : 1 ≤ titles.length ∧ titles.length ≤ 20) : Committed :=
  .batch .task .create (titles.map fun title => ⟨.changed, some ⟨title, none⟩, none, none⟩) none [] rfl
    (by rwa [List.length_map])

def shortTitles : List String := List.replicate 20 (String.ofList (List.replicate 35 '😀'))

/-- One task with an accented title is refused by the text model, 20 tasks with short titles by the
budget. -/
theorem committed_tasks_refused :
    ¬ Kept letterClusters [] (createdTasks [accentedTitle] ⟨Nat.le_refl 1, by decide⟩) ∧
      ¬ Kept letterClusters [] (createdTasks shortTitles ⟨by decide, by decide⟩) := by
  constructor
  · intro kept
    have legible := (batch_kept_iff.mp kept).1.1
      ⟨.changed, some ⟨accentedTitle, none⟩, none, none⟩ List.mem_cons_self
    have title : (Named.mk accentedTitle none).Legible letterClusters :=
      legible.1 ⟨accentedTitle, none⟩ (Option.mem_some_self _)
    exact accentedTitle_refused title
  · intro kept
    have fits := (batch_kept_iff.mp kept).2.2
    revert fits
    decide +kernel

end Counselle.Receipts

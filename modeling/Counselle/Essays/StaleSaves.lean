import Counselle.Essays.SavedState

/-! When a save the row accepts erases a write its text was never based on. -/
namespace Counselle.Essays
open Transition

namespace Hook
variable {hook : Hook}

/-- Every version the hook holds is one the row has had by `instant`. -/
structure Within (hook : Hook) (instant : Nat) : Prop where
  guarded : hook.expectedUpdatedAt.isSome
  expected : ∀ version ∈ hook.expectedUpdatedAt, version ≤ instant
  cached : ∀ essay ∈ hook.cachedEssay, essay.updatedAt ≤ instant
  saved : ∀ essay ∈ hook.latestSavedEssay, essay.updatedAt ≤ instant
  props : ∀ saved ∈ hook.savedDraft, ∀ version ∈ saved.updatedAt, version ≤ instant

theorem laterVersion_isSome {version : Option Nat} (known : version.isSome) (other : Option Nat) :
    (laterVersion other version).isSome := by
  obtain ⟨instant, rfl⟩ := Option.isSome_iff_exists.mp known
  cases other with
  | none => rfl
  | some candidate =>
    simp only [laterVersion]
    split <;> rfl

theorem mem_laterVersion {version other : Option Nat} {instant : Nat}
    (later : instant ∈ laterVersion other version) : instant ∈ other ∨ instant ∈ version := by
  cases other with
  | none => exact Or.inr later
  | some candidate =>
    cases version with
    | none => exact Or.inl later
    | some current =>
      simp only [laterVersion] at later
      split at later
      · exact Or.inl later
      · exact Or.inr later

variable {instant : Nat}

theorem Within.mono {later : Nat} (within : hook.Within instant) (le : instant ≤ later) :
    hook.Within later :=
  ⟨within.guarded, fun version isKnown => Nat.le_trans (within.expected version isKnown) le,
    fun essay isCached => Nat.le_trans (within.cached essay isCached) le,
    fun essay isSaved => Nat.le_trans (within.saved essay isSaved) le,
    fun saved isPassed version isKnown => Nat.le_trans (within.props saved isPassed version isKnown) le⟩

theorem Within.saveDraft (within : hook.Within instant) (draft : Draft) :
    (hook.saveDraft draft).Within instant := by
  obtain ⟨guarded, expected, cached, saved, props⟩ := within
  unfold Hook.saveDraft
  split
  · split <;> exact ⟨guarded, expected, cached, saved, props⟩
  · split
    · exact ⟨guarded, expected, cached, saved, props⟩
    · split <;> exact ⟨guarded, expected, cached, saved, props⟩

theorem Within.sync (within : hook.Within instant) : hook.syncLatestSavedCache.Within instant := by
  obtain ⟨guarded, expected, cached, saved, props⟩ := within
  unfold syncLatestSavedCache
  split
  case h_1 essay isSaved =>
    have latest : ∀ other ∈ some essay, other.updatedAt ≤ instant := by
      rw [← isSaved]
      exact saved
    exact ⟨guarded, expected, latest, latest, props⟩
  case h_2 draft _ _ =>
    refine ⟨guarded, expected, ?_, saved, props⟩
    intro essay isCached
    obtain ⟨current, isCurrent, rfl⟩ := Option.map_eq_some_iff.mp isCached
    exact cached current isCurrent
  case h_3 => exact ⟨guarded, expected, cached, saved, props⟩

theorem Within.saw (within : hook.Within instant) {essay : Essay} (le : essay.updatedAt ≤ instant) :
    (hook.sawVersion essay).Within instant := by
  refine ⟨laterVersion_isSome within.guarded _, ?_, within.cached, within.saved, within.props⟩
  intro version later
  obtain seen | known := mem_laterVersion later
  · cases seen
    exact le
  · exact within.expected version known

theorem Within.settle (within : hook.Within instant) :
    hook.settlePendingSavedDraft.Within instant := by
  unfold settlePendingSavedDraft
  split
  · exact within
  case h_2 pending isPending =>
    obtain ⟨guarded, expected, cached, saved, props⟩ := within
    split
    · exact ⟨guarded, expected, cached, saved, props⟩
    · split
      · apply Within.saveDraft
        exact ⟨guarded, expected, cached, saved, props⟩
      · have cleared : Within { hook with pendingDraft := none } instant :=
          ⟨guarded, expected, cached, saved, props⟩
        obtain ⟨guarded, expected, cached, saved, props⟩ := cleared.sync
        exact ⟨guarded, expected, cached, saved, props⟩

theorem Within.drainQueue (within : hook.Within instant) : hook.drainQueue.Within instant := by
  unfold Hook.drainQueue
  split
  · exact within
  · apply Within.saveDraft
    exact ⟨within.guarded, within.expected, within.cached, within.saved, within.props⟩

theorem Within.otherSaved (within : hook.Within instant) : hook.otherSaved.Within instant := by
  obtain ⟨guarded, expected, cached, saved, props⟩ := within.sync
  simp only [Hook.otherSaved]
  split
  · apply Within.settle
    exact ⟨guarded, expected, cached, saved, props⟩
  · exact Within.settle ⟨guarded, expected, cached, saved, props⟩

theorem Within.respond (within : hook.Within instant) (draft : Draft) {essay : Option Essay}
    (le : ∀ answer ∈ essay, answer.updatedAt ≤ instant) :
    (hook.respond draft essay).Within instant := by
  obtain ⟨guarded, expected, cached, saved, props⟩ := within
  cases essay with
  | some essay =>
    apply Within.drainQueue
    have landed : Within ({ hook with directInFlightDraftKey := none, request := none }.landed
        draft.key) instant := ⟨guarded, expected, cached, saved, props⟩
    have seen := landed.saw (le essay rfl)
    simp only [handleSaveSuccess]
    split
    · have latest : ∀ other ∈ some essay, other.updatedAt ≤ instant := le
      exact ⟨seen.guarded, seen.expected, latest, latest, seen.props⟩
    · exact seen.otherSaved
  | none =>
    apply Within.drainQueue
    simp only [handleSaveError]
    split
    · exact ⟨guarded, expected, cached, saved, props⟩
    · apply Within.settle
      apply Within.sync
      exact ⟨guarded, expected, cached, saved, props⟩

theorem Within.adopt (within : hook.Within instant) : hook.adoptSaved.Within instant := by
  obtain ⟨guarded, expected, cached, saved, props⟩ := within
  unfold adoptSaved
  split
  · exact ⟨guarded, expected, cached, saved, props⟩
  case h_2 passed isPassed =>
    split
    · exact ⟨guarded, expected, cached, saved, props⟩
    · refine ⟨laterVersion_isSome guarded _, ?_, cached, ?_, props⟩
      · intro version later
        obtain fromProps | known := mem_laterVersion later
        · exact props passed isPassed version fromProps
        · exact expected version known
      · intro essay isLatest
        simp only at isLatest
        split at isLatest
        case h_1 current isCurrent =>
          split at isLatest
          · cases isLatest
            exact cached essay isCurrent
          · exact saved essay isLatest
        · exact saved essay isLatest

theorem Within.render (within : hook.Within instant) : hook.render.Within instant := by
  apply Within.adopt
  refine ⟨within.guarded, within.expected, within.cached, within.saved, ?_⟩
  intro passed isPassed
  simp only at isPassed
  split at isPassed
  case h_1 old essay _ isCached =>
    cases isPassed
    intro version isVersion
    cases isVersion
    exact within.cached essay isCached
  · exact within.props passed isPassed

theorem adoptSaved_request (hook : Hook) : hook.adoptSaved.request = hook.request := by
  unfold adoptSaved
  split
  · rfl
  · split <;> rfl

theorem render_request (hook : Hook) : hook.render.request = hook.request :=
  adoptSaved_request _

theorem Within.refetched (within : hook.Within instant) : hook.adoptRefetched.Within instant := by
  unfold adoptRefetched
  split
  case h_1 refreshed isCached =>
    refine ⟨laterVersion_isSome within.guarded _, ?_, within.cached, within.saved, within.props⟩
    intro version later
    obtain seen | known := mem_laterVersion later
    · cases seen
      exact within.cached refreshed isCached
    · exact within.expected version known
  · exact ⟨within.guarded, within.expected, within.cached, within.saved, within.props⟩

/-- The drafts the handlers of an answer may put out: what is queued, and a pending
one that returned to the saved text. -/
def resends (hook : Hook) : List Draft :=
  hook.queuedDirectDraft.toList ++
    hook.pendingDraft.toList.filter fun pending => hook.latestSavedDraftKey = some pending.key

def versionAfter (hook : Hook) (essay : Option Essay) : Option Nat :=
  match essay with
  | some essay => laterVersion (some essay.updatedAt) hook.expectedUpdatedAt
  | none => hook.expectedUpdatedAt

@[simp] theorem settle_expectedUpdatedAt (hook : Hook) :
    hook.settlePendingSavedDraft.expectedUpdatedAt = hook.expectedUpdatedAt := by
  unfold settlePendingSavedDraft
  split
  · rfl
  · split
    · rfl
    · split <;> simp

@[simp] theorem drainQueue_expectedUpdatedAt (hook : Hook) :
    hook.drainQueue.expectedUpdatedAt = hook.expectedUpdatedAt := by
  unfold Hook.drainQueue
  split
  · rfl
  · simp

theorem respond_expectedUpdatedAt (hook : Hook) (draft : Draft) (essay : Option Essay) :
    (hook.respond draft essay).expectedUpdatedAt = hook.versionAfter essay := by
  cases essay with
  | some essay =>
    simp only [respond, handleSaveSuccess, drainQueue_expectedUpdatedAt]
    split
    · rfl
    · simp only [Hook.otherSaved]
      split <;> simp [sawVersion, landed, versionAfter]
  | none =>
    simp only [respond, handleSaveError, drainQueue_expectedUpdatedAt]
    split
    · rfl
    · simp [landed, versionAfter]

/-- Only one of `drafts` is out or waits to be. -/
structure Holds (hook : Hook) (drafts : List Draft) : Prop where
  out : ∀ request, hook.request = some request → request.draft ∈ drafts
  queued : ∀ draft, hook.queuedDirectDraft = some draft → draft ∈ drafts
  returned : ∀ draft, hook.pendingDraft = some draft → hook.latestSavedDraftKey = some draft.key →
    draft ∈ drafts

variable {drafts : List Draft}

theorem Holds.saveDraft (holds : hook.Holds drafts) {draft : Draft} (isIn : draft ∈ drafts) :
    (hook.saveDraft draft).Holds drafts := by
  obtain ⟨out, queued, returned⟩ := holds
  unfold Hook.saveDraft
  split
  · split
    · exact ⟨out, nofun, returned⟩
    · exact ⟨out, queued, returned⟩
  · split
    · refine ⟨out, ?_, returned⟩
      intro other isQueued
      cases isQueued
      exact isIn
    · split
      · exact ⟨out, queued, returned⟩
      · refine ⟨?_, queued, returned⟩
        intro request isRequest
        cases isRequest
        exact isIn

theorem Holds.sync (holds : hook.Holds drafts) : hook.syncLatestSavedCache.Holds drafts := by
  constructor
  · simpa using holds.out
  · simpa using holds.queued
  · simpa using holds.returned

theorem Holds.settle (holds : hook.Holds drafts) : hook.settlePendingSavedDraft.Holds drafts := by
  unfold settlePendingSavedDraft
  split
  · exact holds
  case h_2 pending isPending =>
    split
    · exact holds
    case isFalse settled =>
      push Not at settled
      have isIn := holds.returned pending isPending settled.1
      split
      · apply Holds.saveDraft
        · exact ⟨holds.out, holds.queued, holds.returned⟩
        · exact isIn
      · have cleared : Holds { hook with pendingDraft := none } drafts :=
          ⟨holds.out, holds.queued, nofun⟩
        obtain ⟨out, queued, returned⟩ := cleared.sync
        exact ⟨out, queued, returned⟩

theorem Holds.drainQueue (holds : hook.Holds drafts) : hook.drainQueue.Holds drafts := by
  unfold Hook.drainQueue
  split
  · exact holds
  case h_2 queued isQueued =>
    apply Holds.saveDraft
    · exact ⟨holds.out, nofun, holds.returned⟩
    · exact holds.queued queued isQueued

theorem respond_resends (hook : Hook) (draft : Draft) (essay : Option Essay) {request : Request}
    (isRequest : (hook.respond draft essay).request = some request) :
    request.draft ∈ hook.resends := by
  have idle : Holds ({ hook with directInFlightDraftKey := none, request := none }.landed draft.key)
      hook.resends := by
    refine ⟨?_, ?_, ?_⟩
    · intro sent isSent
      cases isSent
    · intro queued isQueued
      exact List.mem_append_left _ (Option.mem_toList.mpr isQueued)
    · intro pending isPending saved
      exact List.mem_append_right _
        (List.mem_filter.mpr ⟨Option.mem_toList.mpr isPending, decide_eq_true saved⟩)
  suffices (hook.respond draft essay).Holds hook.resends from this.out request isRequest
  cases essay with
  | some essay =>
    have seen : Holds (({ hook with directInFlightDraftKey := none, request := none }.landed
        draft.key).sawVersion essay) hook.resends := ⟨idle.out, idle.queued, idle.returned⟩
    apply Holds.drainQueue
    simp only [handleSaveSuccess]
    split
    · refine ⟨seen.out, seen.queued, ?_⟩
      intro pending isPending
      cases isPending
    · have synced := seen.sync
      simp only [Hook.otherSaved]
      split
      · apply Holds.settle
        exact ⟨synced.out, synced.queued, synced.returned⟩
      · exact synced.settle
  | none =>
    apply Holds.drainQueue
    simp only [handleSaveError]
    split
    · exact ⟨idle.out, idle.queued, idle.returned⟩
    · exact idle.sync.settle

end Hook

/-- Every foreign write the draft was not authored from is later than the version. -/
def Desk.Guards (desk : Desk) (version : Option Nat) (draft : Draft) : Prop :=
  ∀ instant ∈ desk.foreign.drop draft.basis, ∀ expected ∈ version, expected < instant

instance (desk : Desk) (version : Option Nat) (draft : Draft) :
    Decidable (desk.Guards version draft) :=
  inferInstanceAs (Decidable (∀ _ ∈ _, ∀ _ ∈ _, _ < _))

def Request.answer (request : Request) : Option Essay :=
  match request.phase with
  | .answered essay => some essay
  | _ => none

/-- A save is put out only against a version older than every foreign write its
draft was not authored from. -/
def Desk.SendsGuarded (desk : Desk) : DeskLabel → Prop
  | .debounce => desk.hook.directInFlightDraftKey = none →
    ∀ draft ∈ desk.hook.timeout, desk.Guards desk.hook.expectedUpdatedAt draft
  | .flush => desk.hook.directInFlightDraftKey = none →
    ∀ draft ∈ desk.hook.pendingDraft, desk.Guards desk.hook.expectedUpdatedAt draft
  | .respond => ∀ request ∈ desk.hook.request, ∀ draft ∈ desk.hook.resends,
    desk.Guards (desk.hook.versionAfter request.answer) draft
  | _ => True

instance (desk : Desk) : DecidablePred desk.SendsGuarded
  | .debounce | .flush => inferInstanceAs (Decidable (_ → ∀ _ ∈ _, _))
  | .respond => inferInstanceAs (Decidable (∀ _ ∈ _, ∀ _ ∈ _, _))
  | .queueSave _ _ | .commit _ | .readBack | .lose | .refetch _ | .adoptRefetched | .render
  | .foreignWrite _ _ _ => isTrue trivial

structure Desk.Current (desk : Desk) : Prop where
  within : desk.hook.Within desk.row.updatedAt
  versions : ∀ essay ∈ desk.versions, essay.updatedAt ≤ desk.row.updatedAt
  foreign : ∀ instant ∈ desk.foreign, instant ≤ desk.row.updatedAt
  answered : ∀ request, desk.hook.request = some request → ∀ essay ∈ request.answer,
    essay.updatedAt ≤ desk.row.updatedAt
  out : ∀ request, desk.hook.request = some request → request.phase = .sent →
    request.expectedUpdatedAt.isSome ∧
      (∀ expected ∈ request.expectedUpdatedAt, expected ≤ desk.row.updatedAt) ∧
      desk.Guards request.expectedUpdatedAt request.draft
  current : desk.foreign.length ≤ desk.row.draft.basis

variable {desk next : Desk} {wordCountOf : Json → Nat}

theorem Desk.Current.frame (current : desk.Current) {hook : Hook}
    (within : hook.Within desk.row.updatedAt) (request : hook.request = desk.hook.request) :
    Desk.Current { desk with hook := hook } := by
  refine ⟨within, current.versions, current.foreign, ?_, ?_, current.current⟩
  · simp only [request]
    exact current.answered
  · simp only [request]
    exact current.out

theorem Desk.Current.saveDraft (current : desk.Current) {hook : Hook} {draft : Draft}
    (within : hook.Within desk.row.updatedAt) (request : hook.request = desk.hook.request)
    (guards : hook.directInFlightDraftKey = none → desk.Guards hook.expectedUpdatedAt draft) :
    Desk.Current { desk with hook := hook.saveDraft draft } := by
  obtain same | ⟨idle, sends⟩ := hook.saveDraft_request draft
  · apply current.frame
    · exact within.saveDraft draft
    · exact same.trans request
  · refine ⟨within.saveDraft draft, current.versions, current.foreign, ?_, ?_, current.current⟩
    · intro sent isSent
      cases sends.symm.trans isSent
      exact nofun
    · intro sent isSent _
      cases sends.symm.trans isSent
      exact ⟨within.guarded, within.expected, guards idle⟩

theorem Desk.Current.respond (current : desk.Current) {request : Request}
    (isRequest : desk.hook.request = some request)
    (guards : ∀ draft ∈ desk.hook.resends,
      desk.Guards (desk.hook.versionAfter request.answer) draft) :
    Desk.Current { desk with hook := desk.hook.respond request.draft request.answer } := by
  have within := current.within.respond request.draft (current.answered request isRequest)
  refine ⟨within, current.versions, current.foreign, ?_, ?_, current.current⟩
  · intro sent isSent essay isAnswer
    rw [Request.answer, (Hook.respond_unsent _ _ _ sent isSent).1] at isAnswer
    cases isAnswer
  · intro sent isSent _
    have expects := (Hook.respond_unsent _ _ _ sent isSent).2
    have waited := Hook.respond_resends _ _ _ isSent
    rw [expects]
    refine ⟨within.guarded, within.expected, ?_⟩
    rw [Hook.respond_expectedUpdatedAt]
    exact guards _ waited

theorem Desk.Current.setPhase (current : desk.Current) {request : Request} {phase : Phase}
    (unsent : phase ≠ .sent)
    (answered : ∀ essay, phase = .answered essay → essay.updatedAt ≤ desk.row.updatedAt) :
    (desk.setPhase request phase).Current := by
  have within := current.within
  refine ⟨⟨within.guarded, within.expected, within.cached, within.saved, within.props⟩,
    current.versions, current.foreign, ?_, ?_, current.current⟩
  · intro other isOther essay isAnswer
    cases isOther
    apply answered
    cases phase with
    | answered answer =>
      cases isAnswer
      rfl
    | sent | committed | failed => cases isAnswer
  · intro other isOther isSent
    cases isOther
    exact absurd isSent unsent

theorem Desk.Current.setUnanswered (current : desk.Current) {request : Request} {phase : Phase}
    (unanswered : phase = .committed ∨ phase = .failed) :
    (desk.setPhase request phase).Current := by
  obtain rfl | rfl := unanswered
  all_goals
    apply current.setPhase (by decide)
    intro essay isAnswer
    cases isAnswer

structure Desk.Accepts (desk : Desk) (request : Request) : Prop where
  out : desk.hook.request = some request
  sent : request.phase = .sent
  fresh : stale desk.row.updatedAt request.expectedUpdatedAt = false

theorem Desk.Current.accepted (current : desk.Current) {request : Request}
    (accepts : desk.Accepts request) : desk.foreign.length ≤ request.draft.basis := by
  obtain ⟨isRequest, isSent, fresh⟩ := accepts
  obtain ⟨guarded, _, guards⟩ := current.out request isRequest isSent
  obtain ⟨expected, isExpected⟩ := Option.isSome_iff_exists.mp guarded
  have same : desk.row.updatedAt = expected := by
    simpa [stale, isExpected] using fresh
  by_contra older
  obtain ⟨instant, isLater⟩ : ∃ instant, instant ∈ desk.foreign.drop request.draft.basis :=
    List.exists_mem_of_length_pos (by rw [List.length_drop]; omega)
  have later := guards instant isLater expected isExpected
  have known := current.foreign instant (List.mem_of_mem_drop isLater)
  omega

theorem Desk.Current.write (current : desk.Current) (draft : Draft) {now : Nat}
    (later : desk.row.updatedAt < now) (based : desk.foreign.length ≤ draft.basis) :
    (desk.write draft now).Current := by
  have le := Nat.le_of_lt later
  refine ⟨current.within.mono le, ?_, ?_, ?_, ?_, based⟩
  · intro essay isVersion
    obtain rfl | before := List.mem_cons.mp isVersion
    · exact Nat.le_refl _
    · exact Nat.le_trans (current.versions essay before) le
  · exact fun instant isForeign => Nat.le_trans (current.foreign instant isForeign) le
  · exact fun request isRequest essay isAnswer =>
      Nat.le_trans (current.answered request isRequest essay isAnswer) le
  · intro request isRequest isSent
    obtain ⟨guarded, known, guards⟩ := current.out request isRequest isSent
    exact ⟨guarded, fun expected isExpected => Nat.le_trans (known expected isExpected) le, guards⟩

theorem Desk.Current.foreignWrite (current : desk.Current) {content : Json} {wordCount now : Nat}
    (later : desk.row.updatedAt < now) :
    Desk.Current { desk.write ⟨content, wordCount, desk.foreign.length + 1⟩ now with
      foreign := desk.foreign ++ [now] } := by
  have written := current.write ⟨content, wordCount, desk.foreign.length + 1⟩ later (Nat.le_succ _)
  refine ⟨written.within, written.versions, ?_, written.answered, ?_, ?_⟩
  · intro instant isForeign
    obtain before | here := List.mem_append.mp isForeign
    · exact written.foreign instant before
    · cases List.mem_singleton.mp here
      exact Nat.le_refl _
  · intro request isRequest isSent
    obtain ⟨guarded, known, guards⟩ := written.out request isRequest isSent
    refine ⟨guarded, known, fun instant isLater expected isExpected => ?_⟩
    rw [List.drop_append] at isLater
    obtain before | here := List.mem_append.mp isLater
    · exact guards instant before expected isExpected
    · cases List.mem_singleton.mp (List.mem_of_mem_drop here)
      have bound := (current.out request isRequest isSent).2.1 expected isExpected
      omega
  · simp [Desk.write]

theorem Desk.Current.step {label : DeskLabel} (current : desk.Current)
    (safe : desk.SendsGuarded label) (step : deskStep wordCountOf desk label = some next) :
    next.Current := by
  have within := current.within
  have timeless : Hook.Within { desk.hook with timeout := none } desk.row.updatedAt :=
    ⟨within.guarded, within.expected, within.cached, within.saved, within.props⟩
  cases label with
  | queueSave content wordCount =>
    cases step
    have queued : (desk.hook.queueSave ⟨content, wordCount, desk.editorBasis⟩).Within
          desk.row.updatedAt ∧
        (desk.hook.queueSave ⟨content, wordCount, desk.editorBasis⟩).request =
          desk.hook.request := by
      obtain ⟨guarded, expected, cached, saved, props⟩ := within
      unfold Hook.queueSave
      split
      · split <;> exact ⟨⟨guarded, expected, cached, saved, props⟩, rfl⟩
      · exact ⟨⟨guarded, expected, cached, saved, props⟩, rfl⟩
    have framed := current.frame queued.1 queued.2
    exact ⟨framed.within, framed.versions, framed.foreign, framed.answered, framed.out,
      framed.current⟩
  | debounce =>
    obtain ⟨hook, fired, rfl⟩ := Option.map_eq_some_iff.mp step
    obtain ⟨draft, isTimed, rfl⟩ := Option.map_eq_some_iff.mp fired
    exact current.saveDraft timeless rfl fun idle => safe idle draft isTimed
  | flush =>
    cases step
    unfold Hook.flush
    split
    · exact current.frame timeless rfl
    case h_2 draft isPending =>
      exact current.saveDraft timeless rfl fun idle => safe idle draft isPending
  | commit now =>
    simp only [deskStep] at step
    split at step
    case h_1 request isRequest =>
      split at step
      · cases step
      case isFalse due =>
        push Not at due
        split at step
        · cases step
          exact current.setUnanswered (Or.inr rfl)
        case isFalse fresh =>
          cases step
          have based := current.accepted ⟨isRequest, due.1, by simpa using fresh⟩
          have later : desk.row.updatedAt < now := by omega
          have written := current.write
            { request.draft with wordCount := wordCountOf request.draft.content } later based
          exact written.setUnanswered (Or.inl rfl)
    case h_2 => cases step
  | readBack =>
    simp only [deskStep] at step
    split at step
    case h_1 request isRequest =>
      split at step
      · cases step
        apply current.setPhase
        · intro sent
          cases sent
        · intro essay isAnswer
          cases isAnswer
          exact Nat.le_refl _
      · cases step
    case h_2 => cases step
  | lose =>
    obtain ⟨request, isRequest, rfl⟩ := Option.map_eq_some_iff.mp step
    exact current.setUnanswered (Or.inr rfl)
  | respond =>
    simp only [deskStep] at step
    split at step
    case h_1 request isRequest =>
      have next := current.respond isRequest (safe request isRequest)
      split at step
      case h_1 essay answered =>
        cases step
        simpa only [Request.answer, answered] using next
      case h_2 failed =>
        cases step
        simpa only [Request.answer, failed] using next
      case h_3 => cases step
    case h_2 => cases step
  | refetch version =>
    simp only [deskStep] at step
    split at step
    case isTrue isVersion =>
      cases step
      refine current.frame ⟨within.guarded, within.expected, ?_, within.saved, within.props⟩ rfl
      intro essay isCached
      cases isCached
      exact current.versions version isVersion
    case isFalse => cases step
  | adoptRefetched =>
    simp only [deskStep] at step
    split at step
    case isTrue => cases step
    case isFalse =>
      cases step
      exact current.frame within.refetched rfl
  | render =>
    cases step
    have rendered := current.frame within.render desk.hook.render_request
    unfold Desk.resync
    split
    · exact ⟨rendered.within, rendered.versions, rendered.foreign, rendered.answered,
        rendered.out, rendered.current⟩
    · exact rendered
  | foreignWrite content wordCount now =>
    simp only [deskStep] at step
    split at step
    case isTrue => cases step
    case isFalse later =>
      cases step
      exact current.foreignWrite (by omega)

theorem Desk.opened_current (content : Json) (wordCount updatedAt : Nat) :
    (Desk.opened content wordCount updatedAt).Current := by
  refine ⟨⟨rfl, ?_, ?_, nofun, ?_⟩, ?_, nofun, nofun, nofun, Nat.le_refl _⟩
  · intro version isExpected
    cases isExpected
    exact Nat.le_refl _
  · intro essay isCached
    cases isCached
    exact Nat.le_refl _
  · intro saved isPassed version isVersion
    cases isPassed
    cases isVersion
    exact Nat.le_refl _
  · intro essay isVersion
    cases List.mem_singleton.mp isVersion
    exact Nat.le_refl _

/-- A suggestion is accepted between two edits and reaches the editor. -/
def acceptedBetween : List DeskLabel :=
  [.queueSave (essayOf "A") 1, .debounce, .commit 1, .readBack, .respond, .render,
    .foreignWrite (essayOf "B") 1 2, .refetch ⟨⟨essayOf "B", 1, 1⟩, 2⟩, .render,
    .queueSave (essayOf "B C") 2, .debounce]

/-- The student keeps typing after the refetch of a refused save. -/
def typedOn : List DeskLabel :=
  [.queueSave (essayOf "A") 1, .foreignWrite (essayOf "B") 1 1, .debounce, .commit 2, .respond,
    .refetch ⟨⟨essayOf "B", 1, 1⟩, 1⟩, .render, .adoptRefetched, .queueSave (essayOf "A C") 2,
    .debounce]

end Counselle.Essays

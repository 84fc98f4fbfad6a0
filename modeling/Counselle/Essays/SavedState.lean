import Counselle.Essays.Autosave

/-! When the editor reports "saved": what the row holds then. -/
namespace Counselle.Essays
open Transition

def SameText (first second : Draft) : Prop :=
  normalizeDraftValue first.content = normalizeDraftValue second.content

instance (first second : Draft) : Decidable (SameText first second) :=
  inferInstanceAs (Decidable (_ = _))

theorem SameText.of_key {first second : Draft} (same : first.key = second.key) :
    SameText first second := congrArg Prod.fst same

namespace Hook
variable {hook : Hook} {last : Option Draft}

/-- One direct save at most is out, what is pending or timed is the last edit, and
an edit back to the saved text waits behind the save it conflicts with. -/
structure Ok (hook : Hook) (last : Option Draft) : Prop where
  flight : hook.inFlightDraftKeys = hook.directInFlightDraftKey.toList
  request : hook.directInFlightDraftKey = hook.request.map (·.draft.key)
  queue : hook.directInFlightDraftKey = none → hook.queuedDirectDraft = none
  needsSave : hook.pendingSavedDraftNeedsSave = false
  pending : ∀ draft, hook.pendingDraft = some draft → last = some draft
  timer : ∀ draft, hook.timeout = some draft → last = some draft
  returning : ∀ draft, hook.pendingDraft = some draft →
    hook.latestSavedDraftKey = some draft.key → ∀ key, hook.directInFlightDraftKey = some key →
      if key = draft.key then hook.queuedDirectDraft = none
      else ∃ queued, hook.queuedDirectDraft = some queued ∧ queued.key = draft.key

theorem saveDraft_idle (hook : Hook) (flight : hook.inFlightDraftKeys = [])
    (idle : hook.directInFlightDraftKey = none) (draft : Draft) :
    hook.saveDraft draft =
      { hook with
        directInFlightDraftKey := some draft.key
        inFlightDraftKeys := [draft.key]
        saveState := .saving
        request := some ⟨draft, hook.expectedUpdatedAt, .sent⟩ } := by
  simp [saveDraft, flight, idle, hasConflictingInFlight]

theorem saveDraft_same (hook : Hook) {draft : Draft} (flight : hook.inFlightDraftKeys = [draft.key])
    (direct : hook.directInFlightDraftKey = some draft.key) :
    hook.saveDraft draft = { hook with queuedDirectDraft := none } := by
  simp [saveDraft, flight, direct]

theorem saveDraft_busy (hook : Hook) {draft : Draft} {key : DraftKey} (flight : hook.inFlightDraftKeys = [key])
    (direct : hook.directInFlightDraftKey = some key) (other : key ≠ draft.key) :
    hook.saveDraft draft = { hook with queuedDirectDraft := some draft, saveState := .saving } := by
  simp [saveDraft, flight, direct, Ne.symm other]

theorem saveDraft_request (hook : Hook) (draft : Draft) :
    (hook.saveDraft draft).request = hook.request ∨
      (hook.directInFlightDraftKey = none ∧
        (hook.saveDraft draft).request = some ⟨draft, hook.expectedUpdatedAt, .sent⟩) := by
  unfold saveDraft
  split
  · left
    split <;> rfl
  · split
    · exact Or.inl rfl
    case isFalse idle =>
      split
      · exact Or.inl rfl
      · exact Or.inr ⟨by simpa using idle, rfl⟩

@[simp] theorem saveDraft_expectedUpdatedAt (hook : Hook) (draft : Draft) :
    (hook.saveDraft draft).expectedUpdatedAt = hook.expectedUpdatedAt := by
  unfold saveDraft
  split
  · split <;> rfl
  · split
    · rfl
    · split <;> rfl

/-- What is out was put out just now, against the version the hook holds. -/
def Unsent (hook : Hook) : Prop :=
  ∀ request, hook.request = some request →
    request.phase = .sent ∧ request.expectedUpdatedAt = hook.expectedUpdatedAt

theorem Unsent.saveDraft (unsent : hook.Unsent) (draft : Draft) : (hook.saveDraft draft).Unsent := by
  intro request isRequest
  obtain same | ⟨_, sends⟩ := hook.saveDraft_request draft
  · rw [saveDraft_expectedUpdatedAt]
    exact unsent request (same.symm.trans isRequest)
  · cases sends.symm.trans isRequest
    exact ⟨rfl, (saveDraft_expectedUpdatedAt hook draft).symm⟩

theorem Ok.saveDraft {draft : Draft} (ok : hook.Ok last) (isLast : last = some draft) :
    (hook.saveDraft draft).Ok last ∧ (hook.saveDraft draft).pendingDraft = hook.pendingDraft := by
  have same : ∀ other, hook.pendingDraft = some other → other = draft := by
    intro other isPending
    exact Option.some.inj ((ok.pending other isPending).symm.trans isLast)
  obtain direct | ⟨key, direct⟩ := Option.eq_none_or_eq_some hook.directInFlightDraftKey
  · have flight : hook.inFlightDraftKeys = [] := by rw [ok.flight, direct]; rfl
    rw [saveDraft_idle hook flight direct]
    refine ⟨⟨rfl, rfl, ?_, ok.needsSave, ok.pending, ok.timer, ?_⟩, rfl⟩
    · intro idle
      cases idle
    · intro other isPending _ key isKey
      cases isKey
      rw [same other isPending, if_pos rfl]
      exact ok.queue direct
  · have flight : hook.inFlightDraftKeys = [key] := by rw [ok.flight, direct]; rfl
    by_cases here : key = draft.key
    · subst here
      rw [saveDraft_same hook flight direct]
      refine ⟨⟨ok.flight, ok.request, fun _ => rfl, ok.needsSave, ok.pending, ok.timer, ?_⟩, rfl⟩
      intro other isPending _ key isKey
      rw [direct] at isKey
      cases isKey
      rw [same other isPending, if_pos rfl]
    · rw [saveDraft_busy hook flight direct here]
      refine ⟨⟨ok.flight, ok.request, ?_, ok.needsSave, ok.pending, ok.timer, ?_⟩, rfl⟩
      · intro idle
        rw [direct] at idle
        cases idle
      · intro other isPending _ key' isKey
        rw [direct] at isKey
        cases isKey
        rw [same other isPending, if_neg here]
        exact ⟨draft, rfl, rfl⟩

theorem Ok.clearTimeout (ok : hook.Ok last) : ({ hook with timeout := none } : Hook).Ok last :=
  ⟨ok.flight, ok.request, ok.queue, ok.needsSave, ok.pending, nofun, ok.returning⟩

/-- Where the handlers of a save leave the refs before the queue is drained. -/
structure Answered (hook : Hook) (last : Option Draft) : Prop where
  flight : hook.inFlightDraftKeys = hook.directInFlightDraftKey.toList
  request : hook.directInFlightDraftKey = hook.request.map (·.draft.key)
  needsSave : hook.pendingSavedDraftNeedsSave = false
  pending : ∀ draft, hook.pendingDraft = some draft → last = some draft
  timer : ∀ draft, hook.timeout = some draft → last = some draft
  idle : ∀ draft, hook.pendingDraft = some draft → hook.latestSavedDraftKey = some draft.key →
    hook.directInFlightDraftKey = none → hook.queuedDirectDraft = none
  resaving : ∀ key, hook.directInFlightDraftKey = some key →
    (∃ draft, hook.pendingDraft = some draft ∧ draft.key = key) ∧
      ∀ queued, hook.queuedDirectDraft = some queued → queued.key = key

theorem Answered.drainQueue (answered : hook.Answered last) :
    hook.drainQueue.Ok last ∧ hook.drainQueue.pendingDraft = hook.pendingDraft ∧
      (hook.directInFlightDraftKey = none →
        hook.drainQueue.request.map (·.draft) = hook.queuedDirectDraft) := by
  unfold Hook.drainQueue
  cases queue : hook.queuedDirectDraft with
  | none =>
    refine ⟨⟨answered.flight, answered.request, fun _ => queue, answered.needsSave,
      answered.pending, answered.timer, ?_⟩, rfl, ?_⟩
    · intro draft isPending _ key isKey
      obtain ⟨⟨resaved, isResaved, same⟩, _⟩ := answered.resaving key isKey
      rw [isPending] at isResaved
      cases isResaved
      rw [if_pos same.symm]
      exact queue
    · intro idle
      have none := answered.request.symm.trans idle
      rw [Option.map_eq_none_iff] at none
      simp [none]
  | some queued =>
    obtain direct | ⟨key, direct⟩ := Option.eq_none_or_eq_some hook.directInFlightDraftKey
    · have flight : hook.inFlightDraftKeys = [] := by rw [answered.flight, direct]; rfl
      simp only
      rw [saveDraft_idle { hook with queuedDirectDraft := none } flight direct]
      refine ⟨⟨rfl, rfl, fun _ => rfl, answered.needsSave, answered.pending, answered.timer, ?_⟩,
        rfl, fun _ => rfl⟩
      intro draft isPending saved _ _
      have none := answered.idle draft isPending saved direct
      rw [queue] at none
      cases none
    · obtain ⟨⟨resaved, isResaved, same⟩, queuedKey⟩ := answered.resaving key direct
      have here := queuedKey queued queue
      have flight : hook.inFlightDraftKeys = [queued.key] := by
        rw [answered.flight, direct, here]
        rfl
      simp only
      rw [saveDraft_same { hook with queuedDirectDraft := none } flight (by rw [here]; exact direct)]
      refine ⟨⟨answered.flight, answered.request, fun _ => rfl, answered.needsSave,
        answered.pending, answered.timer, ?_⟩, rfl, ?_⟩
      · intro draft isPending _ key' isKey
        rw [isResaved] at isPending
        cases isPending
        rw [direct] at isKey
        cases isKey
        rw [if_pos same.symm]
      · intro idle
        rw [direct] at idle
        cases idle

section Cache
variable (hook : Hook)

@[simp] theorem sync_pendingDraft : hook.syncLatestSavedCache.pendingDraft = hook.pendingDraft := by
  unfold syncLatestSavedCache; split <;> rfl

@[simp] theorem sync_latestSavedDraftKey :
    hook.syncLatestSavedCache.latestSavedDraftKey = hook.latestSavedDraftKey := by
  unfold syncLatestSavedCache; split <;> rfl

@[simp] theorem sync_inFlightDraftKeys :
    hook.syncLatestSavedCache.inFlightDraftKeys = hook.inFlightDraftKeys := by
  unfold syncLatestSavedCache; split <;> rfl

@[simp] theorem sync_directInFlightDraftKey :
    hook.syncLatestSavedCache.directInFlightDraftKey = hook.directInFlightDraftKey := by
  unfold syncLatestSavedCache; split <;> rfl

@[simp] theorem sync_queuedDirectDraft :
    hook.syncLatestSavedCache.queuedDirectDraft = hook.queuedDirectDraft := by
  unfold syncLatestSavedCache; split <;> rfl

@[simp] theorem sync_needsSave :
    hook.syncLatestSavedCache.pendingSavedDraftNeedsSave = hook.pendingSavedDraftNeedsSave := by
  unfold syncLatestSavedCache; split <;> rfl

@[simp] theorem sync_timeout : hook.syncLatestSavedCache.timeout = hook.timeout := by
  unfold syncLatestSavedCache; split <;> rfl

@[simp] theorem sync_request : hook.syncLatestSavedCache.request = hook.request := by
  unfold syncLatestSavedCache; split <;> rfl

@[simp] theorem sync_expectedUpdatedAt :
    hook.syncLatestSavedCache.expectedUpdatedAt = hook.expectedUpdatedAt := by
  unfold syncLatestSavedCache; split <;> rfl

end Cache

theorem settle_other (hook : Hook)
    (other : ∀ draft, hook.pendingDraft = some draft → hook.latestSavedDraftKey ≠ some draft.key) :
    hook.settlePendingSavedDraft = hook := by
  unfold settlePendingSavedDraft
  split
  · rfl
  case h_2 draft isPending => rw [if_pos (Or.inl (other draft isPending))]

theorem settle_saved (hook : Hook) {draft : Draft} (flight : hook.inFlightDraftKeys = [])
    (isPending : hook.pendingDraft = some draft)
    (saved : hook.latestSavedDraftKey = some draft.key) :
    hook.settlePendingSavedDraft =
      if hook.pendingSavedDraftNeedsSave then
        { hook with pendingSavedDraftNeedsSave := false }.saveDraft draft
      else
        { { hook with pendingDraft := none }.syncLatestSavedCache with
          dirty := false
          saveState := .saved } := by
  simp [settlePendingSavedDraft, isPending, flight, saved, hasConflictingInFlight]

theorem isPending_iff {key : DraftKey} :
    hook.isPending key = true ↔ ∃ draft, hook.pendingDraft = some draft ∧ draft.key = key := by
  simp [Hook.isPending, Option.any_eq_true]

theorem Unsent.settle (unsent : hook.Unsent) : hook.settlePendingSavedDraft.Unsent := by
  unfold settlePendingSavedDraft
  split
  · exact unsent
  · split
    · exact unsent
    · split
      · apply Unsent.saveDraft
        exact unsent
      · intro request isRequest
        simp only [sync_request, sync_expectedUpdatedAt] at isRequest ⊢
        exact unsent request isRequest

theorem Unsent.sync (unsent : hook.Unsent) : hook.syncLatestSavedCache.Unsent := by
  intro request isRequest
  rw [sync_request] at isRequest
  rw [sync_expectedUpdatedAt]
  exact unsent request isRequest

theorem Unsent.drainQueue (unsent : hook.Unsent) : hook.drainQueue.Unsent := by
  unfold Hook.drainQueue
  split
  · exact unsent
  · apply Unsent.saveDraft
    exact unsent

theorem respond_unsent (hook : Hook) (draft : Draft) (essay : Option Essay) :
    (hook.respond draft essay).Unsent := by
  have none : ∀ other : Hook, other.request = none → other.Unsent := by
    intro other isNone request isRequest
    cases isNone.symm.trans isRequest
  cases essay with
  | some essay =>
    apply Unsent.drainQueue
    simp only [handleSaveSuccess]
    split
    · exact none _ rfl
    · simp only [Hook.otherSaved]
      split
      · exact Unsent.settle (Unsent.sync (none _ rfl))
      · exact Unsent.settle (Unsent.sync (none _ rfl))
  | none =>
    apply Unsent.drainQueue
    simp only [handleSaveError]
    split
    · exact none _ rfl
    · exact Unsent.settle (Unsent.sync (none _ rfl))

/-- The refs once the save of `sent` has been taken off. -/
structure Idle (hook : Hook) (last : Option Draft) (sent : DraftKey) : Prop where
  flight : hook.inFlightDraftKeys = []
  direct : hook.directInFlightDraftKey = none
  request : hook.request = none
  needsSave : hook.pendingSavedDraftNeedsSave = false
  pending : ∀ draft, hook.pendingDraft = some draft → last = some draft
  timer : ∀ draft, hook.timeout = some draft → last = some draft
  returning : ∀ draft, hook.pendingDraft = some draft →
    hook.latestSavedDraftKey = some draft.key →
      if sent = draft.key then hook.queuedDirectDraft = none
      else ∃ queued, hook.queuedDirectDraft = some queued ∧ queued.key = draft.key

theorem Ok.idle {request : Request} (ok : hook.Ok last) (isRequest : hook.request = some request) :
    ({ hook with directInFlightDraftKey := none, request := none }.landed
      request.draft.key).Idle last request.draft.key := by
  have direct : hook.directInFlightDraftKey = some request.draft.key := by
    rw [ok.request, isRequest]
    rfl
  have flight : hook.inFlightDraftKeys = [request.draft.key] := by
    rw [ok.flight, direct]
    rfl
  exact ⟨by simp [landed, flight], rfl, rfl, ok.needsSave, ok.pending, ok.timer,
    fun draft isPending saved => ok.returning draft isPending saved _ direct⟩

variable {sent : DraftKey}

theorem Idle.sawVersion (idle : hook.Idle last sent) (essay : Essay) :
    (hook.sawVersion essay).Idle last sent :=
  ⟨idle.flight, idle.direct, idle.request, idle.needsSave, idle.pending, idle.timer,
    idle.returning⟩

theorem Idle.sync (idle : hook.Idle last sent) : hook.syncLatestSavedCache.Idle last sent := by
  constructor
  · simpa using idle.flight
  · simpa using idle.direct
  · simpa using idle.request
  · simpa using idle.needsSave
  · simpa using idle.pending
  · simpa using idle.timer
  · simpa using idle.returning

theorem Idle.answered (idle : hook.Idle last sent)
    (other : ∀ draft, hook.pendingDraft = some draft → hook.latestSavedDraftKey = some draft.key →
      sent = draft.key) : hook.Answered last := by
  constructor
  · rw [idle.flight, idle.direct]
    rfl
  · rw [idle.direct, idle.request]
    rfl
  · exact idle.needsSave
  · exact idle.pending
  · exact idle.timer
  · intro draft isPending saved _
    have waits := idle.returning draft isPending saved
    rwa [if_pos (other draft isPending saved)] at waits
  · intro key isKey
    rw [idle.direct] at isKey
    cases isKey

theorem Idle.pendingSaved (idle : hook.Idle last sent) (draft : Draft) (essay : Essay) :
    (hook.pendingSaved draft essay).Answered last := by
  have saved : (hook.pendingSaved draft essay).Idle last sent :=
    ⟨idle.flight, idle.direct, idle.request, rfl, nofun, idle.timer, nofun⟩
  exact saved.answered nofun

theorem Idle.resaved {draft : Draft} (idle : hook.Idle last sent)
    (isPending : hook.pendingDraft = some draft)
    (saved : hook.latestSavedDraftKey = some draft.key) (other : sent ≠ draft.key) :
    ({ hook with pendingSavedDraftNeedsSave := true }.settlePendingSavedDraft).Answered last ∧
      ({ hook with pendingSavedDraftNeedsSave := true }.settlePendingSavedDraft).pendingDraft ≠
        none := by
  have waits := idle.returning draft isPending saved
  rw [if_neg other] at waits
  obtain ⟨queued, queue, queuedKey⟩ := waits
  rw [settle_saved { hook with pendingSavedDraftNeedsSave := true } idle.flight isPending saved,
    if_pos rfl]
  have resave := saveDraft_idle { hook with pendingSavedDraftNeedsSave := false } idle.flight
    idle.direct draft
  simp only at resave ⊢
  rw [resave]
  refine ⟨⟨rfl, rfl, rfl, idle.pending, idle.timer, nofun, ?_⟩, ?_⟩
  · intro key isKey
    cases isKey
    refine ⟨⟨draft, isPending, rfl⟩, fun other isQueued => ?_⟩
    rw [queue] at isQueued
    cases isQueued
    exact queuedKey
  · simp [isPending]

theorem Idle.otherSaved (idle : hook.Idle last sent) (other : hook.isPending sent = false) :
    hook.otherSaved.Answered last ∧ (hook.otherSaved.pendingDraft = none →
      hook.pendingDraft = none ∧ hook.otherSaved.queuedDirectDraft = hook.queuedDirectDraft ∧
        hook.otherSaved.directInFlightDraftKey = none) := by
  have synced := idle.sync
  have apart : ∀ draft, hook.pendingDraft = some draft → sent ≠ draft.key := by
    intro draft isPending same
    rw [isPending_iff.mpr ⟨draft, isPending, same.symm⟩] at other
    cases other
  simp only [Hook.otherSaved]
  split
  case isTrue back =>
    obtain ⟨key, saved, back⟩ := (Option.any_eq_true _ _).mp back
    obtain ⟨draft, isPending, rfl⟩ := isPending_iff.mp back
    have away := apart draft (by simpa using isPending)
    obtain ⟨answered, pends⟩ := synced.resaved isPending saved away
    exact ⟨answered, fun none => absurd none pends⟩
  case isFalse away =>
    have none : ∀ draft, hook.syncLatestSavedCache.pendingDraft = some draft →
        hook.syncLatestSavedCache.latestSavedDraftKey ≠ some draft.key := by
      intro draft isPending saved
      exact away ((Option.any_eq_true _ _).mpr ⟨_, saved, isPending_iff.mpr ⟨draft, isPending, rfl⟩⟩)
    rw [settle_other _ none]
    exact ⟨synced.answered fun draft isPending saved => absurd saved (none draft isPending),
      fun isNone => ⟨by simpa using isNone, by simp, synced.direct⟩⟩

theorem Idle.pendingFailed (idle : hook.Idle last sent) (mine : hook.isPending sent = true) :
    hook.pendingFailed.Answered last := by
  obtain ⟨draft, isPending, same⟩ := isPending_iff.mp mine
  have failed : hook.pendingFailed.Idle last sent :=
    ⟨idle.flight, idle.direct, idle.request, idle.needsSave, idle.pending, idle.timer,
      idle.returning⟩
  refine failed.answered fun other isOther _ => ?_
  have one := Option.some.inj (isPending.symm.trans isOther)
  rw [← one, same]

theorem Idle.otherFailed (idle : hook.Idle last sent) (other : hook.isPending sent = false) :
    hook.syncLatestSavedCache.settlePendingSavedDraft.Answered last ∧
      (hook.syncLatestSavedCache.settlePendingSavedDraft.pendingDraft = none →
        hook.syncLatestSavedCache.settlePendingSavedDraft.queuedDirectDraft =
            hook.queuedDirectDraft ∧
          hook.syncLatestSavedCache.settlePendingSavedDraft.directInFlightDraftKey = none ∧
          (hook.pendingDraft = none ∨ ∃ draft queued, hook.pendingDraft = some draft ∧
            hook.queuedDirectDraft = some queued ∧ queued.key = draft.key)) := by
  have synced := idle.sync
  by_cases back : ∃ draft, hook.pendingDraft = some draft ∧
      hook.latestSavedDraftKey = some draft.key
  · obtain ⟨draft, isPending, saved⟩ := back
    have away : sent ≠ draft.key := by
      intro same
      rw [isPending_iff.mpr ⟨draft, isPending, same.symm⟩] at other
      cases other
    have waits := idle.returning draft isPending saved
    rw [if_neg away] at waits
    obtain ⟨queued, queue, queuedKey⟩ := waits
    rw [settle_saved _ synced.flight (by simpa using isPending) (by simpa using saved),
      if_neg (by simp [idle.needsSave])]
    have cleared : Idle { hook.syncLatestSavedCache with pendingDraft := none } last sent :=
      ⟨synced.flight, synced.direct, synced.request, synced.needsSave, nofun, synced.timer, nofun⟩
    have again := cleared.sync
    have settled : Idle
        { { hook.syncLatestSavedCache with pendingDraft := none }.syncLatestSavedCache with
          dirty := false
          saveState := .saved } last sent :=
      ⟨again.flight, again.direct, again.request, again.needsSave, again.pending, again.timer,
        again.returning⟩
    refine ⟨settled.answered ?_, fun _ => ⟨by simp, settled.direct, Or.inr ⟨draft, queued,
      isPending, queue, queuedKey⟩⟩⟩
    intro draft isPending
    simp at isPending
  · have none : ∀ draft, hook.syncLatestSavedCache.pendingDraft = some draft →
        hook.syncLatestSavedCache.latestSavedDraftKey ≠ some draft.key := by
      intro draft isPending saved
      exact back ⟨draft, by simpa using isPending, by simpa using saved⟩
    rw [settle_other _ none]
    exact ⟨synced.answered fun draft isPending saved => absurd saved (none draft isPending),
      fun isNone => ⟨by simp, synced.direct, Or.inl (by simpa using isNone)⟩⟩

theorem Ok.respond {request : Request} (ok : hook.Ok last) (isRequest : hook.request = some request)
    (essay : Option Essay) :
    (hook.respond request.draft essay).Ok last ∧
      ((hook.respond request.draft essay).pendingDraft = none →
        (hook.respond request.draft essay).request.map (·.draft) = hook.queuedDirectDraft ∧
          (hook.pendingDraft = none ∨
            (essay ≠ none ∧ hook.isPending request.draft.key = true) ∨
            ∃ draft queued, hook.pendingDraft = some draft ∧
              hook.queuedDirectDraft = some queued ∧ queued.key = draft.key)) := by
  have idle := ok.idle isRequest
  cases essay with
  | some essay =>
    have seen := idle.sawVersion essay
    simp only [Hook.respond, handleSaveSuccess]
    split
    case isTrue mine =>
      obtain ⟨drained, pends, sends⟩ := (seen.pendingSaved request.draft essay).drainQueue
      exact ⟨drained, fun _ => ⟨sends seen.direct, Or.inr (Or.inl ⟨by simp, mine⟩)⟩⟩
    case isFalse other =>
      obtain ⟨answered, none⟩ := seen.otherSaved (by simpa using other)
      obtain ⟨drained, pends, sends⟩ := answered.drainQueue
      refine ⟨drained, fun isNone => ?_⟩
      obtain ⟨was, queue, direct⟩ := none (pends.symm.trans isNone)
      exact ⟨(sends direct).trans queue, Or.inl was⟩
  | none =>
    simp only [Hook.respond, handleSaveError]
    split
    case isTrue mine =>
      obtain ⟨drained, pends, sends⟩ := (idle.pendingFailed mine).drainQueue
      refine ⟨drained, fun isNone => ?_⟩
      obtain ⟨draft, isPending, _⟩ := isPending_iff.mp mine
      exact absurd (isPending.symm.trans (pends.symm.trans isNone)) (by simp)
    case isFalse other =>
      obtain ⟨answered, none⟩ := idle.otherFailed (by simpa using other)
      obtain ⟨drained, pends, sends⟩ := answered.drainQueue
      refine ⟨drained, fun isNone => ?_⟩
      obtain ⟨queue, direct, was⟩ := none (pends.symm.trans isNone)
      exact ⟨(sends direct).trans queue, was.imp id Or.inr⟩

theorem Ok.queueSave (ok : hook.Ok last) (draft : Draft) :
    (hook.queueSave draft).Ok (some draft) ∧
      ((hook.queueSave draft).pendingDraft = none →
        hook.latestSavedDraftKey = some draft.key ∧ (hook.queueSave draft).request = hook.request ∧
          ∀ request, hook.request = some request → request.draft.key = draft.key) := by
  unfold Hook.queueSave
  split
  case isTrue saved =>
    split
    case isTrue conflict =>
      refine ⟨⟨ok.flight, ok.request, ?_, rfl, fun _ isPending => isPending, nofun, ?_⟩, nofun⟩
      · intro idle
        simp only at idle
        rw [if_neg (by simp [idle])]
        exact ok.queue idle
      · intro other isPending _ key isKey
        cases isPending
        simp only at isKey ⊢
        have conflicting : key ≠ draft.key := by
          simp only [hasConflictingInFlight, ok.flight, isKey] at conflict
          simpa using conflict
        rw [if_neg conflicting, if_pos (by simp [isKey])]
        exact ⟨draft, rfl, rfl⟩
    case isFalse alone =>
      refine ⟨⟨ok.flight, ok.request, ok.queue, rfl, nofun, nofun, nofun⟩,
        fun _ => ⟨saved, rfl, fun request isRequest => ?_⟩⟩
      have direct := ok.request
      rw [isRequest, Option.map_some] at direct
      simp only [hasConflictingInFlight, ok.flight, direct] at alone
      simpa using alone
  case isFalse unsaved =>
    refine ⟨⟨ok.flight, ok.request, ok.queue, rfl, fun _ isPending => isPending,
      fun _ isTimed => isTimed, ?_⟩, nofun⟩
    intro other isPending saved
    cases isPending
    exact absurd saved unsaved

theorem Ok.adoptSaved (ok : hook.Ok last) :
    hook.adoptSaved.Ok last ∧ hook.adoptSaved.pendingDraft = hook.pendingDraft ∧
      hook.adoptSaved.request = hook.request := by
  unfold Hook.adoptSaved
  split
  · exact ⟨ok, rfl, rfl⟩
  · split
    · exact ⟨ok, rfl, rfl⟩
    case isFalse clean =>
      simp only [Bool.or_eq_true, not_or, Bool.not_eq_true, Option.isSome_eq_false_iff,
        Option.isNone_iff_eq_none] at clean
      refine ⟨⟨ok.flight, ok.request, ok.queue, ok.needsSave, ok.pending, nofun, ?_⟩, rfl, rfl⟩
      intro draft isPending
      exact absurd (clean.2.symm.trans isPending) (by simp)

end Hook

structure Desk.Kept (desk : Desk) : Prop where
  refs : desk.hook.Ok desk.last
  written : ∀ request, desk.hook.request = some request →
    request.phase = .committed ∨ (∃ essay, request.phase = .answered essay) →
      SameText desk.row.draft request.draft
  stored : desk.hook.pendingDraft = none → ∀ last, desk.last = some last →
    match desk.hook.request with
    | some request => request.draft.key = last.key
    | none => SameText desk.row.draft last

/-- No edit returns to the saved text while nothing is out and the row holds another;
an answer that leaves nothing pending finds the last edit queued or, if nothing is
queued behind a failed save, in the row. -/
def Desk.Safe (desk : Desk) : DeskLabel → Prop
  | .queueSave content wordCount =>
    desk.hook.latestSavedDraftKey = some (draftKey content wordCount) →
      desk.hook.request = none → SameText desk.row.draft ⟨content, wordCount, 0⟩
  | .respond => ∀ request ∈ desk.hook.request, ∀ last ∈ desk.last,
    desk.hook.pendingDraft = none ∨
        (request.phase ≠ .failed ∧ desk.hook.isPending request.draft.key = true) →
      (∀ queued ∈ desk.hook.queuedDirectDraft, queued.key = last.key) ∧
        (desk.hook.queuedDirectDraft = none → request.phase = .failed →
          SameText desk.row.draft last)
  | _ => True

instance (desk : Desk) : DecidablePred desk.Safe
  | .queueSave _ _ => inferInstanceAs (Decidable (_ → _ → _))
  | .respond => inferInstanceAs (Decidable (∀ _ ∈ _, ∀ _ ∈ _, _ → _))
  | .debounce | .flush | .commit _ | .readBack | .lose | .refetch _ | .adoptRefetched | .render
  | .foreignWrite _ _ _ => isTrue trivial

def DeskLabel.isForeign : DeskLabel → Bool
  | .foreignWrite _ _ _ => true
  | _ => false

variable {desk next : Desk} {wordCountOf : Json → Nat}

theorem Desk.Kept.frame (kept : desk.Kept) (refs : next.hook.Ok next.last)
    (pending : next.hook.pendingDraft = desk.hook.pendingDraft)
    (request : next.hook.request = desk.hook.request) (row : next.row = desk.row)
    (last : next.last = desk.last) : next.Kept := by
  refine ⟨refs, ?_, ?_⟩
  · rw [request, row]
    exact kept.written
  · rw [pending, request, row, last]
    exact kept.stored

theorem Desk.Kept.setPhase {request : Request} {phase : Phase} (kept : desk.Kept)
    (isRequest : desk.hook.request = some request)
    (hook : next.hook = { desk.hook with request := some { request with phase := phase } })
    (last : next.last = desk.last)
    (written : phase = .committed ∨ (∃ essay, phase = .answered essay) →
      SameText next.row.draft request.draft) : next.Kept := by
  have refs := kept.refs
  have direct := refs.request
  rw [isRequest] at direct
  constructor
  · rw [hook, last]
    exact ⟨refs.flight, direct, refs.queue, refs.needsSave, refs.pending, refs.timer,
      refs.returning⟩
  · intro other isOther
    rw [hook] at isOther
    cases isOther
    exact written
  · intro none lastDraft isLast
    rw [hook] at none ⊢
    rw [last] at isLast
    have before := kept.stored none lastDraft isLast
    rw [isRequest] at before
    exact before

theorem SameText.trans {first second third : Draft} (one : SameText first second)
    (two : SameText second third) : SameText first third := Eq.trans one two

theorem Desk.Kept.queueSave (kept : desk.Kept) {content : Json} {wordCount : Nat}
    (safe : desk.Safe (.queueSave content wordCount))
    (step : deskStep wordCountOf desk (.queueSave content wordCount) = some next) : next.Kept := by
  simp only [deskStep, Option.some.injEq] at step
  subst step
  obtain ⟨refs, clean⟩ := kept.refs.queueSave ⟨content, wordCount, desk.editorBasis⟩
  have request : (desk.hook.queueSave ⟨content, wordCount, desk.editorBasis⟩).request =
      desk.hook.request := by
    unfold Hook.queueSave
    split
    · split <;> rfl
    · rfl
  constructor
  · exact refs
  · simp only [request]
    exact kept.written
  · intro none last isLast
    cases isLast
    obtain ⟨saved, same, returned⟩ := clean none
    simp only [request]
    cases isRequest : desk.hook.request with
    | some request => exact returned request isRequest
    | none => exact safe saved isRequest

theorem Desk.Kept.saveDraft {hook : Hook} {draft : Draft} (kept : desk.Kept)
    (refs : hook.Ok desk.last) (isLast : desk.last = some draft)
    (pending : hook.pendingDraft = desk.hook.pendingDraft)
    (request : hook.request = desk.hook.request) :
    Desk.Kept { desk with hook := hook.saveDraft draft } := by
  obtain ⟨saved, samePending⟩ := refs.saveDraft isLast
  obtain same | ⟨idle, sends⟩ := hook.saveDraft_request draft
  · apply kept.frame
    · exact saved
    · exact samePending.trans pending
    · exact same.trans request
    · rfl
    · rfl
  · constructor
    · exact saved
    · intro sent isSent unsent
      cases sends.symm.trans isSent
      obtain committed | ⟨essay, answered⟩ := unsent
      · cases committed
      · cases answered
    · intro _ last stillLast
      simp only [sends]
      rw [isLast] at stillLast
      cases stillLast
      rfl

theorem Desk.Kept.respond (kept : desk.Kept) (safe : desk.Safe .respond) {request : Request}
    (isRequest : desk.hook.request = some request) (essay : Option Essay)
    (answer : match essay with
      | some essay => request.phase = .answered essay
      | none => request.phase = .failed) :
    Desk.Kept { desk with hook := desk.hook.respond request.draft essay } := by
  obtain ⟨refs, drained⟩ := kept.refs.respond isRequest essay
  refine ⟨refs, ?_, ?_⟩
  · intro sent isSent unsent
    rw [(Hook.respond_unsent _ _ _ sent isSent).1] at unsent
    simp at unsent
  · intro clean last isLast
    obtain ⟨sends, was⟩ := drained clean
    have waited : (∀ queued ∈ desk.hook.queuedDirectDraft, queued.key = last.key) ∧
        (desk.hook.queuedDirectDraft = none → request.phase = .failed →
          SameText desk.row.draft last) := by
      obtain none | ⟨answered, mine⟩ | ⟨draft, queued, isPending, queue, same⟩ := was
      · exact safe request isRequest last isLast (Or.inl none)
      · refine safe request isRequest last isLast (Or.inr ⟨?_, mine⟩)
        cases essay with
        | some essay => simp [show request.phase = .answered essay from answer]
        | none => exact absurd rfl answered
      · have pendingLast := (kept.refs.pending draft isPending).symm.trans isLast
        cases pendingLast
        simp [queue, same]
    cases queue : desk.hook.queuedDirectDraft with
    | some queued =>
      rw [queue] at sends
      obtain ⟨sent, isSent, rfl⟩ := Option.map_eq_some_iff.mp sends
      simp only [isSent]
      exact waited.1 _ queue
    | none =>
      rw [queue] at sends
      simp only [Option.map_eq_none_iff.mp sends]
      cases essay with
      | none => exact waited.2 queue answer
      | some essay =>
        have written := kept.written request isRequest (Or.inr ⟨essay, answer⟩)
        have mine : request.draft.key = last.key := by
          obtain none | ⟨_, mine⟩ | ⟨_, _, _, queued, _⟩ := was
          · have before := kept.stored none last isLast
            rw [isRequest] at before
            exact before
          · obtain ⟨draft, isPending, same⟩ := Hook.isPending_iff.mp mine
            cases (kept.refs.pending draft isPending).symm.trans isLast
            exact same.symm
          · cases queue.symm.trans queued
        exact written.trans (.of_key mine)

theorem Desk.Kept.step {label : DeskLabel} (kept : desk.Kept) (own : label.isForeign = false)
    (safe : desk.Safe label) (step : deskStep wordCountOf desk label = some next) : next.Kept := by
  cases label with
  | queueSave content wordCount => exact kept.queueSave safe step
  | debounce =>
    obtain ⟨hook, fired, rfl⟩ := Option.map_eq_some_iff.mp step
    obtain ⟨draft, isTimed, rfl⟩ := Option.map_eq_some_iff.mp fired
    exact kept.saveDraft kept.refs.clearTimeout (kept.refs.timer draft isTimed) rfl rfl
  | flush =>
    cases step
    unfold Hook.flush
    split
    · exact kept.frame kept.refs.clearTimeout rfl rfl rfl rfl
    case h_2 draft isPending =>
      exact kept.saveDraft kept.refs.clearTimeout (kept.refs.pending draft isPending) rfl rfl
  | commit now =>
    simp only [deskStep] at step
    split at step
    case h_1 request isRequest =>
      split at step
      · cases step
      · split at step
        · cases step
          exact kept.setPhase isRequest rfl rfl (by simp)
        · cases step
          exact kept.setPhase isRequest rfl rfl fun _ => rfl
    case h_2 => cases step
  | readBack =>
    simp only [deskStep] at step
    split at step
    case h_1 request isRequest =>
      split at step
      case isTrue committed =>
        cases step
        exact kept.setPhase isRequest rfl rfl fun _ =>
          kept.written request isRequest (Or.inl committed)
      case isFalse => cases step
    case h_2 => cases step
  | lose =>
    obtain ⟨request, isRequest, rfl⟩ := Option.map_eq_some_iff.mp step
    exact kept.setPhase isRequest rfl rfl (by simp)
  | respond =>
    simp only [deskStep] at step
    split at step
    case h_1 request isRequest =>
      split at step
      case h_1 essay answered =>
        cases step
        exact kept.respond safe isRequest (some essay) answered
      case h_2 failed =>
        cases step
        exact kept.respond safe isRequest none failed
      case h_3 => cases step
    case h_2 => cases step
  | refetch version =>
    simp only [deskStep] at step
    split at step
    case isTrue =>
      cases step
      have refs := kept.refs
      exact kept.frame ⟨refs.flight, refs.request, refs.queue, refs.needsSave, refs.pending,
        refs.timer, refs.returning⟩ rfl rfl rfl rfl
    case isFalse => cases step
  | adoptRefetched =>
    simp only [deskStep] at step
    split at step
    case isTrue => cases step
    case isFalse =>
      cases step
      have refs := kept.refs
      exact kept.frame ⟨refs.flight, refs.request, refs.queue, refs.needsSave, refs.pending,
        refs.timer, refs.returning⟩ rfl rfl rfl rfl
  | render =>
    cases step
    have refs := kept.refs
    have passed (saved : Option SavedDraft) :
        Hook.Ok { desk.hook with savedDraft := saved } desk.last :=
      ⟨refs.flight, refs.request, refs.queue, refs.needsSave, refs.pending, refs.timer,
        refs.returning⟩
    have adopted (saved : Option SavedDraft) := (passed saved).adoptSaved
    have rendered : Desk.Kept { desk with hook := desk.hook.render } :=
      kept.frame (adopted _).1 (adopted _).2.1 (adopted _).2.2 rfl rfl
    unfold Desk.resync
    split
    · exact ⟨rendered.refs, rendered.written, rendered.stored⟩
    · exact rendered
  | foreignWrite content wordCount now => cases own

theorem Desk.opened_kept (content : Json) (wordCount updatedAt : Nat) :
    (Desk.opened content wordCount updatedAt).Kept :=
  ⟨⟨rfl, rfl, fun _ => rfl, rfl, nofun, nofun, nofun⟩, nofun, nofun⟩

/-- The editor tells the student that everything is saved. -/
def Hook.reportsSaved (hook : Hook) : Prop :=
  hook.pendingDraft = none ∧ hook.inFlightDraftKeys = [] ∧ hook.dirty = false ∧
    hook.saveState = .saved

instance (hook : Hook) : Decidable hook.reportsSaved := inferInstanceAs (Decidable (_ ∧ _))

def essayOf (text : String) : Json :=
  .obj [("type", .str "doc"), ("content", .arr [.obj [("type", .str "text"), ("text", .str text)]])]

/-- Two edits, the second while the first is being saved. -/
def twoEdits : List DeskLabel :=
  [.queueSave (essayOf "A") 1, .debounce, .queueSave (essayOf "A B") 2, .debounce, .commit 1,
    .readBack, .respond, .commit 2, .readBack, .respond]

/-- An edit back to the empty text the essay was opened with, after another text
has been saved and while a third is waiting for the timer. -/
def returnToOpened : List DeskLabel :=
  [.queueSave (essayOf "A") 1, .debounce, .queueSave (essayOf "A B") 2, .commit 1, .readBack,
    .respond, .queueSave (essayOf "") 0]

end Counselle.Essays

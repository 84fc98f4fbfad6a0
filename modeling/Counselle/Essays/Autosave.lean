import Counselle.Essays.Tiptap
import Counselle.Transition

/-! `useEssayAutosave.ts` on a mounted editor, against the row `update_essay`
guards. Unmount and keepalive saves are left out. -/
namespace Counselle.Essays

structure Draft where
  content : Json
  wordCount : Nat
  /-- ghost: how many foreign writes the content was authored from -/
  basis : Nat
deriving DecidableEq

def Draft.key (draft : Draft) : DraftKey := draftKey draft.content draft.wordCount

/-- An essay as the server returns it; versions are instants. -/
structure Essay where
  draft : Draft
  updatedAt : Nat
deriving DecidableEq

structure SavedDraft where
  draft : Draft
  updatedAt : Option Nat
deriving DecidableEq

inductive EssaySaveState where
  | saved
  | saving
  | error
deriving DecidableEq, Repr

inductive Phase where
  | sent
  | committed
  | answered (essay : Essay)
  | failed
deriving DecidableEq

/-- `updateEssay(essayId, contentPatch(draft.content, expected_updated_at))`. -/
structure Request where
  draft : Draft
  expectedUpdatedAt : Option Nat
  phase : Phase
deriving DecidableEq

structure Hook where
  dirty : Bool
  saveState : EssaySaveState
  savedDraft : Option SavedDraft
  pendingDraft : Option Draft
  latestSavedEssay : Option Essay
  expectedUpdatedAt : Option Nat
  latestSavedDraft : Option Draft
  latestSavedDraftKey : Option DraftKey
  inFlightDraftKeys : List DraftKey
  directInFlightDraftKey : Option DraftKey
  queuedDirectDraft : Option Draft
  pendingSavedDraftNeedsSave : Bool
  /-- the draft the debounce timer will save -/
  timeout : Option Draft
  cachedEssay : Option Essay
  /-- the request `saveDraft` has out -/
  request : Option Request
  /-- refetches `markSaveFailed` waits for -/
  refetches : Nat
deriving DecidableEq

namespace Hook

def mounted (savedDraft : Option SavedDraft) (cachedEssay : Option Essay) : Hook where
  dirty := false
  saveState := .saved
  savedDraft := savedDraft
  pendingDraft := none
  latestSavedEssay := none
  expectedUpdatedAt := savedDraft.bind (·.updatedAt)
  latestSavedDraft := savedDraft.map (·.draft)
  latestSavedDraftKey := savedDraft.map (·.draft.key)
  inFlightDraftKeys := []
  directInFlightDraftKey := none
  queuedDirectDraft := none
  pendingSavedDraftNeedsSave := false
  timeout := none
  cachedEssay := cachedEssay
  request := none
  refetches := 0

def hasConflictingInFlight (hook : Hook) (key : DraftKey) : Bool :=
  hook.inFlightDraftKeys.any (· ≠ key)

def laterVersion (a b : Option Nat) : Option Nat :=
  match a, b with
  | none, b => b
  | a, none => a
  | some a, some b => if b < a then some a else some b

def syncEssayCache (hook : Hook) (essay : Essay) : Hook :=
  { hook with latestSavedEssay := some essay, cachedEssay := some essay }

def syncDraftCache (hook : Hook) (draft : Draft) : Hook :=
  { hook with cachedEssay := hook.cachedEssay.map fun current => { current with draft := draft } }

def syncLatestSavedCache (hook : Hook) : Hook :=
  match hook.latestSavedEssay, hook.latestSavedDraft with
  | some essay, _ => hook.syncEssayCache essay
  | none, some draft => hook.syncDraftCache draft
  | none, none => hook

/-- The adoption effect, run after every render with the props of that render. -/
def adoptSaved (hook : Hook) : Hook :=
  match hook.savedDraft with
  | none => hook
  | some saved =>
    if hook.dirty || hook.pendingDraft.isSome then hook
    else
      { hook with
        latestSavedDraftKey := some saved.draft.key
        expectedUpdatedAt := laterVersion saved.updatedAt hook.expectedUpdatedAt
        latestSavedDraft := some saved.draft
        latestSavedEssay :=
          match hook.cachedEssay with
          | some cached =>
            if cached.draft.key = saved.draft.key then some cached else hook.latestSavedEssay
          | none => hook.latestSavedEssay
        timeout := none
        dirty := false
        saveState := .saved }

/-- A render passes the cached essay down; the effect follows. -/
def render (hook : Hook) : Hook :=
  adoptSaved
    { hook with
      savedDraft :=
        match hook.savedDraft, hook.cachedEssay with
        | some _, some essay => some ⟨essay.draft, some essay.updatedAt⟩
        | saved, _ => saved }

def saveDraft (hook : Hook) (draft : Draft) : Hook :=
  if draft.key ∈ hook.inFlightDraftKeys then
    if hook.directInFlightDraftKey = some draft.key then { hook with queuedDirectDraft := none }
    else hook
  else if hook.directInFlightDraftKey.isSome then
    { hook with queuedDirectDraft := some draft, saveState := .saving }
  else if hook.latestSavedDraftKey = some draft.key ∧ hook.hasConflictingInFlight draft.key then
    { hook with saveState := .saving }
  else
    { hook with
      directInFlightDraftKey := some draft.key
      inFlightDraftKeys := draft.key :: hook.inFlightDraftKeys
      saveState := .saving
      request := some ⟨draft, hook.expectedUpdatedAt, .sent⟩ }

def settlePendingSavedDraft (hook : Hook) : Hook :=
  match hook.pendingDraft with
  | none => hook
  | some pending =>
    if hook.latestSavedDraftKey ≠ some pending.key ∨ hook.hasConflictingInFlight pending.key ∨
        pending.key ∈ hook.inFlightDraftKeys then hook
    else if hook.pendingSavedDraftNeedsSave then
      { hook with pendingSavedDraftNeedsSave := false }.saveDraft pending
    else
      { { hook with pendingDraft := none }.syncLatestSavedCache with
        dirty := false
        saveState := .saved }

def markSaveFailed (hook : Hook) : Hook := { hook with refetches := hook.refetches + 1 }

/-- The continuation of `markSaveFailed` once its refetch has settled. -/
def adoptRefetched (hook : Hook) : Hook :=
  { hook with
    refetches := hook.refetches - 1
    expectedUpdatedAt :=
      match hook.cachedEssay with
      | some refreshed => laterVersion (some refreshed.updatedAt) hook.expectedUpdatedAt
      | none => hook.expectedUpdatedAt }

def isPending (hook : Hook) (key : DraftKey) : Bool := hook.pendingDraft.any (·.key = key)

def landed (hook : Hook) (key : DraftKey) : Hook :=
  { hook with inFlightDraftKeys := hook.inFlightDraftKeys.filter (· ≠ key) }

def sawVersion (hook : Hook) (essay : Essay) : Hook :=
  { hook with expectedUpdatedAt := laterVersion (some essay.updatedAt) hook.expectedUpdatedAt }

/-- `handleSaveSuccess` when the saved draft is still the pending one. -/
def pendingSaved (hook : Hook) (draft : Draft) (essay : Essay) : Hook :=
  { hook.syncEssayCache essay with
    latestSavedDraft := some draft
    latestSavedDraftKey := some draft.key
    pendingSavedDraftNeedsSave := false
    pendingDraft := none
    dirty := false
    saveState := .saved }

/-- `handleSaveSuccess` when another draft, or none, is pending. -/
def otherSaved (hook : Hook) : Hook :=
  let hook := hook.syncLatestSavedCache
  if hook.latestSavedDraftKey.any hook.isPending then
    { hook with pendingSavedDraftNeedsSave := true }.settlePendingSavedDraft
  else hook.settlePendingSavedDraft

def handleSaveSuccess (hook : Hook) (draft : Draft) (essay : Essay) : Hook :=
  let hook := (hook.landed draft.key).sawVersion essay
  if hook.isPending draft.key then hook.pendingSaved draft essay else hook.otherSaved

def pendingFailed (hook : Hook) : Hook := { hook.markSaveFailed with dirty := true, saveState := .error }

def handleSaveError (hook : Hook) (draft : Draft) : Hook :=
  let hook := hook.landed draft.key
  if hook.isPending draft.key then hook.pendingFailed
  else hook.syncLatestSavedCache.settlePendingSavedDraft

def drainQueue (hook : Hook) : Hook :=
  match hook.queuedDirectDraft with
  | none => hook
  | some queued => { hook with queuedDirectDraft := none }.saveDraft queued

/-- The `then` and `catch` of a save. -/
def respond (hook : Hook) (draft : Draft) (essay : Option Essay) : Hook :=
  let hook := { hook with directInFlightDraftKey := none, request := none }
  match essay with
  | some essay => (hook.handleSaveSuccess draft essay).drainQueue
  | none => (hook.handleSaveError draft).drainQueue

def flush (hook : Hook) : Hook :=
  match hook.pendingDraft with
  | none => { hook with timeout := none }
  | some draft => { hook with timeout := none }.saveDraft draft

def queueSave (hook : Hook) (draft : Draft) : Hook :=
  if hook.latestSavedDraftKey = some draft.key then
    if hook.hasConflictingInFlight draft.key then
      { hook with
        pendingDraft := some draft
        queuedDirectDraft :=
          if hook.directInFlightDraftKey.isSome then some draft else hook.queuedDirectDraft
        pendingSavedDraftNeedsSave := false
        timeout := none
        dirty := true
        saveState := .saving }
    else
      { hook with
        pendingDraft := none
        pendingSavedDraftNeedsSave := false
        timeout := none
        dirty := false
        saveState := .saved }
  else
    { hook with
      pendingDraft := some draft
      pendingSavedDraftNeedsSave := false
      dirty := true
      saveState := .saving
      timeout := some draft }

def debounce (hook : Hook) : Option Hook :=
  hook.timeout.map fun draft => { hook with timeout := none }.saveDraft draft

end Hook

structure Desk where
  hook : Hook
  row : Essay
  versions : List Essay
  /-- the instants of the foreign writes -/
  foreign : List Nat
  /-- the draft of the last `queueSave` -/
  last : Option Draft
  /-- ghost: how many foreign writes the editor's text was authored from -/
  editorBasis : Nat
deriving DecidableEq

def Desk.opened (content : Json) (wordCount updatedAt : Nat) : Desk :=
  let essay : Essay := ⟨⟨content, wordCount, 0⟩, updatedAt⟩
  { hook := Hook.mounted (some ⟨essay.draft, some updatedAt⟩) (some essay)
    row := essay
    versions := [essay]
    foreign := []
    last := none
    editorBasis := 0 }

inductive DeskLabel where
  | queueSave (content : Json) (wordCount : Nat)
  | debounce
  | flush
  /-- the save reaches the row at an instant, or is rejected -/
  | commit (now : Nat)
  /-- `get_essay` after the transaction -/
  | readBack
  | lose
  | respond
  /-- a query for the essay brings a version into the cache -/
  | refetch (version : Essay)
  | adoptRefetched
  | render
  | foreignWrite (content : Json) (wordCount now : Nat)
deriving DecidableEq

/-- `_check_not_stale` raises. -/
def stale (currentUpdatedAt : Nat) (expectedUpdatedAt : Option Nat) : Bool :=
  match expectedUpdatedAt with
  | none => false
  | some expected => currentUpdatedAt ≠ expected

def Desk.write (desk : Desk) (draft : Draft) (now : Nat) : Desk :=
  let essay : Essay := ⟨draft, now⟩
  { desk with row := essay, versions := essay :: desk.versions }

def Desk.setPhase (desk : Desk) (request : Request) (phase : Phase) : Desk :=
  { desk with hook := { desk.hook with request := some { request with phase := phase } } }

/-- What the editor shows after a render: a clean one is set to the props. -/
def Desk.resync (desk : Desk) : Desk :=
  match desk.hook.dirty, desk.hook.savedDraft with
  | false, some saved => { desk with editorBasis := saved.draft.basis }
  | _, _ => desk

/-- `wordCountOf` is the server's `_word_count`. -/
def deskStep (wordCountOf : Json → Nat) (desk : Desk) : DeskLabel → Option Desk
  | .queueSave content wordCount =>
    let draft : Draft := ⟨content, wordCount, desk.editorBasis⟩
    some { desk with hook := desk.hook.queueSave draft, last := some draft }
  | .debounce => desk.hook.debounce.map fun hook => { desk with hook := hook }
  | .flush => some { desk with hook := desk.hook.flush }
  | .commit now =>
    match desk.hook.request with
    | some request =>
      if request.phase ≠ .sent ∨ now ≤ desk.row.updatedAt then none
      else if stale desk.row.updatedAt request.expectedUpdatedAt then
        some (desk.setPhase request .failed)
      else
        some ((desk.write { request.draft with wordCount := wordCountOf request.draft.content }
          now).setPhase request .committed)
    | none => none
  | .readBack =>
    match desk.hook.request with
    | some request =>
      if request.phase = .committed then some (desk.setPhase request (.answered desk.row)) else none
    | none => none
  | .lose => desk.hook.request.map fun request => desk.setPhase request .failed
  | .respond =>
    match desk.hook.request with
    | some request =>
      match request.phase with
      | .answered essay =>
        some { desk with hook := desk.hook.respond request.draft (some essay) }
      | .failed => some { desk with hook := desk.hook.respond request.draft none }
      | _ => none
    | none => none
  | .refetch version =>
    if version ∈ desk.versions then
      some { desk with hook := { desk.hook with cachedEssay := some version } }
    else none
  | .adoptRefetched =>
    if desk.hook.refetches = 0 then none
    else some { desk with hook := desk.hook.adoptRefetched }
  | .render => some ({ desk with hook := desk.hook.render }).resync
  | .foreignWrite content wordCount now =>
    if now ≤ desk.row.updatedAt then none
    else
      some { desk.write ⟨content, wordCount, desk.foreign.length + 1⟩ now with
        foreign := desk.foreign ++ [now] }

end Counselle.Essays

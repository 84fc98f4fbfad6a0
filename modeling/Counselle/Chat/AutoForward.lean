import Counselle.Chat.Sse
import Counselle.Clarify.Lifecycle
import Counselle.Turns.Steering

/-! The turn engine of one chat page, `useTurnEngine.ts`, as far as it decides which
session a message goes to: sends, steers, the streams it reads, and the queue of
messages a turn has left behind. Callbacks of the page may change the open session
at every await. -/
namespace Counselle.Chat
open Protocol Turns Transition

structure AutoForwardMessage where
  sessionId : String
  id : String
  text : String
  modeSkill : Option String
  executionResponseMode : ResponseMode
deriving DecidableEq

inductive SendKind where
  | plain
  /-- with a `replaceMessageId` -/
  | rewrite
  | clarify
  | widget
deriving DecidableEq

/-- What `submitMessage` or `submitClarifyResponse` was called with. -/
structure Draft where
  kind : SendKind
  text : String
  modeSkill : Option String := none
  hasTaskSkills : Bool := false
  executionResponseMode : ResponseMode
  /-- the queue entry it comes from, for the auto-forward effect -/
  origin : Option AutoForwardMessage := none
deriving DecidableEq

inductive SubmitStage where
  /-- `steerMessage`; history: the session the message was typed in -/
  | steering (active : String) (typedIn : Option String)
  /-- `awaitLiveClear` -/
  | clearing
  /-- `cancelAndAwaitClear` -/
  | cancelling
  /-- `createSession` -/
  | creating
  /-- `cancelActiveTurn` behind a conflict -/
  | retrying (session : String)
deriving DecidableEq

structure Submission where
  draft : Draft
  stage : SubmitStage

inductive StreamSource where
  | attached
  | sent (draft : Draft)
  /-- the second `runTurn`, behind a conflict -/
  | resent (draft : Draft)
deriving DecidableEq

def StreamSource.origin : StreamSource → Option AutoForwardMessage
  | .attached => none
  | .sent draft | .resent draft => draft.origin

/-- A running `consumeStream`. -/
structure StreamReader where
  source : StreamSource
  activeSessionId : String
  events : List Event
  resolvedMode : ResponseMode
  autoForwardFallbackModeSkill : Option String

structure Engine where
  /-- `sessionIdRef` -/
  openSession : Option String
  /-- the session of `liveTurnRef` -/
  live : Option String := none
  /-- the session of `liveTurn` in the last render -/
  rendered : Option String := none
  readers : List StreamReader := []
  submissions : List Submission := []
  /-- open `attachStream` calls, each with its fallback mode -/
  attaching : List (String × Option String) := []
  autoForwardQueue : List AutoForwardMessage := []
  autoForwardSeen : List String := []
  autoForwardModes : List (String × String) := []
  /-- `queued-counseling-mode` in the session storage -/
  storedModes : List ((String × String) × String) := []
  lastStartedSession : Option String := none
  /-- history: queue entries, as they were made -/
  forwards : List AutoForwardMessage := []
  /-- history: entries sent, with the session -/
  sent : List (String × AutoForwardMessage) := []
  /-- history: messages left uninjected by the streams that have ended -/
  leftOver : List (String × SteeringMessage) := []
  /-- history: steers the server queued, with the session they were typed in -/
  steers : List (Option String × String) := []

structure EngineEnv where
  signature : Payload → String
  isCounselingModeSkillName : String → Bool

inductive SteerAnswer where
  | queued (userMessageId : String)
  | idle
  | failed

inductive EngineLabel where
  | navigate (session : Option String)
  | render
  | submit (draft : Draft)
  | forward
  | steerAnswered (submission : Nat) (answer : SteerAnswer)
  | cleared (submission : Nat)
  | givesUp (submission : Nat)
  | created (submission : Nat) (session : Option String)
  /-- `cancelActiveTurn` behind a conflict returns or raises -/
  | retried (submission : Nat) (ok : Bool)
  | attach (session : String) (activeModeSkill : Option String)
  | attached (attempt : Nat) (active : Bool)
  | frame (reader : Nat) (event : Event)
  | streamEnds (reader : Nat)
  /-- the read raises, `conflict`: with a 409 -/
  | streamFails (reader : Nat) (conflict : Bool)

namespace StreamReader
variable (env : EngineEnv)

def metaSeen (reader : StreamReader) : Bool :=
  reader.events.any fun | .metadata _ => true | _ => false

def state (reader : StreamReader) : TurnState := reduceEvents env.signature reader.events

def pending (reader : StreamReader) : List SteeringMessage := pendingUserSegmentsOf (reader.state env)

def brokenOff (reader : StreamReader) : Bool :=
  (reader.state env).status = .streaming ∨ (reader.state env).status = .idle

def take (reader : StreamReader) (event : Event) : StreamReader :=
  { reader with
    events := reader.events ++ [event]
    resolvedMode :=
      match event with
      | .metadata data =>
        (data.responseMode.bind Clarify.ResponseMode.ofString).getD reader.resolvedMode
      | _ => reader.resolvedMode }

end StreamReader

/-- `!text.trim()` -/
def isBlankText (text : String) : Bool := (Sse.trim text.toList).isEmpty

namespace Engine
variable (env : EngineEnv)

/-- `consumeStream` publishes at once. -/
def read (s : Engine) (reader : StreamReader) : Engine :=
  { s with readers := s.readers ++ [reader], live := some reader.activeSessionId }

/-- `runTurn` up to its first await. -/
def runTurn (s : Engine) (session : String) (source : StreamSource) (mode : ResponseMode) : Engine :=
  s.read ⟨source, session, [], mode, none⟩

def startSend (s : Engine) (draft : Draft) : Engine :=
  if s.live.isSome then s
  else
    match s.openSession with
    | none => { s with submissions := s.submissions ++ [⟨draft, .creating⟩] }
    | some session =>
      { s with lastStartedSession := some session }.runTurn session (.sent draft)
        draft.executionResponseMode

/-- `submitMessage` and `submitClarifyResponse` up to their first await. -/
def submit (s : Engine) (draft : Draft) : Engine :=
  if draft.kind ≠ .widget ∧ isBlankText draft.text then s
  else
    match s.live with
    | none => s.startSend draft
    | some active =>
      if draft.kind = .plain then
        if draft.hasTaskSkills then s
        else
          let typedIn := draft.origin.elim s.openSession fun message => some message.sessionId
          { s with submissions := s.submissions ++ [⟨draft, .steering active typedIn⟩] }
      else { s with submissions := s.submissions ++ [⟨draft, .cancelling⟩] }

def forward (s : Engine) (next : AutoForwardMessage) : Engine :=
  { s with
    autoForwardQueue := s.autoForwardQueue.tail
    autoForwardModes :=
      if next.modeSkill.isSome then s.autoForwardModes.filter (·.1 ≠ next.id)
      else s.autoForwardModes
    storedModes := s.storedModes.filter (·.1 ≠ (next.sessionId, next.id)) }.submit
      { kind := .plain
        text := next.text
        modeSkill := next.modeSkill
        executionResponseMode := next.executionResponseMode
        origin := some next }

def forwardOf (s : Engine) (reader : StreamReader) (message : SteeringMessage) :
    AutoForwardMessage where
  sessionId := reader.activeSessionId
  id := message.userMessageId
  text := message.text
  modeSkill :=
    s.autoForwardModes.lookup message.userMessageId <|>
      (s.storedModes.lookup (reader.activeSessionId, message.userMessageId)).filter
        env.isCounselingModeSkillName <|>
      reader.autoForwardFallbackModeSkill
  executionResponseMode := reader.resolvedMode

/-- The `finally` of a `consumeStream`, and the history of what it leaves. -/
def closeReader (s : Engine) (index : Nat) (reader : StreamReader) : Engine :=
  { s with
    readers := s.readers.eraseIdx index
    live := none
    leftOver := s.leftOver ++ (reader.pending env).map fun message =>
      (reader.activeSessionId, message) }

/-- The message of a stream has been sent, for good or bad. -/
def settle (s : Engine) (session : String) (origin : Option AutoForwardMessage) : Engine :=
  { s with sent := s.sent ++ origin.toList.map fun message => (session, message) }

def queueForwards (s : Engine) (reader : StreamReader) : Engine :=
  let fresh := (reader.pending env).filter fun message =>
    message.userMessageId ∉ s.autoForwardSeen
  { s with
    autoForwardQueue := s.autoForwardQueue ++ fresh.map (s.forwardOf env reader)
    autoForwardSeen := s.autoForwardSeen ++ fresh.map (·.userMessageId)
    forwards := s.forwards ++ fresh.map (s.forwardOf env reader) }

/-- The `catch` of `submitMessage` for a turn that was refused with a conflict. -/
def refused (s : Engine) : StreamSource → Engine
  | .sent draft =>
    if draft.kind = .clarify ∨ draft.kind = .widget then s
    else
      match s.openSession <|> s.lastStartedSession with
      | some session => { s with submissions := s.submissions ++ [⟨draft, .retrying session⟩] }
      | none => s
  | _ => s

/-- `consumeStream` raises: nothing joins the queue. -/
def failReader (s : Engine) (index : Nat) (reader : StreamReader) (conflict : Bool) : Engine :=
  let closed := s.closeReader env index reader
  if conflict && !reader.metaSeen then closed.refused reader.source
  else closed.settle reader.activeSessionId reader.source.origin

def endReader (s : Engine) (index : Nat) (reader : StreamReader) : Engine :=
  if reader.brokenOff env then s.failReader env index reader false
  else ((s.closeReader env index reader).queueForwards env reader).settle reader.activeSessionId
    reader.source.origin

def withoutSubmission (s : Engine) (index : Nat) : Engine :=
  { s with submissions := s.submissions.eraseIdx index }

def steerAnswered (s : Engine) (submission : Submission) (active : String) (typedIn : Option String) :
    SteerAnswer → Engine
  | .queued userMessageId =>
    { s.settle active submission.draft.origin with
      steers := s.steers ++ [(typedIn, active)]
      autoForwardModes :=
        submission.draft.modeSkill.elim s.autoForwardModes fun mode =>
          (userMessageId, mode) :: s.autoForwardModes
      storedModes :=
        (submission.draft.modeSkill.filter env.isCounselingModeSkillName).elim s.storedModes
          fun mode => ((active, userMessageId), mode) :: s.storedModes }
  | .idle => { s with submissions := s.submissions ++ [⟨submission.draft, .clearing⟩] }
  | .failed => s

/-- The rest of `submitMessage` behind a wait. -/
def cleared (s : Engine) (submission : Submission) : Engine :=
  if submission.stage = .clearing ∧ s.live.isSome then
    { s with submissions := s.submissions ++ [⟨submission.draft, .cancelling⟩] }
  else s.startSend submission.draft

def step (s : Engine) : EngineLabel → Option Engine
  | .navigate session => some { s with openSession := session }
  | .render => some { s with rendered := s.live }
  | .submit draft => if draft.origin.isNone then some (s.submit draft) else none
  | .forward =>
    match s.rendered, s.autoForwardQueue with
    | none, next :: _ => some (s.forward next)
    | _, _ => none
  | .steerAnswered index answer => s.submissions[index]?.bind fun submission =>
    match submission.stage with
    | .steering active typedIn =>
      some ((s.withoutSubmission index).steerAnswered env submission active typedIn answer)
    | _ => none
  | .cleared index => s.submissions[index]?.bind fun submission =>
    match submission.stage with
    | .clearing | .cancelling => some ((s.withoutSubmission index).cleared submission)
    | _ => none
  | .givesUp index => s.submissions[index]?.bind fun submission =>
    match submission.stage with
    | .clearing | .cancelling => some (s.withoutSubmission index)
    | _ => none
  | .created index session => s.submissions[index]?.bind fun submission =>
    match submission.stage, session with
    | .creating, some session =>
      let started := { s.withoutSubmission index with lastStartedSession := some session }
      some (started.runTurn session (.sent submission.draft) submission.draft.executionResponseMode)
    | .creating, none => some (s.withoutSubmission index)
    | _, _ => none
  | .retried index ok => s.submissions[index]?.bind fun submission =>
    match submission.stage with
    | .retrying session => some <|
      if ok then (s.withoutSubmission index).runTurn session (.resent submission.draft)
        submission.draft.executionResponseMode
      else s.withoutSubmission index
    | _ => none
  | .attach session activeModeSkill => some <|
    if s.live.isSome then s
    else { s with attaching := s.attaching ++ [(session, activeModeSkill)] }
  | .attached index active => s.attaching[index]?.map fun attempt =>
    let without := { s with attaching := s.attaching.eraseIdx index }
    if active then without.read ⟨.attached, attempt.1, [], .quick, attempt.2⟩ else without
  | .frame index event => s.readers[index]?.map fun reader =>
    { s with
      readers := s.readers.set index (reader.take event)
      live := some reader.activeSessionId }
  | .streamEnds index => s.readers[index]?.map fun reader => s.endReader env index reader
  | .streamFails index conflict => s.readers[index]?.map fun reader =>
    s.failReader env index reader conflict

def located (s : Engine) : List AutoForwardMessage :=
  s.autoForwardQueue ++ s.submissions.filterMap (·.draft.origin) ++
    s.readers.filterMap (·.source.origin) ++ s.sent.map Prod.snd

end Engine

/-- Each message a turn left uninjected has one queue entry; each entry waits, is on
its way or was sent, once, and only to its session. -/
structure ForwardedOnce (s : Engine) : Prop where
  queued : ∀ left ∈ s.leftOver, left.2.userMessageId ∈ s.forwards.map (·.id)
  own : ∀ message ∈ s.forwards, (message.sessionId, ⟨message.id, message.text⟩) ∈ s.leftOver
  distinct : (s.forwards.map (·.id)).Nodup
  once : s.located.Perm s.forwards
  sent : ∀ post ∈ s.sent, post.1 = post.2.sessionId
  sending : ∀ reader ∈ s.readers, ∀ message, reader.source.origin = some message →
    reader.activeSessionId = message.sessionId
  typed : ∀ steer ∈ s.steers, steer.1 = some steer.2

namespace Engine
variable (env : EngineEnv)

/-- The stream may stop here: what it leaves uninjected has been queued before. -/
def mayBreak (s : Engine) (reader : StreamReader) (conflict : Bool) : Bool :=
  (reader.pending env).all (fun message => message.userMessageId ∈ s.autoForwardSeen) &&
    reader.source.origin.all fun message =>
      !(conflict && !reader.metaSeen) || match reader.source with
        | .sent draft => draft.kind == .plain &&
          (s.openSession <|> s.lastStartedSession) == some message.sessionId
        | _ => false

/-- A message goes out while its own session is open, and nothing gives it up. -/
def keepsChats (s : Engine) : EngineLabel → Bool
  | .submit draft => draft.kind != .plain || draft.hasTaskSkills ||
    s.live.all fun active => s.openSession == some active
  | .forward => s.autoForwardQueue.head?.all fun next =>
    !isBlankText next.text &&
      (s.live.orElse fun _ => s.openSession) == some next.sessionId
  | .steerAnswered index answer => s.submissions[index]?.all fun submission =>
    submission.draft.origin.isNone || match answer with
      | .failed => false
      | _ => true
  | .cleared index => s.submissions[index]?.all fun submission =>
    submission.draft.origin.all fun message =>
      if s.live.isSome then submission.stage == .clearing
      else s.openSession == some message.sessionId
  | .givesUp index => s.submissions[index]?.all fun submission => submission.draft.origin.isNone
  | .retried index ok => s.submissions[index]?.all fun submission =>
    ok || submission.draft.origin.isNone
  | .streamEnds index => s.readers[index]?.all fun reader =>
    !reader.brokenOff env || s.mayBreak env reader false
  | .streamFails index conflict => s.readers[index]?.all fun reader =>
    s.mayBreak env reader conflict
  | _ => true

end Engine
theorem filterMap_eraseIdx_perm {α β : Type} (g : α → Option β) {l : List α} {i : Nat} {x : α}
    (here : l[i]? = some x) :
    ((g x).toList ++ (l.eraseIdx i).filterMap g).Perm (l.filterMap g) := by
  induction l generalizing i with
  | nil => cases here
  | cons y rest ih =>
    have split : ∀ tail : List α, (y :: tail).filterMap g = (g y).toList ++ tail.filterMap g := by
      intro tail
      cases kept : g y <;> simp [kept]
    cases i with
    | zero =>
      cases here
      rw [List.eraseIdx_cons_zero, split]
    | succ i =>
      rw [List.eraseIdx_cons_succ, split, split, ← List.append_assoc]
      refine List.Perm.trans (List.Perm.append_right _ List.perm_append_comm) ?_
      rw [List.append_assoc]
      exact (ih here).append_left _

theorem filterMap_set {α β : Type} (g : α → Option β) {l : List α} {i : Nat} {x y : α}
    (here : l[i]? = some x) (same : g y = g x) : (l.set i y).filterMap g = l.filterMap g := by
  induction l generalizing i with
  | nil => cases here
  | cons z rest ih =>
    cases i with
    | zero =>
      cases here
      simp [List.filterMap_cons, same]
    | succ i => simp [List.filterMap_cons, ih here]

theorem pending_ids_nodup (signature : Payload → String) (events : List Event) :
    ((pendingUserSegmentsOf (reduceEvents signature events)).map (·.userMessageId)).Nodup := by
  rw [List.nodup_iff_count_le_one]
  intro id
  rw [pendingUserSegmentsOf, List.map_filterMap, List.count_filterMap]
  refine le_trans (List.countP_mono_left ?_) ((folded_reduceEvents signature events).user_once id).1
  intro segment _ same
  cases segment with
  | user own text injected =>
    cases injected with
    | true => simp at same
    | false => simpa [Segment.isUser] using same
  | _ => simp at same

/-- What a suspended submit may still do with a message of the queue. -/
def Submission.Bound (submission : Submission) : Prop :=
  match submission.stage with
  | .steering active typedIn => typedIn = some active ∧
    ∀ message, submission.draft.origin = some message → active = message.sessionId
  | .retrying session => ∀ message, submission.draft.origin = some message →
    session = message.sessionId
  | .creating => submission.draft.origin = none
  | _ => True

/-- `owed`: left uninjected and not queued yet; `loose`: taken from where it was. -/
structure Holds (owed : List String) (loose : List AutoForwardMessage) (s : Engine) : Prop where
  queued : ∀ left ∈ s.leftOver, left.2.userMessageId ∈ s.autoForwardSeen ∨
    left.2.userMessageId ∈ owed
  own : ∀ message ∈ s.forwards, (message.sessionId, ⟨message.id, message.text⟩) ∈ s.leftOver
  seen : s.forwards.map (·.id) = s.autoForwardSeen
  distinct : s.autoForwardSeen.Nodup
  once : (loose ++ s.located).Perm s.forwards
  sent : ∀ post ∈ s.sent, post.1 = post.2.sessionId
  sending : ∀ reader ∈ s.readers, ∀ message, reader.source.origin = some message →
    reader.activeSessionId = message.sessionId
  typed : ∀ steer ∈ s.steers, steer.1 = some steer.2
  bound : ∀ submission ∈ s.submissions, submission.Bound

variable {env : EngineEnv} {owed : List String} {s t : Engine}

theorem holds_start (session : Option String) : Holds [] [] { openSession := session } where
  queued := by
    intro left isIn
    cases isIn
  own := by
    intro message isIn
    cases isIn
  seen := rfl
  distinct := List.nodup_nil
  once := List.Perm.nil
  sent := by
    intro post isIn
    cases isIn
  sending := by
    intro reader isIn
    cases isIn
  typed := by
    intro steer isIn
    cases isIn
  bound := by
    intro submission isIn
    cases isIn

theorem Holds.forwardedOnce (holds : Holds [] [] s) : ForwardedOnce s where
  queued := by
    intro left isIn
    rw [holds.seen]
    exact (holds.queued left isIn).resolve_right List.not_mem_nil
  own := holds.own
  distinct := by
    rw [holds.seen]
    exact holds.distinct
  once := holds.once
  sent := holds.sent
  sending := holds.sending
  typed := holds.typed

theorem Holds.read (reader : StreamReader) (holds : Holds [] reader.source.origin.toList s)
    (own : ∀ message, reader.source.origin = some message →
      reader.activeSessionId = message.sessionId) : Holds [] [] (s.read reader) where
  queued := holds.queued
  own := holds.own
  seen := holds.seen
  distinct := holds.distinct
  once := by
    refine List.Perm.trans ?_ holds.once
    rw [List.perm_iff_count]
    intro message
    cases origin : reader.source.origin with
    | none => simp [Engine.located, Engine.read, List.filterMap_append, origin]
    | some other =>
      simp [Engine.located, Engine.read, List.filterMap_append, origin, List.count_cons]
      omega
  sent := holds.sent
  sending := by
    intro other isIn
    obtain earlier | here := List.mem_append.mp isIn
    · exact holds.sending other earlier
    · cases List.mem_singleton.mp here
      exact own
  typed := holds.typed
  bound := holds.bound

theorem Holds.suspend (submission : Submission)
    (holds : Holds [] submission.draft.origin.toList s) (bound : submission.Bound) :
    Holds [] [] { s with submissions := s.submissions ++ [submission] } where
  queued := holds.queued
  own := holds.own
  seen := holds.seen
  distinct := holds.distinct
  once := by
    refine List.Perm.trans ?_ holds.once
    rw [List.perm_iff_count]
    intro message
    cases origin : submission.draft.origin with
    | none => simp [Engine.located, List.filterMap_append, origin]
    | some other =>
      simp [Engine.located, List.filterMap_append, origin, List.count_cons]
      omega
  sent := holds.sent
  sending := holds.sending
  typed := holds.typed
  bound := by
    intro other isIn
    obtain earlier | here := List.mem_append.mp isIn
    · exact holds.bound other earlier
    · cases List.mem_singleton.mp here
      exact bound

theorem Holds.resume {index : Nat} {submission : Submission} (holds : Holds [] [] s)
    (here : s.submissions[index]? = some submission) :
    Holds [] submission.draft.origin.toList (s.withoutSubmission index) where
  queued := holds.queued
  own := holds.own
  seen := holds.seen
  distinct := holds.distinct
  once := by
    refine List.Perm.trans ?_ holds.once
    have parts := filterMap_eraseIdx_perm (fun other : Submission => other.draft.origin) here
    rw [List.perm_iff_count] at parts ⊢
    intro message
    have count := parts message
    simp only [Engine.located, Engine.withoutSubmission, List.count_append, List.nil_append] at *
    omega
  sent := holds.sent
  sending := holds.sending
  typed := holds.typed
  bound := fun other isIn => holds.bound other (List.mem_of_mem_eraseIdx isIn)

theorem Holds.settle {session : String} {origin : Option AutoForwardMessage}
    (holds : Holds owed origin.toList s)
    (own : ∀ message, origin = some message → session = message.sessionId) :
    Holds owed [] (s.settle session origin) where
  queued := holds.queued
  own := holds.own
  seen := holds.seen
  distinct := holds.distinct
  once := by
    refine List.Perm.trans ?_ holds.once
    rw [List.perm_iff_count]
    intro message
    cases origin with
    | none => simp [Engine.located, Engine.settle]
    | some other =>
      simp [Engine.located, Engine.settle, List.count_cons]
      omega
  sent := by
    intro post isIn
    obtain earlier | here := List.mem_append.mp isIn
    · exact holds.sent post earlier
    · obtain ⟨message, isOrigin, rfl⟩ := List.mem_map.mp here
      exact own message (Option.mem_toList.mp isOrigin)
  sending := holds.sending
  typed := holds.typed
  bound := holds.bound

theorem Holds.startSend {draft : Draft} (holds : Holds [] draft.origin.toList s)
    (free : ∀ message, draft.origin = some message →
      s.live = none ∧ s.openSession = some message.sessionId) :
    Holds [] [] (s.startSend draft) := by
  rw [Engine.startSend]
  split
  case isTrue busy =>
    cases origin : draft.origin with
    | none => simpa [origin] using holds
    | some message =>
      rw [(free message origin).1] at busy
      cases busy
  case isFalse idle =>
    split
    case h_1 closed =>
      refine holds.suspend ⟨draft, .creating⟩ ?_
      cases origin : draft.origin with
      | none => exact origin
      | some message =>
        rw [(free message origin).2] at closed
        cases closed
    case h_2 session isOpen =>
      refine Holds.read (s := { s with lastStartedSession := some session })
        ⟨.sent draft, session, [], _, none⟩ ⟨holds.queued, holds.own, holds.seen, holds.distinct,
          holds.once, holds.sent, holds.sending, holds.typed, holds.bound⟩ ?_
      intro message origin
      have same := (free message origin).2
      rw [isOpen] at same
      exact Option.some.inj same

theorem Holds.submit {draft : Draft} (holds : Holds [] draft.origin.toList s)
    (typed : draft.kind = .plain → draft.hasTaskSkills = false → ∀ active, s.live = some active →
      draft.origin.elim s.openSession (fun message => some message.sessionId) = some active)
    (goes : ∀ message, draft.origin = some message → draft.kind = .plain ∧
      draft.hasTaskSkills = false ∧ isBlankText draft.text = false ∧
      (s.live.orElse fun _ => s.openSession) = some message.sessionId) :
    Holds [] [] (s.submit draft) := by
  have dropped : draft.origin = none → Holds [] [] s := by
    intro none
    simpa [none] using holds
  rw [Engine.submit]
  split
  case isTrue blank =>
    cases origin : draft.origin with
    | none => exact dropped origin
    | some message =>
      rw [(goes message origin).2.2.1] at blank
      cases blank.2
  case isFalse spoken =>
    split
    case h_1 live =>
      refine holds.startSend ?_
      intro message origin
      have target := (goes message origin).2.2.2
      rw [live] at target
      exact ⟨live, target⟩
    case h_2 active live =>
      split
      case isTrue plain =>
        split
        case isTrue skills =>
          cases origin : draft.origin with
          | none => exact dropped origin
          | some message =>
            rw [(goes message origin).2.1] at skills
            cases skills
        case isFalse unskilled =>
          refine holds.suspend ⟨draft, .steering active _⟩
            ⟨typed plain (by simpa using unskilled) active live, ?_⟩
          intro message origin
          have target := (goes message origin).2.2.2
          rw [live] at target
          exact Option.some.inj target
      case isFalse rewrites => exact holds.suspend ⟨draft, .cancelling⟩ trivial

theorem Holds.forward {next : AutoForwardMessage} {rest : List AutoForwardMessage}
    (holds : Holds [] [] s) (head : s.autoForwardQueue = next :: rest)
    (spoken : isBlankText next.text = false)
    (goes : (s.live.orElse fun _ => s.openSession) = some next.sessionId) :
    Holds [] [] (s.forward next) := by
  rw [Engine.forward]
  apply Holds.submit
  · refine ⟨holds.queued, holds.own, holds.seen, holds.distinct, ?_, holds.sent, holds.sending,
      holds.typed, holds.bound⟩
    have once := holds.once
    simp only [Engine.located, head, List.nil_append, List.cons_append] at once
    simpa only [Engine.located, head, List.tail_cons, Option.toList_some, List.singleton_append]
      using once
  · intro _ _ active live
    have target := goes
    rw [show s.live = some active from live] at target
    exact target.symm
  · intro message origin
    cases origin
    exact ⟨rfl, rfl, spoken, goes⟩

theorem Holds.closeReader {index : Nat} {reader : StreamReader} (holds : Holds [] [] s)
    (here : s.readers[index]? = some reader) :
    Holds ((reader.pending env).map (·.userMessageId)) reader.source.origin.toList
      (s.closeReader env index reader) where
  queued := by
    intro left isIn
    obtain earlier | fresh := List.mem_append.mp isIn
    · exact Or.inl ((holds.queued left earlier).resolve_right List.not_mem_nil)
    · obtain ⟨message, pending, rfl⟩ := List.mem_map.mp fresh
      exact Or.inr (List.mem_map.mpr ⟨message, pending, rfl⟩)
  own := fun message isIn => List.mem_append_left _ (holds.own message isIn)
  seen := holds.seen
  distinct := holds.distinct
  once := by
    refine List.Perm.trans ?_ holds.once
    have parts := filterMap_eraseIdx_perm (fun other : StreamReader => other.source.origin) here
    rw [List.perm_iff_count] at parts ⊢
    intro message
    have count := parts message
    simp only [Engine.located, Engine.closeReader, List.count_append, List.nil_append] at *
    omega
  sent := holds.sent
  sending := fun other isIn => holds.sending other (List.mem_of_mem_eraseIdx isIn)
  typed := holds.typed
  bound := holds.bound

theorem Holds.discharge {loose : List AutoForwardMessage} (holds : Holds owed loose s)
    (seen : ∀ id ∈ owed, id ∈ s.autoForwardSeen) : Holds [] loose s :=
  { holds with
    queued := fun left isIn => Or.inl ((holds.queued left isIn).elim id (seen _)) }

theorem Holds.queueForwards {reader : StreamReader} {loose : List AutoForwardMessage}
    (holds : Holds ((reader.pending env).map (·.userMessageId)) loose s)
    (left : ∀ message ∈ reader.pending env, (reader.activeSessionId, message) ∈ s.leftOver) :
    Holds [] loose (s.queueForwards env reader) where
  queued := by
    intro message isIn
    left
    obtain before | owes := holds.queued message isIn
    · exact List.mem_append_left _ before
    · by_cases before : message.2.userMessageId ∈ s.autoForwardSeen
      · exact List.mem_append_left _ before
      · obtain ⟨pending, present, same⟩ := List.mem_map.mp owes
        refine List.mem_append_right _ (List.mem_map.mpr ⟨pending, ?_, same⟩)
        rw [← same] at before
        exact List.mem_filter.mpr ⟨present, by simpa using before⟩
  own := by
    intro message isIn
    obtain before | fresh := List.mem_append.mp isIn
    · exact holds.own message before
    · obtain ⟨pending, present, rfl⟩ := List.mem_map.mp fresh
      exact left pending (List.mem_filter.mp present).1
  seen := by
    show List.map _ (_ ++ _) = _ ++ _
    rw [List.map_append, holds.seen, List.map_map]
    rfl
  distinct := by
    refine List.Nodup.append holds.distinct ?_ ?_
    · exact (pending_ids_nodup env.signature reader.events).sublist
        (List.filter_sublist.map _)
    · intro id before fresh
      obtain ⟨pending, present, rfl⟩ := List.mem_map.mp fresh
      simpa [before] using (List.mem_filter.mp present).2
  once := by
    have once := holds.once
    rw [List.perm_iff_count] at once ⊢
    intro message
    have count := once message
    simp only [Engine.located, Engine.queueForwards, List.count_append] at *
    omega
  sent := holds.sent
  sending := holds.sending
  typed := holds.typed
  bound := holds.bound

theorem Holds.refused {source : StreamSource} (holds : Holds [] source.origin.toList s)
    (retries : ∀ message, source.origin = some message → ∃ draft, source = .sent draft ∧
      draft.kind = .plain ∧ (s.openSession <|> s.lastStartedSession) = some message.sessionId) :
    Holds [] [] (s.refused source) := by
  have dropped : source.origin = none → Holds [] [] s := by
    intro none
    simpa [none] using holds
  cases source with
  | attached => exact dropped rfl
  | resent draft =>
    cases origin : draft.origin with
    | none => exact dropped origin
    | some message =>
      obtain ⟨other, same, _⟩ := retries message origin
      cases same
  | sent draft =>
    rw [Engine.refused]
    cases origin : draft.origin with
    | none =>
      split
      · exact dropped origin
      · split
        case h_1 session known =>
          refine holds.suspend ⟨draft, .retrying session⟩ ?_
          intro message same
          rw [origin] at same
          cases same
        case h_2 unknown => exact dropped origin
    | some message =>
      obtain ⟨other, same, plain, target⟩ := retries message origin
      cases same
      rw [if_neg (by simp [plain]), target]
      refine holds.suspend ⟨draft, .retrying message.sessionId⟩ ?_
      intro next same
      cases origin.symm.trans same
      rfl

theorem Holds.failReader {index : Nat} {reader : StreamReader} {conflict : Bool}
    (holds : Holds [] [] s) (here : s.readers[index]? = some reader)
    (breaks : s.mayBreak env reader conflict = true) :
    Holds [] [] (s.failReader env index reader conflict) := by
  obtain ⟨seen, retries⟩ := Bool.and_eq_true_iff.mp breaks
  have closed : Holds [] reader.source.origin.toList (s.closeReader env index reader) := by
    refine (holds.closeReader here).discharge ?_
    intro id owes
    obtain ⟨message, pending, rfl⟩ := List.mem_map.mp owes
    have known := List.all_eq_true.mp seen message pending
    exact of_decide_eq_true known
  rw [Engine.failReader]
  split
  case isTrue refused =>
    refine closed.refused ?_
    intro message origin
    rw [origin] at retries
    simp only [Option.all_some, refused, Bool.not_true, Bool.false_or] at retries
    split at retries
    case h_1 draft source =>
      simp only [Bool.and_eq_true, beq_iff_eq] at retries
      exact ⟨draft, source, retries⟩
    case h_2 => cases retries
  case isFalse taken =>
    refine closed.settle ?_
    exact holds.sending reader (List.mem_of_getElem? here)

theorem Holds.endReader {index : Nat} {reader : StreamReader} (holds : Holds [] [] s)
    (here : s.readers[index]? = some reader)
    (breaks : (!reader.brokenOff env || s.mayBreak env reader false) = true) :
    Holds [] [] (s.endReader env index reader) := by
  rw [Engine.endReader]
  split
  case isTrue broken =>
    rw [broken, Bool.not_true, Bool.false_or] at breaks
    exact holds.failReader here breaks
  case isFalse whole =>
    refine Holds.settle ((holds.closeReader here).queueForwards ?_) ?_
    · intro message pending
      exact List.mem_append_right _ (List.mem_map.mpr ⟨message, pending, rfl⟩)
    · exact holds.sending reader (List.mem_of_getElem? here)

theorem Holds.steerAnswered {index : Nat} {submission : Submission} {active : String}
    {typedIn : Option String} {answer : SteerAnswer} (holds : Holds [] [] s)
    (here : s.submissions[index]? = some submission)
    (stage : submission.stage = .steering active typedIn)
    (queues : submission.draft.origin = none ∨ answer ≠ .failed) :
    Holds [] [] ((s.withoutSubmission index).steerAnswered env submission active typedIn answer) := by
  have resumed := holds.resume here
  have bound := holds.bound submission (List.mem_of_getElem? here)
  simp only [Submission.Bound, stage] at bound
  cases answer with
  | queued userMessageId =>
    have settled := resumed.settle bound.2
    refine ⟨settled.queued, settled.own, settled.seen, settled.distinct, settled.once, settled.sent,
      settled.sending, ?_, settled.bound⟩
    intro steer isIn
    obtain earlier | last := List.mem_append.mp isIn
    · exact holds.typed steer earlier
    · cases List.mem_singleton.mp last
      exact bound.1
  | idle => exact resumed.suspend ⟨submission.draft, .clearing⟩ trivial
  | failed =>
    obtain typed | spoken := queues
    · rw [typed] at resumed
      exact resumed
    · exact absurd rfl spoken

theorem Holds.cleared {index : Nat} {submission : Submission} (holds : Holds [] [] s)
    (here : s.submissions[index]? = some submission)
    (goes : ∀ message, submission.draft.origin = some message →
      if s.live.isSome then submission.stage = .clearing
      else s.openSession = some message.sessionId) :
    Holds [] [] ((s.withoutSubmission index).cleared submission) := by
  have resumed := holds.resume here
  rw [Engine.cleared]
  split
  case isTrue waits => exact resumed.suspend ⟨submission.draft, .cancelling⟩ trivial
  case isFalse sends =>
    refine resumed.startSend ?_
    intro message origin
    have target := goes message origin
    cases live : s.live with
    | none =>
      rw [live] at target
      exact ⟨live, target⟩
    | some active =>
      rw [live] at target
      exact absurd ⟨target, by simp [Engine.withoutSubmission, live]⟩ sends

theorem Holds.step {label : EngineLabel} (holds : Holds [] [] s)
    (keeps : s.keepsChats env label = true) (stepped : s.step env label = some t) :
    Holds [] [] t := by
  cases label with
  | navigate session =>
    cases stepped
    exact ⟨holds.queued, holds.own, holds.seen, holds.distinct, holds.once, holds.sent,
      holds.sending, holds.typed, holds.bound⟩
  | render =>
    cases stepped
    exact ⟨holds.queued, holds.own, holds.seen, holds.distinct, holds.once, holds.sent,
      holds.sending, holds.typed, holds.bound⟩
  | submit draft =>
    obtain ⟨typed, same⟩ := Option.ite_none_right_eq_some.mp stepped
    cases same
    have origin : draft.origin = none := by simpa using typed
    refine Holds.submit (by rw [origin]; exact holds) ?_ ?_
    · intro plain unskilled active live
      simpa [Engine.keepsChats, plain, unskilled, live, origin] using keeps
    · intro message same
      rw [origin] at same
      cases same
  | forward =>
    rw [Engine.step] at stepped
    split at stepped
    case h_1 next rest rendered queue =>
      cases stepped
      simp only [Engine.keepsChats, queue, List.head?_cons, Option.all_some, Bool.and_eq_true,
        Bool.not_eq_true', beq_iff_eq] at keeps
      exact holds.forward queue keeps.1 keeps.2
    case h_2 => cases stepped
  | steerAnswered index answer =>
    obtain ⟨submission, here, rest⟩ := Option.bind_eq_some_iff.mp stepped
    simp only [Engine.keepsChats, here, Option.all_some, Bool.or_eq_true] at keeps
    split at rest
    case h_1 active typedIn stage =>
      cases rest
      refine holds.steerAnswered here stage ?_
      refine keeps.imp (by simp) ?_
      rintro queues rfl
      cases queues
    case h_2 => cases rest
  | cleared index =>
    obtain ⟨submission, here, rest⟩ := Option.bind_eq_some_iff.mp stepped
    simp only [Engine.keepsChats, here, Option.all_some] at keeps
    have goes : ∀ message, submission.draft.origin = some message →
        if s.live.isSome then submission.stage = .clearing
        else s.openSession = some message.sessionId := by
      intro message origin
      rw [origin, Option.all_some] at keeps
      cases live : s.live <;> simpa [live] using keeps
    split at rest
    case h_1 =>
      cases rest
      exact holds.cleared here goes
    case h_2 =>
      cases rest
      exact holds.cleared here goes
    case h_3 => cases rest
  | givesUp index =>
    obtain ⟨submission, here, rest⟩ := Option.bind_eq_some_iff.mp stepped
    simp only [Engine.keepsChats, here, Option.all_some, Option.isNone_iff_eq_none] at keeps
    have resumed := holds.resume here
    rw [keeps] at resumed
    split at rest
    case h_1 =>
      cases rest
      exact resumed
    case h_2 =>
      cases rest
      exact resumed
    case h_3 => cases rest
  | created index session =>
    obtain ⟨submission, here, rest⟩ := Option.bind_eq_some_iff.mp stepped
    have resumed := holds.resume here
    have bound := holds.bound submission (List.mem_of_getElem? here)
    split at rest
    case h_1 session stage =>
      cases rest
      simp only [Submission.Bound, stage] at bound
      refine Holds.read _ ⟨resumed.queued, resumed.own, resumed.seen, resumed.distinct, resumed.once,
        resumed.sent, resumed.sending, resumed.typed, resumed.bound⟩ ?_
      intro message origin
      cases bound.symm.trans origin
    case h_2 stage =>
      cases rest
      simp only [Submission.Bound, stage] at bound
      rw [bound] at resumed
      exact resumed
    case h_3 => cases rest
  | retried index ok =>
    obtain ⟨submission, here, rest⟩ := Option.bind_eq_some_iff.mp stepped
    have resumed := holds.resume here
    have bound := holds.bound submission (List.mem_of_getElem? here)
    split at rest
    case h_1 session stage =>
      simp only [Submission.Bound, stage] at bound
      cases ok with
      | true =>
        cases rest
        exact resumed.read ⟨.resent submission.draft, session, [], _, none⟩ bound
      | false =>
        cases rest
        simp only [Engine.keepsChats, here, Option.all_some, Bool.false_or,
          Option.isNone_iff_eq_none] at keeps
        rw [keeps] at resumed
        exact resumed
    case h_2 => cases rest
  | attach session activeModeSkill =>
    cases stepped
    split
    · exact holds
    · exact ⟨holds.queued, holds.own, holds.seen, holds.distinct, holds.once, holds.sent,
        holds.sending, holds.typed, holds.bound⟩
  | attached index active =>
    obtain ⟨attempt, here, rfl⟩ := Option.map_eq_some_iff.mp stepped
    have kept : Holds [] [] { s with attaching := s.attaching.eraseIdx index } :=
      ⟨holds.queued, holds.own, holds.seen, holds.distinct, holds.once, holds.sent, holds.sending,
        holds.typed, holds.bound⟩
    cases active with
    | false => exact kept
    | true =>
      refine kept.read ⟨.attached, attempt.1, [], .quick, attempt.2⟩ ?_
      intro message origin
      cases origin
  | frame index event =>
    obtain ⟨reader, here, rfl⟩ := Option.map_eq_some_iff.mp stepped
    refine ⟨holds.queued, holds.own, holds.seen, holds.distinct, ?_, holds.sent, ?_, holds.typed,
      holds.bound⟩
    · have same := filterMap_set (fun other : StreamReader => other.source.origin)
        (y := reader.take event) here rfl
      have once := holds.once
      simp only [Engine.located, same] at once ⊢
      exact once
    · intro other isIn message origin
      obtain before | rfl := List.mem_or_eq_of_mem_set isIn
      · exact holds.sending other before message origin
      · exact holds.sending reader (List.mem_of_getElem? here) message origin
  | streamEnds index =>
    obtain ⟨reader, here, rfl⟩ := Option.map_eq_some_iff.mp stepped
    simp only [Engine.keepsChats, here, Option.all_some] at keeps
    exact holds.endReader here keeps
  | streamFails index conflict =>
    obtain ⟨reader, here, rfl⟩ := Option.map_eq_some_iff.mp stepped
    simp only [Engine.keepsChats, here, Option.all_some] at keeps
    exact holds.failReader here keeps

def plainEnv : EngineEnv := ⟨fun spec => spec, fun _ => true⟩

def draftOf (text : String) : Draft :=
  { kind := .plain, text := text, executionResponseMode := .quick }

def firstMeta : Event := .metadata ⟨"t", "s1", "m", "a1", "u1", none⟩

def lateSteer : Event := .userMessage ⟨"Second", "steer-late", false⟩

/-- A steer comes too late for its turn, the turn ends and the effect runs. -/
def steeredLate : List EngineLabel :=
  [.submit (draftOf "First"), .frame 0 firstMeta, .render, .submit (draftOf "Second"),
    .steerAnswered 0 (.queued "steer-late"), .frame 0 lateSteer, .frame 0 (.done .complete),
    .streamEnds 0, .render, .forward]

/-- The same, with another chat opened before the turn ends. -/
def openedAnother : List EngineLabel :=
  [.submit (draftOf "First"), .frame 0 firstMeta, .render, .submit (draftOf "Second"),
    .steerAnswered 0 (.queued "steer-late"), .frame 0 lateSteer, .navigate (some "s2"),
    .frame 0 (.done .complete), .streamEnds 0, .render, .forward]

def lostConnection : List EngineLabel :=
  [.submit (draftOf "First"), .frame 0 firstMeta, .render, .submit (draftOf "Second"),
    .steerAnswered 0 (.queued "steer-late"), .frame 0 lateSteer, .streamFails 0 false, .render]

end Counselle.Chat

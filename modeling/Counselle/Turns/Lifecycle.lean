import Counselle.Records.Emission
import Counselle.Transition
import Counselle.Turns.Registry

/-! One turn from its spawn to its finalize: the detached task `_drive` (or its twin
`_drive_continuation`), the watchdog, a cancel, a shutdown drain and steers, interleaved at every suspension
point. The turn generator may yield anything and be suspended anywhere. -/
namespace Counselle.Turns
open Protocol Records Transition

def userSafeError : String := "Something went wrong on our side — please try that again."

def userSafeTimeout : String := "This took too long on our side — please try asking again."

/-- `turn.ids`, from the meta event. -/
structure TurnIds where
  messageId : String
  userMessageId : String
  responseMode : Option String
  model : String
deriving DecidableEq

/-- Where the task running `_drive` is suspended. -/
inductive TaskPhase where
  | notStarted
  | body
  /-- `_handle_timeout` persists the partial -/
  | timingOut
  | ended
deriving DecidableEq

/-- Who claimed the turn by setting `cancel_requested`. -/
inductive StopKind where
  | cancel
  | drain
deriving DecidableEq

/-- Where the coroutine of `_cancel_active` or `_drain_active_with_error` is. -/
inductive Stopper where
  | absent
  | awaitingTask (kind : StopKind)
  | persisting (kind : StopKind)
  | returned
deriving DecidableEq

structure Turn where
  buffer : RingBuffer Event
  /-- history: every event the buffer took -/
  received : List Event
  phase : TaskPhase
  /-- the watchdog called `task.cancel()` -/
  expired : Bool
  /-- calls of `task.cancel()` by anyone else -/
  cancels : Nat
  stopper : Stopper
  hasRunHandle : Bool
  traceId : String
  ids : Option TurnIds
  emissions : List Emission
  seenViz : List String
  cancelRequested : Bool
  terminalAppended : Bool
  finalized : Bool

/-- What the turn calls outside of itself: the byte budget's callbacks, the viz
signature and the usage enrichment. -/
structure TurnEnv where
  onCharge : Int → Nat → Int × Int
  onRefund : Int → Nat → Int
  nbytes : Event → Nat
  vizSignature : Payload → String
  enrichUsage : Payload → Payload

namespace Turn

def spawned (maxsize : Int) (hasRunHandle : Bool) : Turn where
  buffer := .new maxsize
  received := []
  phase := .notStarted
  expired := false
  cancels := 0
  stopper := .absent
  hasRunHandle := hasRunHandle
  traceId := ""
  ids := none
  emissions := []
  seenViz := []
  cancelRequested := false
  terminalAppended := false
  finalized := false

/-- `ev_error(message, turn.trace_id)` -/
def evError (t : Turn) (message : String) : Event := .error { message, traceId := t.traceId }

variable (env : TurnEnv)

/-- `turn.buffer.append(event)`, at the shared counter the other turns left. -/
def append (used : Int) (event : Event) (t : Turn) : Turn :=
  { t with
    buffer := (t.buffer.append env.onCharge env.onRefund env.nbytes used event).1
    received := if t.buffer.closed then t.received else t.received ++ [event] }

/-- `turn.terminal_appended = True` and the append behind it. -/
def appendTerminal (used : Int) (event : Event) (t : Turn) : Turn :=
  { t with terminalAppended := true }.append env used event

/-- `_observe`: the event to forward, if any. -/
def observe (event : Event) (t : Turn) : Turn × Option Event :=
  match event with
  | .done _ | .error _ => ({ t with terminalAppended := true }, some event)
  | .metadata data =>
    ({ t with
        traceId := data.traceId
        ids := some ⟨data.messageId, data.userMessageId, data.responseMode, data.model⟩ },
      some event)
  | .delta text => ({ t with emissions := t.emissions ++ [.delta text] }, some event)
  | .thinking text => ({ t with emissions := t.emissions ++ [.thinking text] }, some event)
  | .narration text => ({ t with emissions := t.emissions ++ [.narration text] }, some event)
  | .userMessage data => ({ t with emissions := t.emissions ++ [.user data] }, some event)
  | .step data => ({ t with emissions := t.emissions ++ [.step data] }, some event)
  | .viz spec =>
    let kept := keepViz env.vizSignature t.seenViz spec
    if kept.1 then
      ({ t with seenViz := kept.2, emissions := t.emissions ++ [.viz spec] }, some event)
    else (t, none)
  | .usage data => (t, some (.usage (env.enrichUsage data)))
  | .clarify _ | .clarifyResponse _ _ _ | .sources _ => (t, some event)

def forward (used : Int) (event : Event) (t : Turn) : Turn :=
  match t.observe env event with
  | (observed, some forwarded) => observed.append env used forwarded
  | (observed, none) => observed

/-- `_finalize`, as far as it concerns the turn. -/
def finalize (used : Int) (t : Turn) : Turn :=
  if t.finalized then t
  else { t with buffer := (t.buffer.close.dropAll env.onRefund used).1, finalized := true }

def leave (t : Turn) : Turn := { t with phase := .ended }

/-- The `finally` block of `_drive`. -/
def unwind (used : Int) (t : Turn) : Turn :=
  if t.cancelRequested then t.leave
  else if t.terminalAppended then t.leave.finalize env used
  else (t.leave.appendTerminal env used (t.evError userSafeError)).finalize env used

/-- `cancel` and `_terminate_for_shutdown` claim an active turn. -/
def claim (kind : StopKind) (t : Turn) : Option Turn :=
  if t.finalized = false ∧ t.cancelRequested = false ∧ t.phase ≠ .ended then
    some { t with
      cancelRequested := true
      cancels := t.cancels + 1
      stopper := .awaitingTask kind }
  else none

def stopperDone (t : Turn) : Turn := { t with stopper := .returned }

/-- The terminal a stop appends once its persistence attempt is over. -/
def stopEvent (kind : StopKind) (t : Turn) : Event :=
  match kind with
  | .cancel => .done .cancelled
  | .drain => t.evError userSafeError

def steerable (t : Turn) : Bool :=
  !t.finalized && !t.terminalAppended && !t.cancelRequested && t.hasRunHandle &&
    decide (t.phase ≠ .ended)

end Turn

inductive TurnAction where
  | begin
  | yields (event : Event)
  | finish
  /-- an `Exception` leaves the timeout block -/
  | raise
  /-- a `CancelledError` reaches the end of the timeout block -/
  | cancelled
  /-- the watchdog's deadline passes -/
  | expire
  /-- `_handle_timeout` is through with persisting -/
  | timeoutPersisted
  /-- a `CancelledError` leaves `_handle_timeout` -/
  | timeoutCancelled
  /-- `task.cancel()` from outside the registry -/
  | kill
  | stop (kind : StopKind)
  /-- the stopper's `await task` returns -/
  | taskAwaited
  | stopPersisted
  /-- the stopper itself is cancelled while it persists -/
  | stopperKilled
  | steer (text userMessageId : String)

/-- One synchronous stretch; `used` is the byte counter before it. -/
structure TurnLabel where
  used : Int
  action : TurnAction

def turnStep (env : TurnEnv) (t : Turn) (label : TurnLabel) : Option Turn :=
  let used := label.used
  match label.action with
  | .begin =>
    if t.phase = .notStarted then
      -- cancelled before its first step, a coroutine runs none of its code
      some (if 0 < t.cancels then t.leave else { t with phase := .body })
    else none
  | .yields event => if t.phase = .body then some (t.forward env used event) else none
  | .finish => if t.phase = .body then some (t.unwind env used) else none
  | .raise =>
    if t.phase = .body then
      some ((t.appendTerminal env used (t.evError userSafeError)).unwind env used)
    else none
  | .cancelled =>
    if t.phase = .body then
      -- `asyncio.timeout` turns it into a TimeoutError only if nobody else cancelled
      some (if t.expired ∧ t.cancels = 0 then { t with phase := .timingOut } else t.unwind env used)
    else none
  | .expire => if t.phase = .body then some { t with expired := true } else none
  | .timeoutPersisted =>
    if t.phase = .timingOut then
      some ((t.appendTerminal env used (t.evError userSafeTimeout)).unwind env used)
    else none
  | .timeoutCancelled =>
    if t.phase = .timingOut then some (t.unwind env used) else none
  | .kill => if t.phase = .ended then none else some { t with cancels := t.cancels + 1 }
  | .stop kind => t.claim kind
  | .taskAwaited =>
    match t.stopper with
    | .awaitingTask kind =>
      if t.phase = .ended then some { t with stopper := .persisting kind } else none
    | _ => none
  | .stopPersisted =>
    match t.stopper with
    | .persisting kind =>
      some ((t.stopperDone.appendTerminal env used (t.stopEvent kind)).finalize env used)
    | _ => none
  | .stopperKilled =>
    match t.stopper with
    | .persisting _ => some t.stopperDone
    | _ => none
  | .steer text userMessageId =>
    if t.steerable then some (t.forward env used (.userMessage ⟨text, userMessageId, false⟩))
    else none

/-- From `t` to `t'` the buffer took `event`, if any, and `terminal_appended` knows it. -/
structure Emits (t t' : Turn) (event : Option Event) : Prop where
  received : t'.received = t.received ++ event.toList
  terminal : t'.terminalAppended = (t.terminalAppended || event.any Event.isTerminal)

/-- The flags of a turn agree with where its task and its stopper are. -/
structure Turn.Ok (t : Turn) : Prop where
  closed : t.buffer.closed = t.finalized
  running : t.phase ≠ .ended → t.finalized = false
  idle : t.cancelRequested = false → t.stopper = .absent
  absent : t.stopper = .absent → t.cancelRequested = false
  awaiting : ∀ kind, t.stopper = .awaitingTask kind → t.finalized = false
  persisting : ∀ kind, t.stopper = .persisting kind → t.finalized = false ∧ t.phase = .ended
  returned : t.stopper = .returned → t.phase = .ended
  done : t.finalized = true → t.terminalAppended = true

theorem Turn.Ok.spawned (maxsize : Int) (hasRunHandle : Bool) :
    (Turn.spawned maxsize hasRunHandle).Ok := by
  constructor <;> simp [Turn.spawned]

variable {env : TurnEnv} {used : Int}

theorem Emits.none_of_same {t t' : Turn} (received : t'.received = t.received)
    (terminal : t'.terminalAppended = t.terminalAppended) : Emits t t' none :=
  ⟨by simp [received], by simp [terminal]⟩

theorem Emits.trans_none {t t' t'' : Turn} {event : Option Event} (first : Emits t t' event)
    (second : Emits t' t'' none) : Emits t t'' event := by
  constructor
  · rw [second.received, first.received]
    simp
  · rw [second.terminal, first.terminal]
    simp

@[simp] theorem Turn.append_buffer_closed (event : Event) (t : Turn) :
    (t.append env used event).buffer.closed = t.buffer.closed :=
  RingBuffer.append_stays_closed _ _ _

theorem Turn.appendTerminal_emits (env : TurnEnv) (used : Int) {t : Turn}
    (isOpen : t.buffer.closed = false) (event : Event)
    (terminal : event.isTerminal = true) :
    Emits t (t.appendTerminal env used event) (some event) := by
  constructor
  · simp [Turn.appendTerminal, Turn.append, isOpen]
  · simp [Turn.appendTerminal, Turn.append, terminal]

theorem Turn.observe_keeps (env : TurnEnv) (event : Event) (t : Turn) :
    (t.observe env event).1.buffer = t.buffer ∧
      (t.observe env event).1.received = t.received ∧
      (t.observe env event).1.phase = t.phase ∧
      (t.observe env event).1.stopper = t.stopper ∧
      (t.observe env event).1.cancelRequested = t.cancelRequested ∧
      (t.observe env event).1.finalized = t.finalized ∧
      (t.observe env event).1.terminalAppended =
        (t.terminalAppended || (t.observe env event).2.any Event.isTerminal) := by
  cases event with
  | viz spec =>
    simp only [Turn.observe]
    split <;> simp [Event.isTerminal]
  | _ => simp [Turn.observe, Event.isTerminal]

theorem Turn.forward_emits {t : Turn} (isOpen : t.buffer.closed = false) (event : Event) :
    Emits t (t.forward env used event) (t.observe env event).2 := by
  obtain ⟨buffer, received, _, _, _, _, terminal⟩ := t.observe_keeps env event
  unfold Turn.forward
  cases seen : t.observe env event with
  | mk observed forwarded =>
    simp only [seen] at buffer received terminal ⊢
    cases forwarded with
    | none => exact ⟨by simp [received], by simp [terminal]⟩
    | some event => exact ⟨by simp [Turn.append, buffer, isOpen, received], terminal⟩

theorem Turn.finalize_emits (t : Turn) : Emits t (t.finalize env used) none := by
  refine Emits.none_of_same ?_ ?_ <;> (unfold Turn.finalize; split <;> rfl)

theorem Turn.leave_emits (t : Turn) : Emits t t.leave none := Emits.none_of_same rfl rfl

theorem Turn.unwind_emits (env : TurnEnv) (used : Int) {t : Turn} (isOpen : t.buffer.closed = false) :
    Emits t (t.unwind env used)
      (if t.cancelRequested || t.terminalAppended then none
        else some (t.evError userSafeError)) := by
  unfold Turn.unwind
  by_cases requested : t.cancelRequested = true
  · rw [if_pos requested, if_pos (by simp [requested])]
    exact t.leave_emits
  · by_cases already : t.terminalAppended = true
    · rw [if_neg requested, if_pos already, if_pos (by simp [already])]
      exact t.leave_emits.trans_none (Turn.finalize_emits _)
    · rw [if_neg requested, if_neg already, if_neg (by simp [requested, already])]
      have appended := Turn.appendTerminal_emits env used (t := t.leave) isOpen
        (t.evError userSafeError) rfl
      exact Emits.trans_none ⟨appended.received, appended.terminal⟩ (Turn.finalize_emits _)

/-- A turn that differs from `t` only in what an append or an observation changes. -/
structure SameFlags (t t' : Turn) : Prop where
  closed : t'.buffer.closed = t.buffer.closed
  phase : t'.phase = t.phase
  stopper : t'.stopper = t.stopper
  cancelRequested : t'.cancelRequested = t.cancelRequested
  finalized : t'.finalized = t.finalized
  terminal : t.terminalAppended = true → t'.terminalAppended = true

theorem Turn.appendTerminal_flags (env : TurnEnv) (used : Int) (event : Event) (t : Turn) :
    SameFlags t (t.appendTerminal env used event) :=
  ⟨by simp [Turn.appendTerminal], rfl, rfl, rfl, rfl, fun _ => rfl⟩

theorem Turn.forward_flags (event : Event) (t : Turn) : SameFlags t (t.forward env used event) := by
  obtain ⟨buffer, _, phase, stopper, requested, finalized, terminal⟩ :=
    t.observe_keeps env event
  unfold Turn.forward
  cases seen : t.observe env event with
  | mk observed forwarded =>
    simp only [seen] at buffer phase stopper requested finalized terminal ⊢
    have kept : t.terminalAppended = true → observed.terminalAppended = true := by
      intro already
      simp [terminal, already]
    cases forwarded with
    | none => exact ⟨by rw [buffer], phase, stopper, requested, finalized, kept⟩
    | some event => exact ⟨by simp [buffer], phase, stopper, requested, finalized, kept⟩

theorem Turn.Ok.of_same {t t' : Turn} (ok : t.Ok) (same : SameFlags t t') : t'.Ok where
  closed := by rw [same.closed, same.finalized, ok.closed]
  running := by rw [same.phase, same.finalized]; exact ok.running
  idle := by rw [same.cancelRequested, same.stopper]; exact ok.idle
  absent := by rw [same.cancelRequested, same.stopper]; exact ok.absent
  awaiting := by rw [same.stopper, same.finalized]; exact ok.awaiting
  persisting := by rw [same.stopper, same.finalized, same.phase]; exact ok.persisting
  returned := by rw [same.stopper, same.phase]; exact ok.returned
  done := by rw [same.finalized]; exact fun final => same.terminal (ok.done final)

theorem Turn.Ok.leave {t : Turn} (ok : t.Ok) : t.leave.Ok :=
  { ok with
    running := fun other => absurd rfl other
    persisting := fun kind at' => ⟨(ok.persisting kind at').1, rfl⟩
    returned := fun _ => rfl }

theorem Turn.Ok.finalize {t : Turn} (ok : t.Ok) (ended : t.phase = .ended)
    (free : t.stopper = .absent ∨ t.stopper = .returned) (terminal : t.terminalAppended = true) :
    (t.finalize env used).Ok := by
  unfold Turn.finalize
  split
  · exact ok
  · constructor
    · rfl
    · intro other
      exact absurd ended other
    · exact ok.idle
    · exact ok.absent
    · intro kind at'
      rcases free with stopper | stopper <;> simp [stopper] at at'
    · intro kind at'
      rcases free with stopper | stopper <;> simp [stopper] at at'
    · intro _
      exact ended
    · intro _
      exact terminal

theorem Turn.Ok.unwind {t : Turn} (ok : t.Ok) : (t.unwind env used).Ok := by
  unfold Turn.unwind
  by_cases requested : t.cancelRequested = true
  · rw [if_pos requested]
    exact ok.leave
  · have absent : t.leave.stopper = .absent := ok.idle (by simpa using requested)
    rw [if_neg requested]
    split
    case isTrue already => exact ok.leave.finalize rfl (Or.inl absent) already
    case isFalse _ =>
      have same := Turn.appendTerminal_flags env used
        (t.evError userSafeError) t.leave
      refine (ok.leave.of_same same).finalize ?_ (Or.inl ?_) rfl
      · rw [same.phase]
        rfl
      · rw [same.stopper, absent]

theorem Turn.Ok.claim {t t' : Turn} {kind : StopKind} (ok : t.Ok)
    (claimed : t.claim kind = some t') : t'.Ok := by
  unfold Turn.claim at claimed
  split at claimed
  case isFalse _ => cases claimed
  case isTrue active =>
    cases claimed
    obtain ⟨unfinalized, _, running⟩ := active
    constructor
    · exact ok.closed
    · exact ok.running
    · intro unclaimed
      cases unclaimed
    · intro absent
      cases absent
    · intro _ _
      exact unfinalized
    · intro _ at'
      cases at'
    · intro at'
      cases at'
    · exact ok.done

theorem Turn.Ok.stopperDone {t : Turn} {kind : StopKind} (ok : t.Ok)
    (persisting : t.stopper = .persisting kind) : t.stopperDone.Ok := by
  have requested : t.cancelRequested ≠ false := by
    intro unclaimed
    simp [ok.idle unclaimed] at persisting
  exact
    { ok with
      idle := fun unclaimed => absurd unclaimed requested
      absent := fun at' => by cases at'
      awaiting := fun _ at' => by cases at'
      persisting := fun _ at' => by cases at'
      returned := fun _ => (ok.persisting kind persisting).2 }

theorem Turn.Ok.step {t t' : Turn} {label : TurnLabel} (ok : t.Ok)
    (taken : turnStep env t label = some t') : t'.Ok := by
  obtain ⟨used, action⟩ := label
  cases action with
  | begin =>
    obtain ⟨fresh, rfl⟩ := guarded taken
    split
    · exact ok.leave
    · have unfinalized := ok.running (by simp [fresh])
      exact
        { ok with
          running := fun _ => unfinalized
          persisting := fun kind at' => by simpa [fresh] using ok.persisting kind at'
          returned := fun at' => by simpa [fresh] using ok.returned at' }
  | yields event =>
    obtain ⟨_, rfl⟩ := guarded taken
    exact ok.of_same (Turn.forward_flags event t)
  | finish =>
    obtain ⟨_, rfl⟩ := guarded taken
    exact ok.unwind
  | raise =>
    obtain ⟨_, rfl⟩ := guarded taken
    exact (ok.of_same (Turn.appendTerminal_flags env used _ t)).unwind
  | cancelled =>
    obtain ⟨inBody, rfl⟩ := guarded taken
    split
    · have unfinalized := ok.running (by simp [inBody])
      exact
        { ok with
          running := fun _ => unfinalized
          persisting := fun kind at' => by simpa [inBody] using ok.persisting kind at'
          returned := fun at' => by simpa [inBody] using ok.returned at' }
    · exact ok.unwind
  | expire =>
    obtain ⟨_, rfl⟩ := guarded taken
    exact ok.of_same ⟨rfl, rfl, rfl, rfl, rfl, id⟩
  | timeoutPersisted =>
    obtain ⟨_, rfl⟩ := guarded taken
    exact (ok.of_same (Turn.appendTerminal_flags env used _ t)).unwind
  | timeoutCancelled =>
    obtain ⟨_, rfl⟩ := guarded taken
    exact ok.unwind
  | kill =>
    simp only [turnStep, Option.ite_none_left_eq_some, Option.some.injEq] at taken
    obtain ⟨_, rfl⟩ := taken
    exact ok.of_same ⟨rfl, rfl, rfl, rfl, rfl, id⟩
  | stop kind => exact ok.claim taken
  | taskAwaited =>
    simp only [turnStep] at taken
    split at taken
    case h_1 kind awaiting =>
      split at taken
      case isFalse _ => cases taken
      case isTrue ended =>
        cases taken
        have requested : t.cancelRequested ≠ false := fun unclaimed => by
          simp [ok.idle unclaimed] at awaiting
        exact
          { ok with
            idle := fun unclaimed => absurd unclaimed requested
            absent := fun at' => by cases at'
            awaiting := fun _ at' => by cases at'
            persisting := fun _ _ => ⟨ok.awaiting kind awaiting, ended⟩
            returned := fun at' => by cases at' }
    · cases taken
  | stopPersisted =>
    simp only [turnStep] at taken
    split at taken
    case h_1 kind persisting =>
      cases taken
      have same := Turn.appendTerminal_flags env used (t.stopEvent kind)
        t.stopperDone
      refine ((ok.stopperDone persisting).of_same same).finalize ?_ (Or.inr ?_) rfl
      · rw [same.phase]
        exact (ok.persisting kind persisting).2
      · rw [same.stopper]
        rfl
    · cases taken
  | stopperKilled =>
    simp only [turnStep] at taken
    split at taken
    case h_1 kind persisting =>
      cases taken
      exact ok.stopperDone persisting
    · cases taken
  | steer text userMessageId =>
    obtain ⟨_, rfl⟩ := guarded taken
    exact ok.of_same (Turn.forward_flags _ t)

/-- The condition on one stretch: once a terminal was appended, the generator
forwards nothing more, and neither an exception, nor the watchdog, nor a stop
gets to the append it makes whatever `terminal_appended` says. -/
def Turn.Quiet (env : TurnEnv) (t : Turn) (label : TurnLabel) : Prop :=
  t.terminalAppended = true →
    match label.action with
    | .yields event => (t.observe env event).2 = none
    | .raise | .timeoutPersisted | .stopPersisted => False
    | _ => True

theorem Turn.unwind_emits_after {t t' : Turn} {event : Event}
    (first : Emits t t' (some event)) (terminal : event.isTerminal = true)
    (isOpen : t'.buffer.closed = false) : Emits t (t'.unwind env used) (some event) := by
  have second := Turn.unwind_emits env used isOpen
  have already : t'.terminalAppended = true := by simp [first.terminal, terminal]
  rw [if_pos (by simp [already])] at second
  exact first.trans_none second

theorem Turn.stopEvent_terminal (kind : StopKind) (t : Turn) :
    (t.stopEvent kind).isTerminal = true := by
  cases kind <;> rfl

/-- What a stretch appends: behind a terminal something exactly when it breaks the
condition, and a user message only for the generator or a steer. -/
structure Turn.Sends (env : TurnEnv) (t : Turn) (label : TurnLabel) (event : Option Event) : Prop where
  quiet : t.terminalAppended = true → (event = none ↔ t.Quiet env label)
  user : ∀ data, event = some (.userMessage data) → label.action = .yields (.userMessage data) ∨
    label.action = .steer data.text data.userMessageId ∧ data.injected = false

theorem Turn.Sends.silent {env : TurnEnv} {t : Turn} {label : TurnLabel} (quiet : t.Quiet env label) :
    t.Sends env label none where
  quiet := fun _ => by simp [quiet]
  user := by simp

theorem Turn.Sends.terminal {env : TurnEnv} {t : Turn} {label : TurnLabel} {event : Event}
    (terminal : event.isTerminal = true) (loud : t.terminalAppended = true → ¬ t.Quiet env label) :
    t.Sends env label (some event) where
  quiet := fun already => by simp [loud already]
  user := by
    intro data same
    cases same
    cases terminal

/-- The net under a task that ends: an error unless a terminal is there or a stop owns it. -/
theorem Turn.Sends.unwind {env : TurnEnv} {t : Turn} {label : TurnLabel} (quiet : t.Quiet env label) :
    t.Sends env label (if t.cancelRequested || t.terminalAppended then none
      else some (t.evError userSafeError)) := by
  split
  case isTrue => exact Turn.Sends.silent quiet
  case isFalse going =>
    refine Turn.Sends.terminal rfl ?_
    intro already
    simp [already] at going

theorem Turn.observe_user {env : TurnEnv} {t : Turn} {event : Event} {data : UserMessage}
    (seen : (t.observe env event).2 = some (.userMessage data)) : event = .userMessage data := by
  cases event with
  | viz spec =>
    simp only [Turn.observe] at seen
    split at seen <;> simp at seen
  | userMessage message => simpa [Turn.observe] using seen
  | _ => simp [Turn.observe] at seen

theorem step_sends {t t' : Turn} {label : TurnLabel} (ok : t.Ok)
    (taken : turnStep env t label = some t') :
    ∃ event, Emits t t' event ∧ t.Sends env label event := by
  obtain ⟨used, action⟩ := label
  have openAt : t.finalized = false → t.buffer.closed = false := fun h => by rw [ok.closed, h]
  cases action with
  | begin =>
    obtain ⟨fresh, rfl⟩ := guarded taken
    refine ⟨none, ?_, .silent (by simp [Turn.Quiet])⟩
    split <;> exact Emits.none_of_same rfl rfl
  | yields event =>
    obtain ⟨inBody, rfl⟩ := guarded taken
    have isOpen := openAt (ok.running (by simp [inBody]))
    refine ⟨_, Turn.forward_emits isOpen event, ?_, ?_⟩
    · intro already
      simp [Turn.Quiet, already]
    · intro data seen
      exact Or.inl (congrArg TurnAction.yields (Turn.observe_user seen))
  | finish =>
    obtain ⟨inBody, rfl⟩ := guarded taken
    have isOpen := openAt (ok.running (by simp [inBody]))
    exact ⟨_, Turn.unwind_emits env used isOpen, .unwind (by simp [Turn.Quiet])⟩
  | raise =>
    obtain ⟨inBody, rfl⟩ := guarded taken
    have isOpen := openAt (ok.running (by simp [inBody]))
    have first := Turn.appendTerminal_emits env used isOpen
      (t.evError userSafeError) rfl
    refine ⟨_, Turn.unwind_emits_after first rfl ?_, ?_⟩
    · rw [(Turn.appendTerminal_flags env used _ t).closed, isOpen]
    · exact .terminal rfl (fun already => by simp [Turn.Quiet, already])
  | cancelled =>
    obtain ⟨inBody, rfl⟩ := guarded taken
    have isOpen := openAt (ok.running (by simp [inBody]))
    split
    · exact ⟨none, Emits.none_of_same rfl rfl, .silent (by simp [Turn.Quiet])⟩
    · exact ⟨_, Turn.unwind_emits env used isOpen, .unwind (by simp [Turn.Quiet])⟩
  | expire =>
    obtain ⟨_, rfl⟩ := guarded taken
    exact ⟨none, Emits.none_of_same rfl rfl, .silent (by simp [Turn.Quiet])⟩
  | timeoutPersisted =>
    obtain ⟨timing, rfl⟩ := guarded taken
    have isOpen := openAt (ok.running (by simp [timing]))
    have first := Turn.appendTerminal_emits env used isOpen
      (t.evError userSafeTimeout) rfl
    refine ⟨_, Turn.unwind_emits_after first rfl ?_, ?_⟩
    · rw [(Turn.appendTerminal_flags env used _ t).closed, isOpen]
    · exact .terminal rfl (fun already => by simp [Turn.Quiet, already])
  | timeoutCancelled =>
    obtain ⟨timing, rfl⟩ := guarded taken
    have isOpen := openAt (ok.running (by simp [timing]))
    exact ⟨_, Turn.unwind_emits env used isOpen, .unwind (by simp [Turn.Quiet])⟩
  | kill =>
    simp only [turnStep, Option.ite_none_left_eq_some, Option.some.injEq] at taken
    obtain ⟨_, rfl⟩ := taken
    exact ⟨none, Emits.none_of_same rfl rfl, .silent (by simp [Turn.Quiet])⟩
  | stop kind =>
    have claimed : t.claim kind = some t' := taken
    unfold Turn.claim at claimed
    split at claimed
    · cases claimed
      exact ⟨none, Emits.none_of_same rfl rfl, .silent (by simp [Turn.Quiet])⟩
    · cases claimed
  | taskAwaited =>
    simp only [turnStep] at taken
    split at taken
    · split at taken
      · cases taken
        exact ⟨none, Emits.none_of_same rfl rfl, .silent (by simp [Turn.Quiet])⟩
      · cases taken
    · cases taken
  | stopPersisted =>
    simp only [turnStep] at taken
    split at taken
    case h_1 kind persisting =>
      cases taken
      have isOpen := openAt (ok.persisting kind persisting).1
      have first := Turn.appendTerminal_emits env used (t := t.stopperDone)
        isOpen (t.stopEvent kind) (t.stopEvent_terminal kind)
      refine ⟨some (t.stopEvent kind), ?_, ?_⟩
      · exact Emits.trans_none ⟨first.received, first.terminal⟩ (Turn.finalize_emits _)
      · exact .terminal (t.stopEvent_terminal kind) (fun already => by simp [Turn.Quiet, already])
    · cases taken
  | stopperKilled =>
    simp only [turnStep] at taken
    split at taken
    · cases taken
      exact ⟨none, Emits.none_of_same rfl rfl, .silent (by simp [Turn.Quiet])⟩
    · cases taken
  | steer text userMessageId =>
    obtain ⟨allowed, rfl⟩ := guarded taken
    simp only [Turn.steerable, Bool.and_eq_true, Bool.not_eq_true'] at allowed
    refine ⟨_, Turn.forward_emits (openAt allowed.1.1.1.1) _, ?_, ?_⟩
    · intro already
      simp [allowed.1.1.1.2] at already
    · intro data seen
      cases Turn.observe_user seen
      exact Or.inr ⟨rfl, rfl⟩

theorem step_emits {t t' : Turn} {label : TurnLabel} (ok : t.Ok)
    (taken : turnStep env t label = some t') :
    ∃ event, Emits t t' event ∧ (t.terminalAppended = true → (event = none ↔ t.Quiet env label)) := by
  obtain ⟨event, emits, sends⟩ := step_sends ok taken
  exact ⟨event, emits, sends.quiet⟩

def EndsOnce (received : List Event) : Prop :=
  ∃ before last, received = before ++ [last] ∧ last.isTerminal = true ∧
    ∀ e ∈ before, e.isTerminal = false

def RunsOn (received : List Event) : Prop :=
  ∃ before terminal after, received = before ++ terminal :: after ∧ terminal.isTerminal = true ∧
    after ≠ []

theorem RunsOn.not_endsOnce {received : List Event} (on : RunsOn received) :
    ¬ EndsOnce received := by
  rintro ⟨before, last, split, _, silent⟩
  obtain ⟨before', terminal, after, split', isTerminal, more⟩ := on
  have inside : terminal ∈ received.dropLast := by
    rw [split', List.dropLast_append_of_ne_nil (by simp), List.dropLast_cons_of_ne_nil more]
    simp
  rw [split, List.dropLast_concat] at inside
  simp [silent terminal inside] at isTerminal

theorem RunsOn.append {received : List Event} (on : RunsOn received) (more : List Event) :
    RunsOn (received ++ more) := by
  obtain ⟨before, terminal, after, rfl, isTerminal, nonempty⟩ := on
  exact ⟨before, terminal, after ++ more, by simp, isTerminal, by simp [nonempty]⟩

/-- `terminal_appended` says whether the stream has its terminal yet. -/
structure Turn.Clean (t : Turn) : Prop where
  ended : t.terminalAppended = true → EndsOnce t.received
  going : t.terminalAppended = false → ∀ e ∈ t.received, e.isTerminal = false

/-- `terminal_appended` is never set without a terminal in the buffer. -/
def Turn.Tracked (t : Turn) : Prop :=
  t.terminalAppended = true → ∃ e ∈ t.received, e.isTerminal = true

theorem Turn.Clean.step {t t' : Turn} {event : Option Event} (clean : t.Clean)
    (emits : Emits t t' event) (quiet : t.terminalAppended = true → event = none) : t'.Clean := by
  cases before : t.terminalAppended with
  | true =>
    cases quiet before
    have received : t'.received = t.received := by simp [emits.received]
    have flag : t'.terminalAppended = true := by simp [emits.terminal, before]
    constructor
    · intro _
      rw [received]
      exact clean.ended before
    · intro bad
      simp [flag] at bad
  | false =>
    have silent := clean.going before
    have flag : t'.terminalAppended = event.any Event.isTerminal := by simp [emits.terminal, before]
    constructor
    · intro finished
      rw [flag] at finished
      cases event with
      | none => simp at finished
      | some last => exact ⟨t.received, last, by simp [emits.received], by simpa using finished, silent⟩
    · intro going e present
      rw [emits.received] at present
      rcases List.mem_append.mp present with old | new
      · exact silent e old
      · cases event with
        | none => simp at new
        | some last =>
          rw [flag] at going
          simp only [Option.toList_some, List.mem_singleton] at new
          rw [new]
          simpa using going

theorem Turn.Tracked.step {t t' : Turn} {event : Option Event} (tracked : t.Tracked)
    (emits : Emits t t' event) : t'.Tracked := by
  intro flag
  rw [emits.terminal, Bool.or_eq_true] at flag
  rw [emits.received]
  rcases flag with before | now
  · obtain ⟨e, present, terminal⟩ := tracked before
    exact ⟨e, List.mem_append_left _ present, terminal⟩
  · cases event with
    | none => simp at now
    | some last => exact ⟨last, by simp, by simpa using now⟩

theorem Turn.Tracked.runsOn {t t' : Turn} {event : Event} (tracked : t.Tracked)
    (already : t.terminalAppended = true) (emits : Emits t t' (some event)) :
    RunsOn t'.received := by
  obtain ⟨terminal, present, isTerminal⟩ := tracked already
  obtain ⟨before, after, split⟩ := List.append_of_mem present
  refine ⟨before, terminal, after ++ [event], ?_, isTerminal, by simp⟩
  rw [emits.received, split]
  simp

theorem run_clean {t t' : Turn} {labels : List TurnLabel} (ok : t.Ok) (clean : t.Clean)
    (path : run (turnStep env) t labels = some t')
    (quiet : Meets (turnStep env) (Turn.Quiet env) t labels) : t'.Clean := by
  have both := invariant_of_meets (P := fun t : Turn => t.Ok ∧ t.Clean)
    (fun {s a u} before quietHere taken => by
      obtain ⟨event, emits, exactly⟩ := step_emits before.1 taken
      refine ⟨before.1.step taken, before.2.step emits ?_⟩
      intro already
      exact (exactly already).mpr quietHere)
    ⟨ok, clean⟩ path quiet
  exact both.2

theorem run_runsOn {t t' : Turn} {labels : List TurnLabel} (ok : t.Ok) (on : RunsOn t.received)
    (path : run (turnStep env) t labels = some t') : RunsOn t'.received := by
  have both := invariant (P := fun t : Turn => t.Ok ∧ RunsOn t.received)
    (fun {s a u} before taken => by
      obtain ⟨event, emits, _⟩ := step_emits before.1 taken
      refine ⟨before.1.step taken, ?_⟩
      rw [emits.received]
      exact before.2.append _)
    ⟨ok, on⟩ path
  exact both.2

theorem run_broken {t t' : Turn} {labels : List TurnLabel} (ok : t.Ok) (tracked : t.Tracked)
    (path : run (turnStep env) t labels = some t')
    (loud : ¬ Meets (turnStep env) (Turn.Quiet env) t labels) : RunsOn t'.received := by
  induction labels generalizing t with
  | nil => exact absurd trivial loud
  | cons label rest ih =>
    obtain ⟨middle, taken, path⟩ := run_cons path
    obtain ⟨event, emits, exactly⟩ := step_emits ok taken
    by_cases quiet : t.Quiet env label
    · have later : ¬ Meets (turnStep env) (Turn.Quiet env) middle rest := by
        intro meets
        refine loud ⟨quiet, ?_⟩
        intro u taken'
        rw [taken] at taken'
        cases taken'
        exact meets
      exact ih (ok.step taken) (tracked.step emits) path later
    · have already : t.terminalAppended = true := by
        by_contra fresh
        exact quiet (fun bad => absurd bad fresh)
      cases event with
      | none => exact absurd ((exactly already).mp rfl) quiet
      | some event => exact run_runsOn (ok.step taken) (tracked.runsOn already emits) path

/-- A finalized turn's stream has exactly one terminal, as its last event, if and
only if no stretch of its run went on appending behind a terminal. -/
theorem one_terminal_iff (env : TurnEnv) (maxsize : Int) (hasRunHandle : Bool)
    (labels : List TurnLabel) (t : Turn)
    (path : run (turnStep env) (Turn.spawned maxsize hasRunHandle) labels = some t)
    (finalized : t.finalized = true) :
    EndsOnce t.received ↔
      Meets (turnStep env) (Turn.Quiet env) (Turn.spawned maxsize hasRunHandle) labels := by
  have ok := Turn.Ok.spawned maxsize hasRunHandle
  have clean : (Turn.spawned maxsize hasRunHandle).Clean := by
    constructor <;> simp [Turn.spawned]
  have tracked : (Turn.spawned maxsize hasRunHandle).Tracked := by
    intro bad
    cases bad
  constructor
  · intro once
    by_contra loud
    exact (run_broken ok tracked path loud).not_endsOnce once
  · intro quiet
    have final : t.Ok := invariant (fun before taken => before.step taken) ok path
    exact (run_clean ok clean path quiet).ended (final.done finalized)

def roomyEnv : TurnEnv where
  onCharge := chargeBytes 100000
  onRefund := refundBytes
  nbytes := eventNbytes fun _ => none
  vizSignature := id
  enrichUsage := id

def turnLabels : List TurnAction → List TurnLabel := List.map fun action => ⟨0, action⟩

def answered : List TurnLabel :=
  turnLabels [.begin, .yields (.delta "x"), .yields (.done .complete), .finish]

theorem one_terminal_iff_answered : ∃ t,
    run (turnStep roomyEnv) (Turn.spawned 8 true) answered = some t ∧
      (EndsOnce t.received ↔
        Meets (turnStep roomyEnv) (Turn.Quiet roomyEnv) (Turn.spawned 8 true) answered) :=
  ⟨_, rfl, one_terminal_iff roomyEnv 8 true answered _ rfl rfl⟩

/-- The generator has yielded `done(awaiting_input)` and awaits the write of its
parked record when the student's cancel arrives. -/
def cancelledWhileParking : List TurnLabel :=
  turnLabels [.begin, .yields (.clarify "q"), .yields (.done .awaitingInput), .stop .cancel,
    .cancelled, .taskAwaited, .stopPersisted]

theorem cancel_while_parking_ends_twice : ∃ t,
    run (turnStep roomyEnv) (Turn.spawned 8 true) cancelledWhileParking = some t ∧
      t.finalized = true ∧
      t.received = [.clarify "q", .done .awaitingInput, .done .cancelled] ∧
      ¬ EndsOnce t.received := by
  refine ⟨_, rfl, rfl, rfl, RunsOn.not_endsOnce ?_⟩
  exact ⟨[.clarify "q"], .done .awaitingInput, [.done .cancelled], rfl, rfl, by simp⟩

end Counselle.Turns

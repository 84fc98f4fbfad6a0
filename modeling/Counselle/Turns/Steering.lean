import Counselle.Chat.Fold
import Counselle.Turns.Lifecycle

/-! Steered messages on their way: the queue of `run_handle.py`, the agent node that
drains it into the model run, the chunk loops of `run_turn.py` that report it, and
the client that re-sends what was not reported, around the registry's turn. -/
namespace Counselle.Turns
open Protocol Records Transition Chat

structure SteeringMessage where
  userMessageId : String
  text : String
deriving DecidableEq, Repr

/-- `_steering_payload` -/
def SteeringMessage.payload (message : SteeringMessage) (injected : Bool) : UserMessage :=
  ⟨message.text, message.userMessageId, injected⟩

def messageOf (data : UserMessage) : SteeringMessage := ⟨data.userMessageId, data.text⟩

inductive TurnDriver where
  | ordinary
  | legacyResume
  | continuation
deriving DecidableEq

structure SteeredTurn where
  driver : TurnDriver
  turn : Turn
  steeringQueue : List SteeringMessage
  queuedAtTerminal : List SteeringMessage
  /-- the agent node has started and not ended -/
  nodeRuns : Bool
  /-- custom chunks the node wrote and the chunk loop has not read -/
  chunks : List Event
  /-- signatures kept by the `final_emissions` of the chunk loop -/
  seenViz : List String
  /-- history: steers answered with 202 -/
  accepted : List SteeringMessage
  /-- history: messages passed to `run.enqueue` -/
  enqueued : List SteeringMessage

/-- The kinds of chunk a run writes besides the steers it reports. -/
def isContentChunk : Event → Bool
  | .delta _ | .step _ | .thinking _ | .narration _ | .viz _ => true
  | _ => false

def isUserMessage : Event → Bool
  | .userMessage _ => true
  | _ => false

/-- One pass of the chunk loop of `run_turn` or `run_continuation_turn`: the viz
signatures seen after it, and what it yields. -/
def dispatch (signature : Payload → String) (driver : TurnDriver) (seenViz : List String) :
    Event → List String × Option Event
  | .userMessage data =>
    match driver with
    -- no branch of its loop reads this kind
    | .continuation => (seenViz, none)
    | .ordinary | .legacyResume =>
      (seenViz, if data.text ≠ "" ∧ data.userMessageId ≠ "" then some (.userMessage data) else none)
  | .viz spec =>
    match driver with
    | .continuation => (seenViz, some (.viz spec))
    | .ordinary | .legacyResume =>
      let kept := keepViz signature seenViz spec
      (kept.2, if kept.1 then some (.viz spec) else none)
  | chunk => (seenViz, some chunk)

inductive SteerAction where
  /-- a stretch of the registry or of the generator outside its chunk loop -/
  | registry (action : TurnAction)
  | steer (text userMessageId : String)
  | nodeStarts
  | writes (chunk : Event)
  /-- `_emit_injected_steers` -/
  | inject
  /-- the same, with `run.enqueue` raising behind its first `taken` messages -/
  | injectRaises (taken : Nat)
  /-- `_record_uninjected_steers` and the node's return -/
  | nodeEnds
  | nodeRaises
  | reads
  | failureDrains

structure SteerLabel where
  used : Int
  action : SteerAction

def sendsUser : TurnAction → Bool
  | .steer _ _ => true
  | .yields event => isUserMessage event
  | _ => false

/-- The chunk loop is over: the generator yields its terminal, ends or is unwound. -/
def leavesLoop : TurnAction → Bool
  | .yields event => event.isTerminal
  | .finish | .raise | .cancelled => true
  | _ => false

namespace SteeredTurn

def spawned (driver : TurnDriver) (maxsize : Int) (hasRunHandle : Bool) : SteeredTurn where
  driver := driver
  turn := .spawned maxsize hasRunHandle
  steeringQueue := []
  queuedAtTerminal := []
  nodeRuns := false
  chunks := []
  seenViz := []
  accepted := []
  enqueued := []

/-- The generator yields no user message outside its chunk loop, and the graph's
stream is over only once its node is. -/
def mayTake (s : SteeredTurn) (action : TurnAction) : Bool :=
  !sendsUser action && !(leavesLoop action && s.nodeRuns)

/-- `run.enqueue` and the chunk written for each of the messages. -/
def enqueue (s : SteeredTurn) (messages : List SteeringMessage) : SteeredTurn :=
  { s with
    steeringQueue := []
    enqueued := s.enqueued ++ messages
    chunks := s.chunks ++ messages.map fun message => .userMessage (message.payload true) }

/-- `drain_steers` into `queued_at_terminal`. -/
def shelve (s : SteeredTurn) : SteeredTurn :=
  { s with steeringQueue := [], queuedAtTerminal := s.queuedAtTerminal ++ s.steeringQueue }

def step (env : TurnEnv) (s : SteeredTurn) (label : SteerLabel) : Option SteeredTurn :=
  let used := label.used
  match label.action with
  | .registry action =>
    if s.mayTake action then do
      let turn ← turnStep env s.turn ⟨used, action⟩
      some { s with turn }
    else none
  | .steer text userMessageId =>
    -- the route refuses an empty text; `uuid4` gives a new id
    if text ≠ "" ∧ userMessageId ≠ "" ∧ userMessageId ∉ s.accepted.map (·.userMessageId) then do
      let turn ← turnStep env s.turn ⟨used, .steer text userMessageId⟩
      some { s with
        turn
        steeringQueue := s.steeringQueue ++ [⟨userMessageId, text⟩]
        accepted := s.accepted ++ [⟨userMessageId, text⟩] }
    else none
  | .nodeStarts =>
    if s.turn.phase = .body ∧ s.turn.terminalAppended = false then some { s with nodeRuns := true }
    else none
  | .writes chunk =>
    if s.nodeRuns ∧ isContentChunk chunk then some { s with chunks := s.chunks ++ [chunk] } else none
  | .inject => if s.nodeRuns then some (s.enqueue s.steeringQueue) else none
  | .injectRaises taken =>
    if s.nodeRuns then some { s.enqueue (s.steeringQueue.take taken) with nodeRuns := false }
    else none
  | .nodeEnds => if s.nodeRuns then some { s.shelve with nodeRuns := false } else none
  | .nodeRaises => if s.nodeRuns then some { s with nodeRuns := false } else none
  | .reads =>
    if s.turn.phase = .body ∧ s.turn.terminalAppended = false then
      match s.chunks with
      | [] => none
      | chunk :: rest =>
        let (seenViz, yielded) := dispatch env.vizSignature s.driver s.seenViz chunk
        some { s with
          chunks := rest
          seenViz
          turn := yielded.elim s.turn fun event => s.turn.forward env used event }
    else none
  | .failureDrains =>
    if s.turn.phase = .body ∧ s.nodeRuns = false ∧ s.driver ≠ .continuation then some s.shelve
    else none

end SteeredTurn

/-- The events of a stream in front of its first terminal. -/
def beforeTerminal (received : List Event) : List Event :=
  received.takeWhile fun event => !event.isTerminal

end Counselle.Turns

namespace Counselle.Chat
open Protocol Turns

/-- `pendingUserSegmentsOf`: the steers the client sends again. -/
def pendingUserSegmentsOf (state : TurnState) : List SteeringMessage :=
  state.segments.filterMap fun
    | .user id text injected => if injected then none else some ⟨id, text⟩
    | _ => none

theorem eq_nil_of_mergedMessages {messages : List UserMessage}
    (unmerged : mergedMessages messages = none) : messages = [] := by
  cases messages with
  | nil => rfl
  | cons first rest => cases unmerged

theorem mergedMessages_data {messages : List UserMessage} {merged : UserMessage}
    (same : mergedMessages messages = some merged) :
    merged.injected = messages.any UserMessage.injected ∧
      ∃ last ∈ messages, merged.text = last.text ∧ merged.userMessageId = last.userMessageId := by
  induction messages using List.reverseRecOn generalizing merged with
  | nil => cases same
  | append_singleton messages message ih =>
    cases before : mergedMessages messages with
    | none =>
      have fresh := eq_nil_of_mergedMessages before
      subst fresh
      cases same
      exact ⟨by simp, message, by simp, rfl, rfl⟩
    | some earlier =>
      rw [mergedMessages_snoc before] at same
      cases same
      refine ⟨?_, message, by simp, rfl, rfl⟩
      simp [mergeMessage, (ih before).1]

theorem mem_pendingUserSegmentsOf (signature : Payload → String) (events : List Event)
    (message : SteeringMessage) :
    message ∈ pendingUserSegmentsOf (reduceEvents signature events) ↔
      mergedMessages (messagesOf events message.userMessageId) = some (message.payload false) := by
  have folded := folded_reduceEvents signature events
  constructor
  · intro pending
    obtain ⟨segment, present, kept⟩ := List.mem_filterMap.mp pending
    cases segment with
    | user id text injected =>
      cases injected with
      | true => cases kept
      | false =>
        cases kept
        exact folded.users id text false present
    | _ => cases kept
  · intro merged
    obtain ⟨_, last, present, _, sameId⟩ := mergedMessages_data merged
    have shown : .user message.userMessageId ∈ events.map beatOf := by
      obtain ⟨event, sent, picked⟩ := List.mem_filterMap.mp present
      cases event with
      | userMessage data =>
        simp only [Option.ite_none_right_eq_some] at picked
        exact List.mem_map.mpr ⟨_, sent, by rw [beatOf, picked.1]⟩
      | _ => cases picked
    obtain ⟨segment, here, isUser⟩ := List.any_eq_true.mp ((folded.user_once _).2.mpr shown)
    cases segment with
    | user id text injected =>
      have same : id = message.userMessageId := by simpa [Segment.isUser] using isUser
      have frames := folded.users id text injected here
      rw [same, merged] at frames
      cases frames
      cases same
      exact List.mem_filterMap.mpr ⟨_, here, rfl⟩
    | _ => cases isUser

theorem pendingUserSegmentsOf_nodup (signature : Payload → String) (events : List Event) :
    (pendingUserSegmentsOf (reduceEvents signature events)).Nodup := by
  rw [List.nodup_iff_count_le_one]
  intro message
  rw [pendingUserSegmentsOf, List.count_filterMap]
  refine le_trans (List.countP_mono_left ?_)
    ((folded_reduceEvents signature events).user_once message.userMessageId).1
  intro segment _ same
  cases segment with
  | user id text injected =>
    cases injected <;> simp_all [Segment.isUser]
    rw [← same]
  | _ => simp at same

end Counselle.Chat

namespace Counselle.Turns
open Protocol Records Transition Chat

/-- A steer was enqueued into the model run exactly if the stream reported it before
its terminal, at most once, and the client re-sends exactly the others. -/
structure SteeredTurn.DeliversOnce (signature : Payload → String) (s : SteeredTurn) : Prop where
  reported : ∀ message ∈ s.accepted, message ∈ s.enqueued ↔
    .userMessage (message.payload true) ∈ beforeTerminal s.turn.received
  enqueuedOnce : s.enqueued.Nodup
  forwarded : ∀ message, message ∈ pendingUserSegmentsOf (reduceEvents signature s.turn.received) ↔
    message ∈ s.accepted ∧ message ∉ s.enqueued
  forwardedOnce : (pendingUserSegmentsOf (reduceEvents signature s.turn.received)).Nodup

/-- A continuation's node finds no steer to inject, and the chunk loop is left, for
whatever reason, with no report of an injected steer unread. -/
def SteeredTurn.reports (s : SteeredTurn) (label : SteerLabel) : Bool :=
  match label.action with
  | .inject | .injectRaises _ => decide (s.driver ≠ .continuation) || s.steeringQueue.isEmpty
  | .registry action => !(leavesLoop action && s.chunks.any isUserMessage)
  | _ => true

/-- The user messages of a stream are the acks of the accepted steers and the
reports of the enqueued ones; a report not in the stream yet is an unread chunk. -/
structure SteersAccounted (received chunks : List Event) (accepted enqueued : List SteeringMessage) :
    Prop where
  ack : ∀ message ∈ accepted, .userMessage (message.payload false) ∈ received
  acked : ∀ data, .userMessage data ∈ received → data.injected = false → messageOf data ∈ accepted
  report : ∀ message ∈ enqueued,
    .userMessage (message.payload true) ∈ received ∨ .userMessage (message.payload true) ∈ chunks
  reported : ∀ data, .userMessage data ∈ received → data.injected = true →
    messageOf data ∈ enqueued
  unread : ∀ data, .userMessage data ∈ chunks → data.injected = true ∧ messageOf data ∈ enqueued

theorem SteersAccounted.empty : SteersAccounted [] [] [] [] where
  ack := by simp
  acked := by simp
  report := by simp
  reported := by simp
  unread := by simp

variable {received chunks : List Event} {accepted enqueued : List SteeringMessage}

theorem SteersAccounted.send (accounted : SteersAccounted received chunks accepted enqueued)
    {event : Option Event} (other : ∀ data, event ≠ some (.userMessage data)) :
    SteersAccounted (received ++ event.toList) chunks accepted enqueued := by
  have same : ∀ data, .userMessage data ∈ received ++ event.toList ↔ .userMessage data ∈ received := by
    intro data
    cases event with
    | none => simp
    | some e =>
      have apart : Event.userMessage data ≠ e := fun same => other data (by rw [same])
      simp [apart]
  constructor
  · exact fun message present => (same _).mpr (accounted.ack message present)
  · exact fun data present => accounted.acked data ((same data).mp present)
  · intro message present
    rw [same]
    exact accounted.report message present
  · exact fun data present => accounted.reported data ((same data).mp present)
  · exact accounted.unread

theorem SteersAccounted.write (accounted : SteersAccounted received chunks accepted enqueued) {chunk : Event}
    (content : isContentChunk chunk = true) :
    SteersAccounted received (chunks ++ [chunk]) accepted enqueued := by
  have apart : ∀ data, Event.userMessage data ≠ chunk := by
    rintro data rfl
    cases content
  refine ⟨accounted.ack, accounted.acked, ?_, accounted.reported, ?_⟩
  · intro message present
    exact (accounted.report message present).imp_right fun unread => List.mem_append_left _ unread
  · intro data present
    refine accounted.unread data ?_
    simpa [apart data] using present

theorem SteersAccounted.accept (accounted : SteersAccounted received chunks accepted enqueued)
    (message : SteeringMessage) :
    SteersAccounted (received ++ [.userMessage (message.payload false)]) chunks (accepted ++ [message])
      enqueued := by
  constructor
  · intro other present
    rcases List.mem_append.mp present with old | new
    · exact List.mem_append_left _ (accounted.ack other old)
    · cases List.mem_singleton.mp new
      simp
  · intro data present uninjected
    rcases List.mem_append.mp present with old | new
    · exact List.mem_append_left _ (accounted.acked data old uninjected)
    · cases List.mem_singleton.mp new
      exact List.mem_append_right _ (List.mem_singleton_self _)
  · intro other present
    exact (accounted.report other present).imp_left fun seen => List.mem_append_left _ seen
  · intro data present injected
    rcases List.mem_append.mp present with old | new
    · exact accounted.reported data old injected
    · cases List.mem_singleton.mp new
      cases injected
  · exact accounted.unread

theorem SteersAccounted.enqueue (accounted : SteersAccounted received chunks accepted enqueued)
    (messages : List SteeringMessage) :
    SteersAccounted received
      (chunks ++ messages.map fun message => .userMessage (message.payload true)) accepted
      (enqueued ++ messages) := by
  refine ⟨accounted.ack, accounted.acked, ?_, ?_, ?_⟩
  · intro message present
    rcases List.mem_append.mp present with old | new
    · exact (accounted.report message old).imp_right fun unread => List.mem_append_left _ unread
    · exact Or.inr (List.mem_append_right _ (List.mem_map.mpr ⟨message, new, rfl⟩))
  · intro data present injected
    exact List.mem_append_left _ (accounted.reported data present injected)
  · intro data present
    rcases List.mem_append.mp present with old | new
    · obtain ⟨injected, taken⟩ := accounted.unread data old
      exact ⟨injected, List.mem_append_left _ taken⟩
    · obtain ⟨message, taken, same⟩ := List.mem_map.mp new
      cases same
      exact ⟨rfl, List.mem_append_right _ taken⟩

theorem SteersAccounted.read {data : UserMessage} {rest : List Event}
    (accounted : SteersAccounted received (.userMessage data :: rest) accepted enqueued) :
    SteersAccounted (received ++ [.userMessage data]) rest accepted enqueued := by
  obtain ⟨injected, taken⟩ := accounted.unread data (.head _)
  constructor
  · exact fun message present => List.mem_append_left _ (accounted.ack message present)
  · intro other present uninjected
    rcases List.mem_append.mp present with old | new
    · exact accounted.acked other old uninjected
    · cases List.mem_singleton.mp new
      rw [injected] at uninjected
      cases uninjected
  · intro message present
    rcases accounted.report message present with seen | unread
    · exact Or.inl (List.mem_append_left _ seen)
    · rcases List.mem_cons.mp unread with here | later
      · exact Or.inl (by simp [here])
      · exact Or.inr later
  · intro other present injected
    rcases List.mem_append.mp present with old | new
    · exact accounted.reported other old injected
    · cases List.mem_singleton.mp new
      exact taken
  · exact fun other present => accounted.unread other (List.mem_cons_of_mem _ present)

theorem SteersAccounted.skip {chunk : Event} {rest : List Event}
    (accounted : SteersAccounted received (chunk :: rest) accepted enqueued)
    (other : ∀ data, chunk ≠ .userMessage data) : SteersAccounted received rest accepted enqueued := by
  refine ⟨accounted.ack, accounted.acked, ?_, accounted.reported, ?_⟩
  · intro message present
    refine (accounted.report message present).imp_right fun unread => ?_
    rcases List.mem_cons.mp unread with here | later
    · exact absurd here.symm (other _)
    · exact later
  · exact fun data present => accounted.unread data (List.mem_cons_of_mem _ present)

/-- User messages stand in front of the first terminal, which `terminal_appended` knows. -/
structure Timely (t : Turn) : Prop where
  going : t.terminalAppended = false → ∀ e ∈ t.received, e.isTerminal = false
  early : ∀ data, .userMessage data ∈ t.received → .userMessage data ∈ beforeTerminal t.received

theorem mem_beforeTerminal_append {received : List Event} {event : Event} (more : List Event)
    (early : event ∈ beforeTerminal received) : event ∈ beforeTerminal (received ++ more) := by
  rw [beforeTerminal, List.takeWhile_append]
  split
  · exact List.mem_append_left _ (List.takeWhile_subset _ early)
  · exact early

theorem Timely.send {t t' : Turn} {event : Option Event} (timely : Timely t)
    (emits : Emits t t' event)
    (inTime : ∀ data, event = some (.userMessage data) → t.terminalAppended = false) :
    Timely t' := by
  constructor
  · intro going e present
    rw [emits.terminal, Bool.or_eq_false_iff] at going
    rw [emits.received] at present
    rcases List.mem_append.mp present with old | new
    · exact timely.going going.1 e old
    · cases event with
      | none => cases new
      | some last =>
        cases List.mem_singleton.mp new
        exact going.2
  · intro data present
    rw [emits.received] at present ⊢
    rcases List.mem_append.mp present with old | new
    · exact mem_beforeTerminal_append _ (timely.early data old)
    · cases event with
      | none => cases new
      | some last =>
        cases List.mem_singleton.mp new
        have open' := timely.going (inTime data rfl)
        rw [beforeTerminal, List.takeWhile_append_of_pos (by simpa using open')]
        exact List.mem_append_right _ (by simp [Event.isTerminal])

theorem stays_in_loop {env : TurnEnv} {t t' : Turn} {used : Int} {action : TurnAction} (ok : t.Ok)
    (body : t.phase = .body) (going : t.terminalAppended = false)
    (inLoop : leavesLoop action = false) (taken : turnStep env t ⟨used, action⟩ = some t') :
    t'.phase = .body ∧ t'.terminalAppended = false := by
  have isOpen : t.buffer.closed = false := by rw [ok.closed, ok.running (by simp [body])]
  cases action with
  | begin => simp [turnStep, body] at taken
  | yields event =>
    simp only [turnStep, body, if_true, Option.some.injEq] at taken
    rw [← taken, (Turn.forward_flags event t).phase, (Turn.forward_emits isOpen event).terminal]
    refine ⟨body, ?_⟩
    cases event with
    | viz spec =>
      simp only [Turn.observe]
      split <;> simp [going, Event.isTerminal]
    | done status => cases inLoop
    | error data => cases inLoop
    | _ => simp [Turn.observe, going, Event.isTerminal]
  | finish => cases inLoop
  | raise => cases inLoop
  | cancelled => cases inLoop
  | expire =>
    simp only [turnStep, body, if_true, Option.some.injEq] at taken
    rw [← taken]
    exact ⟨rfl, going⟩
  | timeoutPersisted => simp [turnStep, body] at taken
  | timeoutCancelled => simp [turnStep, body] at taken
  | kill =>
    simp only [turnStep, body] at taken
    cases taken
    exact ⟨rfl, going⟩
  | stop kind =>
    have claimed : t.claim kind = some t' := taken
    unfold Turn.claim at claimed
    split at claimed
    · cases claimed
      exact ⟨body, going⟩
    · cases claimed
  | taskAwaited =>
    simp only [turnStep, body] at taken
    split at taken
    · simp at taken
    · cases taken
  | stopPersisted =>
    simp only [turnStep] at taken
    split at taken
    case h_1 kind persisting =>
      have ended := (ok.persisting kind persisting).2
      rw [body] at ended
      cases ended
    · cases taken
  | stopperKilled =>
    simp only [turnStep] at taken
    split at taken
    case h_1 kind persisting =>
      have ended := (ok.persisting kind persisting).2
      rw [body] at ended
      cases ended
    · cases taken
  | steer text userMessageId =>
    simp only [turnStep] at taken
    split at taken
    · cases taken
      rw [(Turn.forward_flags _ t).phase, (Turn.forward_emits isOpen _).terminal]
      exact ⟨body, by simp [Turn.observe, going, Event.isTerminal]⟩
    · cases taken

namespace SteeredTurn

structure Ok (s : SteeredTurn) : Prop where
  turn : s.turn.Ok
  timely : Timely s.turn
  accounted : SteersAccounted s.turn.received s.chunks s.accepted s.enqueued
  /-- the node runs, and its chunks are read, only inside the generator's loop -/
  running : s.nodeRuns = true → s.turn.phase = .body ∧ s.turn.terminalAppended = false
  heard : s.turn.phase ≠ .body ∨ s.turn.terminalAppended = true →
    ∀ data, .userMessage data ∉ s.chunks
  content : ∀ chunk ∈ s.chunks, isContentChunk chunk = true ∨ isUserMessage chunk = true
  ids : (s.accepted.map (·.userMessageId)).Nodup
  filled : ∀ message ∈ s.accepted, message.text ≠ "" ∧ message.userMessageId ≠ ""
  order : (s.enqueued ++ s.steeringQueue).Sublist s.accepted
  continuation : s.driver = .continuation → s.enqueued = []

theorem Ok.spawned (driver : TurnDriver) (maxsize : Int) (hasRunHandle : Bool) :
    (spawned driver maxsize hasRunHandle).Ok where
  turn := Turn.Ok.spawned maxsize hasRunHandle
  timely := by constructor <;> simp [SteeredTurn.spawned, Turn.spawned]
  accounted := SteersAccounted.empty
  running := by simp [SteeredTurn.spawned]
  heard := by simp [SteeredTurn.spawned]
  content := by simp [SteeredTurn.spawned]
  ids := by simp [SteeredTurn.spawned]
  filled := by simp [SteeredTurn.spawned]
  order := by simp [SteeredTurn.spawned]
  continuation := fun _ => rfl

variable {env : TurnEnv} {s s' : SteeredTurn} {used : Int}

theorem Ok.isOpen (ok : s.Ok) (body : s.turn.phase = .body) : s.turn.buffer.closed = false := by
  rw [ok.turn.closed, ok.turn.running (by simp [body])]

theorem any_isUserMessage_eq_false {chunks : List Event} (none : chunks.any isUserMessage = false)
    (data : UserMessage) : .userMessage data ∉ chunks := by
  intro present
  have found : chunks.any isUserMessage = true := List.any_eq_true.mpr ⟨_, present, rfl⟩
  rw [none] at found
  cases found

theorem Ok.registry (ok : s.Ok) {action : TurnAction} {turn : Turn}
    (may : s.mayTake action = true) (reports : s.reports ⟨used, .registry action⟩ = true)
    (taken : turnStep env s.turn ⟨used, action⟩ = some turn) : Ok { s with turn } := by
  obtain ⟨event, emits, sends⟩ := step_sends ok.turn taken
  simp only [mayTake, Bool.and_eq_true, Bool.not_eq_true', Bool.and_eq_false_iff] at may
  simp only [SteeredTurn.reports, Bool.not_eq_true', Bool.and_eq_false_iff] at reports
  have other : ∀ data, event ≠ some (.userMessage data) := by
    intro data same
    rcases sends.user data same with yields | ⟨steer, _⟩
    · rw [show action = _ from yields] at may
      cases may.1
    · rw [show action = _ from steer] at may
      cases may.1
  refine { ok with
    turn := ok.turn.step taken
    timely := ok.timely.send emits (fun data same => absurd same (other data))
    accounted := ?_
    running := ?_
    heard := ?_ }
  · show SteersAccounted turn.received _ _ _
    rw [emits.received]
    exact ok.accounted.send other
  · intro runs
    obtain ⟨body, going⟩ := ok.running runs
    have inLoop : leavesLoop action = false :=
      may.2.resolve_right (by rw [show s.nodeRuns = true from runs]; simp)
    exact stays_in_loop ok.turn body going inLoop taken
  · intro left
    by_cases before : s.turn.phase ≠ .body ∨ s.turn.terminalAppended = true
    · exact ok.heard before
    · rcases reports with inLoop | unread
      · simp only [ne_eq, not_or, not_not, Bool.not_eq_true] at before
        obtain ⟨body, going⟩ := stays_in_loop ok.turn before.1 before.2 inLoop taken
        rcases left with left | left
        · exact absurd body left
        · rw [going] at left
          cases left
      · exact any_isUserMessage_eq_false unread

theorem Ok.steer (ok : s.Ok) {text userMessageId : String} {turn : Turn} (filled : text ≠ "")
    (named : userMessageId ≠ "") (fresh : userMessageId ∉ s.accepted.map (·.userMessageId))
    (taken : turnStep env s.turn ⟨used, .steer text userMessageId⟩ = some turn) :
    Ok { s with
      turn
      steeringQueue := s.steeringQueue ++ [⟨userMessageId, text⟩]
      accepted := s.accepted ++ [⟨userMessageId, text⟩] } := by
  have stepped := ok.turn.step taken
  simp only [turnStep, Option.ite_none_right_eq_some, Option.some.injEq] at taken
  obtain ⟨allowed, rfl⟩ := taken
  simp only [Turn.steerable, Bool.and_eq_true, Bool.not_eq_true'] at allowed
  obtain ⟨⟨⟨⟨unfinalized, going⟩, _⟩, _⟩, _⟩ := allowed
  have isOpen : s.turn.buffer.closed = false := by rw [ok.turn.closed, unfinalized]
  have flags : SameFlags s.turn
      (s.turn.forward env used (.userMessage ⟨text, userMessageId, false⟩)) :=
    Turn.forward_flags _ _
  have emits : Emits s.turn (s.turn.forward env used (.userMessage ⟨text, userMessageId, false⟩))
      (some (.userMessage ⟨text, userMessageId, false⟩)) := Turn.forward_emits isOpen _
  have terminal : (Turn.forward env used (.userMessage ⟨text, userMessageId, false⟩)
      s.turn).terminalAppended = s.turn.terminalAppended := by
    rw [emits.terminal]
    exact Bool.or_false _
  refine
    { turn := stepped
      timely := ok.timely.send emits (fun _ _ => going)
      accounted := ?_
      running := ?_
      heard := ?_
      content := ok.content
      ids := ?_
      filled := ?_
      order := ?_
      continuation := ok.continuation }
  · show SteersAccounted (Turn.forward env used _ s.turn).received _ _ _
    rw [emits.received]
    exact ok.accounted.accept ⟨userMessageId, text⟩
  · intro runs
    show (Turn.forward env used _ s.turn).phase = _ ∧ _
    rw [flags.phase, terminal]
    exact ok.running runs
  · intro left
    refine ok.heard ?_
    rw [← flags.phase, ← terminal]
    exact left
  · rw [List.map_append, List.nodup_append]
    refine ⟨ok.ids, by simp, ?_⟩
    intro id old other new
    cases List.mem_singleton.mp new
    intro same
    rw [show id = userMessageId from same] at old
    exact fresh old
  · intro message present
    rcases List.mem_append.mp present with old | new
    · exact ok.filled message old
    · cases List.mem_singleton.mp new
      exact ⟨filled, named⟩
  · rw [← List.append_assoc]
    exact ok.order.append (List.Sublist.refl _)

theorem Ok.enqueue (ok : s.Ok) (runs : s.nodeRuns = true) {messages : List SteeringMessage}
    (drained : messages.Sublist s.steeringQueue)
    (none : s.driver = .continuation → messages = []) : (s.enqueue messages).Ok where
  turn := ok.turn
  timely := ok.timely
  accounted := ok.accounted.enqueue messages
  running := ok.running
  heard := by
    intro left
    obtain ⟨body, going⟩ := ok.running runs
    rcases left with left | left
    · exact absurd body left
    · rw [show s.turn.terminalAppended = _ from left] at going
      cases going
  content := by
    intro chunk present
    rcases List.mem_append.mp present with old | new
    · exact ok.content chunk old
    · obtain ⟨message, _, rfl⟩ := List.mem_map.mp new
      exact Or.inr rfl
  ids := ok.ids
  filled := ok.filled
  order := by
    show (s.enqueued ++ messages ++ []).Sublist _
    rw [List.append_nil]
    exact ((List.Sublist.refl _).append drained).trans ok.order
  continuation := by
    intro continued
    show s.enqueued ++ messages = []
    rw [ok.continuation continued, none continued]
    rfl

theorem Ok.shelve (ok : s.Ok) : s.shelve.Ok where
  turn := ok.turn
  timely := ok.timely
  accounted := ok.accounted
  running := ok.running
  heard := ok.heard
  content := ok.content
  ids := ok.ids
  filled := ok.filled
  order := by
    show (s.enqueued ++ []).Sublist _
    rw [List.append_nil]
    exact (List.sublist_append_left _ _).trans ok.order
  continuation := ok.continuation

theorem Ok.nodeOver (ok : s.Ok) : Ok { s with nodeRuns := false } :=
  { ok with running := fun runs => by cases runs }

theorem dispatch_same (signature : Payload → String) (driver : TurnDriver)
    (seenViz : List String) (chunk : Event) :
    (dispatch signature driver seenViz chunk).2 = none ∨
      (dispatch signature driver seenViz chunk).2 = some chunk := by
  cases chunk with
  | userMessage data =>
    cases driver with
    | continuation => exact Or.inl rfl
    | _ =>
      simp only [dispatch]
      split
      · exact Or.inr rfl
      · exact Or.inl rfl
  | viz spec =>
    cases driver with
    | continuation => exact Or.inr rfl
    | _ =>
      simp only [dispatch]
      split
      · exact Or.inr rfl
      · exact Or.inl rfl
  | _ => exact Or.inr rfl

theorem dispatch_report (signature : Payload → String) {driver : TurnDriver}
    (seenViz : List String) {data : UserMessage} (read : driver ≠ .continuation)
    (filled : data.text ≠ "" ∧ data.userMessageId ≠ "") :
    (dispatch signature driver seenViz (.userMessage data)).2 = some (.userMessage data) := by
  cases driver with
  | continuation => exact absurd rfl read
  | _ =>
    simp only [dispatch]
    exact if_pos filled

theorem content_not_terminal {chunk : Event}
    (content : isContentChunk chunk = true ∨ isUserMessage chunk = true) :
    chunk.isTerminal = false := by
  cases chunk <;> simp_all [isContentChunk, isUserMessage, Event.isTerminal]

theorem Ok.reading (env : TurnEnv) (used : Int) (ok : s.Ok) (body : s.turn.phase = .body)
    (going : s.turn.terminalAppended = false) {chunk : Event} {rest : List Event}
    (here : s.chunks = chunk :: rest) (seenViz : List String) {turn : Turn}
    (yielded : turn = s.turn ∨ turn = s.turn.forward env used chunk)
    (accounted : SteersAccounted turn.received rest s.accepted s.enqueued) :
    Ok { s with chunks := rest, seenViz, turn } := by
  have content : ∀ other ∈ rest, isContentChunk other = true ∨ isUserMessage other = true :=
    fun other later => ok.content other (here ▸ List.mem_cons_of_mem _ later)
  have same : turn.Ok ∧ Timely turn ∧ turn.phase = .body ∧ turn.terminalAppended = false := by
    rcases yielded with rfl | rfl
    · exact ⟨ok.turn, ok.timely, body, going⟩
    · have emits : Emits s.turn (s.turn.forward env used chunk) (s.turn.observe env chunk).2 :=
        Turn.forward_emits (ok.isOpen body) chunk
      have flags : SameFlags s.turn (s.turn.forward env used chunk) := Turn.forward_flags _ _
      have silent : chunk.isTerminal = false :=
        content_not_terminal (ok.content chunk (here ▸ List.mem_cons_self))
      have kept : leavesLoop (.yields chunk) = false := silent
      have taken : turnStep env s.turn ⟨used, .yields chunk⟩ = some (s.turn.forward env used chunk) :=
        if_pos body
      exact ⟨ok.turn.of_same flags, ok.timely.send emits (fun _ _ => going),
        stays_in_loop ok.turn body going kept taken⟩
  obtain ⟨turnOk, timely, body', going'⟩ := same
  exact
    { turn := turnOk
      timely := timely
      accounted := accounted
      running := fun _ => ⟨body', going'⟩
      heard := by
        intro left
        rcases left with left | left
        · exact absurd body' left
        · rw [show turn.terminalAppended = _ from left] at going'
          cases going'
      content := content
      ids := ok.ids
      filled := ok.filled
      order := ok.order
      continuation := ok.continuation }

theorem Ok.reads (ok : s.Ok) (body : s.turn.phase = .body)
    (going : s.turn.terminalAppended = false) {chunk : Event} {rest : List Event}
    (here : s.chunks = chunk :: rest) (seenViz : List String) :
    Ok { s with
      chunks := rest
      seenViz
      turn := (dispatch env.vizSignature s.driver s.seenViz chunk).2.elim s.turn
        fun event => s.turn.forward env used event } := by
  have accounted := ok.accounted
  rw [here] at accounted
  have emits : Emits s.turn (s.turn.forward env used chunk) (s.turn.observe env chunk).2 :=
    Turn.forward_emits (ok.isOpen body) chunk
  cases chunk with
  | userMessage data =>
    obtain ⟨_, taken⟩ := accounted.unread data (.head _)
    have read : s.driver ≠ .continuation := by
      intro continued
      rw [ok.continuation continued] at taken
      cases taken
    have filled := ok.filled _
      (ok.order.subset (List.mem_append_left _ taken))
    rw [dispatch_report env.vizSignature s.seenViz read filled]
    refine ok.reading env used body going here seenViz (Or.inr rfl) ?_
    rw [Option.elim_some, emits.received]
    exact accounted.read
  | _ =>
    have skipped := accounted.skip (by simp)
    rcases dispatch_same env.vizSignature s.driver s.seenViz _ with dropped | yielded
    · rw [dropped]
      exact ok.reading env used body going here seenViz (Or.inl rfl) skipped
    · rw [yielded]
      refine ok.reading env used body going here seenViz (Or.inr rfl) ?_
      rw [Option.elim_some, emits.received]
      refine skipped.send ?_
      intro data seen
      cases Turn.observe_user seen

theorem Ok.step (ok : s.Ok) {label : SteerLabel} (reports : s.reports label = true)
    (taken : s.step env label = some s') : s'.Ok := by
  obtain ⟨used, action⟩ := label
  cases action with
  | registry action =>
    simp only [SteeredTurn.step] at taken
    split at taken
    case isTrue may =>
      obtain ⟨turn, stepped, taken⟩ := Option.bind_eq_some_iff.mp taken
      cases taken
      exact ok.registry may reports stepped
    case isFalse => cases taken
  | steer text userMessageId =>
    simp only [SteeredTurn.step] at taken
    split at taken
    case isTrue given =>
      obtain ⟨turn, stepped, taken⟩ := Option.bind_eq_some_iff.mp taken
      cases taken
      exact ok.steer given.1 given.2.1 given.2.2 stepped
    case isFalse => cases taken
  | nodeStarts =>
    obtain ⟨inside, rfl⟩ := guarded taken
    exact { ok with running := fun _ => inside }
  | writes chunk =>
    simp only [SteeredTurn.step, Option.ite_none_right_eq_some, Option.some.injEq] at taken
    obtain ⟨⟨runs, content⟩, rfl⟩ := taken
    refine { ok with accounted := ok.accounted.write content, heard := ?_, content := ?_ }
    · intro left data present
      rcases List.mem_append.mp present with old | new
      · exact ok.heard left data old
      · cases List.mem_singleton.mp new
        cases content
    · intro other present
      rcases List.mem_append.mp present with old | new
      · exact ok.content other old
      · cases List.mem_singleton.mp new
        exact Or.inl content
  | inject =>
    obtain ⟨runs, rfl⟩ := guarded taken
    refine ok.enqueue runs (List.Sublist.refl _) ?_
    intro continued
    simpa [SteeredTurn.reports, continued] using reports
  | injectRaises stopped =>
    obtain ⟨runs, rfl⟩ := guarded taken
    refine (ok.enqueue runs (List.take_sublist _ _) ?_).nodeOver
    intro continued
    have nothing : s.steeringQueue = [] := by
      simpa [SteeredTurn.reports, continued] using reports
    rw [nothing, List.take_nil]
  | nodeEnds =>
    obtain ⟨_, rfl⟩ := guarded taken
    exact ok.shelve.nodeOver
  | nodeRaises =>
    obtain ⟨_, rfl⟩ := guarded taken
    exact ok.nodeOver
  | reads =>
    simp only [SteeredTurn.step] at taken
    split at taken
    case isTrue inside =>
      split at taken
      case h_1 => cases taken
      case h_2 chunk rest here =>
        cases taken
        exact ok.reads inside.1 inside.2 here _
    case isFalse => cases taken
  | failureDrains =>
    obtain ⟨_, rfl⟩ := guarded taken
    exact ok.shelve

theorem Ok.same_of_id (ok : s.Ok) {first second : SteeringMessage} (one : first ∈ s.accepted)
    (other : second ∈ s.accepted) (same : first.userMessageId = second.userMessageId) :
    first = second :=
  List.inj_on_of_nodup_map ok.ids one other same

theorem Ok.known (ok : s.Ok) {data : UserMessage}
    (present : .userMessage data ∈ s.turn.received) : messageOf data ∈ s.accepted := by
  cases injected : data.injected with
  | false => exact ok.accounted.acked data present injected
  | true =>
    exact ok.order.subset (List.mem_append_left _ (ok.accounted.reported data present injected))

theorem mem_messagesOf {events : List Event} {id : String} {data : UserMessage} :
    data ∈ messagesOf events id ↔ .userMessage data ∈ events ∧ data.userMessageId = id := by
  constructor
  · intro present
    obtain ⟨event, sent, picked⟩ := List.mem_filterMap.mp present
    cases event with
    | userMessage other =>
      obtain ⟨named, rfl⟩ := guarded picked
      exact ⟨sent, named⟩
    | _ => cases picked
  · rintro ⟨sent, named⟩
    exact List.mem_filterMap.mpr ⟨_, sent, if_pos named⟩

theorem Ok.deliversOnce (ok : s.Ok) (signature : Payload → String)
    (ended : s.turn.terminalAppended = true) : s.DeliversOnce signature := by
  have unread := ok.heard (Or.inr ended)
  have seen : ∀ message ∈ s.enqueued, .userMessage (message.payload true) ∈ s.turn.received :=
    fun message taken => (ok.accounted.report message taken).resolve_right (unread _)
  have once := ok.order.nodup (List.Nodup.of_map _ ok.ids)
  refine ⟨?_, (List.nodup_append.mp once).1, ?_, pendingUserSegmentsOf_nodup _ _⟩
  · intro message _
    constructor
    · exact fun taken => ok.timely.early _ (seen message taken)
    · intro early
      exact ok.accounted.reported _ (List.takeWhile_subset _ early) rfl
  · intro message
    rw [mem_pendingUserSegmentsOf]
    constructor
    · intro merged
      obtain ⟨injected, last, present, sameText, sameId⟩ := mergedMessages_data merged
      have sent := mem_messagesOf.mp present
      have same : messageOf last = message := by
        rw [messageOf, ← sameText, ← sameId]
        rfl
      refine ⟨same ▸ ok.known sent.1, ?_⟩
      intro taken
      have report := mem_messagesOf.mpr ⟨seen message taken, rfl⟩
      have reported : (messagesOf s.turn.received message.userMessageId).any
          UserMessage.injected = true := List.any_eq_true.mpr ⟨_, report, rfl⟩
      rw [← injected] at reported
      cases reported
    · rintro ⟨accepted, untaken⟩
      have ack : message.payload false ∈ messagesOf s.turn.received message.userMessageId :=
        mem_messagesOf.mpr ⟨ok.accounted.ack message accepted, rfl⟩
      cases merged : mergedMessages (messagesOf s.turn.received message.userMessageId) with
      | none =>
        rw [eq_nil_of_mergedMessages merged] at ack
        cases ack
      | some data =>
        obtain ⟨injected, last, present, sameText, sameId⟩ := mergedMessages_data merged
        have sent := mem_messagesOf.mp present
        have same : messageOf last = message :=
          ok.same_of_id (ok.known sent.1) accepted sent.2
        have quiet : data.injected = false := by
          rw [injected, List.any_eq_false]
          intro other frame reported
          have otherSent := mem_messagesOf.mp frame
          have taken := ok.accounted.reported other otherSent.1 reported
          have named := ok.same_of_id (ok.known otherSent.1) accepted otherSent.2
          exact untaken (named ▸ taken)
        obtain ⟨text, id, flag⟩ := data
        simp only at quiet sameText sameId
        rw [quiet, sameText, sameId, ← same]
        rfl

end SteeredTurn

/-- In a run that reports every steer its node injects, whatever kind of turn it
drives and however the turn ends, each steer is delivered exactly once. -/
theorem steers_delivered_once (env : TurnEnv) (signature : Payload → String) (driver : TurnDriver)
    (maxsize : Int) (hasRunHandle : Bool) {labels : List SteerLabel} {s : SteeredTurn}
    (path : run (SteeredTurn.step env) (.spawned driver maxsize hasRunHandle) labels = some s)
    (reports : Meets (SteeredTurn.step env) (fun s label => s.reports label = true)
      (.spawned driver maxsize hasRunHandle) labels)
    (ended : s.turn.terminalAppended = true) : s.DeliversOnce signature :=
  (invariant_of_meets (fun ok reported taken => SteeredTurn.Ok.step ok reported taken)
    (SteeredTurn.Ok.spawned driver maxsize hasRunHandle) path reports).deliversOnce signature ended

def steerRun (actions : List SteerAction) : List SteerLabel := actions.map fun action => ⟨0, action⟩

def steeredMeta : MetaData := ⟨"trace", "session", "model", "assistant", "user", none⟩

/-- One steer is injected, one comes too late for the run. -/
def steeredTwice : List SteerLabel := steerRun
  [.registry .begin, .registry (.yields (.metadata steeredMeta)), .nodeStarts,
    .steer "and UCLA?" "s1", .inject, .reads, .nodeEnds, .steer "thanks" "s2",
    .registry (.yields (.done .complete)), .registry .finish]

theorem steers_delivered_once_twice : ∃ s,
    run (SteeredTurn.step roomyEnv) (.spawned .ordinary 8 true) steeredTwice = some s ∧
      s.DeliversOnce (fun spec => spec) ∧ s.enqueued = [⟨"s1", "and UCLA?"⟩] ∧
      pendingUserSegmentsOf (reduceEvents (fun spec => spec) s.turn.received) =
        [⟨"s2", "thanks"⟩] := by
  have path : run (SteeredTurn.step roomyEnv) (.spawned .ordinary 8 true) steeredTwice = some _ := rfl
  refine ⟨_, path, ?_, rfl, by decide +kernel⟩
  exact steers_delivered_once roomyEnv (fun spec => spec) .ordinary 8 true path (by decide +kernel) rfl

/-- A continuation injects a steer, and nothing reports it. -/
def steeredContinuation : List SteerLabel := steerRun
  [.registry .begin, .registry (.yields (.metadata steeredMeta)), .nodeStarts,
    .steer "and UCLA?" "s1", .inject, .reads, .nodeEnds,
    .registry (.yields (.done .complete)), .registry .finish]

/-- The message reached the model, and the client sends it again. -/
theorem steer_sent_again : ∃ s,
    run (SteeredTurn.step roomyEnv) (.spawned .continuation 8 true) steeredContinuation = some s ∧
      s.turn.terminalAppended = true ∧ s.enqueued = [⟨"s1", "and UCLA?"⟩] ∧
      pendingUserSegmentsOf (reduceEvents (fun spec => spec) s.turn.received) =
        [⟨"s1", "and UCLA?"⟩] ∧
      ¬ s.DeliversOnce (fun spec => spec) := by
  refine ⟨_, rfl, rfl, rfl, by decide +kernel, ?_⟩
  intro once
  have reported := (once.reported ⟨"s1", "and UCLA?"⟩ (.head _)).mp (.head _)
  revert reported
  decide +kernel

end Counselle.Turns

import Counselle.Chat.TurnReducer
import Counselle.Turns.Follow

/-! One browser tab of a session and the turns it streams: the stored cursor of
`cursor.ts`, `sendMessage`, `attachStream` and `streamFrames` of `transport.ts`,
and the fold of `consumeStream`, against the buffers of `app/turns.py`. -/
namespace Counselle.Chat
open Protocol Transition Turns

/-- The stream a tab consumes, and what `consumeStream` has folded of it. -/
structure LiveStream where
  turn : Nat
  consumer : Nat
  received : Nat
  state : TurnState
  terminalSeen : Bool

structure Tab where
  /-- `memoryCursors`, gone with the page -/
  memory : Option Int
  /-- `sessionStorage`, which outlives it -/
  storage : Option Int
  live : Option LiveStream

namespace Tab

def new : Tab := ⟨none, none, none⟩

/-- `getStoredCursor`; `readable`: session storage can be read. -/
def getStoredCursor (tab : Tab) (readable : Bool) : Option Int :=
  tab.memory <|> if readable then tab.storage else none

/-- `setStoredCursor`; `writable`: session storage can be written. -/
def setStoredCursor (tab : Tab) (writable : Bool) (id : Int) : Tab :=
  { tab with memory := some id, storage := if writable then some id else tab.storage }

def clearStoredCursor (tab : Tab) (writable : Bool) : Tab :=
  { tab with memory := none, storage := if writable then none else tab.storage }

end Tab

def maxEventId : Int := 10000000

/-- `_parse_last_event_id` of a header that holds an integer. -/
def parseLastEventId (raw : Option Int) : Option Int :=
  raw.filter fun value => 0 ≤ value ∧ value < maxEventId

def itemEvent : Item Event → Event
  | .event e => e
  | .error message traceId => .error { message, traceId }

/-- A session's turns in the order they ran; the last one may be in the registry. -/
structure Hub where
  turns : List (Room Event)
  active : Bool
  tab : Tab

namespace Hub

def new : Hub := ⟨[], false, .new⟩

def live? (hub : Hub) : Option (LiveStream × Room Event × Consumer Event) := do
  let stream ← hub.tab.live
  let room ← hub.turns[stream.turn]?
  let consumer ← room.consumers[stream.consumer]?
  some (stream, room, consumer)

/-- A new turn enters the registry with these consumers on it. -/
def start (maxsize : Int) (consumers : List (Consumer Event)) (hub : Hub) : Hub :=
  { hub with turns := hub.turns ++ [{ Room.new maxsize with consumers }], active := true }

/-- `consumeStream` on a stream just opened: it folds from the initial state. -/
def consume (hub : Hub) (turn consumer : Nat) : Hub :=
  { hub with tab.live := some ⟨turn, consumer, 0, initialTurnState, false⟩ }

end Hub

inductive HubAction where
  /-- another client of the session sends -/
  | begin
  /-- `_finalize`: the turn leaves the registry -/
  | finish
  /-- the producer of a turn, or any consumer of it, takes a step -/
  | turn (i : Nat) (a : RoomAction Event)
  | send (writable : Bool)
  /-- refused, or never answered -/
  | sendFails (writable : Bool)
  | reattach (readable writable : Bool)
  | receive (writable : Bool)
  | ended (writable : Bool)
  /-- abort, unmount or network drop -/
  | cut
  | reload
  | newTab

section Step
variable (onCharge : Int → Nat → Int × Int) (onRefund : Int → Nat → Int) (nbytes : Event → Nat)
  (maxsize : Int) (signature : Payload → String)

/-- `streamFrames` and `consumeStream` on one frame. -/
def LiveStream.take (stream : LiveStream) (item : Item Event) : LiveStream :=
  { stream with
    received := stream.received + 1
    state := reduceTurn signature stream.state (itemEvent item)
    terminalSeen := stream.terminalSeen || (itemEvent item).isTerminal }

def Tab.receive (tab : Tab) (writable : Bool) (stream : LiveStream) (item : Item Event)
    (id : Int) : Tab :=
  let stored := tab.setStoredCursor writable id
  { (if (itemEvent item).isTerminal then stored.clearStoredCursor writable else stored) with
    live := some (stream.take signature item) }

def Hub.step (hub : Hub) : HubAction → Option Hub
  | .begin => if hub.active then none else some (hub.start maxsize [])
  | .finish => if hub.active then some { hub with active := false } else none
  | .turn i a => do
    let room ← hub.turns[i]?
    let after ← room.step onCharge onRefund nbytes a
    some { hub with turns := hub.turns.set i after }
  | .send writable =>
    if hub.active ∨ hub.tab.live.isSome then none
    else some (({ hub with tab := hub.tab.clearStoredCursor writable }.start maxsize
      [.new none]).consume hub.turns.length 0)
  | .sendFails writable =>
    if hub.tab.live.isSome then none
    else some { hub with tab := hub.tab.clearStoredCursor writable }
  | .reattach readable writable =>
    if hub.tab.live.isSome then none
    else if hub.active then do
      let i := hub.turns.length - 1
      let room ← hub.turns[i]?
      let cursor := parseLastEventId (hub.tab.getStoredCursor readable)
      let joined := { room with consumers := room.consumers ++ [.new cursor] }
      some ({ hub with turns := hub.turns.set i joined }.consume i room.consumers.length)
    -- 204 No Content
    else some { hub with tab := hub.tab.clearStoredCursor writable }
  | .receive writable => do
    let (stream, _, consumer) ← hub.live?
    let (item, id) ← consumer.out[stream.received]?
    some { hub with tab := hub.tab.receive signature writable stream item id }
  | .ended writable => do
    let (stream, _, consumer) ← hub.live?
    if (consumer.pc = .returned ∨ consumer.pc = .detached) ∧
        stream.received = consumer.out.length then
      let tab := if stream.terminalSeen then hub.tab else hub.tab.clearStoredCursor writable
      some { hub with tab := { tab with live := none } }
    else none
  | .cut => some { hub with tab.live := none }
  | .reload => some { hub with tab := { hub.tab with memory := none, live := none } }
  | .newTab => some { hub with tab := .new }

end Step

/-- The tab's stream, once its response has ended, leaves it with the fold of the
whole turn, or of its first events and an error that reports the rest evicted. -/
def Hub.LosesNothing (signature : Payload → String) (hub : Hub) : Prop :=
  ∀ stream room consumer, hub.live? = some (stream, room, consumer) →
    consumer.pc = .returned → stream.received = consumer.out.length →
    stream.state = reduceEvents signature room.log ∨
      ∃ n traceId, n < room.buffer.base ∧
        stream.state = reduceEvents signature
          (room.log.take n ++ [.error ⟨userSafeFellBehind, traceId, none⟩])

/-- Where a consumer first driven now starts, nothing is skipped in silence: at the
head of the turn, or below the base, where it falls behind at once. -/
def Hub.startsAtHead (buffer : RingBuffer Event) (consumer : Consumer Event) : Bool :=
  consumer.lastEventId.isNone || consumer.cursor < buffer.base ||
    (buffer.nextSeq : Int) < consumer.cursor && buffer.base == 0

/-- If the step first drives the tab's own stream, it starts that stream at the head. -/
def Hub.headFirst (hub : Hub) : HubAction → Bool
  | .turn i (.resume k) =>
    match hub.live? with
    | some (stream, room, consumer) =>
      if stream.turn = i ∧ stream.consumer = k ∧ consumer.pc = .created then
        Hub.startsAtHead room.buffer consumer
      else true
    | none => true
  | _ => true

theorem map_delivered (log : List Event) (first : Int) (n : Nat) :
    (delivered log first n).map (fun shown => itemEvent shown.1) =
      (log.drop first.toNat).take n := by
  rw [delivered, List.map_map]
  calc
    _ = ((log.drop first.toNat).take n).zipIdx.map Prod.fst := by
      refine List.map_congr_left ?_
      intro item _
      rfl
    _ = (log.drop first.toNat).take n := List.zipIdx_map_fst _ _

/-- What was received of a consumer, folded from the initial state. -/
structure Shows (signature : Payload → String) (stream : LiveStream) (c : Consumer Event) :
    Prop where
  received : stream.received ≤ c.out.length
  state : stream.state =
    reduceEvents signature ((c.out.take stream.received).map fun shown => itemEvent shown.1)
  cursor : 0 ≤ c.cursor

variable {signature : Payload → String} {stream : LiveStream} {c d : Consumer Event}

theorem Shows.initial (turn consumer : Nat) {lastEventId : Option Int}
    (bounded : ∀ value, lastEventId = some value → 0 ≤ value) :
    Shows signature ⟨turn, consumer, 0, initialTurnState, false⟩ (.new lastEventId) where
  received := Nat.zero_le _
  state := rfl
  cursor := by
    cases lastEventId with
    | none => exact le_refl _
    | some value => exact Int.add_nonneg (bounded value rfl) (by decide)

theorem Shows.grow (shows : Shows signature stream c) (more : ∃ more, d.out = c.out ++ more)
    (same : d.lastEventId = c.lastEventId) : Shows signature stream d := by
  obtain ⟨more, out⟩ := more
  refine ⟨?_, ?_, ?_⟩
  · have received := shows.received
    rw [out, List.length_append]
    omega
  · rw [out, List.take_append_of_le_length shows.received]
    exact shows.state
  · rw [Consumer.cursor, same]
    exact shows.cursor

theorem Shows.take (shows : Shows signature stream c) {item : Item Event} {id : Int}
    (next : c.out[stream.received]? = some (item, id)) :
    Shows signature (stream.take signature item) c := by
  obtain ⟨bound, here⟩ := List.getElem?_eq_some_iff.mp next
  refine ⟨bound, ?_, shows.cursor⟩
  show reduceTurn signature stream.state (itemEvent item) = _
  have longer : c.out.take (stream.received + 1) = c.out.take stream.received ++ [(item, id)] := by
    rw [List.take_succ_eq_append_getElem bound, here]
  show _ = reduceEvents signature ((c.out.take (stream.received + 1)).map _)
  rw [longer, List.map_append, reduceEvents, List.foldl_append, shows.state]
  rfl

theorem ended_items {room : Room Event} (ok : c.Ok room.buffer room.log)
    (whole : room.buffer.nextSeq = room.log.length) (returned : c.pc = .returned)
    (positive : 0 ≤ c.first) :
    c.out.map (fun shown => itemEvent shown.1) = room.log.drop c.first.toNat ∨
      ∃ (n : Nat) (traceId : String), c.first + n < room.buffer.base ∧
        c.out.map (fun shown => itemEvent shown.1) = (room.log.drop c.first.toNat).take n ++
          [.error ⟨userSafeFellBehind, traceId, none⟩] := by
  simp only [Consumer.Ok, returned] at ok
  rcases ok with ⟨n, m, traceId, inside, missed, evicted, out⟩ | ⟨n, caught, drained, _⟩
  · refine Or.inr ⟨n, traceId, by omega, ?_⟩
    rw [out, List.map_append, map_delivered]
    rfl
  · refine Or.inl ?_
    rw [caught.2, map_delivered]
    refine List.take_of_length_le ?_
    rw [List.length_drop]
    omega

theorem reported_evicted {room : Room Event} {traceId : String} {seq : Int}
    (ok : c.Ok room.buffer room.log) (returned : c.pc = .returned)
    (reported : c.out = [(.error userSafeFellBehind traceId, seq)]) :
    c.first < room.buffer.base := by
  simp only [Consumer.Ok, returned] at ok
  rcases ok with ⟨n, m, _, _, missed, evicted, _⟩ | ⟨n, caught, _⟩
  · omega
  · have present : (Item.error userSafeFellBehind traceId, seq) ∈ delivered room.log c.first n := by
      rw [← caught.2, reported]
      exact List.mem_singleton_self _
    simp [delivered] at present

/-- The consumer has yielded nothing yet, or starts at the head of the turn, or has
only reported that it fell behind. -/
def Headed (c : Consumer Event) : Prop :=
  c.out = [] ∧ (c.pc = .created ∨ c.pc = .detached) ∨ c.first = 0 ∨
    (c.pc = .fellBehind ∨ c.pc = .returned ∨ c.pc = .detached) ∧
      ∃ traceId seq, c.out = [(.error userSafeFellBehind traceId, seq)]

theorem Headed.enter {b : RingBuffer Event} (traceId : String) (fresh : c.out = [])
    (starts : Hub.startsAtHead b c = true) : Headed ((c.enter b).visit b traceId) := by
  have base : b.base ≤ b.nextSeq := Nat.le_add_right _ _
  have first : ((c.enter b).visit b traceId).first =
      if (b.nextSeq : Int) < c.cursor then (b.base : Int) else c.cursor := by
    obtain ⟨grows, opened⟩ := Consumer.visit_grows b traceId (c.enter b)
    have same : ((c.enter b).visit b traceId).cursor = c.cursor := by
      rw [Consumer.cursor, grows.lastEventId]
      rfl
    rw [Consumer.first, opened, same]
    rfl
  simp only [Hub.startsAtHead, Bool.or_eq_true, Option.isNone_iff_eq_none, decide_eq_true_eq,
    Bool.and_eq_true, beq_iff_eq] at starts
  rcases starts with (absent | evicted) | ⟨ahead, kept⟩
  · refine Or.inr (Or.inl ?_)
    have head : c.cursor = 0 := by rw [Consumer.cursor, absent]; rfl
    rw [first, head, if_neg (by omega)]
  · refine Or.inr (Or.inr ?_)
    have seq : (c.enter b).seq < b.base := by
      simp only [Consumer.enter]
      rw [if_neg (by omega)]
      exact evicted
    rw [Consumer.visit, if_pos seq]
    exact ⟨Or.inl rfl, traceId, (b.base : Int) - 1, by simp [Consumer.enter, fresh]⟩
  · refine Or.inr (Or.inl ?_)
    rw [first, if_pos ahead, kept]
    rfl

theorem Headed.resume {room : Room Event} (headed : Headed c) (ok : c.Ok room.buffer room.log)
    (starts : c.pc = .created → Hub.startsAtHead room.buffer c = true)
    (resumed : c.resume room.buffer room.traceId = some d) : Headed d := by
  by_cases created : c.pc = .created
  · simp only [Consumer.Ok, created] at ok
    simp only [Consumer.resume, created, Option.some.injEq] at resumed
    rw [← resumed]
    exact Headed.enter _ ok.1 (starts created)
  · obtain ⟨grows, opened⟩ := Consumer.resume_grows resumed
    rw [if_neg created] at opened
    rcases headed with ⟨_, pc⟩ | head | ⟨pc, reported⟩
    · rcases pc with pc | pc
      · exact absurd pc created
      · simp [Consumer.resume, pc] at resumed
    · refine Or.inr (Or.inl ?_)
      rw [← head, Consumer.first, Consumer.first, opened, Consumer.cursor, Consumer.cursor,
        grows.lastEventId]
    · rcases pc with pc | pc | pc
      · simp only [Consumer.resume, pc, Option.some.injEq] at resumed
        rw [← resumed]
        exact Or.inr (Or.inr ⟨Or.inr (Or.inl rfl), reported⟩)
      · simp [Consumer.resume, pc] at resumed
      · simp [Consumer.resume, pc] at resumed

theorem Headed.detach (headed : Headed c) : Headed { c with pc := .detached } := by
  rcases headed with ⟨nothing, _⟩ | head | ⟨_, reported⟩
  · exact Or.inl ⟨nothing, Or.inr rfl⟩
  · exact Or.inr (Or.inl head)
  · exact Or.inr (Or.inr ⟨Or.inr (Or.inr rfl), reported⟩)

namespace Hub
variable {hub after : Hub}

theorem live?_eq_some {room : Room Event} : hub.live? = some (stream, room, c) ↔
    hub.tab.live = some stream ∧ hub.turns[stream.turn]? = some room ∧
      room.consumers[stream.consumer]? = some c := by
  simp only [live?, Option.bind_eq_bind, Option.bind_eq_some_iff, Option.some.injEq, Prod.mk.injEq]
  constructor
  · rintro ⟨_, streaming, _, present, _, reading, rfl, rfl, rfl⟩
    exact ⟨streaming, present, reading⟩
  · rintro ⟨streaming, present, reading⟩
    exact ⟨_, streaming, _, present, _, reading, rfl, rfl, rfl⟩

structure Ok (signature : Payload → String) (hub : Hub) : Prop where
  rooms : ∀ room ∈ hub.turns, room.Ok
  live : ∀ stream, hub.tab.live = some stream → ∃ room c,
    hub.turns[stream.turn]? = some room ∧ room.consumers[stream.consumer]? = some c ∧
      Shows signature stream c ∧ Headed c

theorem Ok.new (signature : Payload → String) : Hub.new.Ok signature where
  rooms := by
    intro room present
    cases present
  live := by
    intro stream streaming
    cases streaming

theorem Ok.keepTab (ok : hub.Ok signature) {tab : Tab} {active : Bool}
    (same : tab.live = none ∨ tab.live = hub.tab.live) :
    Hub.Ok signature ⟨hub.turns, active, tab⟩ where
  rooms := ok.rooms
  live := by
    intro stream streaming
    rcases same with gone | kept
    · rw [show tab.live = some stream from streaming] at gone
      cases gone
    · exact ok.live stream (kept ▸ streaming)

theorem rooms_snoc (ok : hub.Ok signature) (maxsize : Int) {consumers : List (Consumer Event)}
    (fresh : ∀ c ∈ consumers, c.out = [] ∧ c.opened = none ∧ c.pc = .created) :
    ∀ room ∈ hub.turns ++ [{ Room.new maxsize with consumers }], room.Ok := by
  intro room present
  rcases List.mem_append.mp present with old | new
  · exact ok.rooms room old
  · cases List.mem_singleton.mp new
    refine ⟨(Room.Ok.new maxsize).holds, ?_⟩
    intro c joined
    obtain ⟨nothing, unopened, created⟩ := fresh c joined
    simp only [Consumer.Ok, created]
    exact ⟨nothing, unopened⟩

theorem Ok.turn {onCharge : Int → Nat → Int × Int} {onRefund : Int → Nat → Int}
    {nbytes : Event → Nat} (ok : hub.Ok signature) {i : Nat} {a : RoomAction Event}
    (starts : hub.headFirst (.turn i a) = true) {room next : Room Event}
    (present : hub.turns[i]? = some room)
    (taken : room.step onCharge onRefund nbytes a = some next) :
    Hub.Ok signature { hub with turns := hub.turns.set i next } := by
  have roomOk : room.Ok := ok.rooms room (List.mem_of_getElem? present)
  have bound : i < hub.turns.length := (List.getElem?_eq_some_iff.mp present).1
  refine ⟨?_, ?_⟩
  · intro other joined
    rcases mem_set_cases joined with rfl | old
    · exact roomOk.step taken
    · exact ok.rooms other old
  · intro stream streaming
    obtain ⟨shown, c, here, reading, shows, headed⟩ := ok.live stream streaming
    by_cases same : i = stream.turn
    · rw [← same, present] at here
      cases here
      obtain ⟨d, found, change⟩ := Room.step_consumer taken reading
      refine ⟨next, d, by simp [← same, bound], found, ?_⟩
      rcases change with rfl | ⟨rfl, resumed⟩ | ⟨rfl, rfl⟩
      · exact ⟨shows, headed⟩
      · obtain ⟨grows, _⟩ := Consumer.resume_grows resumed
        have reads : hub.live? = some (stream, room, c) :=
          live?_eq_some.mpr ⟨streaming, same ▸ present, reading⟩
        refine ⟨shows.grow grows.out grows.lastEventId, ?_⟩
        refine headed.resume (roomOk.consumers c (List.mem_of_getElem? reading)) ?_ resumed
        intro created
        simp only [headFirst, reads, same, created, and_self, if_true] at starts
        exact starts
      · exact ⟨shows.grow ⟨[], by simp⟩ rfl, headed.detach⟩
    · refine ⟨shown, c, ?_, reading, shows, headed⟩
      rw [List.getElem?_set_ne same]
      exact here

theorem Ok.consume {turns : List (Room Event)} {active : Bool} {tab : Tab} {i k : Nat}
    (rooms : ∀ room ∈ turns, room.Ok) {room : Room Event} (present : turns[i]? = some room)
    {lastEventId : Option Int} (joined : room.consumers[k]? = some (.new lastEventId))
    (bounded : ∀ value, lastEventId = some value → 0 ≤ value) :
    Hub.Ok signature (Hub.consume ⟨turns, active, tab⟩ i k) where
  rooms := rooms
  live := by
    intro stream streaming
    cases streaming
    exact ⟨room, _, present, joined, Shows.initial i k bounded, Or.inl ⟨rfl, Or.inl rfl⟩⟩

theorem Ok.start (ok : hub.Ok signature) (maxsize : Int) :
    (hub.start maxsize []).Ok signature where
  rooms := rooms_snoc ok maxsize (by simp)
  live := by
    intro stream streaming
    obtain ⟨room, c, present, rest⟩ := ok.live stream streaming
    have bound := (List.getElem?_eq_some_iff.mp present).1
    exact ⟨room, c, by simpa [Hub.start, List.getElem?_append_left bound] using present, rest⟩

theorem Ok.receive (ok : hub.Ok signature) {room : Room Event} {item : Item Event} {id : Int}
    (reads : hub.live? = some (stream, room, c)) (next : c.out[stream.received]? = some (item, id))
    (writable : Bool) :
    Hub.Ok signature { hub with tab := hub.tab.receive signature writable stream item id } where
  rooms := ok.rooms
  live := by
    intro taken streaming
    cases streaming
    obtain ⟨shown, present, reading⟩ := live?_eq_some.mp reads
    obtain ⟨room', c', here, reading', shows, headed⟩ := ok.live stream shown
    rw [present] at here
    cases here
    rw [reading] at reading'
    cases reading'
    exact ⟨room, c, present, reading, shows.take next, headed⟩

theorem parseLastEventId_nonneg {raw : Option Int} {value : Int}
    (parsed : parseLastEventId raw = some value) : 0 ≤ value := by
  have kept := (Option.filter_eq_some_iff.mp parsed).2
  simp only [decide_eq_true_eq] at kept
  exact kept.1

variable {onCharge : Int → Nat → Int × Int} {onRefund : Int → Nat → Int} {nbytes : Event → Nat}
  {maxsize : Int}

theorem Ok.step (ok : hub.Ok signature) {a : HubAction} (starts : hub.headFirst a = true)
    (taken : hub.step onCharge onRefund nbytes maxsize signature a = some after) :
    after.Ok signature := by
  cases a with
  | begin =>
    simp only [Hub.step] at taken
    split at taken
    · cases taken
    · cases taken
      exact ok.start maxsize
  | finish =>
    simp only [Hub.step] at taken
    split at taken
    · cases taken
      exact ok.keepTab (Or.inr rfl)
    · cases taken
  | turn i a =>
    obtain ⟨room, present, taken⟩ := Option.bind_eq_some_iff.mp taken
    obtain ⟨next, moved, taken⟩ := Option.bind_eq_some_iff.mp taken
    cases taken
    exact ok.turn starts present moved
  | send writable =>
    simp only [Hub.step] at taken
    split at taken
    · cases taken
    · cases taken
      have fresh : [(Consumer.new none : Consumer Event)][0]? = some (.new none) := rfl
      refine Ok.consume (rooms_snoc ok maxsize ?_) List.getElem?_concat_length fresh (by simp)
      intro c joined
      cases List.mem_singleton.mp joined
      exact ⟨rfl, rfl, rfl⟩
  | sendFails writable =>
    simp only [Hub.step] at taken
    split at taken
    · cases taken
    · cases taken
      exact ok.keepTab (Or.inr rfl)
  | reattach readable writable =>
    simp only [Hub.step] at taken
    split at taken
    · cases taken
    · split at taken
      · obtain ⟨room, present, taken⟩ := Option.bind_eq_some_iff.mp taken
        cases taken
        have bound := (List.getElem?_eq_some_iff.mp present).1
        have attached : Room.step onCharge onRefund nbytes room
            (.attach (parseLastEventId (hub.tab.getStoredCursor readable))) = some _ := rfl
        refine Ok.consume ?_ (List.getElem?_set_self bound) List.getElem?_concat_length
          (fun value parsed => parseLastEventId_nonneg parsed)
        intro other joined
        rcases mem_set_cases joined with rfl | old
        · exact (ok.rooms room (List.mem_of_getElem? present)).step attached
        · exact ok.rooms other old
      · cases taken
        exact ok.keepTab (Or.inr rfl)
  | receive writable =>
    obtain ⟨⟨stream, room, c⟩, reads, taken⟩ := Option.bind_eq_some_iff.mp taken
    obtain ⟨⟨item, id⟩, next, taken⟩ := Option.bind_eq_some_iff.mp taken
    cases taken
    exact ok.receive reads next writable
  | ended writable =>
    obtain ⟨⟨stream, room, c⟩, reads, taken⟩ := Option.bind_eq_some_iff.mp taken
    simp only at taken
    split at taken
    · cases taken
      exact ok.keepTab (Or.inl rfl)
    · cases taken
  | cut =>
    cases taken
    exact ok.keepTab (Or.inl rfl)
  | reload =>
    cases taken
    exact ok.keepTab (Or.inl rfl)
  | newTab =>
    cases taken
    exact ok.keepTab (Or.inl rfl)

theorem Ok.losesNothing (ok : hub.Ok signature) : hub.LosesNothing signature := by
  intro stream room c reads returned all
  obtain ⟨streaming, present, reading⟩ := live?_eq_some.mp reads
  obtain ⟨room', c', here, reading', shows, headed⟩ := ok.live stream streaming
  rw [present] at here
  cases here
  rw [reading] at reading'
  cases reading'
  have roomOk := ok.rooms room (List.mem_of_getElem? present)
  have consumerOk := roomOk.consumers c (List.mem_of_getElem? reading)
  have positive : 0 ≤ c.first := by
    have cursor := shows.cursor
    rw [Consumer.first]
    split
    · split <;> omega
    · exact cursor
  have state := shows.state
  rw [all, List.take_length] at state
  have items := ended_items consumerOk roomOk.holds.whole returned positive
  rcases headed with ⟨_, pc⟩ | head | ⟨_, traceId, seq, reported⟩
  · simp [returned] at pc
  · rw [head] at items
    rcases items with whole | ⟨n, traceId, evicted, cut⟩
    · exact Or.inl (by rw [state, whole]; rfl)
    · exact Or.inr ⟨n, traceId, by omega, by rw [state, cut]; rfl⟩
  · have evicted := reported_evicted consumerOk returned reported
    exact Or.inr ⟨0, traceId, by omega, by rw [state, reported]; rfl⟩

end Hub

/-- In a run whose streams are all first driven from the head of their turn,
reattaching loses nothing, wherever the streams before were cut. -/
theorem reattach_loses_nothing (onCharge : Int → Nat → Int × Int) (onRefund : Int → Nat → Int)
    (nbytes : Event → Nat) (maxsize : Int) (signature : Payload → String) {labels : List HubAction}
    {hub : Hub} (path : run (Hub.step onCharge onRefund nbytes maxsize signature) Hub.new labels =
      some hub)
    (starts : Meets (Hub.step onCharge onRefund nbytes maxsize signature)
      (fun hub a => hub.headFirst a = true) Hub.new labels) : hub.LosesNothing signature :=
  (invariant_of_meets (fun ok starts taken => Hub.Ok.step ok starts taken)
    (Hub.Ok.new signature) path starts).losesNothing

def tabStep : Hub → HubAction → Option Hub :=
  Hub.step (chargeBytes 600) refundBytes (fun _ => 1) 8 (fun spec => spec)

def helloMeta : MetaData := ⟨"trace", "session", "model", "assistant", "user", none⟩

/-- The tab sends, shows the first two events of the answer and is reloaded. -/
def reloadedAnswer : List HubAction :=
  [.send true, .turn 0 (.append 0 (.metadata helloMeta)), .turn 0 (.append 0 (.delta "Apply ")),
    .turn 0 (.resume 0), .receive true, .turn 0 (.resume 0), .receive true, .reload]

def restOfAnswer : List HubAction :=
  [.turn 0 (.append 0 (.delta "early.")), .turn 0 (.append 0 (.done .complete)), .turn 0 .close]

/-- Session storage cannot be read after the reload, so the whole turn is replayed. -/
def replayedAnswer : List HubAction :=
  reloadedAnswer ++ [.reattach false true] ++ restOfAnswer ++
    [.turn 0 (.resume 1), .turn 0 (.resume 1), .turn 0 (.resume 1), .turn 0 (.resume 1),
      .turn 0 (.resume 1), .receive true, .receive true, .receive true, .receive true]

theorem reattach_loses_nothing_replayed : ∃ hub, run tabStep Hub.new replayedAnswer = some hub ∧
    hub.LosesNothing (fun spec => spec) ∧
    hub.live?.map (fun reading => (reading.1.received, reading.2.2.pc, reading.1.state.segments)) =
      some (4, .returned, [.answer "Apply early."]) := by
  have path : run tabStep Hub.new replayedAnswer = some _ := rfl
  refine ⟨_, path, ?_, by decide +kernel⟩
  refine reattach_loses_nothing (chargeBytes 600) refundBytes (fun _ => 1) 8 (fun spec => spec)
    path ?_
  decide +kernel

/-- The cursor in session storage outlives what was folded up to it. -/
def resumedAnswer : List HubAction :=
  reloadedAnswer ++ restOfAnswer ++
    [.reattach true true, .turn 0 (.resume 1), .turn 0 (.resume 1), .turn 0 (.resume 1),
      .receive true, .receive true]

/-- The cursor of the turn before is not ahead of the buffer of the next one. -/
def resumedNextAnswer : List HubAction :=
  reloadedAnswer ++ restOfAnswer ++
    [.finish, .begin, .turn 1 (.append 0 (.metadata helloMeta)),
      .turn 1 (.append 0 (.delta "Not before ")), .turn 1 (.append 0 (.delta "May.")),
      .turn 1 (.append 0 (.done .complete)), .turn 1 .close, .reattach true true,
      .turn 1 (.resume 0), .turn 1 (.resume 0), .turn 1 (.resume 0), .receive true, .receive true]

theorem Hub.not_losesNothing {signature : Payload → String} {hub : Hub} {stream : LiveStream}
    {room : Room Event} {consumer : Consumer Event}
    (reads : hub.live? = some (stream, room, consumer)) (returned : consumer.pc = .returned)
    (all : stream.received = consumer.out.length) (kept : room.buffer.base = 0)
    (differs : stream.state ≠ reduceEvents signature room.log) :
    ¬ hub.LosesNothing signature := by
  intro lossless
  rcases lossless stream room consumer reads returned all with same | ⟨n, _, evicted, _⟩
  · exact differs same
  · omega

theorem reattach_skips :
    (∃ hub, run tabStep Hub.new resumedAnswer = some hub ∧
      hub.live?.map (fun reading => reading.1.state.segments) = some [.answer "early."] ∧
      ¬ hub.LosesNothing (fun spec => spec)) ∧
    ∃ hub, run tabStep Hub.new resumedNextAnswer = some hub ∧
      hub.live?.map (fun reading => reading.1.state.segments) = some [.answer "May."] ∧
      ¬ hub.LosesNothing (fun spec => spec) := by
  constructor
  · refine ⟨_, rfl, by decide +kernel, ?_⟩
    exact Hub.not_losesNothing rfl rfl rfl rfl (by decide +kernel)
  · refine ⟨_, rfl, by decide +kernel, ?_⟩
    exact Hub.not_losesNothing rfl rfl rfl rfl (by decide +kernel)

end Counselle.Chat

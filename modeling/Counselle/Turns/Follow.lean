import Counselle.Transition
import Counselle.Turns.Registry
import Mathlib.Algebra.Order.Group.Nat

/-! `TurnRegistry._follow`: any number of consumers reading one ring buffer by
sequence number while its producer appends, evicts and closes. A consumer only
runs between two suspension points, at a `yield` or at `flag.wait()`. -/
namespace Counselle.Turns
open Transition
variable {ε : Type}

def userSafeFellBehind : String :=
  "Your connection fell behind the live answer — please reload to see the full response."

/-- What a consumer yields: an event of the buffer, or `ev_error`. -/
inductive Item (ε : Type) where
  | event (e : ε)
  | error (message traceId : String)
deriving DecidableEq

inductive Pc where
  | created
  | yielded
  | fellBehind
  | waiting (flag : Nat)
  | returned
  | detached
  /-- `buffer.get` raised -/
  | raised
deriving DecidableEq

structure Consumer (ε : Type) where
  lastEventId : Option Int
  seq : Int
  pc : Pc
  out : List (Item ε × Int)
  /-- history: base and next seq of the buffer when the generator was first driven -/
  opened : Option (Nat × Nat)

structure Room (ε : Type) where
  buffer : RingBuffer ε
  traceId : String
  consumers : List (Consumer ε)
  /-- history: every event the buffer took -/
  log : List ε

namespace Consumer

def new (lastEventId : Option Int) : Consumer ε := ⟨lastEventId, 0, .created, [], none⟩

/-- `0 if after_seq is None else after_seq + 1` -/
def cursor (c : Consumer ε) : Int := c.lastEventId.elim 0 (· + 1)

/-- The seq the consumer starts at: a cursor ahead of the buffer is reset to its base. -/
def first (c : Consumer ε) : Int :=
  match c.opened with
  | some (base, next) => if (next : Int) < c.cursor then base else c.cursor
  | none => c.cursor

/-- One pass of the `while True` loop, up to its next suspension point. -/
def visit (b : RingBuffer ε) (traceId : String) (c : Consumer ε) : Consumer ε :=
  if c.seq < b.base then
    { c with
      pc := .fellBehind
      out := c.out ++ [(.error userSafeFellBehind traceId, (b.base : Int) - 1)] }
  else if c.seq < b.nextSeq then
    match b.get c.seq with
    | some e => { c with pc := .yielded, out := c.out ++ [(.event e, c.seq)] }
    | none => { c with pc := .raised }
  else if b.closed then { c with pc := .returned }
  else { c with pc := .waiting b.flag }

def enter (b : RingBuffer ε) (c : Consumer ε) : Consumer ε :=
  { c with
    seq := if (b.nextSeq : Int) < c.cursor then b.base else c.cursor
    opened := some (b.base, b.nextSeq) }

def resume (b : RingBuffer ε) (traceId : String) (c : Consumer ε) : Option (Consumer ε) :=
  match c.pc with
  | .created => some ((c.enter b).visit b traceId)
  | .yielded => some ({ c with seq := c.seq + 1 }.visit b traceId)
  | .fellBehind => some { c with pc := .returned }
  -- a wakeup flag is set once the buffer has moved on to the next one
  | .waiting flag => if flag < b.flag then some (c.visit b traceId) else none
  | .returned | .detached | .raised => none

end Consumer

inductive RoomAction (ε : Type) where
  /-- `used` is the shared counter as the other turns left it -/
  | append (used : Int) (event : ε)
  | close
  | dropAll (used : Int)
  /-- a meta event sets `turn.trace_id` -/
  | setTrace (traceId : String)
  | attach (lastEventId : Option Int)
  | resume (i : Nat)
  | detach (i : Nat)

namespace Room

def new (maxsize : Int) : Room ε := ⟨.new maxsize, "", [], []⟩

def step (onCharge : Int → Nat → Int × Int) (onRefund : Int → Nat → Int) (nbytes : ε → Nat)
    (room : Room ε) : RoomAction ε → Option (Room ε)
  | .append used event => some
    { room with
      buffer := (room.buffer.append onCharge onRefund nbytes used event).1
      log := if room.buffer.closed then room.log else room.log ++ [event] }
  | .close => some { room with buffer := room.buffer.close }
  | .dropAll used => some { room with buffer := (room.buffer.dropAll onRefund used).1 }
  | .setTrace traceId => some { room with traceId }
  | .attach lastEventId => some { room with consumers := room.consumers ++ [.new lastEventId] }
  | .resume i => do
    let c ← room.consumers[i]?
    let after ← c.resume room.buffer room.traceId
    some { room with consumers := room.consumers.set i after }
  | .detach i => do
    let c ← room.consumers[i]?
    if c.pc = .returned then none
    else some { room with consumers := room.consumers.set i { c with pc := .detached } }

end Room

/-- The `n` events of the log from seq `first` on, each with its seq. -/
def delivered (log : List ε) (first : Int) (n : Nat) : List (Item ε × Int) :=
  ((log.drop first.toNat).take n).zipIdx.map fun (e, k) => (.event e, first + k)

/-- `n` seqs from `first` on that all lie in the log. -/
def Inside (log : List ε) (first : Int) (n : Nat) : Prop :=
  n = 0 ∨ 0 ≤ first ∧ first + n ≤ log.length

@[simp] theorem delivered_zero (log : List ε) (first : Int) : delivered log first 0 = [] := by
  simp [delivered]

theorem delivered_append {log : List ε} {first : Int} {n : Nat} (inside : Inside log first n)
    (more : List ε) : delivered (log ++ more) first n = delivered log first n := by
  rcases inside with rfl | ⟨positive, bound⟩
  · simp
  · have start : first.toNat ≤ log.length := by omega
    have room : n ≤ (log.drop first.toNat).length := by
      rw [List.length_drop]
      omega
    rw [delivered, List.drop_append_of_le_length start, List.take_append_of_le_length room,
      delivered]

theorem delivered_succ {log : List ε} {first : Int} {n : Nat} {e : ε} (positive : 0 ≤ first)
    (here : log[(first + n).toNat]? = some e) :
    delivered log first (n + 1) = delivered log first n ++ [(.event e, first + n)] := by
  have index : (first + n).toNat = first.toNat + n := by omega
  have next : (log.drop first.toNat)[n]? = some e := by rw [List.getElem?_drop, ← index, here]
  have bound : n < (log.drop first.toNat).length := (List.getElem?_eq_some_iff.mp next).1
  have length : ((log.drop first.toNat).take n).length = n := by
    rw [List.length_take]
    omega
  rw [delivered, List.take_succ_eq_append_getElem bound, List.zipIdx_append, List.map_append,
    length, (List.getElem?_eq_some_iff.mp next).2]
  simp [delivered]

theorem mem_delivered {log : List ε} {first seq : Int} {n : Nat} {e : ε}
    (inside : Inside log first n) (seen : (Item.event e, seq) ∈ delivered log first n) :
    0 ≤ seq ∧ log[seq.toNat]? = some e := by
  obtain ⟨⟨e', k⟩, present, same⟩ := List.mem_map.mp seen
  cases same
  have found := List.mem_zipIdx_iff_getElem?.mp present
  rcases inside with rfl | ⟨positive, _⟩
  · simp at found
  · have index : (first + k).toNat = first.toNat + k := by omega
    rw [List.getElem?_take] at found
    split at found
    · rw [List.getElem?_drop] at found
      refine ⟨by omega, ?_⟩
      rw [index]
      exact found
    · cases found

namespace Consumer

/-- Everything yielded so far is the log from the start on. -/
def Caught (log : List ε) (c : Consumer ε) (n : Nat) : Prop :=
  Inside log c.first n ∧ c.out = delivered log c.first n

/-- The last pair is the fell-behind error; the seq it needed was evicted. -/
def Lost (log : List ε) (base : Nat) (c : Consumer ε) : Prop :=
  ∃ (n m : Nat) (traceId : String), Inside log c.first n ∧ c.first + n < m ∧ m ≤ base ∧
    c.out = delivered log c.first n ++ [(.error userSafeFellBehind traceId, (m : Int) - 1)]

def Ok (b : RingBuffer ε) (log : List ε) (c : Consumer ε) : Prop :=
  match c.pc with
  | .created => c.out = [] ∧ c.opened = none
  | .yielded => ∃ n, c.Caught log n ∧ c.seq + 1 = c.first + n ∧ c.seq + 1 ≤ b.nextSeq
  | .waiting flag => ∃ n, c.Caught log n ∧ c.seq = c.first + n ∧ c.seq ≤ b.nextSeq ∧
      flag ≤ b.flag ∧ (flag = b.flag → c.seq = b.nextSeq ∧ b.closed = false)
  | .fellBehind => c.Lost log b.base
  | .returned => c.Lost log b.base ∨
      ∃ n, c.Caught log n ∧ c.first + n = b.nextSeq ∧ b.closed = true
  | .detached => c.Lost log b.base ∨ ∃ n, c.Caught log n
  | .raised => False

end Consumer

structure Holds (b : RingBuffer ε) (log : List ε) : Prop where
  suffix : b.events = log.drop b.base
  whole : b.nextSeq = log.length

/-- How far a buffer and its log can have moved between two looks of a consumer. -/
structure Advances (b b' : RingBuffer ε) (log log' : List ε) : Prop where
  base : b.base ≤ b'.base
  next : b.nextSeq ≤ b'.nextSeq
  log : ∃ more, log' = log ++ more
  flag : b.flag ≤ b'.flag
  notified : b.flag = b'.flag → b'.nextSeq = b.nextSeq ∧ b'.closed = b.closed
  closed : b.closed = true → b'.nextSeq = b.nextSeq ∧ b'.closed = true

theorem Inside.append {log : List ε} {first : Int} {n : Nat} (inside : Inside log first n)
    (more : List ε) : Inside (log ++ more) first n := by
  rcases inside with none | ⟨positive, bound⟩
  · exact Or.inl none
  · refine Or.inr ⟨positive, ?_⟩
    rw [List.length_append]
    omega

theorem Consumer.Caught.advance {b b' : RingBuffer ε} {log log' : List ε} {c : Consumer ε} {n : Nat}
    (caught : c.Caught log n) (ahead : Advances b b' log log') : c.Caught log' n := by
  obtain ⟨more, rfl⟩ := ahead.log
  exact ⟨caught.1.append more, by rw [caught.2, delivered_append caught.1]⟩

theorem Consumer.Lost.advance {b b' : RingBuffer ε} {log log' : List ε} {c : Consumer ε}
    (lost : c.Lost log b.base) (ahead : Advances b b' log log') : c.Lost log' b'.base := by
  obtain ⟨n, m, traceId, inside, missed, evicted, out⟩ := lost
  obtain ⟨more, rfl⟩ := ahead.log
  refine ⟨n, m, traceId, inside.append more, missed, le_trans evicted ahead.base, ?_⟩
  rw [out, delivered_append inside]

theorem Consumer.Ok.advance {b b' : RingBuffer ε} {log log' : List ε} {c : Consumer ε}
    (ok : c.Ok b log) (ahead : Advances b b' log log') : c.Ok b' log' := by
  unfold Consumer.Ok at ok ⊢
  have next := ahead.next
  cases suspended : c.pc with
  | created =>
    simp only [suspended] at ok ⊢
    exact ok
  | yielded =>
    simp only [suspended] at ok ⊢
    obtain ⟨n, caught, position, bound⟩ := ok
    exact ⟨n, caught.advance ahead, position, by omega⟩
  | waiting flag =>
    simp only [suspended] at ok ⊢
    obtain ⟨n, caught, position, bound, older, current⟩ := ok
    refine ⟨n, caught.advance ahead, position, by omega, le_trans older ahead.flag, ?_⟩
    intro unset
    have still : b.flag = b'.flag := le_antisymm ahead.flag (by omega)
    obtain ⟨sameNext, sameClosed⟩ := ahead.notified still
    rw [sameNext, sameClosed]
    exact current (by omega)
  | fellBehind =>
    simp only [suspended] at ok ⊢
    exact ok.advance ahead
  | returned =>
    simp only [suspended] at ok ⊢
    rcases ok with lost | ⟨n, caught, drained, closed⟩
    · exact Or.inl (lost.advance ahead)
    · obtain ⟨sameNext, stays⟩ := ahead.closed closed
      exact Or.inr ⟨n, caught.advance ahead, by rw [sameNext, drained], stays⟩
  | detached =>
    simp only [suspended] at ok ⊢
    rcases ok with lost | ⟨n, caught⟩
    · exact Or.inl (lost.advance ahead)
    · exact Or.inr ⟨n, caught.advance ahead⟩
  | raised =>
    simp only [suspended] at ok

theorem Consumer.visit_ok {b : RingBuffer ε} {log : List ε} (holds : Holds b log) (traceId : String)
    {c : Consumer ε} {n : Nat} (caught : c.Caught log n) (position : c.seq = c.first + n)
    (bound : c.seq ≤ b.nextSeq) : (c.visit b traceId).Ok b log := by
  have whole := holds.whole
  unfold Consumer.visit
  split
  case isTrue evicted =>
    refine ⟨n, b.base, traceId, caught.1, ?_, le_refl _, ?_⟩
    · show c.first + n < b.base
      omega
    · show c.out ++ _ = _
      rw [caught.2]
      rfl
  case isFalse held =>
    split
    case isTrue available =>
      have here : b.get c.seq = log[c.seq.toNat]? := by
        have index : b.base + (c.seq - b.base).toNat = c.seq.toNat := by omega
        rw [RingBuffer.get, if_neg held, holds.suffix, List.getElem?_drop, index]
      have inRange : c.seq.toNat < log.length := by omega
      have positive : 0 ≤ c.first := by
        rcases caught.1 with rfl | ⟨positive, _⟩ <;> omega
      rw [here, List.getElem?_eq_getElem inRange]
      refine ⟨n + 1, ⟨Or.inr ⟨positive, ?_⟩, ?_⟩, ?_, ?_⟩
      · show c.first + (n + 1 : Nat) ≤ log.length
        omega
      · have next : log[(c.first + n).toNat]? = some log[c.seq.toNat] := by
          rw [← position, List.getElem?_eq_getElem inRange]
        show c.out ++ [(.event log[c.seq.toNat], c.seq)] = delivered log c.first (n + 1)
        rw [delivered_succ positive next, ← position, caught.2]
      · show c.seq + 1 = c.first + (n + 1 : Nat)
        omega
      · show c.seq + 1 ≤ b.nextSeq
        omega
    case isFalse drained =>
      split
      case isTrue closed =>
        exact Or.inr ⟨n, caught, by show c.first + n = b.nextSeq; omega, closed⟩
      case isFalse isOpen =>
        refine ⟨n, caught, position, bound, le_refl _, fun _ => ⟨?_, by simpa using isOpen⟩⟩
        show c.seq = b.nextSeq
        omega

theorem Consumer.enter_ok {b : RingBuffer ε} {log : List ε} (holds : Holds b log)
    (traceId : String) {c : Consumer ε} (fresh : c.out = []) :
    ((c.enter b).visit b traceId).Ok b log := by
  have nothing : (c.enter b).Caught log 0 := ⟨Or.inl rfl, by simp [Consumer.enter, fresh]⟩
  have start : (c.enter b).seq = (c.enter b).first := rfl
  refine Consumer.visit_ok holds traceId nothing (by omega) ?_
  have base : b.base ≤ b.nextSeq := Nat.le_add_right _ _
  by_cases ahead : (b.nextSeq : Int) < c.cursor
  · simp only [Consumer.enter, if_pos ahead]
    omega
  · simp only [Consumer.enter, if_neg ahead]
    omega

theorem Consumer.Ok.resume {b : RingBuffer ε} {log : List ε} (holds : Holds b log)
    {traceId : String} {c after : Consumer ε} (ok : c.Ok b log)
    (resumed : c.resume b traceId = some after) : after.Ok b log := by
  unfold Consumer.Ok at ok
  unfold Consumer.resume at resumed
  cases suspended : c.pc with
  | created =>
    simp only [suspended, Option.some.injEq] at ok resumed
    rw [← resumed]
    exact Consumer.enter_ok holds traceId ok.1
  | yielded =>
    simp only [suspended, Option.some.injEq] at ok resumed
    obtain ⟨n, caught, position, bound⟩ := ok
    rw [← resumed]
    exact Consumer.visit_ok holds traceId (c := { c with seq := c.seq + 1 }) caught position bound
  | waiting flag =>
    simp only [suspended] at ok resumed
    obtain ⟨n, caught, position, bound, _, _⟩ := ok
    split at resumed
    · rw [← Option.some.inj resumed]
      exact Consumer.visit_ok holds traceId caught position bound
    · cases resumed
  | fellBehind =>
    simp only [suspended, Option.some.injEq] at ok resumed
    rw [← resumed]
    exact Or.inl ok
  | returned => simp [suspended] at resumed
  | detached => simp [suspended] at resumed
  | raised => simp [suspended] at resumed

theorem Consumer.Ok.detach {b : RingBuffer ε} {log : List ε} {c : Consumer ε} (ok : c.Ok b log) :
    Consumer.Ok b log { c with pc := .detached } := by
  unfold Consumer.Ok at ok
  cases suspended : c.pc with
  | created =>
    simp only [suspended] at ok
    exact Or.inr ⟨0, Or.inl rfl, by simp [ok.1]⟩
  | yielded =>
    simp only [suspended] at ok
    obtain ⟨n, caught, _⟩ := ok
    exact Or.inr ⟨n, caught⟩
  | waiting flag =>
    simp only [suspended] at ok
    obtain ⟨n, caught, _⟩ := ok
    exact Or.inr ⟨n, caught⟩
  | fellBehind =>
    simp only [suspended] at ok
    exact Or.inl ok
  | returned =>
    simp only [suspended] at ok
    rcases ok with lost | ⟨n, caught, _⟩
    · exact Or.inl lost
    · exact Or.inr ⟨n, caught⟩
  | detached =>
    simp only [suspended] at ok
    exact ok
  | raised => simp only [suspended] at ok

structure Room.Ok (room : Room ε) : Prop where
  holds : Holds room.buffer room.log
  consumers : ∀ c ∈ room.consumers, c.Ok room.buffer room.log

theorem Room.Ok.new (maxsize : Int) : (Room.new maxsize : Room ε).Ok where
  holds := ⟨rfl, rfl⟩
  consumers := by
    intro c present
    cases present

theorem append_advances (onCharge : Int → Nat → Int × Int) (onRefund : Int → Nat → Int)
    (nbytes : ε → Nat) {b : RingBuffer ε} {log : List ε} (holds : Holds b log) (used : Int)
    (event : ε) :
    let b' := (b.append onCharge onRefund nbytes used event).1
    let log' := if b.closed then log else log ++ [event]
    Holds b' log' ∧ Advances b b' log log' := by
  intro b' log'
  by_cases closed : b.closed = true
  · have same : b' = b := congrArg Prod.fst
      (RingBuffer.append_closed onCharge onRefund nbytes closed used event)
    have sameLog : log' = log := if_pos closed
    rw [same, sameLog]
    exact ⟨holds, le_refl _, le_refl _, ⟨[], by simp⟩, le_refl _, fun _ => ⟨rfl, rfl⟩,
      fun _ => ⟨rfl, closed⟩⟩
  · have isOpen : b.closed = false := by simpa using closed
    have longer : log' = log ++ [event] := if_neg closed
    obtain ⟨k, bound, events', _, base'⟩ :=
      RingBuffer.append_open onCharge onRefund nbytes isOpen used event
    have next : b'.nextSeq = b.nextSeq + 1 := RingBuffer.append_nextSeq isOpen used event
    have flag : b'.flag = b.flag + 1 := by simp [b', RingBuffer.append, isOpen]
    have whole := holds.whole
    have reach : b.base ≤ log.length := by
      rw [← whole]
      exact Nat.le_add_right _ _
    rw [longer]
    refine ⟨⟨?_, ?_⟩, ?_, ?_, ⟨[event], rfl⟩, ?_, ?_, ?_⟩
    · calc
        b'.events = (b.events ++ [event]).drop k := events'
        _ = ((log ++ [event]).drop b.base).drop k := by
          rw [holds.suffix, List.drop_append_of_le_length reach]
        _ = (log ++ [event]).drop b'.base := by rw [List.drop_drop, base']
    · rw [next, whole, List.length_append, List.length_singleton]
    · rw [base']
      exact Nat.le_add_right _ _
    · omega
    · omega
    · intro same
      omega
    · intro bad
      exact absurd bad closed

theorem close_advances (b : RingBuffer ε) (log : List ε) : Advances b b.close log log where
  base := le_refl _
  next := le_refl _
  log := ⟨[], by simp⟩
  flag := Nat.le_succ _
  notified := by
    intro same
    exact absurd same (Nat.ne_of_lt (Nat.lt_succ_self _))
  closed := fun _ => ⟨rfl, rfl⟩

theorem dropAll_advances (onRefund : Int → Nat → Int) (b : RingBuffer ε) (used : Int)
    (log : List ε) : Advances b (b.dropAll onRefund used).1 log log where
  base := le_refl _
  next := le_refl _
  log := ⟨[], by simp⟩
  flag := le_refl _
  notified := fun _ => ⟨rfl, rfl⟩
  closed := fun closed => ⟨rfl, closed⟩

variable {onCharge : Int → Nat → Int × Int} {onRefund : Int → Nat → Int} {nbytes : ε → Nat}

theorem mem_set_cases {α : Type} {items : List α} {i : Nat} {new item : α}
    (present : item ∈ items.set i new) : item = new ∨ item ∈ items := by
  rcases List.mem_or_eq_of_mem_set present with old | rfl
  · exact Or.inr old
  · exact Or.inl rfl

theorem Room.Ok.step {room after : Room ε} {a : RoomAction ε} (ok : room.Ok)
    (taken : room.step onCharge onRefund nbytes a = some after) : after.Ok := by
  cases a with
  | append used event =>
    cases taken
    obtain ⟨holds, ahead⟩ := append_advances onCharge onRefund nbytes ok.holds used event
    exact ⟨holds, fun c present => (ok.consumers c present).advance ahead⟩
  | close =>
    cases taken
    refine ⟨⟨ok.holds.suffix, ok.holds.whole⟩, ?_⟩
    exact fun c present => (ok.consumers c present).advance (close_advances _ _)
  | dropAll used =>
    cases taken
    refine ⟨⟨ok.holds.suffix, ok.holds.whole⟩, ?_⟩
    exact fun c present => (ok.consumers c present).advance (dropAll_advances onRefund _ used _)
  | setTrace traceId =>
    cases taken
    exact ⟨ok.holds, ok.consumers⟩
  | attach lastEventId =>
    cases taken
    refine ⟨ok.holds, ?_⟩
    intro c present
    rcases List.mem_append.mp present with old | new
    · exact ok.consumers c old
    · cases List.mem_singleton.mp new
      exact ⟨rfl, rfl⟩
  | resume i =>
    obtain ⟨c, here, taken⟩ := Option.bind_eq_some_iff.mp taken
    obtain ⟨resumed, running, taken⟩ := Option.bind_eq_some_iff.mp taken
    cases taken
    refine ⟨ok.holds, ?_⟩
    intro d present
    rcases mem_set_cases present with rfl | old
    · exact (ok.consumers c (List.mem_of_getElem? here)).resume ok.holds running
    · exact ok.consumers d old
  | detach i =>
    obtain ⟨c, here, taken⟩ := Option.bind_eq_some_iff.mp taken
    split at taken
    · cases taken
    · cases taken
      refine ⟨ok.holds, ?_⟩
      intro d present
      rcases mem_set_cases present with rfl | old
      · exact (ok.consumers c (List.mem_of_getElem? here)).detach
      · exact ok.consumers d old

/-- What a drive does to a consumer besides its position. -/
structure Consumer.Grows (c after : Consumer ε) : Prop where
  out : ∃ more, after.out = c.out ++ more
  lastEventId : after.lastEventId = c.lastEventId
  driven : after.pc ≠ .created ∧ after.pc ≠ .detached

theorem Consumer.visit_grows (b : RingBuffer ε) (traceId : String) (c : Consumer ε) :
    c.Grows (c.visit b traceId) ∧ (c.visit b traceId).opened = c.opened := by
  rw [Consumer.visit]
  split
  · exact ⟨⟨⟨_, rfl⟩, rfl, by simp⟩, rfl⟩
  · split
    · split
      · exact ⟨⟨⟨_, rfl⟩, rfl, by simp⟩, rfl⟩
      · exact ⟨⟨⟨[], by simp⟩, rfl, by simp⟩, rfl⟩
    · split
      · exact ⟨⟨⟨[], by simp⟩, rfl, by simp⟩, rfl⟩
      · exact ⟨⟨⟨[], by simp⟩, rfl, by simp⟩, rfl⟩

theorem Consumer.resume_grows {b : RingBuffer ε} {traceId : String} {c after : Consumer ε}
    (resumed : c.resume b traceId = some after) :
    c.Grows after ∧
      after.opened = if c.pc = .created then some (b.base, b.nextSeq) else c.opened := by
  unfold Consumer.resume at resumed
  cases suspended : c.pc with
  | created =>
    simp only [suspended, Option.some.injEq] at resumed
    rw [← resumed, if_pos rfl]
    obtain ⟨grows, opened⟩ := Consumer.visit_grows b traceId (c.enter b)
    exact ⟨⟨grows.out, grows.lastEventId, grows.driven⟩, opened⟩
  | yielded =>
    simp only [suspended, Option.some.injEq] at resumed
    rw [← resumed, if_neg (by simp)]
    obtain ⟨grows, opened⟩ := Consumer.visit_grows b traceId { c with seq := c.seq + 1 }
    exact ⟨⟨grows.out, grows.lastEventId, grows.driven⟩, opened⟩
  | fellBehind =>
    simp only [suspended, Option.some.injEq] at resumed
    rw [← resumed, if_neg (by simp)]
    exact ⟨⟨⟨[], by simp⟩, rfl, by simp⟩, rfl⟩
  | waiting flag =>
    simp only [suspended] at resumed
    split at resumed
    · rw [← Option.some.inj resumed, if_neg (by simp)]
      exact Consumer.visit_grows b traceId c
    · cases resumed
  | returned => simp [suspended] at resumed
  | detached => simp [suspended] at resumed
  | raised => simp [suspended] at resumed

theorem Room.step_consumer {room after : Room ε} {a : RoomAction ε} {k : Nat} {c : Consumer ε}
    (taken : room.step onCharge onRefund nbytes a = some after)
    (here : room.consumers[k]? = some c) : ∃ d, after.consumers[k]? = some d ∧
      (d = c ∨ a = .resume k ∧ c.resume room.buffer room.traceId = some d ∨
        a = .detach k ∧ d = { c with pc := .detached }) := by
  have bound : k < room.consumers.length := (List.getElem?_eq_some_iff.mp here).1
  cases a with
  | attach lastEventId =>
    cases taken
    exact ⟨c, by simpa [List.getElem?_append_left bound] using here, Or.inl rfl⟩
  | resume i =>
    obtain ⟨d, found, taken⟩ := Option.bind_eq_some_iff.mp taken
    obtain ⟨resumed, running, taken⟩ := Option.bind_eq_some_iff.mp taken
    cases taken
    by_cases same : i = k
    · rw [same, here] at found
      cases found
      exact ⟨resumed, by simp [same, bound], Or.inr (Or.inl ⟨by rw [same], running⟩)⟩
    · exact ⟨c, by simpa [List.getElem?_set_ne same] using here, Or.inl rfl⟩
  | detach i =>
    obtain ⟨d, found, taken⟩ := Option.bind_eq_some_iff.mp taken
    split at taken
    · cases taken
    · cases taken
      by_cases same : i = k
      · rw [same, here] at found
        cases found
        exact ⟨_, by simp [same, bound], Or.inr (Or.inr ⟨by rw [same], rfl⟩)⟩
      · exact ⟨c, by simpa [List.getElem?_set_ne same] using here, Or.inl rfl⟩
  | _ =>
    cases taken
    exact ⟨c, here, Or.inl rfl⟩

theorem room_ok {maxsize : Int} {room : Room ε}
    (reached : Reachable (Room.step onCharge onRefund nbytes) (Room.new maxsize) room) : room.Ok :=
  reached.invariant (fun before taken => before.step taken) (Room.Ok.new maxsize)

/-- What a consumer has yielded is the log from its first seq on, possibly
followed by one fell-behind error; it returned at the end of a closed buffer or
after that error, and a consumer asleep on an unset flag has missed nothing. -/
def Consumer.GapFree (room : Room ε) (c : Consumer ε) : Prop :=
  c.pc ≠ .raised ∧ ∃ n, Inside room.log c.first n ∧
    (c.out = delivered room.log c.first n ∧
        (c.pc = .returned → room.buffer.closed = true ∧ c.first + n = room.log.length) ∧
        (∀ flag, c.pc = .waiting flag → flag < room.buffer.flag ∨
          room.buffer.closed = false ∧ c.first + n = room.log.length) ∨
      ∃ (m : Nat) (traceId : String), c.first + n < m ∧ m ≤ room.buffer.base ∧
        (c.pc = .fellBehind ∨ c.pc = .returned ∨ c.pc = .detached) ∧
        c.out = delivered room.log c.first n ++
          [(.error userSafeFellBehind traceId, (m : Int) - 1)])

theorem Consumer.Lost.gapFree {room : Room ε} {c : Consumer ε}
    (lost : c.Lost room.log room.buffer.base)
    (finished : c.pc = .fellBehind ∨ c.pc = .returned ∨ c.pc = .detached) : c.GapFree room := by
  obtain ⟨n, m, traceId, inside, missed, evicted, out⟩ := lost
  refine ⟨?_, n, inside, Or.inr ⟨m, traceId, missed, evicted, finished, out⟩⟩
  rcases finished with pc | pc | pc <;> simp [pc]

theorem Consumer.Ok.gapFree {room : Room ε} {c : Consumer ε} (holds : Holds room.buffer room.log)
    (ok : c.Ok room.buffer room.log) : c.GapFree room := by
  have whole := holds.whole
  unfold Consumer.Ok at ok
  cases suspended : c.pc with
  | created =>
    simp only [suspended] at ok
    exact ⟨by simp [suspended], 0, Or.inl rfl, Or.inl (by simp [suspended, ok.1])⟩
  | yielded =>
    simp only [suspended] at ok
    obtain ⟨n, caught, _⟩ := ok
    exact ⟨by simp [suspended], n, caught.1, Or.inl ⟨caught.2, by simp [suspended]⟩⟩
  | waiting flag =>
    simp only [suspended] at ok
    obtain ⟨n, caught, position, _, older, current⟩ := ok
    refine ⟨by simp [suspended], n, caught.1, Or.inl ⟨caught.2, by simp [suspended], ?_⟩⟩
    intro flag' same
    rw [suspended] at same
    cases same
    by_cases unset : flag = room.buffer.flag
    · obtain ⟨next, isOpen⟩ := current unset
      exact Or.inr ⟨isOpen, by omega⟩
    · exact Or.inl (by omega)
  | fellBehind =>
    simp only [suspended] at ok
    exact ok.gapFree (Or.inl suspended)
  | returned =>
    simp only [suspended] at ok
    rcases ok with lost | ⟨n, caught, drained, closed⟩
    · exact lost.gapFree (Or.inr (Or.inl suspended))
    · refine ⟨by simp [suspended], n, caught.1, Or.inl ⟨caught.2, ?_, by simp [suspended]⟩⟩
      intro _
      exact ⟨closed, by omega⟩
  | detached =>
    simp only [suspended] at ok
    rcases ok with lost | ⟨n, caught⟩
    · exact lost.gapFree (Or.inr (Or.inr suspended))
    · exact ⟨by simp [suspended], n, caught.1, Or.inl ⟨caught.2, by simp [suspended]⟩⟩
  | raised => simp only [suspended] at ok

theorem Consumer.GapFree.seen {room : Room ε} {c : Consumer ε} (free : c.GapFree room) {e : ε}
    {seq : Int} (seen : (Item.event e, seq) ∈ c.out) : room.log[seq.toNat]? = some e := by
  obtain ⟨_, n, inside, ⟨out, _⟩ | ⟨m, traceId, _, _, _, out⟩⟩ := free
  · rw [out] at seen
    exact (mem_delivered inside seen).2
  · rw [out] at seen
    rcases List.mem_append.mp seen with early | last
    · exact (mem_delivered inside early).2
    · simp at last

theorem Consumer.resume_error {b : RingBuffer ε} {traceId message trace : String}
    {c after : Consumer ε} {seq : Int} (resumed : c.resume b traceId = some after)
    (fell : after.out = c.out ++ [(.error message trace, seq)]) : seq = (b.base : Int) - 1 := by
  have visited : ∀ d : Consumer ε, d.out = c.out →
      (d.visit b traceId).out = c.out ++ [(.error message trace, seq)] →
      seq = (b.base : Int) - 1 := by
    intro d same out
    unfold Consumer.visit at out
    split at out
    · simp only [same, List.append_cancel_left_eq, List.cons.injEq, Prod.mk.injEq] at out
      exact out.1.2.symm
    · split at out
      · split at out
        · simp [same] at out
        · simp [same] at out
      · split at out <;> simp [same] at out
  unfold Consumer.resume at resumed
  cases suspended : c.pc with
  | created =>
    simp only [suspended, Option.some.injEq] at resumed
    rw [← resumed] at fell
    exact visited (c.enter b) rfl fell
  | yielded =>
    simp only [suspended, Option.some.injEq] at resumed
    rw [← resumed] at fell
    exact visited { c with seq := c.seq + 1 } rfl fell
  | waiting flag =>
    simp only [suspended] at resumed
    split at resumed
    · rw [← Option.some.inj resumed] at fell
      exact visited c rfl fell
    · cases resumed
  | fellBehind =>
    simp only [suspended, Option.some.injEq] at resumed
    rw [← resumed] at fell
    simp at fell
  | returned => simp [suspended] at resumed
  | detached => simp [suspended] at resumed
  | raised => simp [suspended] at resumed

/-- Gap-free replay, for every order of producer and consumer steps and whatever
the callbacks make the buffer evict. -/
theorem gap_free_replay (onCharge : Int → Nat → Int × Int) (onRefund : Int → Nat → Int)
    (nbytes : ε → Nat) (maxsize : Int) {room : Room ε}
    (reached : Reachable (Room.step onCharge onRefund nbytes) (Room.new maxsize) room) :
    (∀ c ∈ room.consumers, c.GapFree room) ∧
      (∀ c ∈ room.consumers, ∀ after message traceId seq,
        c.resume room.buffer room.traceId = some after →
        after.out = c.out ++ [(.error message traceId, seq)] →
        seq = (room.buffer.base : Int) - 1) ∧
      ∀ c ∈ room.consumers, ∀ d ∈ room.consumers, ∀ e f seq,
        (Item.event e, seq) ∈ c.out → (Item.event f, seq) ∈ d.out → e = f := by
  have ok := room_ok reached
  have free : ∀ c ∈ room.consumers, c.GapFree room :=
    fun c present => (ok.consumers c present).gapFree ok.holds
  refine ⟨free, ?_, ?_⟩
  · intro c _ after message traceId seq resumed fell
    exact Consumer.resume_error resumed fell
  · intro c cPresent d dPresent e f seq seenC seenD
    have atC := (free c cPresent).seen seenC
    have atD := (free d dPresent).seen seenD
    rw [atC] at atD
    exact Option.some.inj atD

def roomStep : Room String → RoomAction String → Option (Room String) :=
  Room.step (chargeBytes 600) refundBytes (eventNbytes some)

/-- One consumer reads the first event, which the second append evicts at an
event cap of one; a consumer attached then starts below the base. -/
def evictedStart : List (RoomAction String) :=
  [.attach none, .append 0 "a", .resume 0, .append 257 "b", .attach none, .resume 1]

theorem gap_free_replay_evicted : ∃ room, run roomStep (Room.new 1) evictedStart = some room ∧
    (∀ c ∈ room.consumers, c.GapFree room) ∧ room.consumers.length = 2 := by
  refine ⟨_, rfl, ?_, rfl⟩
  exact (gap_free_replay (chargeBytes 600) refundBytes (eventNbytes some) 1 ⟨evictedStart, rfl⟩).1

/-- The error that ends the second consumer has the seq the first one saw an event at. -/
theorem fell_behind_seq_reused : ∃ room c d, run roomStep (Room.new 1) evictedStart = some room ∧
    c ∈ room.consumers ∧ d ∈ room.consumers ∧ (.event "a", 0) ∈ c.out ∧
      (.error userSafeFellBehind "", 0) ∈ d.out := by
  refine ⟨_, _, _, rfl, .head _, .tail _ (.head _), ?_, ?_⟩
  · exact .head _
  · exact .head _

end Counselle.Turns

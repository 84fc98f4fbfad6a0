import Mathlib.Algebra.Order.BigOperators.Group.List
import Mathlib.Algebra.Ring.Nat

/-! `_RingBuffer` of `app/turns.py`: the per-turn event log with head eviction.
The shared byte budget is the caller's; `onCharge` and `onRefund` are its two
callbacks, as functions of the counter. Sequence numbers are positions in the
log of everything ever appended, of which a buffer keeps a suffix. -/
namespace Counselle.Turns
variable {ε : Type}

structure RingBuffer (ε : Type) where
  maxsize : Nat
  events : List ε
  /-- Parallel to `events` until `dropAll`: each event's nbytes. -/
  sizes : List Nat
  /-- seq of `events[0]` -/
  base : Nat
  closed : Bool
  /-- Generation of the current wakeup flag; every earlier generation is set. -/
  flag : Nat
  maxsize_pos : 0 < maxsize

namespace RingBuffer

def new (maxsize : Int) : RingBuffer ε where
  maxsize := (max 1 maxsize).toNat
  events := []
  sizes := []
  base := 0
  closed := false
  flag := 0
  maxsize_pos := by omega

def nextSeq (b : RingBuffer ε) : Nat := b.base + b.events.length

/-- `get`: `_events[seq - base]`, absent outside the held window. -/
def get (b : RingBuffer ε) (seq : Int) : Option ε :=
  if seq < b.base then none else b.events[(seq - b.base).toNat]?

/-- What the eviction loop of `append` changes. -/
structure Window (ε : Type) where
  events : List ε
  sizes : List Nat
  base : Nat
  used : Int

/-- The `while` of `append`: evict heads while over the event cap or over the
byte budget, never the only event. `headroom` is the loop's local count. -/
def evictHeads (onRefund : Int → Nat → Int) (maxsize : Nat) :
    List ε → List Nat → Nat → Int → Int → Window ε
  | e :: next :: rest, sizes, base, used, headroom =>
    if maxsize < (e :: next :: rest).length ∨ headroom < 0 then
      -- `sizes.pop(0)`: the two lists are parallel while the buffer is open
      let evicted := sizes.headD 0
      evictHeads onRefund maxsize (next :: rest) sizes.tail (base + 1)
        (onRefund used evicted) (headroom + evicted)
    else ⟨e :: next :: rest, sizes, base, used⟩
  | events, sizes, base, used, _ => ⟨events, sizes, base, used⟩

/-- `append`, with the counter before and after it. -/
def append (onCharge : Int → Nat → Int × Int) (onRefund : Int → Nat → Int) (nbytes : ε → Nat)
    (b : RingBuffer ε) (used : Int) (event : ε) : RingBuffer ε × Int :=
  if b.closed then
    -- append after close is ignored
    (b, used)
  else
    let charged := onCharge used (nbytes event)
    let kept := evictHeads onRefund b.maxsize (b.events ++ [event]) (b.sizes ++ [nbytes event])
      b.base charged.1 charged.2
    ({ b with events := kept.events, sizes := kept.sizes, base := kept.base, flag := b.flag + 1 },
      kept.used)

def close (b : RingBuffer ε) : RingBuffer ε := { b with closed := true, flag := b.flag + 1 }

/-- `drop_all`: refund every size still held; the events stay readable. -/
def dropAll (onRefund : Int → Nat → Int) (b : RingBuffer ε) (used : Int) : RingBuffer ε × Int :=
  ({ b with sizes := [] }, b.sizes.foldl onRefund used)

/-- The bytes the shared budget is charged for this buffer. -/
def held (b : RingBuffer ε) : Nat := b.sizes.sum

def Parallel (b : RingBuffer ε) : Prop := b.closed = false → b.sizes.length = b.events.length

@[simp] theorem new_held (maxsize : Int) : (new maxsize : RingBuffer ε).held = 0 := rfl
@[simp] theorem new_events (maxsize : Int) : (new maxsize : RingBuffer ε).events = [] := rfl
@[simp] theorem new_base (maxsize : Int) : (new maxsize : RingBuffer ε).base = 0 := rfl
@[simp] theorem new_closed (maxsize : Int) : (new maxsize : RingBuffer ε).closed = false := rfl
theorem new_parallel (maxsize : Int) : (new maxsize : RingBuffer ε).Parallel := fun _ => rfl

@[simp] theorem close_events (b : RingBuffer ε) : b.close.events = b.events := rfl
@[simp] theorem close_base (b : RingBuffer ε) : b.close.base = b.base := rfl
@[simp] theorem close_closed (b : RingBuffer ε) : b.close.closed = true := rfl
@[simp] theorem close_held (b : RingBuffer ε) : b.close.held = b.held := rfl
@[simp] theorem close_maxsize (b : RingBuffer ε) : b.close.maxsize = b.maxsize := rfl

variable {onCharge : Int → Nat → Int × Int} {onRefund : Int → Nat → Int} {nbytes : ε → Nat}

@[simp] theorem dropAll_events (b : RingBuffer ε) (used : Int) :
    (b.dropAll onRefund used).1.events = b.events := rfl
@[simp] theorem dropAll_base (b : RingBuffer ε) (used : Int) :
    (b.dropAll onRefund used).1.base = b.base := rfl
@[simp] theorem dropAll_closed (b : RingBuffer ε) (used : Int) :
    (b.dropAll onRefund used).1.closed = b.closed := rfl
@[simp] theorem dropAll_held (b : RingBuffer ε) (used : Int) :
    (b.dropAll onRefund used).1.held = 0 := rfl
@[simp] theorem dropAll_maxsize (b : RingBuffer ε) (used : Int) :
    (b.dropAll onRefund used).1.maxsize = b.maxsize := rfl

theorem append_closed (onCharge : Int → Nat → Int × Int) (onRefund : Int → Nat → Int)
    (nbytes : ε → Nat) {b : RingBuffer ε} (closed : b.closed = true) (used : Int) (event : ε) :
    b.append onCharge onRefund nbytes used event = (b, used) := if_pos closed

@[simp] theorem append_maxsize (b : RingBuffer ε) (used : Int) (event : ε) :
    (b.append onCharge onRefund nbytes used event).1.maxsize = b.maxsize := by
  unfold append
  split <;> rfl

@[simp] theorem append_stays_closed (b : RingBuffer ε) (used : Int) (event : ε) :
    (b.append onCharge onRefund nbytes used event).1.closed = b.closed := by
  unfold append
  split <;> rfl

theorem evictHeads_suffix (onRefund : Int → Nat → Int) (maxsize : Nat) (events : List ε)
    (sizes : List Nat) (base : Nat) (used headroom : Int) :
    ∃ k, (evictHeads onRefund maxsize events sizes base used headroom).events = events.drop k ∧
      (evictHeads onRefund maxsize events sizes base used headroom).sizes = sizes.drop k ∧
      (evictHeads onRefund maxsize events sizes base used headroom).base = base + k ∧
      (events ≠ [] → k < events.length) := by
  induction events generalizing sizes base used headroom with
  | nil => exact ⟨0, by simp [evictHeads]⟩
  | cons e rest ih =>
    cases rest with
    | nil => exact ⟨0, by simp [evictHeads]⟩
    | cons next rest =>
      rw [evictHeads]
      split
      · obtain ⟨k, events', sizes', base', bound⟩ :=
          ih sizes.tail (base + 1) (onRefund used (sizes.headD 0)) (headroom + (sizes.headD 0 : Nat))
        refine ⟨k + 1, events', ?_, ?_, ?_⟩
        · rw [sizes', List.drop_tail]
        · rw [base']; omega
        · intro _
          have := bound (by simp)
          simp only [List.length_cons] at this ⊢
          omega
      · exact ⟨0, by simp⟩

theorem append_open (onCharge : Int → Nat → Int × Int) (onRefund : Int → Nat → Int)
    (nbytes : ε → Nat) {b : RingBuffer ε} (isOpen : b.closed = false) (used : Int) (event : ε) :
    ∃ k ≤ b.events.length,
      (b.append onCharge onRefund nbytes used event).1.events = (b.events ++ [event]).drop k ∧
      (b.append onCharge onRefund nbytes used event).1.sizes = (b.sizes ++ [nbytes event]).drop k ∧
      (b.append onCharge onRefund nbytes used event).1.base = b.base + k := by
  obtain ⟨k, events', sizes', base', bound⟩ :=
    evictHeads_suffix onRefund b.maxsize (b.events ++ [event]) (b.sizes ++ [nbytes event]) b.base
      (onCharge used (nbytes event)).1 (onCharge used (nbytes event)).2
  have small := bound (by simp)
  simp only [List.length_append, List.length_singleton] at small
  refine ⟨k, by omega, ?_⟩
  unfold append
  rw [if_neg (by simp [isOpen])]
  exact ⟨events', sizes', base'⟩

theorem append_parallel {b : RingBuffer ε} (parallel : b.Parallel) (used : Int) (event : ε) :
    (b.append onCharge onRefund nbytes used event).1.Parallel := by
  intro isOpen
  rw [append_stays_closed] at isOpen
  obtain ⟨k, _, events', sizes', _⟩ := append_open onCharge onRefund nbytes isOpen used event
  rw [events', sizes']
  simp [parallel isOpen]

theorem append_nextSeq {b : RingBuffer ε} (isOpen : b.closed = false) (used : Int) (event : ε) :
    (b.append onCharge onRefund nbytes used event).1.nextSeq = b.nextSeq + 1 := by
  obtain ⟨k, bound, events', _, base'⟩ := append_open onCharge onRefund nbytes isOpen used event
  simp only [nextSeq, events', base', List.length_drop, List.length_append, List.length_singleton]
  omega

end RingBuffer
end Counselle.Turns

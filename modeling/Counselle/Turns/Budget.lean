import Counselle.Transition
import Counselle.Turns.Registry
import Mathlib.Algebra.Order.Group.Nat

/-! The shared byte budget over whole runs of the registry: claims, failed
starts, spawns, appends to any turn object a task still holds, closes and
finalizes, in any order. -/
namespace Counselle.Turns
open Transition
variable {ε : Type}

namespace Registry

/-- `start` past its claim, when the preparation raises: the claim is released. -/
def failStart (r : Registry ε) (t : Nat) (slot : Slot ε) : Registry ε :=
  { r with
    turns := r.turns.erase slot.sessionId
    slots := r.slots.set t { slot with phase := .failed } }

def spawn (r : Registry ε) (t : Nat) (slot : Slot ε) : Registry ε :=
  { r with slots := r.slots.set t { slot with phase := .spawned } }

/-- `turn.buffer.append(event)` from the task, a cancel, a drain or a steer. -/
def appendTo (refund : Int → Nat → Int) (settings : Settings) (dumps : ε → Option String)
    (r : Registry ε) (t : Nat) (slot : Slot ε) (event : ε) : Registry ε :=
  let appended := slot.buffer.append (chargeBytes settings.streamBufferBytes) refund
    (eventNbytes dumps) r.used event
  { r with slots := r.slots.set t { slot with buffer := appended.1 }, used := appended.2 }

def closeBuffer (r : Registry ε) (t : Nat) (slot : Slot ε) : Registry ε :=
  { r with slots := r.slots.set t { slot with buffer := slot.buffer.close } }

def finalize (refund : Int → Nat → Int) (r : Registry ε) (t : Nat) (slot : Slot ε) : Registry ε :=
  if slot.finalized then r
  else
    let dropped := slot.buffer.close.dropAll refund r.used
    { turns :=
        if r.turns.lookup slot.sessionId = some t then r.turns.erase slot.sessionId else r.turns
      slots := r.slots.set t { slot with buffer := dropped.1, finalized := true }
      used := dropped.2 }

end Registry

inductive RegistryAction (ε : Type) where
  | start (sid : SessionId) (mode : Option ResponseMode) (goalMode : Bool)
  | startContinuation (sid : SessionId) (mode : ResponseMode) (goalMode : Bool)
  | failStart (t : Nat)
  | spawn (t : Nat)
  | append (t : Nat) (event : ε)
  | close (t : Nat)
  | finalize (t : Nat)

/-- One step of the registry over a refund function. Only a spawned turn's
buffer is written to: before that its turn object is local to `start`. -/
def stepWith (refund : Int → Nat → Int) (settings : Settings) (dumps : ε → Option String)
    (r : Registry ε) : RegistryAction ε → Option (Registry ε)
  | .start sid mode goalMode => (r.start settings sid mode goalMode).toOption
  | .startContinuation sid mode goalMode =>
    (r.startContinuation settings sid mode goalMode).toOption
  | .failStart t => do
    let slot ← r.slots[t]?
    if slot.phase = .preparing then some (r.failStart t slot) else none
  | .spawn t => do
    let slot ← r.slots[t]?
    if slot.phase = .preparing then some (r.spawn t slot) else none
  | .append t event => do
    let slot ← r.slots[t]?
    if slot.phase = .spawned then some (r.appendTo refund settings dumps t slot event) else none
  | .close t => do
    let slot ← r.slots[t]?
    if slot.phase = .spawned then some (r.closeBuffer t slot) else none
  | .finalize t => do
    let slot ← r.slots[t]?
    if slot.phase = .spawned then some (r.finalize refund t slot) else none

/-- The registry as it is, with the clamp in `_refund_bytes`. -/
def step (settings : Settings) (dumps : ε → Option String) :
    Registry ε → RegistryAction ε → Option (Registry ε) :=
  stepWith refundBytes settings dumps

/-- `_refund_bytes` without its defensive clamp. -/
def refundUnclamped (used : Int) (nbytes : Nat) : Int := used - nbytes

/-- The sizes held by the buffers of the turns `_turns` points to. -/
def Registry.heldBytes (r : Registry ε) : Nat :=
  (r.slots.zipIdx.map fun (slot, t) =>
    if r.turns.lookup slot.sessionId = some t then slot.buffer.held else 0).sum

theorem refundBytes_of_le {used : Int} {nbytes : Nat} (enough : (nbytes : Int) ≤ used) :
    refundBytes used nbytes = used - nbytes := by
  unfold refundBytes
  rw [if_neg]
  omega

theorem evictHeads_accounts (budget other : Int) (maxsize : Nat) (covered : 0 ≤ other)
    (events : List ε) (sizes : List Nat) (base : Nat) (used headroom : Int)
    (parallel : sizes.length = events.length) (total : used = other + sizes.sum)
    (room : headroom = budget - used) :
    let kept := RingBuffer.evictHeads refundBytes maxsize events sizes base used headroom
    kept.used = other + kept.sizes.sum ∧
      (kept.used ≤ budget ∨ kept.events.length ≤ 1) ∧
      kept.events.length ≤ max 1 maxsize ∧
      RingBuffer.evictHeads refundUnclamped maxsize events sizes base used headroom = kept := by
  induction events generalizing sizes base used headroom with
  | nil => simp [RingBuffer.evictHeads, total]
  | cons e rest ih =>
    cases rest with
    | nil => simp [RingBuffer.evictHeads, total]
    | cons next rest =>
      simp only [RingBuffer.evictHeads]
      split
      case isTrue _ =>
        obtain ⟨head, tail, rfl⟩ : ∃ head tail, sizes = head :: tail := by
          cases sizes with
          | nil => simp at parallel
          | cons head tail => exact ⟨head, tail, rfl⟩
        simp only [List.sum_cons, Int.natCast_add] at total
        have refunded : refundBytes used head = used - head := refundBytes_of_le (by omega)
        simp only [List.headD_cons, List.tail_cons, refundUnclamped, refunded]
        exact ih _ _ _ _ (by simpa using parallel) (by omega) (by omega)
      case isFalse within =>
        simp only [not_or, not_lt] at within
        refine ⟨total, Or.inl ?_, le_trans within.1 (le_max_right _ _), rfl⟩
        show used ≤ budget
        omega

theorem append_accounts (budget other : Int) (covered : 0 ≤ other) (nbytes : ε → Nat)
    {b : RingBuffer ε} {used : Int} (parallel : b.Parallel) (isOpen : b.closed = false)
    (total : used = other + b.held) (event : ε) :
    let appended := b.append (chargeBytes budget) refundBytes nbytes used event
    appended.2 = other + appended.1.held ∧
      (appended.2 ≤ budget ∨ appended.1.events.length = 1) ∧
      appended.1.events.length ≤ b.maxsize ∧
      b.append (chargeBytes budget) refundUnclamped nbytes used event = appended := by
  obtain ⟨counted, within, capped, unclamped⟩ := evictHeads_accounts budget other b.maxsize covered
    (b.events ++ [event]) (b.sizes ++ [nbytes event]) b.base (used + nbytes event)
    (budget - (used + nbytes event)) (by simp [parallel isOpen])
    (by simp only [total, RingBuffer.held, List.sum_append, List.sum_singleton]; omega) rfl
  obtain ⟨k, bound, events', _, _⟩ :=
    RingBuffer.append_open (chargeBytes budget) refundBytes nbytes isOpen used event
  have nonempty : 0 < (b.append (chargeBytes budget) refundBytes nbytes used event).1.events.length
      := by
    rw [events']
    simp only [List.length_drop, List.length_append, List.length_singleton]
    omega
  have size := b.maxsize_pos
  simp only [RingBuffer.append, isOpen, Bool.false_eq_true, if_false, chargeBytes] at nonempty ⊢
  refine ⟨counted, ?_, by omega, by rw [unclamped]⟩
  rcases within with within | single
  · exact Or.inl within
  · exact Or.inr (by omega)

theorem foldl_refund (sizes : List Nat) (used : Int) (enough : (sizes.sum : Int) ≤ used) :
    sizes.foldl refundBytes used = used - sizes.sum ∧
      sizes.foldl refundUnclamped used = used - sizes.sum := by
  induction sizes generalizing used with
  | nil => simp
  | cons head tail ih =>
    simp only [List.sum_cons, Int.natCast_add] at enough
    have refunded : refundBytes used head = used - head := refundBytes_of_le (by omega)
    obtain ⟨clamped, unclamped⟩ := ih (used - head) (by omega)
    simp only [List.foldl_cons, refunded, refundUnclamped, clamped, unclamped, List.sum_cons,
      Int.natCast_add]
    omega

theorem sum_map_set {α : Type} (f : α → Nat) {items : List α} {i : Nat} {old : α} (new : α)
    (here : items[i]? = some old) :
    ((items.set i new).map f).sum + f old = (items.map f).sum + f new := by
  induction items generalizing i with
  | nil => simp at here
  | cons head tail ih =>
    cases i with
    | zero =>
      simp only [List.getElem?_cons_zero, Option.some.injEq] at here
      simp only [List.set_cons_zero, List.map_cons, List.sum_cons, here]
      omega
    | succ i =>
      simp only [List.getElem?_cons_succ] at here
      have tail := ih here
      simp only [List.set_cons_succ, List.map_cons, List.sum_cons]
      omega

def Registry.totalHeld (r : Registry ε) : Nat := (r.slots.map (·.buffer.held)).sum

theorem held_le_totalHeld {r : Registry ε} {t : Nat} {slot : Slot ε}
    (here : r.slots[t]? = some slot) : slot.buffer.held ≤ r.totalHeld := by
  have present := List.mem_of_getElem? here
  exact List.le_sum_of_mem (List.mem_map.mpr ⟨slot, present, rfl⟩)

theorem totalHeld_set {r : Registry ε} {t : Nat} {old : Slot ε} (new : Slot ε)
    (here : r.slots[t]? = some old) :
    ((r.slots.set t new).map (·.buffer.held)).sum + old.buffer.held =
      r.totalHeld + new.buffer.held :=
  sum_map_set (·.buffer.held) new here

/-- What holds of the turn object at index `t`: it stays in the dict until it is
finalized or its start fails, and only a spawned, unfinalized one holds bytes. -/
structure SlotOk (turns : AList fun _ : SessionId => Nat) (t : Nat) (slot : Slot ε) : Prop where
  live : slot.phase ≠ .failed → slot.finalized = false → turns.lookup slot.sessionId = some t
  begun : slot.finalized = true → slot.phase = .spawned
  closed : slot.finalized = true → slot.buffer.closed = true
  released : slot.phase ≠ .spawned ∨ slot.finalized = true → slot.buffer.held = 0
  parallel : slot.buffer.Parallel
  capped : slot.buffer.events.length ≤ slot.buffer.maxsize

structure Accounted (r : Registry ε) : Prop where
  counter : r.used = r.totalHeld
  slots : ∀ t slot, r.slots[t]? = some slot → SlotOk r.turns t slot

theorem Accounted.empty : Accounted (Registry.empty : Registry ε) where
  counter := rfl
  slots := by
    intro t slot here
    simp [Registry.empty] at here

theorem Accounted.heldBytes {r : Registry ε} (ok : Accounted r) : r.heldBytes = r.totalHeld := by
  have same : ∀ entry ∈ r.slots.zipIdx,
      (if r.turns.lookup entry.1.sessionId = some entry.2 then entry.1.buffer.held else 0) =
        entry.1.buffer.held := by
    rintro ⟨slot, t⟩ present
    have slotOk := ok.slots t slot (List.mem_zipIdx_iff_getElem?.mp present)
    split
    · rfl
    case isFalse dead =>
      refine (slotOk.released ?_).symm
      by_cases spawned : slot.phase = .spawned
      · refine Or.inr ?_
        by_contra unfinalized
        exact dead (slotOk.live (by simp [spawned]) (by simpa using unfinalized))
      · exact Or.inl spawned
  have all : r.slots.zipIdx.map ((fun slot : Slot ε => slot.buffer.held) ∘ Prod.fst) =
      r.slots.map (·.buffer.held) := by
    rw [← List.map_map, List.zipIdx_map_fst]
  show (r.slots.zipIdx.map _).sum = _
  rw [List.map_congr_left same]
  exact congrArg List.sum all

theorem lookup_append {r : Registry ε} {sid : SessionId} (fresh : sid ∉ r.turns) {other : SessionId}
    {t u : Nat} (found : r.turns.lookup other = some u) :
    (r.turns.insert sid t).lookup other = some u := by
  have distinct : other ≠ sid := by
    rintro rfl
    exact fresh (AList.lookup_isSome.mp (by simp [found]))
  rw [AList.lookup_insert_ne distinct, found]

theorem Accounted.register {settings : Settings} {r : Registry ε} (ok : Accounted r)
    {sid : SessionId} (fresh : sid ∉ r.turns) (goalMode : Bool) (phase : Phase) :
    Accounted (r.register settings sid goalMode phase) where
  counter := by
    have before := ok.counter
    simp only [Registry.register, Registry.totalHeld, List.map_append, List.sum_append] at before ⊢
    simpa using before
  slots := by
    intro t slot here
    simp only [Registry.register] at here ⊢
    rw [List.getElem?_append] at here
    split at here
    · have slotOk := ok.slots t slot here
      exact { slotOk with live := fun a b => lookup_append fresh (slotOk.live a b) }
    case isFalse past =>
      rw [List.getElem?_singleton] at here
      split at here
      case isTrue first =>
        cases here
        have last : t = r.slots.length := by omega
        constructor
        · intro _ _
          rw [AList.lookup_insert, last]
        · intro done
          simp at done
        · intro done
          simp at done
        · intro _
          rfl
        · exact RingBuffer.new_parallel _
        · exact Nat.zero_le _
      · cases here

theorem Accounted.replace {r : Registry ε} (ok : Accounted r) {t : Nat} {old new : Slot ε}
    (here : r.slots[t]? = some old) {turns : AList fun _ : SessionId => Nat} {used : Int}
    (newOk : SlotOk turns t new)
    (moved : used + old.buffer.held = r.used + new.buffer.held)
    (others : ∀ sid u, u ≠ t → r.turns.lookup sid = some u → turns.lookup sid = some u) :
    Accounted ⟨turns, r.slots.set t new, used⟩ where
  counter := by
    have total := totalHeld_set new here
    have before := ok.counter
    simp only [Registry.totalHeld] at total before ⊢
    omega
  slots := by
    intro u slot found
    by_cases same : u = t
    · subst same
      have bound := (List.getElem?_eq_some_iff.mp here).1
      rw [List.getElem?_set_self bound] at found
      cases found
      exact newOk
    · rw [List.getElem?_set_ne (fun h => same h.symm)] at found
      have slotOk := ok.slots u slot found
      exact { slotOk with live := fun a b => others _ _ same (slotOk.live a b) }

theorem slotOk_live {turns : AList fun _ : SessionId => Nat} {t : Nat} {slot : Slot ε}
    (slotOk : SlotOk turns t slot) (spawned : slot.phase ≠ .failed)
    (unfinalized : slot.finalized = false) {sid : SessionId} {u : Nat} (other : u ≠ t)
    (found : turns.lookup sid = some u) :
    (turns.erase slot.sessionId).lookup sid = some u := by
  have distinct : sid ≠ slot.sessionId := by
    rintro rfl
    have mine := slotOk.live spawned unfinalized
    rw [found] at mine
    exact other (Option.some.inj mine)
  rw [AList.lookup_erase_ne distinct, found]

theorem SlotOk.unfinalized {turns : AList fun _ : SessionId => Nat} {t : Nat} {slot : Slot ε}
    (slotOk : SlotOk turns t slot) (waiting : slot.phase ≠ .spawned) : slot.finalized = false := by
  by_contra done
  exact waiting (slotOk.begun (by simpa using done))

theorem Accounted.failStart {r : Registry ε} (ok : Accounted r) {t : Nat} {slot : Slot ε}
    (here : r.slots[t]? = some slot) (preparing : slot.phase = .preparing) :
    Accounted (r.failStart t slot) := by
  have slotOk := ok.slots t slot here
  have waiting : slot.phase ≠ .spawned := by simp [preparing]
  have unfinalized := slotOk.unfinalized waiting
  refine ok.replace here ?_ rfl ?_
  · constructor
    · intro failed
      exact absurd rfl failed
    · intro done
      simp [unfinalized] at done
    · exact slotOk.closed
    · intro _
      exact slotOk.released (Or.inl waiting)
    · exact slotOk.parallel
    · exact slotOk.capped
  · intro sid u other found
    exact slotOk_live slotOk (by simp [preparing]) unfinalized other found

theorem Accounted.spawn {r : Registry ε} (ok : Accounted r) {t : Nat} {slot : Slot ε}
    (here : r.slots[t]? = some slot) (preparing : slot.phase = .preparing) :
    Accounted (r.spawn t slot) := by
  have slotOk := ok.slots t slot here
  have waiting : slot.phase ≠ .spawned := by simp [preparing]
  refine ok.replace here ?_ rfl (fun _ _ _ found => found)
  exact
    { slotOk with
      live := fun _ unfinalized => slotOk.live (by simp [preparing]) unfinalized
      begun := fun _ => rfl
      released := fun _ => slotOk.released (Or.inl waiting) }

theorem Accounted.closeBuffer {r : Registry ε} (ok : Accounted r) {t : Nat} {slot : Slot ε}
    (here : r.slots[t]? = some slot) : Accounted (r.closeBuffer t slot) := by
  have slotOk := ok.slots t slot here
  refine ok.replace here ?_ rfl (fun _ _ _ found => found)
  exact
    { slotOk with
      closed := fun _ => rfl
      parallel := fun isOpen => by simp at isOpen }

theorem Accounted.others {r : Registry ε} (ok : Accounted r) {t : Nat} {slot : Slot ε}
    (here : r.slots[t]? = some slot) :
    ∃ other : Int, 0 ≤ other ∧ r.used = other + slot.buffer.held := by
  have bound := held_le_totalHeld here
  have counter := ok.counter
  exact ⟨r.used - slot.buffer.held, by omega, by omega⟩

theorem Accounted.appendTo {settings : Settings} {dumps : ε → Option String} {r : Registry ε}
    (ok : Accounted r) {t : Nat} {slot : Slot ε} (here : r.slots[t]? = some slot)
    (spawned : slot.phase = .spawned) (event : ε) :
    Accounted (r.appendTo refundBytes settings dumps t slot event) := by
  have slotOk := ok.slots t slot here
  obtain ⟨other, covered, total⟩ := ok.others here
  by_cases isOpen : slot.buffer.closed = false
  · obtain ⟨counted, _, capped, _⟩ := append_accounts settings.streamBufferBytes other covered
      (eventNbytes dumps) slotOk.parallel isOpen total event
    have unfinalized : slot.finalized = false := by
      by_contra done
      simp [slotOk.closed (by simpa using done)] at isOpen
    refine ok.replace here ?_ ?_ (fun _ _ _ found => found)
    · constructor
      · exact slotOk.live
      · exact slotOk.begun
      · intro done
        simp [unfinalized] at done
      · intro done
        simp [spawned, unfinalized] at done
      · exact RingBuffer.append_parallel slotOk.parallel _ event
      · rw [RingBuffer.append_maxsize]
        exact capped
    · dsimp only
      omega
  · have ignored := RingBuffer.append_closed (chargeBytes settings.streamBufferBytes) refundBytes
      (eventNbytes dumps) (by simpa using isOpen) r.used event
    refine ok.replace here ?_ ?_ (fun _ _ _ found => found)
    · rw [ignored]
      exact slotOk
    · rw [ignored]

theorem Accounted.finalize {r : Registry ε} (ok : Accounted r) {t : Nat} {slot : Slot ε}
    (here : r.slots[t]? = some slot) (spawned : slot.phase = .spawned) :
    Accounted (r.finalize refundBytes t slot) := by
  unfold Registry.finalize
  split
  · exact ok
  case isFalse unfinalized =>
    have slotOk := ok.slots t slot here
    have unfinalized : slot.finalized = false := by simpa using unfinalized
    have mine := slotOk.live (by simp [spawned]) unfinalized
    obtain ⟨other, covered, total⟩ := ok.others here
    rw [if_pos mine]
    refine ok.replace here ?_ ?_ ?_
    · constructor
      · intro _ open'
        simp at open'
      · intro _
        exact spawned
      · intro _
        rfl
      · intro _
        rfl
      · intro isOpen
        simp at isOpen
      · exact slotOk.capped
    · have refunded := (foldl_refund slot.buffer.sizes r.used
        (by simp only [RingBuffer.held] at total; omega)).1
      simp only [RingBuffer.dropAll, RingBuffer.close, RingBuffer.held, List.sum_nil] at total ⊢
      rw [refunded]
      omega
    · intro sid u other found
      exact slotOk_live slotOk (by simp [spawned]) unfinalized other found

theorem step_on_slot {α : Type} {slots : List α} {t : Nat} {p : α → Prop} [DecidablePred p]
    {f : α → Registry ε} {r' : Registry ε}
    (taken : (do let slot ← slots[t]?; if p slot then some (f slot) else none) = some r') :
    ∃ slot, slots[t]? = some slot ∧ p slot ∧ r' = f slot := by
  obtain ⟨slot, here, taken⟩ := Option.bind_eq_some_iff.mp taken
  split at taken
  case isTrue allowed => exact ⟨slot, here, allowed, (Option.some.inj taken).symm⟩
  · cases taken

theorem toOption_ok {α β : Type} {x : Except α β} {b : β} (granted : x.toOption = some b) :
    x = .ok b := by
  cases x with
  | error _ => cases granted
  | ok _ => exact congrArg Except.ok (Option.some.inj granted)

theorem Accounted.step {settings : Settings} {dumps : ε → Option String} {r r' : Registry ε}
    {a : RegistryAction ε} (ok : Accounted r) (taken : step settings dumps r a = some r') :
    Accounted r' := by
  cases a with
  | start sid mode goalMode =>
    obtain ⟨fresh, rfl⟩ := Registry.start_ok (toOption_ok taken)
    exact ok.register fresh goalMode _
  | startContinuation sid mode goalMode =>
    obtain ⟨fresh, rfl⟩ := Registry.startContinuation_ok (toOption_ok taken)
    exact ok.register fresh goalMode _
  | failStart t =>
    obtain ⟨slot, here, preparing, rfl⟩ := step_on_slot taken
    exact ok.failStart here preparing
  | spawn t =>
    obtain ⟨slot, here, preparing, rfl⟩ := step_on_slot taken
    exact ok.spawn here preparing
  | append t event =>
    obtain ⟨slot, here, spawned, rfl⟩ := step_on_slot taken
    exact ok.appendTo here spawned event
  | close t =>
    obtain ⟨slot, here, _, rfl⟩ := step_on_slot taken
    exact ok.closeBuffer here
  | finalize t =>
    obtain ⟨slot, here, spawned, rfl⟩ := step_on_slot taken
    exact ok.finalize here spawned

theorem accounted {settings : Settings} {dumps : ε → Option String} {r : Registry ε}
    (reached : Reachable (step settings dumps) Registry.empty r) : Accounted r :=
  reached.invariant (fun before taken => Accounted.step before taken) Accounted.empty

theorem appendTo_unclamped {settings : Settings} {dumps : ε → Option String} {r : Registry ε}
    (ok : Accounted r) {t : Nat} {slot : Slot ε} (here : r.slots[t]? = some slot) (event : ε) :
    r.appendTo refundUnclamped settings dumps t slot event =
      r.appendTo refundBytes settings dumps t slot event := by
  obtain ⟨other, covered, total⟩ := ok.others here
  by_cases isOpen : slot.buffer.closed = false
  · have parallel := (ok.slots t slot here).parallel
    obtain ⟨_, _, _, unclamped⟩ := append_accounts settings.streamBufferBytes other covered
      (eventNbytes dumps) parallel isOpen total event
    simp only [Registry.appendTo, unclamped]
  · have closed : slot.buffer.closed = true := by simpa using isOpen
    simp only [Registry.appendTo, RingBuffer.append_closed _ _ _ closed]

theorem finalize_unclamped {r : Registry ε} (ok : Accounted r) {t : Nat} {slot : Slot ε}
    (here : r.slots[t]? = some slot) :
    r.finalize refundUnclamped t slot = r.finalize refundBytes t slot := by
  obtain ⟨other, covered, total⟩ := ok.others here
  obtain ⟨clamped, unclamped⟩ := foldl_refund slot.buffer.sizes r.used
    (by simp only [RingBuffer.held] at total; omega)
  simp only [Registry.finalize, RingBuffer.dropAll, RingBuffer.close, clamped, unclamped]

theorem step_unclamped {settings : Settings} {dumps : ε → Option String} {r : Registry ε}
    (ok : Accounted r) (a : RegistryAction ε) :
    stepWith refundUnclamped settings dumps r a = step settings dumps r a := by
  cases a with
  | append t event =>
    cases here : r.slots[t]? with
    | none => simp [step, stepWith, here]
    | some slot => simp [step, stepWith, here, appendTo_unclamped ok here]
  | finalize t =>
    cases here : r.slots[t]? with
    | none => simp [step, stepWith, here]
    | some slot => simp [step, stepWith, here, finalize_unclamped ok here]
  | _ => rfl

theorem append_within {settings : Settings} {dumps : ε → Option String} {r r' : Registry ε}
    (ok : Accounted r) {t : Nat} {event : ε} {slot : Slot ε} (here : r.slots[t]? = some slot)
    (isOpen : slot.buffer.closed = false)
    (taken : step settings dumps r (.append t event) = some r') :
    r'.used ≤ settings.streamBufferBytes ∨
      ∃ after, r'.slots[t]? = some after ∧ after.buffer.events.length = 1 := by
  obtain ⟨slot', here', _, rfl⟩ := step_on_slot taken
  rw [here] at here'
  cases here'
  obtain ⟨other, covered, total⟩ := ok.others here
  obtain ⟨_, within, _, _⟩ := append_accounts settings.streamBufferBytes other covered
    (eventNbytes dumps) (ok.slots t slot here).parallel isOpen total event
  rcases within with within | single
  · exact Or.inl within
  · refine Or.inr ⟨_, List.getElem?_set_self (List.getElem?_eq_some_iff.mp here).1, ?_⟩
    exact single

theorem empty_dict_unused {r : Registry ε} (ok : Accounted r) (idle : ∀ sid, sid ∉ r.turns) :
    r.used = 0 := by
  have none_live : r.heldBytes = 0 := by
    refine List.sum_eq_zero ?_
    intro n present
    obtain ⟨⟨slot, t⟩, _, rfl⟩ := List.mem_map.mp present
    have absent := AList.lookup_eq_none.mpr (idle slot.sessionId)
    simp [absent]
  have counter := ok.counter
  rw [← ok.heldBytes, none_live] at counter
  exact counter

/-- The byte budget over every run: the counter is the sum of what live buffers
hold, the clamp changes nothing, buffers stay under their event cap, and an append
to a buffer that is still open ends within the budget or with that one event. -/
theorem shared_budget (settings : Settings) (dumps : ε → Option String) {r : Registry ε}
    (reached : Reachable (step settings dumps) Registry.empty r) :
    r.used = r.heldBytes ∧
      ((∀ sid, sid ∉ r.turns) → r.used = 0) ∧
      (∀ a, stepWith refundUnclamped settings dumps r a = step settings dumps r a) ∧
      (∀ slot ∈ r.slots, slot.buffer.events.length ≤ slot.buffer.maxsize) ∧
      ∀ t event slot r', r.slots[t]? = some slot → slot.buffer.closed = false →
        step settings dumps r (.append t event) = some r' →
        r'.used ≤ settings.streamBufferBytes ∨
          ∃ after, r'.slots[t]? = some after ∧ after.buffer.events.length = 1 := by
  have ok := accounted reached
  refine ⟨?_, empty_dict_unused ok, step_unclamped ok, ?_, ?_⟩
  · rw [ok.counter, ok.heldBytes]
  · intro slot present
    obtain ⟨t, here⟩ := List.mem_iff_getElem?.mp present
    exact (ok.slots t slot here).capped
  · intro t event slot r' here isOpen taken
    exact append_within ok here isOpen taken

/-- The turn object that a session has in the dict. -/
def Live (r : Registry ε) (sid : SessionId) (t : Nat) : Prop :=
  ∃ slot, r.slots[t]? = some slot ∧ slot.sessionId = sid ∧ slot.phase ≠ .failed ∧ slot.finalized = false

structure Capped (settings : Settings) (r : Registry ε) : Prop where
  entries : ∀ sid t, r.turns.lookup sid = some t → Live r sid t
  turns : (r.turns.keys.length : Int) ≤ max 0 settings.maxConcurrentTurns
  goals : (r.goalTurns : Int) ≤ max 0 settings.goalMaxConcurrentTurns

section Capped
variable {settings : Settings} {r : Registry ε} (capped : Capped settings r)
include capped

theorem Capped.register {sid : SessionId} {goalMode : Bool} (granted : r.requireSlot settings sid goalMode = .ok ())
    {phase : Phase} (claims : phase ≠ .failed) : Capped settings (r.register settings sid goalMode phase) := by
  obtain ⟨fresh, granted⟩ := Fallible.guard_ok_iff.mp granted
  obtain ⟨room, granted⟩ := Fallible.guard_ok_iff.mp granted
  obtain ⟨goalRoom, -⟩ := Fallible.guard_ok_iff.mp granted
  have lookup (other : SessionId) : (r.turns.insert sid r.slots.length).lookup other =
      if other = sid then some r.slots.length else r.turns.lookup other := by
    split
    · next same => rw [same, AList.lookup_insert]
    · next apart => exact AList.lookup_insert_ne apart
  have stays {t : Nat} {slot : Slot ε} (here : r.slots[t]? = some slot) (more : Slot ε) :
      (r.slots ++ [more])[t]? = some slot :=
    (List.getElem?_append_left (List.getElem?_eq_some_iff.mp here).1).trans here
  refine ⟨fun other t found => ?_, ?_, ?_⟩
  · rw [Registry.register, lookup] at found
    split at found
    · next same =>
      cases found
      exact ⟨_, List.getElem?_concat_length, same.symm, claims, rfl⟩
    · obtain ⟨slot, here, live⟩ := capped.entries other t found
      exact ⟨slot, stays here _, live⟩
  · simp only [Registry.register, AList.keys_insert, List.erase_of_not_mem fresh, List.length_cons]
    omega
  · have goals := capped.goals
    simp only [Registry.goalTurns, List.countP_filterMap, Registry.turnOf, Registry.register, AList.keys_insert,
      List.erase_of_not_mem fresh, List.countP_cons, lookup, if_true, Option.bind_some, List.getElem?_concat_length,
      Option.map_some, Option.getD_some] at goals goalRoom ⊢
    rw [List.countP_congr (q := fun other => (((r.turns.lookup other).bind (r.slots[·]?)).map (·.goalMode)).getD false)]
    · split
      · next isGoal =>
        have left := not_and.mp goalRoom isGoal
        omega
      · omega
    · intro other isIn
      obtain ⟨t, found⟩ := Option.isSome_iff_exists.mp (AList.lookup_isSome.mpr isIn)
      obtain ⟨slot, here, -⟩ := capped.entries other t found
      have apart : other ≠ sid := fun same => fresh (same ▸ isIn)
      rw [if_neg apart, found, Option.bind_some, Option.bind_some, here, stays here]

variable {t : Nat} {old new : Slot ε} (here : r.slots[t]? = some old)
  (same : new.sessionId = old.sessionId ∧ new.goalMode = old.goalMode) {used : Int}
include here same

theorem Capped.replace {turns : AList fun _ : SessionId => Nat} (fewer : turns.keys.Sublist r.turns.keys)
    (kept : ∀ sid u, turns.lookup sid = some u → r.turns.lookup sid = some u ∧
      (u = t → new.phase ≠ .failed ∧ new.finalized = false)) : Capped settings ⟨turns, r.slots.set t new, used⟩ := by
  have bound := (List.getElem?_eq_some_iff.mp here).1
  refine ⟨fun sid u found => ?_, ?_, ?_⟩
  · obtain ⟨before, live⟩ := kept sid u found
    obtain ⟨slot, isSlot, own, claimed⟩ := capped.entries sid u before
    by_cases this : u = t
    · subst this
      obtain rfl := Option.some.inj (here.symm.trans isSlot)
      exact ⟨new, List.getElem?_set_self bound, same.1.trans own, live rfl⟩
    · exact ⟨slot, (List.getElem?_set_ne fun h => this h.symm).trans isSlot, own, claimed⟩
  · exact le_trans (Int.ofNat_le.mpr fewer.length_le) capped.turns
  · refine le_trans (Int.ofNat_le.mpr ?_) capped.goals
    simp only [Registry.goalTurns, List.countP_filterMap]
    refine le_trans (le_of_eq (List.countP_congr fun sid isIn => ?_)) fewer.countP_le
    obtain ⟨u, found⟩ := Option.isSome_iff_exists.mp (AList.lookup_isSome.mpr isIn)
    simp only [Registry.turnOf, found, (kept sid u found).1, Option.bind_some]
    by_cases this : u = t
    · subst this
      simp [List.getElem?_set_self bound, here, same.2]
    · rw [List.getElem?_set_ne fun h => this h.symm]

theorem Capped.erase : Capped settings ⟨r.turns.erase old.sessionId, r.slots.set t new, used⟩ := by
  refine capped.replace here same (AList.keys_erase _ r.turns ▸ List.erase_sublist) fun sid u found => ?_
  have apart : sid ≠ old.sessionId := by
    rintro rfl
    rw [AList.lookup_erase] at found
    cases found
  rw [AList.lookup_erase_ne apart] at found
  refine ⟨found, fun this => ?_⟩
  obtain ⟨slot, isSlot, own, -⟩ := capped.entries sid u found
  subst this
  obtain rfl := Option.some.inj (here.symm.trans isSlot)
  exact absurd own.symm apart

theorem Capped.keep (claims : new.phase ≠ .failed) (finalized : new.finalized = old.finalized) :
    Capped settings ⟨r.turns, r.slots.set t new, used⟩ := by
  refine capped.replace here same (List.Sublist.refl _) fun sid u found => ⟨found, ?_⟩
  rintro rfl
  obtain ⟨slot, isSlot, -, -, live⟩ := capped.entries sid u found
  obtain rfl := Option.some.inj (here.symm.trans isSlot)
  exact ⟨claims, finalized.trans live⟩

end Capped

theorem Capped.step {settings : Settings} {dumps : ε → Option String} {r r' : Registry ε} {a : RegistryAction ε}
    (ok : Accounted r) (capped : Capped settings r) (taken : step settings dumps r a = some r') : Capped settings r' := by
  cases a with
  | start sid mode goalMode =>
    obtain ⟨_, _, granted⟩ := Fallible.bind_ok_iff.mp (toOption_ok taken)
    obtain ⟨_, slot, granted⟩ := Fallible.bind_ok_iff.mp granted
    cases granted
    exact capped.register slot nofun
  | startContinuation sid mode goalMode =>
    obtain ⟨_, slot, granted⟩ := Fallible.bind_ok_iff.mp (toOption_ok taken)
    obtain ⟨_, _, granted⟩ := Fallible.bind_ok_iff.mp granted
    cases granted
    exact capped.register slot nofun
  | failStart t =>
    obtain ⟨slot, here, -, rfl⟩ := step_on_slot taken
    exact capped.erase here (by exact ⟨rfl, rfl⟩)
  | spawn t =>
    obtain ⟨slot, here, -, rfl⟩ := step_on_slot taken
    exact capped.keep here (by exact ⟨rfl, rfl⟩) (by exact nofun) (by rfl)
  | append t event =>
    obtain ⟨slot, here, spawned, rfl⟩ := step_on_slot taken
    exact capped.keep here (by exact ⟨rfl, rfl⟩) (by simp [spawned]) (by rfl)
  | close t =>
    obtain ⟨slot, here, spawned, rfl⟩ := step_on_slot taken
    exact capped.keep here (by exact ⟨rfl, rfl⟩) (by simp [spawned]) (by rfl)
  | finalize t =>
    obtain ⟨slot, here, spawned, rfl⟩ := step_on_slot taken
    unfold Registry.finalize
    split
    · exact capped
    case isFalse unfinalized =>
      have mine := (ok.slots t slot here).live (by simp [spawned]) (by simpa using unfinalized)
      rw [if_pos mine]
      exact capped.erase here (by exact ⟨rfl, rfl⟩)

/-- In whatever order turns start, fail and end, the dict holds just the ones that are under way,
and they never exceed the caps. -/
theorem live_turns_capped (settings : Settings) (dumps : ε → Option String) {r : Registry ε}
    (reached : Reachable (step settings dumps) Registry.empty r) :
    (∀ sid t, r.turns.lookup sid = some t ↔ Live r sid t) ∧
      (r.turns.keys.length : Int) ≤ max 0 settings.maxConcurrentTurns ∧
      (r.goalTurns : Int) ≤ max 0 settings.goalMaxConcurrentTurns := by
  have both : Accounted r ∧ Capped settings r :=
    reached.invariant (P := fun r => Accounted r ∧ Capped settings r)
      (fun before taken => ⟨Accounted.step before.1 taken, Capped.step before.1 before.2 taken⟩)
      ⟨Accounted.empty, fun _ _ => nofun, by simp [Registry.empty], by simp [Registry.goalTurns, Registry.empty]⟩
  refine ⟨fun sid t => ⟨both.2.entries sid t, ?_⟩, both.2.turns, both.2.goals⟩
  rintro ⟨slot, here, rfl, claimed, unfinalized⟩
  exact (both.1.slots t slot here).live claimed unfinalized

def smallBudget : Settings where
  agentStreamBufferSize := 100000
  streamBufferBytes := 600
  maxConcurrentTurns := 8
  goalMaxConcurrentTurns := 2
  responseModeThinkEnabled := true

def firstAppend : List (RegistryAction String) := [.start "a" none false, .spawn 0, .append 0 "x"]

theorem shared_budget_first_append : ∃ r r' : Registry String,
    run (step smallBudget some) Registry.empty firstAppend = some r ∧
      step smallBudget some r (.append 0 "y") = some r' ∧
      r.used = r.heldBytes ∧
      (r'.used ≤ 600 ∨ ∃ after, r'.slots[0]? = some after ∧ after.buffer.events.length = 1) := by
  refine ⟨_, _, rfl, rfl, ?_, ?_⟩
  · exact (shared_budget smallBudget some ⟨firstAppend, rfl⟩).1
  · obtain ⟨_, _, _, _, within⟩ := shared_budget smallBudget some ⟨firstAppend, rfl⟩
    exact within 0 "y" _ _ rfl rfl rfl

theorem live_turns_capped_first_append : ∃ r : Registry String,
    run (step smallBudget some) Registry.empty firstAppend = some r ∧ (r.turns.keys.length : Int) ≤ max 0 8 :=
  ⟨_, rfl, (live_turns_capped smallBudget some ⟨firstAppend, rfl⟩).2.1⟩

/-- Three turns with one event each can hold more than the budget; the first one's
predecessor, finalized with two events, ignores an append and evicts nothing. -/
def crowded : List (RegistryAction String) :=
  [.start "a" none false, .spawn 0, .append 0 "x", .append 0 "y", .finalize 0,
    .start "b" none false, .spawn 1, .append 1 "z",
    .start "c" none false, .spawn 2, .append 2 "z",
    .start "d" none false, .spawn 3, .append 3 "z"]

theorem append_after_close_over_budget : ∃ r r' : Registry String,
    run (step smallBudget some) Registry.empty crowded = some r ∧
      step smallBudget some r (.append 0 "w") = some r' ∧
      ¬ (r'.used ≤ 600 ∨ ∃ after, r'.slots[0]? = some after ∧ after.buffer.events.length = 1) := by
  refine ⟨_, _, rfl, rfl, ?_⟩
  rintro (within | ⟨after, here, single⟩)
  · revert within
    decide
  · cases here
    revert single
    decide

end Counselle.Turns

import Counselle.Fallible
import Counselle.Turns.RingBuffer
import Mathlib.Data.List.AList

/-! The claim window of `TurnRegistry` (`app/turns.py`): the `_turns` dict, the
process-wide caps every new turn is checked against, and the shared byte budget
its ring buffers are charged to. -/
namespace Counselle.Turns
open Fallible

abbrev SessionId := String

inductive ResponseMode where
  | quick
  | think
deriving DecidableEq, Repr

structure Settings where
  agentStreamBufferSize : Int
  streamBufferBytes : Int
  maxConcurrentTurns : Int
  goalMaxConcurrentTurns : Int
  responseModeThinkEnabled : Bool

inductive Refusal where
  | streamActive
  | tooManyTurns
  | responseModeUnavailable
deriving DecidableEq, Repr

/-- Where the coroutine that created a `_Turn` is. -/
inductive Phase where
  | preparing
  /-- `turn.task` is set -/
  | spawned
  | failed
deriving DecidableEq, Repr

structure Slot (ε : Type) where
  sessionId : SessionId
  goalMode : Bool
  buffer : RingBuffer ε
  phase : Phase
  finalized : Bool

/-- `_turns` maps a session to its turn object; `slots` are all turn objects
created so far, which tasks go on holding after they left the dict. -/
structure Registry (ε : Type) where
  turns : AList fun _ : SessionId => Nat
  slots : List (Slot ε)
  used : Int

variable {ε : Type}

/-- `_charge_bytes`: the counter after the charge and the headroom left. -/
def chargeBytes (budget used : Int) (nbytes : Nat) : Int × Int :=
  (used + nbytes, budget - (used + nbytes))

/-- `_refund_bytes`, with its defensive clamp. -/
def refundBytes (used : Int) (nbytes : Nat) : Int :=
  if used - nbytes < 0 then 0 else used - nbytes

def eventOverheadBytes : Nat := 256

/-- `_event_nbytes`; `dumps` is `json.dumps` of the event's data, absent when it raises. -/
def eventNbytes (dumps : ε → Option String) (event : ε) : Nat :=
  match dumps event with
  | some text => text.length + eventOverheadBytes
  | none => eventOverheadBytes

namespace Registry

def empty : Registry ε := ⟨∅, [], 0⟩

def turnOf (r : Registry ε) (sid : SessionId) : Option (Slot ε) :=
  (r.turns.lookup sid).bind (r.slots[·]?)

def goalTurns (r : Registry ε) : Nat :=
  (r.turns.keys.filterMap r.turnOf).countP (·.goalMode)

def requireGoalSlot (settings : Settings) (r : Registry ε) (goalMode : Bool) : Except Refusal Unit :=
  if goalMode ∧ settings.goalMaxConcurrentTurns ≤ r.goalTurns then .error .tooManyTurns else .ok ()

/-- The synchronous checks `start` and `start_continuation` both make. -/
def requireSlot (settings : Settings) (r : Registry ε) (sid : SessionId) (goalMode : Bool) :
    Except Refusal Unit :=
  if sid ∈ r.turns then .error .streamActive
  else if settings.maxConcurrentTurns ≤ r.turns.keys.length then .error .tooManyTurns
  else r.requireGoalSlot settings goalMode

def requireResponseModeAvailable (settings : Settings) (mode : ResponseMode) : Except Refusal Unit :=
  if mode = .think ∧ settings.responseModeThinkEnabled = false then .error .responseModeUnavailable
  else .ok ()

/-- A new `_Turn` with a fresh ring buffer, entered in `_turns`. -/
def register (settings : Settings) (r : Registry ε) (sid : SessionId) (goalMode : Bool)
    (phase : Phase) : Registry ε :=
  { r with
    turns := r.turns.insert sid r.slots.length
    slots := r.slots ++ [⟨sid, goalMode, .new settings.agentStreamBufferSize, phase, false⟩] }

/-- The claim of `start`: an explicit mode is checked before the caps. -/
def start (settings : Settings) (r : Registry ε) (sid : SessionId) (mode : Option ResponseMode)
    (goalMode : Bool) : Except Refusal (Registry ε) := do
  mode.elim (.ok ()) (requireResponseModeAvailable settings)
  r.requireSlot settings sid goalMode
  return r.register settings sid goalMode .preparing

/-- `start_continuation` claims and spawns in one synchronous stretch. -/
def startContinuation (settings : Settings) (r : Registry ε) (sid : SessionId)
    (mode : ResponseMode) (goalMode : Bool) : Except Refusal (Registry ε) := do
  r.requireSlot settings sid goalMode
  requireResponseModeAvailable settings mode
  return r.register settings sid goalMode .spawned

theorem requireSlot_ok {settings : Settings} {r : Registry ε} {sid : SessionId} {goalMode : Bool}
    (granted : r.requireSlot settings sid goalMode = .ok ()) : sid ∉ r.turns :=
  (guard_ok_iff.mp granted).1

theorem start_ok {settings : Settings} {r r' : Registry ε} {sid : SessionId}
    {mode : Option ResponseMode} {goalMode : Bool}
    (granted : r.start settings sid mode goalMode = .ok r') :
    sid ∉ r.turns ∧ r' = r.register settings sid goalMode .preparing := by
  obtain ⟨_, _, granted⟩ := bind_ok_iff.mp granted
  obtain ⟨_, slot, granted⟩ := bind_ok_iff.mp granted
  exact ⟨requireSlot_ok slot, (Except.ok.inj granted).symm⟩

theorem startContinuation_ok {settings : Settings} {r r' : Registry ε} {sid : SessionId}
    {mode : ResponseMode} {goalMode : Bool}
    (granted : r.startContinuation settings sid mode goalMode = .ok r') :
    sid ∉ r.turns ∧ r' = r.register settings sid goalMode .spawned := by
  obtain ⟨_, slot, granted⟩ := bind_ok_iff.mp granted
  obtain ⟨_, _, granted⟩ := bind_ok_iff.mp granted
  exact ⟨requireSlot_ok slot, (Except.ok.inj granted).symm⟩

end Registry
end Counselle.Turns

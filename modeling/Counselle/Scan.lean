import Mathlib.Data.Nat.Basic

/-! Two loops over a counter: one goes on while a test holds, up to a ceiling, the other
goes back until a test holds. -/
namespace Counselle.Scan

/-- The first number from `n` on that fails the test, or the one after `remaining` steps. -/
def scan (test : Nat → Bool) : Nat → Nat → Nat
  | 0, n => n
  | remaining + 1, n => if test n then scan test remaining (n + 1) else n

/-- The last number up to `n` that passes the test, or zero. -/
def retract (test : Nat → Bool) : Nat → Nat
  | 0 => 0
  | n + 1 => if test (n + 1) then n + 1 else retract test n

structure Scanned (test : Nat → Bool) (start ceiling stop : Nat) : Prop where
  start_le : start ≤ stop
  le_ceiling : stop ≤ ceiling
  passed : ∀ i, start ≤ i → i < stop → test i = true
  stopped : stop < ceiling → test stop = false

theorem scan_spec (test : Nat → Bool) (remaining n : Nat) :
    Scanned test n (n + remaining) (scan test remaining n) := by
  induction remaining generalizing n with
  | zero => exact ⟨le_rfl, le_rfl, fun i low high => absurd high (by rw [scan]; omega), fun bad => absurd bad (by rw [scan]; omega)⟩
  | succ remaining ih =>
    rw [scan]
    split
    case isTrue here =>
      have later := ih (n + 1)
      rw [Nat.add_right_comm] at later
      refine ⟨Nat.le_of_succ_le later.start_le, later.le_ceiling, fun i low high => ?_, later.stopped⟩
      obtain rfl | above := Nat.eq_or_lt_of_le low
      · exact here
      · exact later.passed i above high
    case isFalse fails => exact ⟨le_rfl, by omega, fun i low high => absurd high (by omega), fun _ => by simpa using fails⟩

variable {test : Nat → Bool} {start ceiling stop : Nat}

theorem Scanned.eq (scanned : Scanned test start ceiling stop) {n : Nat} (above : start ≤ n) (below : n ≤ ceiling)
    (passed : ∀ i, start ≤ i → i < n → test i = true) (fails : n < ceiling → test n = false) : stop = n := by
  obtain early | same | late := Nat.lt_trichotomy stop n
  · have here := scanned.stopped (Nat.lt_of_lt_of_le early below)
    rw [passed stop scanned.start_le early] at here
    cases here
  · exact same
  · have here := fails (Nat.lt_of_lt_of_le late scanned.le_ceiling)
    rw [scanned.passed n above late] at here
    cases here

structure Retracted (test : Nat → Bool) (top stop : Nat) : Prop where
  le_top : stop ≤ top
  passes : stop ≠ 0 → test stop = true
  failed : ∀ i, stop < i → i ≤ top → test i = false

theorem retract_spec (test : Nat → Bool) (n : Nat) : Retracted test n (retract test n) := by
  induction n with
  | zero => exact ⟨le_rfl, fun bad => absurd rfl bad, fun i low high => absurd low (by rw [retract]; omega)⟩
  | succ n ih =>
    rw [retract]
    split
    case isTrue here => exact ⟨le_rfl, fun _ => here, fun i low high => absurd low (by omega)⟩
    case isFalse fails =>
      refine ⟨Nat.le_succ_of_le ih.le_top, ih.passes, fun i low high => ?_⟩
      obtain rfl | below := Nat.eq_or_lt_of_le high
      · simpa using fails
      · exact ih.failed i low (Nat.le_of_lt_succ below)

theorem Retracted.eq_top {top : Nat} (retracted : Retracted test top stop) (passes : test top = true) : stop = top := by
  obtain below | same := Nat.lt_or_eq_of_le retracted.le_top
  · have here := retracted.failed top below le_rfl
    rw [passes] at here
    cases here
  · exact same

end Counselle.Scan

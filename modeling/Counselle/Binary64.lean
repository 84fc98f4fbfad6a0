import Counselle.PyJson
import Mathlib.Data.Int.Log
import Mathlib.Algebra.Order.Field.Power
import Mathlib.Algebra.Order.Floor.Semifield
import Mathlib.Data.Rat.Floor
import Mathlib.Tactic.Positivity

/-! Rounding of exact rationals to the double grid: to the nearest double, ties to the
even one, with gradual underflow. The sign of a zero is not kept. -/
namespace Counselle.Binary64
open PyJson (PyFloat)

/-- The nearest integer; of two at one distance, the even one. -/
def nearestEven (q : ℚ) : Int :=
  let low := ⌊q⌋
  if q - low < 1 / 2 then low
  else if 1 / 2 < q - low then low + 1
  else if low % 2 = 0 then low else low + 1

/-- The exponent of the last place of the doubles about `q`. -/
def lastPlace (q : ℚ) : Int := max (Int.log 2 |q|) (-1022) - 52

/-- The double of unbounded exponent that is nearest to `q`. -/
def rounded (q : ℚ) : ℚ := nearestEven (q / 2 ^ lastPlace q) * 2 ^ lastPlace q

/-- The double nearest to `q`. -/
def ofRat (q : ℚ) : PyFloat :=
  if 2 ^ 1024 ≤ |rounded q| then .infinite (rounded q < 0) else .finite (rounded q)

theorem nearestEven_intCast (n : Int) : nearestEven n = n := by
  simp [nearestEven]

theorem nearestEven_bounds (q : ℚ) : ⌊q⌋ ≤ nearestEven q ∧ nearestEven q ≤ ⌊q⌋ + 1 := by
  unfold nearestEven
  dsimp only
  split_ifs <;> omega

theorem nearestEven_error (q : ℚ) : |(nearestEven q : ℚ) - q| ≤ 1 / 2 := by
  have low := Int.floor_le q
  have high := Int.lt_floor_add_one q
  rw [abs_le]
  unfold nearestEven
  dsimp only
  split_ifs <;> push_cast <;> constructor <;> linarith

theorem nearestEven_of_close {q : ℚ} {n : Int} (close : |q - n| < 1 / 2) : nearestEven q = n := by
  have error := abs_le.mp (nearestEven_error q)
  rw [abs_lt] at close
  have above : (nearestEven q : ℚ) < n + 1 := by linarith [error.2, close.2]
  have below : (n : ℚ) < nearestEven q + 1 := by linarith [error.1, close.1]
  have above' : nearestEven q < n + 1 := by exact_mod_cast above
  have below' : n < nearestEven q + 1 := by exact_mod_cast below
  omega

theorem nearestEven_mono {q r : ℚ} (le : q ≤ r) : nearestEven q ≤ nearestEven r := by
  have floors : ⌊q⌋ ≤ ⌊r⌋ := Int.floor_le_floor le
  rcases floors.eq_or_lt with same | less
  · unfold nearestEven
    rw [same]
    dsimp only
    split_ifs <;> first | omega | (exfalso; linarith)
  · have upper := (nearestEven_bounds q).2
    have lower := (nearestEven_bounds r).1
    omega

theorem nearestEven_neg (q : ℚ) : nearestEven (-q) = -nearestEven q := by
  by_cases whole : (⌊q⌋ : ℚ) = q
  · rw [← whole, nearestEven_intCast, ← Int.cast_neg, nearestEven_intCast]
  · have floor : ⌊-q⌋ = -⌊q⌋ - 1 := by
      have strict : (⌊q⌋ : ℚ) < q := lt_of_le_of_ne (Int.floor_le q) whole
      rw [Int.floor_eq_iff]
      push_cast
      exact ⟨by linarith [Int.lt_floor_add_one q], by linarith⟩
    unfold nearestEven
    rw [floor]
    push_cast
    split_ifs <;> first | omega | (exfalso; linarith)

theorem lastPlace_neg (q : ℚ) : lastPlace (-q) = lastPlace q := by simp [lastPlace]

theorem rounded_neg (q : ℚ) : rounded (-q) = -rounded q := by
  rw [rounded, rounded, lastPlace_neg, neg_div, nearestEven_neg]
  push_cast
  ring

theorem rounded_zero : rounded 0 = 0 := by simp [rounded, nearestEven]

theorem rounded_le {q : ℚ} {n e : Int} (fine : lastPlace q ≤ e) (le : q ≤ n * 2 ^ e) :
    rounded q ≤ n * 2 ^ e := by
  obtain ⟨k, rest⟩ : ∃ k : Nat, e = lastPlace q + k := ⟨(e - lastPlace q).toNat, by omega⟩
  have unit : (0 : ℚ) < 2 ^ lastPlace q := by positivity
  have scaled : (n : ℚ) * 2 ^ e = ((n * 2 ^ k : Int) : ℚ) * 2 ^ lastPlace q := by
    rw [rest, zpow_add₀ (by norm_num), zpow_natCast]
    push_cast
    ring
  rw [scaled] at le ⊢
  rw [rounded]
  apply mul_le_mul_of_nonneg_right _ unit.le
  have quotient : q / 2 ^ lastPlace q ≤ ((n * 2 ^ k : Int) : ℚ) := (div_le_iff₀ unit).mpr le
  have step := nearestEven_mono quotient
  rw [nearestEven_intCast] at step
  exact_mod_cast step

theorem le_rounded {q : ℚ} {n e : Int} (fine : lastPlace q ≤ e) (le : n * 2 ^ e ≤ q) :
    n * 2 ^ e ≤ rounded q := by
  have mirrored : rounded (-q) ≤ ((-n : Int) : ℚ) * 2 ^ e := by
    apply rounded_le (by rwa [lastPlace_neg])
    push_cast
    linarith
  rw [rounded_neg] at mirrored
  push_cast at mirrored
  linarith

theorem rounded_of_multiple {q : ℚ} {n e : Int} (fine : lastPlace q ≤ e) (multiple : q = n * 2 ^ e) :
    rounded q = q := by
  apply le_antisymm
  · exact (rounded_le fine multiple.le).trans multiple.ge
  · exact multiple.le.trans (le_rounded fine multiple.ge)

theorem rounded_nonneg {q : ℚ} (nonneg : 0 ≤ q) : 0 ≤ rounded q := by
  simpa using le_rounded (n := 0) (le_refl (lastPlace q)) (by simpa using nonneg)

theorem lastPlace_le {q : ℚ} {k : Int} (nonzero : q ≠ 0) (size : |q| < 2 ^ k) (normal : -1021 ≤ k) :
    lastPlace q ≤ k - 53 := by
  have log : Int.log 2 |q| < k :=
    (Int.lt_zpow_iff_log_lt (by norm_num) (abs_pos.mpr nonzero)).mp (by exact_mod_cast size)
  unfold lastPlace
  omega

theorem rounded_error {q : ℚ} {k : Int} (size : |q| < 2 ^ k) (normal : -1021 ≤ k) :
    |rounded q - q| ≤ 2 ^ (k - 54) := by
  by_cases zero : q = 0
  · rw [zero, rounded_zero]
    simp only [sub_zero, abs_zero]
    positivity
  · have unit : (0 : ℚ) < 2 ^ lastPlace q := by positivity
    have places := lastPlace_le zero size normal
    have factored : rounded q - q = (nearestEven (q / 2 ^ lastPlace q) - q / 2 ^ lastPlace q) * 2 ^ lastPlace q := by
      rw [rounded, sub_mul, div_mul_cancel₀ _ unit.ne']
    calc |rounded q - q|
        = |(nearestEven (q / 2 ^ lastPlace q) : ℚ) - q / 2 ^ lastPlace q| * 2 ^ lastPlace q := by
          rw [factored, abs_mul, abs_of_pos unit]
      _ ≤ 1 / 2 * 2 ^ lastPlace q := mul_le_mul_of_nonneg_right (nearestEven_error _) unit.le
      _ ≤ 1 / 2 * 2 ^ (k - 53) :=
          mul_le_mul_of_nonneg_left (zpow_le_zpow_right₀ (by norm_num) places) (by norm_num)
      _ = 2 ^ (k - 54) := by
          rw [show k - 53 = k - 54 + 1 by ring, zpow_add₀ (by norm_num)]
          ring

theorem rounded_intCast {n : Int} (size : |n| < 2 ^ 53) : rounded n = n := by
  by_cases zero : n = 0
  · rw [zero, Int.cast_zero, rounded_zero]
  · have places : lastPlace (n : ℚ) ≤ 53 - 53 := by
      apply lastPlace_le (by exact_mod_cast zero) _ (by norm_num)
      exact_mod_cast size
    exact rounded_of_multiple (n := n) (e := 0) (by omega) (by simp)

theorem rounded_mono_nonneg {q r : ℚ} (nonneg : 0 ≤ q) (le : q ≤ r) : rounded q ≤ rounded r := by
  rcases nonneg.eq_or_lt with zero | positive
  · rw [← zero, rounded_zero]
    exact rounded_nonneg (zero ▸ le)
  · have logs : Int.log 2 |q| ≤ Int.log 2 |r| := by
      apply Int.log_mono_right (abs_pos.mpr positive.ne')
      rwa [abs_of_pos positive, abs_of_pos (positive.trans_le le)]
    have places : lastPlace q ≤ lastPlace r := by
      unfold lastPlace
      omega
    rcases places.eq_or_lt with same | less
    · rw [rounded, rounded, same]
      have unit : (0 : ℚ) < 2 ^ lastPlace r := by positivity
      apply mul_le_mul_of_nonneg_right _ unit.le
      exact_mod_cast nearestEven_mono (div_le_div_of_nonneg_right le unit.le)
    · -- a power of two, on the grid of both, lies between
      have gap : Int.log 2 |q| < Int.log 2 |r| ∧ lastPlace r ≤ Int.log 2 |r| := by
        unfold lastPlace at less ⊢
        omega
      have below : q ≤ ((1 : Int) : ℚ) * 2 ^ Int.log 2 |r| := by
        have power := (Int.lt_zpow_iff_log_lt (b := 2) (by norm_num) positive).mpr (by
          rw [abs_of_pos positive] at gap
          exact gap.1)
        simpa using power.le
      have above : ((1 : Int) : ℚ) * 2 ^ Int.log 2 |r| ≤ r := by
        have power := Int.zpow_log_le_self (b := 2) (by norm_num) (positive.trans_le le)
        rw [abs_of_pos (positive.trans_le le)]
        simpa using power
      exact (rounded_le (by omega) below).trans (le_rounded gap.2 above)

theorem rounded_mono {q r : ℚ} (le : q ≤ r) : rounded q ≤ rounded r := by
  rcases le_total 0 q with nonneg | negative
  · exact rounded_mono_nonneg nonneg le
  · rcases le_total 0 r with nonneg' | negative'
    · have left := rounded_nonneg (neg_nonneg.mpr negative)
      rw [rounded_neg] at left
      linarith [rounded_nonneg nonneg']
    · have mirrored := rounded_mono_nonneg (neg_nonneg.mpr negative') (neg_le_neg le)
      rw [rounded_neg, rounded_neg] at mirrored
      linarith

theorem rounded_of_close {q m : ℚ} {n : Int} (close : |m - q| < 2 ^ lastPlace m / 2)
    (grid : q = n * 2 ^ lastPlace m) : rounded m = q := by
  have unit : (0 : ℚ) < 2 ^ lastPlace m := by positivity
  have quotient : nearestEven (m / 2 ^ lastPlace m) = n := by
    apply nearestEven_of_close
    have scaled : m / 2 ^ lastPlace m - n = (m - q) / 2 ^ lastPlace m := by
      rw [grid]
      field_simp
    rw [scaled, abs_div, abs_of_pos unit, div_lt_iff₀ unit]
    linarith
  rw [rounded, quotient, grid]

theorem two_zpow_add (e : Int) (k : Nat) : (2 : ℚ) ^ (e + k) = 2 ^ k * 2 ^ e := by
  rw [zpow_add₀ (by norm_num), zpow_natCast, mul_comm]

theorem lastPlace_of_pos {q : ℚ} (positive : 0 < q) : lastPlace q = max (Int.log 2 q) (-1022) - 52 := by
  rw [lastPlace, abs_of_pos positive]

theorem lt_binade {q : ℚ} (positive : 0 < q) : q < 2 ^ 53 * 2 ^ lastPlace q := by
  have below : q < 2 ^ (Int.log 2 q + 1) := Int.lt_zpow_succ_log_self (by norm_num) q
  have place := lastPlace_of_pos positive
  rw [← two_zpow_add]
  exact below.trans_le (zpow_le_zpow_right₀ (by norm_num) (by push_cast; omega))

theorem lastPlace_le_of_half {q m : ℚ} {n : Int} (positive : 0 < q) (above : 0 < m)
    (grid : q = n * 2 ^ lastPlace q) (half : |m - q| < 2 ^ lastPlace q / 2) : lastPlace m ≤ lastPlace q := by
  by_contra higher
  have unit : (0 : ℚ) < 2 ^ lastPlace q := by positivity
  have place := lastPlace_of_pos positive
  have placeM := lastPlace_of_pos above
  have next : (2 : ℚ) ^ 53 * 2 ^ lastPlace q ≤ m := by
    rw [← two_zpow_add]
    calc (2 : ℚ) ^ (lastPlace q + (53 : Nat)) ≤ 2 ^ Int.log 2 m :=
          zpow_le_zpow_right₀ (by norm_num) (by push_cast; omega)
      _ ≤ m := by simpa using Int.zpow_log_le_self (b := 2) (by norm_num) above
  have most : n ≤ 2 ^ 53 - 1 := by
    have highest : (n : ℚ) < ((2 ^ 53 : Int) : ℚ) := by
      apply lt_of_mul_lt_mul_right _ unit.le
      rw [← grid]
      exact_mod_cast lt_binade positive
    exact Int.le_sub_one_of_lt (Int.cast_lt.mp highest)
  have top : q ≤ ((2 ^ 53 - 1 : Int) : ℚ) * 2 ^ lastPlace q :=
    grid.le.trans (mul_le_mul_of_nonneg_right (Int.cast_le.mpr most) unit.le)
  push_cast at top
  linarith [(abs_lt.mp half).2]

theorem rounded_of_near_below {q m : ℚ} {n : Int} (positive : 0 < q) (above : 0 < m)
    (grid : q = n * 2 ^ lastPlace q) (near : |m - q| < q / 2 ^ 54) (lower : lastPlace m < lastPlace q) :
    rounded m = q := by
  have unit : (0 : ℚ) < 2 ^ lastPlace q := by positivity
  have place := lastPlace_of_pos positive
  have placeM := lastPlace_of_pos above
  have binade : Int.log 2 m + 1 ≤ Int.log 2 q ∧ lastPlace q = Int.log 2 q - 52 := by omega
  have power : (2 : ℚ) ^ Int.log 2 q = 2 ^ 52 * 2 ^ lastPlace q := by
    rw [← two_zpow_add, binade.2]
    norm_num
  have least : (2 : ℚ) ^ 52 * 2 ^ lastPlace q ≤ q := by
    rw [← power]
    simpa using Int.zpow_log_le_self (b := 2) (by norm_num) positive
  have cut : m < 2 ^ 52 * 2 ^ lastPlace q := by
    rw [← power]
    exact (Int.lt_zpow_succ_log_self (by norm_num) m).trans_le (zpow_le_zpow_right₀ (by norm_num) binade.1)
  have ceiling := lt_binade positive
  have isPower : n = 2 ^ 52 := by
    have lowest : ((2 ^ 52 : Int) : ℚ) ≤ n := by
      apply le_of_mul_le_mul_right _ unit
      rw [← grid]
      exact_mod_cast least
    have highest : (n : ℚ) < ((2 ^ 52 + 1 : Int) : ℚ) := by
      apply lt_of_mul_lt_mul_right _ unit.le
      rw [← grid]
      push_cast
      linarith [(abs_lt.mp near).1]
    exact le_antisymm (Int.lt_add_one_iff.mp (Int.cast_lt.mp highest)) (Int.cast_le.mp lowest)
  have next : lastPlace q = lastPlace m + (1 : Nat) := by
    have under : Int.log 2 q - 1 ≤ Int.log 2 m := by
      apply (Int.zpow_le_iff_le_log (by norm_num) above).mp
      have halved : (2 : ℚ) ^ Int.log 2 q = 2 ^ 1 * 2 ^ (Int.log 2 q - 1) := by
        rw [← two_zpow_add]
        norm_num
      rw [power] at halved
      push_cast
      linarith [(abs_lt.mp near).1]
    push_cast
    omega
  rw [next, two_zpow_add, isPower] at grid
  push_cast at grid
  apply rounded_of_close (n := 2 ^ 53) _ (by rw [grid]; push_cast; ring)
  have fine : q / 2 ^ 54 = 2 ^ lastPlace m / 2 := by
    rw [grid]
    ring
  rwa [fine] at near

theorem rounded_of_near {q m : ℚ} (positive : 0 < q) (double : rounded q = q) (near : |m - q| < q / 2 ^ 54) :
    rounded m = q := by
  have above : 0 < m := by
    have smaller : q / 2 ^ 54 < q := div_lt_self positive (by norm_num)
    linarith [(abs_lt.mp near).1]
  obtain ⟨n, grid⟩ : ∃ n : Int, q = n * 2 ^ lastPlace q := ⟨_, double.symm.trans rfl⟩
  have half : |m - q| < 2 ^ lastPlace q / 2 := by
    have ceiling := lt_binade positive
    linarith
  rcases (lastPlace_le_of_half positive above grid half).eq_or_lt with same | lower
  · rw [← same] at grid half
    exact rounded_of_close half grid
  · exact rounded_of_near_below positive above grid near lower

end Counselle.Binary64

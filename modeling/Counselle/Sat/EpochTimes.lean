import Counselle.Sat.ProgressFile

/-! The times of a progress file: what `decode` makes of a time that `encode` rounded to
milliseconds. -/
namespace Counselle.Sat
open PyTime (IsDatetime minDatetime maxDatetime)

def roundsToYear10000 : Int := 253402300799999497

/-- The microseconds of a number of milliseconds that the file names. -/
def reread (ms : Int) : Int := PyTime.microseconds (Binary64.rounded ((ms : ℚ) / 1000))

def yearOne : Int := -62135596800000

def year10000 : Int := 253402300800000

theorem toEpochMs_mono {s t : Int} (le : s ≤ t) : toEpochMs s ≤ toEpochMs t := by
  have times := PyTime.timestamp_mono le
  exact Binary64.nearestEven_mono (Binary64.rounded_mono (by linarith))

theorem reread_mono {s t : Int} (le : s ≤ t) : reread s ≤ reread t := by
  have exact : (s : ℚ) ≤ t := by exact_mod_cast le
  exact PyTime.microseconds_mono (Binary64.rounded_mono (by linarith))

theorem toEpochMs_seconds {n : Int} (size : |n| < 2 ^ 40) : toEpochMs (n * 1000000) = n * 1000 := by
  have bounds := abs_lt.mp size
  have seconds : ((n * 1000000 : Int) : ℚ) / 1000000 = n := by push_cast; ring
  have millis : (n : ℚ) * 1000 = ((n * 1000 : Int) : ℚ) := by push_cast; ring
  rw [toEpochMs, PyTime.timestamp, seconds, Binary64.rounded_intCast (by rw [abs_lt]; omega), millis,
    Binary64.rounded_intCast (by rw [abs_lt]; omega), Binary64.nearestEven_intCast]

theorem reread_seconds {n : Int} (size : |n| < 2 ^ 53) : reread (n * 1000) = n * 1000000 := by
  have seconds : ((n * 1000 : Int) : ℚ) / 1000 = n := by push_cast; ring
  rw [reread, seconds, Binary64.rounded_intCast size, PyTime.microseconds_intCast]

theorem toEpochMs_range {time : Int} (valid : IsDatetime time) :
    yearOne ≤ toEpochMs time ∧ toEpochMs time ≤ year10000 := by
  have first := toEpochMs_seconds (n := -62135596800) (by decide)
  have last := toEpochMs_seconds (n := 253402300800) (by decide)
  exact ⟨first.symm.trans_le (toEpochMs_mono valid.1), (toEpochMs_mono valid.2.le).trans_eq last⟩

theorem toEpochMs_lt_year10000 {time : Int} :
    toEpochMs time < year10000 ↔ time < roundsToYear10000 := by
  have below : toEpochMs (roundsToYear10000 - 1) < year10000 := by decide +kernel
  have above : toEpochMs roundsToYear10000 = year10000 := by decide +kernel
  constructor
  · intro early
    by_contra late
    have step := toEpochMs_mono (not_lt.mp late)
    omega
  · intro early
    have step := toEpochMs_mono (show time ≤ roundsToYear10000 - 1 by omega)
    omega

section
variable {ms : Int} (range : yearOne ≤ ms ∧ ms ≤ year10000)
include range

theorem quotient_size : |(ms : ℚ) / 1000| < 2 ^ (38 : Int) := by
  have low : (yearOne : ℚ) ≤ ms := by exact_mod_cast range.1
  have high : (ms : ℚ) ≤ year10000 := by exact_mod_cast range.2
  norm_num [yearOne, year10000] at low high
  rw [abs_lt]
  constructor <;> norm_num <;> linarith

theorem reread_error : |(reread ms : ℚ) - ms * 1000| ≤ 16 := by
  have rounding := abs_le.mp (Binary64.rounded_error (quotient_size range) (by norm_num))
  have scaling := abs_le.mp (PyTime.microseconds_error (Binary64.rounded ((ms : ℚ) / 1000)))
  norm_num at rounding
  rw [abs_le]
  unfold reread
  constructor <;> linarith

theorem toEpochMs_reread : toEpochMs (reread ms) = ms := by
  have low : (yearOne : ℚ) ≤ ms := by exact_mod_cast range.1
  have high : (ms : ℚ) ≤ year10000 := by exact_mod_cast range.2
  norm_num [yearOne, year10000] at low high
  have close := abs_le.mp (reread_error range)
  have seconds : |(reread ms : ℚ) / 1000000| < 2 ^ (38 : Int) := by
    rw [abs_lt]
    constructor <;> norm_num <;> linarith
  have stamp := abs_le.mp (Binary64.rounded_error seconds (by norm_num))
  norm_num at stamp
  have millis : |PyTime.timestamp (reread ms) * 1000| < 2 ^ (48 : Int) := by
    unfold PyTime.timestamp
    rw [abs_lt]
    constructor <;> norm_num <;> linarith
  have product := abs_le.mp (Binary64.rounded_error millis (by norm_num))
  norm_num at product
  apply Binary64.nearestEven_of_close
  unfold PyTime.timestamp at product ⊢
  rw [abs_lt]
  constructor <;> linarith

theorem reread_valid : IsDatetime (reread ms) ↔ ms < year10000 := by
  have first := reread_seconds (n := -62135596800) (by decide)
  have last := reread_seconds (n := 253402300800) (by decide)
  have lower : minDatetime ≤ reread ms := first.symm.trans_le (reread_mono range.1)
  constructor
  · intro valid
    by_contra late
    have upper : maxDatetime ≤ reread ms := last.symm.trans_le (reread_mono (not_lt.mp late))
    exact absurd valid.2 (not_lt.mpr upper)
  · intro early
    have close := abs_le.mp (reread_error range)
    have whole : (ms : ℚ) ≤ year10000 - 1 := by
      have step : ms ≤ year10000 - 1 := by omega
      exact_mod_cast step
    norm_num [year10000] at whole
    have upper : (reread ms : ℚ) < (maxDatetime : Int) := by
      norm_num [maxDatetime]
      linarith
    exact ⟨lower, by exact_mod_cast upper⟩

theorem msToDatetime_int : msToDatetime ms =
    if ms < year10000 then .ok (reread ms) else .error .valueError := by
  have rounding := abs_le.mp (Binary64.rounded_error (quotient_size range) (by norm_num))
  have size := abs_lt.mp (quotient_size range)
  norm_num at rounding size
  have small : |Binary64.rounded ((ms : ℚ) / 1000)| < 2 ^ 63 := by
    rw [abs_lt]
    constructor <;> norm_num <;> linarith
  have finite : Binary64.ofRat ((ms : ℚ) / 1000) = .finite (Binary64.rounded ((ms : ℚ) / 1000)) := by
    apply if_neg
    exact not_le.mpr (small.trans (pow_lt_pow_right₀ (by norm_num) (by norm_num)))
  rw [msToDatetime, finite, PyTime.fromTimestamp, if_neg (not_le.mpr small)]
  exact if_congr (reread_valid range) rfl rfl

end

theorem ofRat_int {n : Int} (size : |n| < 2 ^ 53) : Binary64.ofRat (n : ℚ) = .finite n := by
  have small : |(n : ℚ)| < 2 ^ 53 := by exact_mod_cast size
  rw [Binary64.ofRat, Binary64.rounded_intCast size, 
    if_neg (not_le.mpr (small.trans (pow_lt_pow_right₀ (by norm_num) (by norm_num))))]

theorem jsRound_int {n : Int} (size : |n| < 2 ^ 51) : jsRound n = n := by
  have bounds := abs_lt.mp size
  have low : (-2 ^ 51 : ℚ) < n := by exact_mod_cast bounds.1
  have high : (n : ℚ) < 2 ^ 51 := by exact_mod_cast bounds.2
  have half : (n : ℚ) + 1 / 2 = ((2 * n + 1 : Int) : ℚ) * 2 ^ (-1 : Int) := by
    push_cast
    norm_num
    ring
  have places : Binary64.lastPlace ((n : ℚ) + 1 / 2) ≤ 52 - 53 := by
    apply Binary64.lastPlace_le _ _ (by norm_num)
    · intro zero
      have twice : ((2 * n + 1 : Int) : ℚ) = 0 := by push_cast; linarith
      have odd : 2 * n + 1 = 0 := by exact_mod_cast twice
      omega
    · rw [abs_lt]
      constructor <;> norm_num <;> linarith
  rw [jsRound, Binary64.rounded_of_multiple places half, Int.floor_eq_iff]
  constructor <;> linarith

end Counselle.Sat

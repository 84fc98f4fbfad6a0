import Counselle.Calendar
import Counselle.PyNumber

/-! Python's UTC datetimes: the microseconds since the epoch, from year 1 to year 9999. -/
namespace Counselle.PyTime
open PyJson (PyFloat)
open PyText (PyError)

def minDatetime : Int := -62135596800 * 1000000

def maxDatetime : Int := 253402300800 * 1000000

/-- What a `datetime` can hold. -/
def IsDatetime (time : Int) : Prop := minDatetime ≤ time ∧ time < maxDatetime

instance (time : Int) : Decidable (IsDatetime time) := inferInstanceAs (Decidable (_ ∧ _))

/-- Rounding toward zero: the whole part of `modf`. -/
def truncated (q : ℚ) : Int := if 0 ≤ q then ⌊q⌋ else ⌈q⌉

/-- The microseconds of a double of seconds: its fraction is scaled as a double and rounded
half to even. -/
def microseconds (seconds : ℚ) : Int :=
  truncated seconds * 1000000 +
    Binary64.nearestEven (Binary64.rounded ((seconds - truncated seconds) * 1000000))

/-- `datetime.fromtimestamp(t, tz=UTC)`. The system may say `OSError` in place of the
`ValueError` of a year outside the calendar. -/
def fromTimestamp : PyFloat → Except PyError Int
  | .nan => .error .valueError
  | .infinite _ => .error .overflowError
  | .finite seconds =>
    let time := microseconds seconds
    if 2 ^ 63 ≤ |seconds| then .error .overflowError
    else if minDatetime ≤ time ∧ time < maxDatetime then .ok time
    else .error .valueError

/-- The date of a UTC datetime. Every microsecond of the years 1 to 9999 has one. -/
def utcDate (time : Int) : Calendar.Date :=
  (Calendar.ofOrdinal (time / 86400000000 + 719163).toNat).getD ⟨1, 1, 1, by decide⟩

/-- `d.timestamp()` of an aware datetime: its microseconds since the epoch by true division. -/
def timestamp (time : Int) : ℚ := Binary64.rounded ((time : ℚ) / 1000000)

theorem timestamp_mono {s t : Int} (le : s ≤ t) : timestamp s ≤ timestamp t := by
  have exact : (s : ℚ) ≤ t := by exact_mod_cast le
  exact Binary64.rounded_mono (by linarith)

theorem truncated_intCast (n : Int) : truncated n = n := by simp [truncated]

theorem truncated_mono {s t : ℚ} (le : s ≤ t) : truncated s ≤ truncated t := by
  unfold truncated
  split_ifs with first second
  · exact Int.floor_le_floor le
  · exact absurd (first.trans le) second
  · exact (Int.ceil_le.mpr (by push_cast; linarith) : ⌈s⌉ ≤ 0).trans (Int.floor_nonneg.mpr ‹_›)
  · exact Int.ceil_le_ceil le

theorem fraction_nonneg {s : ℚ} (nonneg : 0 ≤ s) :
    0 ≤ s - truncated s ∧ s - truncated s < 1 := by
  rw [truncated, if_pos nonneg]
  constructor
  · linarith [Int.floor_le s]
  · linarith [Int.lt_floor_add_one s]

theorem fraction_neg {s : ℚ} (negative : s < 0) :
    -1 < s - truncated s ∧ s - truncated s ≤ 0 := by
  rw [truncated, if_neg (by linarith)]
  constructor
  · linarith [Int.ceil_lt_add_one s]
  · linarith [Int.le_ceil s]

theorem scaled_mono {s t : ℚ} (le : s ≤ t) :
    Binary64.nearestEven (Binary64.rounded (s * 1000000)) ≤
      Binary64.nearestEven (Binary64.rounded (t * 1000000)) :=
  Binary64.nearestEven_mono (Binary64.rounded_mono (by linarith))

theorem scaled_intCast {n : Int} (size : |n| ≤ 1) :
    Binary64.nearestEven (Binary64.rounded ((n : ℚ) * 1000000)) = n * 1000000 := by
  have exact : (n : ℚ) * 1000000 = ((n * 1000000 : Int) : ℚ) := by push_cast; ring
  have bounds := abs_le.mp size
  rw [exact, Binary64.rounded_intCast (by rw [abs_lt]; omega), Binary64.nearestEven_intCast]

theorem microseconds_intCast (n : Int) : microseconds n = n * 1000000 := by
  have none : ((n : ℚ) - truncated (n : ℚ)) * 1000000 = 0 := by
    rw [truncated_intCast]
    ring
  rw [microseconds, none, Binary64.rounded_zero, truncated_intCast]
  simp [Binary64.nearestEven]

theorem microseconds_nonneg {s : ℚ} (nonneg : 0 ≤ s) :
    truncated s * 1000000 ≤ microseconds s ∧ microseconds s ≤ truncated s * 1000000 + 1000000 := by
  have fraction := fraction_nonneg nonneg
  have low := scaled_mono (show ((0 : Int) : ℚ) ≤ s - truncated s by exact_mod_cast fraction.1)
  have high := scaled_mono (show s - truncated s ≤ ((1 : Int) : ℚ) by push_cast; linarith)
  rw [scaled_intCast (by norm_num)] at low high
  unfold microseconds
  omega

theorem microseconds_neg {s : ℚ} (negative : s < 0) :
    truncated s * 1000000 - 1000000 ≤ microseconds s ∧ microseconds s ≤ truncated s * 1000000 := by
  have fraction := fraction_neg negative
  have low := scaled_mono (show ((-1 : Int) : ℚ) ≤ s - truncated s by push_cast; linarith)
  have high := scaled_mono (show s - truncated s ≤ ((0 : Int) : ℚ) by push_cast; linarith)
  rw [scaled_intCast (by norm_num)] at low high
  unfold microseconds
  omega

theorem microseconds_mono {s t : ℚ} (le : s ≤ t) : microseconds s ≤ microseconds t := by
  rcases (truncated_mono le).eq_or_lt with same | less
  · have step := scaled_mono (show s - truncated s ≤ t - truncated t by rw [same]; linarith)
    unfold microseconds
    omega
  · rcases le_or_gt 0 s with nonneg | negative
    · have left := microseconds_nonneg nonneg
      have right := microseconds_nonneg (nonneg.trans le)
      omega
    · have left := microseconds_neg negative
      rcases le_or_gt 0 t with nonneg' | negative'
      · have right := microseconds_nonneg nonneg'
        omega
      · have right := microseconds_neg negative'
        omega

theorem microseconds_error (s : ℚ) : |(microseconds s : ℚ) - s * 1000000| ≤ 51 / 100 := by
  have size : |(s - truncated s) * 1000000| < 2 ^ (20 : Int) := by
    rw [abs_lt]
    rcases le_or_gt 0 s with nonneg | negative
    · have fraction := fraction_nonneg nonneg
      constructor <;> norm_num <;> linarith
    · have fraction := fraction_neg negative
      constructor <;> norm_num <;> linarith
  have scaled := abs_le.mp (Binary64.rounded_error size (by norm_num))
  have nearest := abs_le.mp
    (Binary64.nearestEven_error (Binary64.rounded ((s - truncated s) * 1000000)))
  norm_num at scaled
  unfold microseconds
  push_cast
  rw [abs_le]
  constructor <;> linarith

end Counselle.PyTime

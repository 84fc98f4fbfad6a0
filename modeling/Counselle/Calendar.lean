import Mathlib.Algebra.GroupWithZero.Nat
import Mathlib.Data.List.Basic

/-! Calendar dates as `datetime.date` builds them: the proleptic Gregorian calendar
over the years 1 to 9999. -/
namespace Counselle.Calendar

def leapYear (year : Nat) : Bool := year % 4 == 0 && (year % 100 != 0 || year % 400 == 0)

def daysInMonth (year month : Nat) : Nat :=
  if month = 2 then (if leapYear year then 29 else 28)
  else if month = 4 ∨ month = 6 ∨ month = 9 ∨ month = 11 then 30
  else 31

/-- What the constructor of `date` checks. -/
def isDate (year month day : Nat) : Prop :=
  1 ≤ year ∧ year ≤ 9999 ∧ 1 ≤ month ∧ month ≤ 12 ∧ 1 ≤ day ∧ day ≤ daysInMonth year month

instance (year month day : Nat) : Decidable (isDate year month day) := by
  unfold isDate
  infer_instance

structure Date where
  year : Nat
  month : Nat
  day : Nat
  valid : isDate year month day
  deriving DecidableEq

/-- `date(year, month, day)`; `none` where Python raises `ValueError`. -/
def date (year month day : Nat) : Option Date :=
  if valid : isDate year month day then some ⟨year, month, day, valid⟩ else none

/-- The day before; `none` is the `OverflowError` before the year 1. -/
def Date.previous (d : Date) : Option Date :=
  if 1 < d.day then date d.year d.month (d.day - 1)
  else if 1 < d.month then date d.year (d.month - 1) (daysInMonth d.year (d.month - 1))
  else date (d.year - 1) 12 31

def daysBeforeYear (year : Nat) : Nat :=
  let past := year - 1
  past * 365 + past / 4 - past / 100 + past / 400

def daysBeforeMonth (year month : Nat) : Nat :=
  ((List.range (month - 1)).map fun m => daysInMonth year (m + 1)).sum

def ordinal (year month day : Nat) : Nat := daysBeforeYear year + daysBeforeMonth year month + day

/-- `d.toordinal()` -/
def Date.toordinal (d : Date) : Nat := ordinal d.year d.month d.day

/-- The month and the day of a day of the year, counted from zero; `months` are left. -/
def monthAndDay (year : Nat) : Nat → Nat → Nat → Nat × Nat
  | 0, month, n => (month, n + 1)
  | months + 1, month, n =>
    if n < daysInMonth year month then (month, n + 1)
    else monthAndDay year months (month + 1) (n - daysInMonth year month)

/-- `date.fromordinal` -/
def ofOrdinal (n : Nat) : Option Date :=
  let past := n - 1
  let (fourCenturies, past) := (past / 146097, past % 146097)
  let (centuries, past) := (past / 36524, past % 36524)
  let (fours, past) := (past / 1461, past % 1461)
  let (years, past) := (past / 365, past % 365)
  let year := fourCenturies * 400 + centuries * 100 + fours * 4 + years + 1
  if years = 4 ∨ centuries = 4 then date (year - 1) 12 31
  else
    let (month, day) := monthAndDay year 11 1 past
    date year month day

def digitText (n : Nat) : Char := Char.ofNat (48 + n)

/-- `d.isoformat()` -/
def Date.isoformat (d : Date) : List Char :=
  [digitText (d.year / 1000), digitText (d.year / 100 % 10), digitText (d.year / 10 % 10),
    digitText (d.year % 10), '-', digitText (d.month / 10), digitText (d.month % 10), '-',
    digitText (d.day / 10), digitText (d.day % 10)]

def parseDigits : Nat → Nat → List Char → Option (Nat × List Char)
  | 0, value, text => some (value, text)
  | _ + 1, _, [] => none
  | count + 1, value, c :: rest =>
    if c.isDigit then parseDigits count (10 * value + (c.toNat - 48)) rest else none

def parseSeparator (separated : Bool) (text : List Char) : Option (List Char) :=
  if separated then
    match text with
    | '-' :: rest => some rest
    | _ => none
  else some text

def weekday (n : Nat) : Nat := (n + 6) % 7

def ofWeek (year week day : Nat) : Option Date :=
  let first := ordinal year 1 1
  let long := weekday first = 3 ∨ weekday first = 2 ∧ leapYear year
  let monday := if 3 < weekday first then first - weekday first + 7 else first - weekday first
  if 1 ≤ year ∧ year ≤ 9999 ∧ (1 ≤ week ∧ week < 53 ∨ week = 53 ∧ long) ∧ 1 ≤ day ∧ day ≤ 7 then
    ofOrdinal (monday + (week - 1) * 7 + (day - 1))
  else none

/-- `date.fromisoformat(text)`; `none` is the `ValueError`. The length is that of the UTF-8
bytes, and behind a date without separators up to two bytes more are not read. -/
def fromIsoformat (text : List Char) : Option Date :=
  let size := (text.map Char.utf8Size).sum
  if size = 7 ∨ size = 8 ∨ size = 10 then do
    let (year, rest) ← parseDigits 4 0 text
    let separated := rest.head? = some '-'
    let rest := if separated then rest.tail else rest
    match rest with
    | 'W' :: rest =>
      let (week, rest) ← parseDigits 2 0 rest
      if rest = [] then ofWeek year week 1
      else
        let rest ← parseSeparator separated rest
        let (day, _) ← parseDigits 1 0 rest
        ofWeek year week day
    | rest =>
      let (month, rest) ← parseDigits 2 0 rest
      let rest ← parseSeparator separated rest
      let (day, _) ← parseDigits 2 0 rest
      date year month day
  else none

theorem digitText_spec : ∀ n < 10, (digitText n).isDigit = true ∧ (digitText n).toNat - 48 = n ∧
    digitText n ≠ 'W' ∧ (digitText n).utf8Size = 1 := by decide

theorem date_self (d : Date) : date d.year d.month d.day = some d := by
  simp [date, d.valid]

theorem daysInMonth_bounds (year month : Nat) : 28 ≤ daysInMonth year month ∧ daysInMonth year month ≤ 31 := by
  unfold daysInMonth
  split_ifs <;> omega

theorem daysBeforeMonth_succ (year month : Nat) :
    daysBeforeMonth year (month + 2) = daysBeforeMonth year (month + 1) + daysInMonth year (month + 1) := by
  simp [daysBeforeMonth, List.range_succ]

theorem daysBeforeMonth_december (year : Nat) :
    daysBeforeMonth year 12 = 334 + if leapYear year then 1 else 0 := by
  by_cases leap : leapYear year = true
  · simp [daysBeforeMonth, List.range_succ, daysInMonth, leap]
  · simp [daysBeforeMonth, List.range_succ, daysInMonth, leap]

theorem daysBeforeYear_succ (year : Nat) :
    daysBeforeYear (year + 2) = daysBeforeYear (year + 1) + 365 + if leapYear (year + 1) then 1 else 0 := by
  have fewer : year / 100 ≤ year / 4 := by omega
  simp only [daysBeforeYear, leapYear, Bool.and_eq_true, Bool.or_eq_true, beq_iff_eq, bne_iff_ne]
  rw [show year + 2 - 1 = year + 1 from rfl, Nat.add_sub_cancel]
  by_cases four : (year + 1) % 4 = 0
  · have fours : (year + 1) / 4 = year / 4 + 1 := by omega
    by_cases century : (year + 1) % 100 = 0
    · have centuries : (year + 1) / 100 = year / 100 + 1 := by omega
      by_cases cycle : (year + 1) % 400 = 0
      · have cycles : (year + 1) / 400 = year / 400 + 1 := by omega
        rw [fours, centuries, cycles, if_pos ⟨four, .inr cycle⟩]
        omega
      · have cycles : (year + 1) / 400 = year / 400 := by omega
        rw [fours, centuries, cycles, if_neg (fun leap => leap.2.elim (· century) cycle)]
        omega
    · have centuries : (year + 1) / 100 = year / 100 := by omega
      have cycles : (year + 1) / 400 = year / 400 := by omega
      rw [fours, centuries, cycles, if_pos ⟨four, .inl century⟩]
      omega
  · have fours : (year + 1) / 4 = year / 4 := by omega
    have centuries : (year + 1) / 100 = year / 100 := by omega
    have cycles : (year + 1) / 400 = year / 400 := by omega
    rw [fours, centuries, cycles, if_neg (fun leap => four leap.1)]
    omega

theorem date_eq_some {year month day : Nat} {d : Date} (made : date year month day = some d) :
    d.year = year ∧ d.month = month ∧ d.day = day := by
  unfold date at made
  split_ifs at made
  cases made
  exact ⟨rfl, rfl, rfl⟩

theorem toordinal_previous {d before : Date} (earlier : d.previous = some before) :
    before.toordinal + 1 = d.toordinal := by
  obtain ⟨first, -, early, -, positive, -⟩ := d.valid
  unfold Date.previous at earlier
  unfold Date.toordinal ordinal
  split_ifs at earlier with later after
  · obtain ⟨sameYear, sameMonth, sameDay⟩ := date_eq_some earlier
    rw [sameYear, sameMonth, sameDay]
    omega
  · obtain ⟨sameYear, sameMonth, sameDay⟩ := date_eq_some earlier
    obtain ⟨past, month⟩ : ∃ past, d.month = past + 2 := ⟨d.month - 2, by omega⟩
    have sum := daysBeforeMonth_succ d.year past
    rw [sameYear, sameMonth, sameDay, month, show past + 2 - 1 = past + 1 from rfl]
    omega
  · obtain ⟨sameYear, sameMonth, sameDay⟩ := date_eq_some earlier
    have positive' : 1 ≤ before.year := before.valid.1
    obtain ⟨past, year⟩ : ∃ past, d.year = past + 2 := ⟨d.year - 2, by omega⟩
    have january : d.month = 1 := by omega
    have sum := daysBeforeYear_succ past
    have december := daysBeforeMonth_december (past + 1)
    have none : daysBeforeMonth (past + 2) 1 = 0 := rfl
    rw [sameYear, sameMonth, sameDay, january, year, show past + 2 - 1 = past + 1 from rfl, none]
    omega

theorem previous_eq_none_iff (d : Date) : d.previous = none ↔ d.year = 1 ∧ d.month = 1 ∧ d.day = 1 := by
  obtain ⟨year, month, day, valid⟩ := d
  obtain ⟨first, last, early, late, positive, short⟩ := valid
  have days := daysInMonth_bounds year (month - 1)
  simp only [Date.previous, date]
  split_ifs with later inMonth after inYear inYears
  · simp; omega
  · exact absurd (by unfold isDate; omega) inMonth
  · simp; omega
  · exact absurd (by unfold isDate; omega) inYear
  · have : 1 ≤ year - 1 := inYears.1
    simp; omega
  · have december : daysInMonth (year - 1) 12 = 31 := rfl
    have only : year = 1 := by
      by_contra apart
      exact inYears (by unfold isDate; omega)
    simp; omega

theorem parseDigits_cons {n : Nat} (small : n < 10) (count value : Nat) (rest : List Char) :
    parseDigits (count + 1) value (digitText n :: rest) = parseDigits count (10 * value + n) rest := by
  obtain ⟨digit, same, -⟩ := digitText_spec n small
  rw [parseDigits, if_pos digit, same]

theorem parseDigits_two {n : Nat} (small : n < 100) (rest : List Char) :
    parseDigits 2 0 (digitText (n / 10) :: digitText (n % 10) :: rest) = some (n, rest) := by
  rw [parseDigits_cons (by omega), parseDigits_cons (by omega), parseDigits,
    show 10 * (10 * 0 + n / 10) + n % 10 = n by omega]

theorem parseDigits_four {n : Nat} (small : n < 10000) (rest : List Char) :
    parseDigits 4 0 (digitText (n / 1000) :: digitText (n / 100 % 10) :: digitText (n / 10 % 10) ::
      digitText (n % 10) :: rest) = some (n, rest) := by
  rw [parseDigits_cons (by omega), parseDigits_cons (by omega), parseDigits_cons (by omega),
    parseDigits_cons (by omega), parseDigits,
    show 10 * (10 * (10 * (10 * 0 + n / 1000) + n / 100 % 10) + n / 10 % 10) + n % 10 = n by omega]

theorem size_isoformat (d : Date) : (d.isoformat.map Char.utf8Size).sum = 10 := by
  obtain ⟨-, years, -, months, -, days⟩ := d.valid
  have short : daysInMonth d.year d.month ≤ 31 := by
    unfold daysInMonth
    split_ifs <;> omega
  have one : ∀ n < 10, (digitText n).utf8Size = 1 := fun n small => (digitText_spec n small).2.2.2
  simp [Date.isoformat, one (d.year / 1000) (by omega), one (d.year / 100 % 10) (by omega),
    one (d.year / 10 % 10) (by omega), one (d.year % 10) (by omega), one (d.month / 10) (by omega),
    one (d.month % 10) (by omega), one (d.day / 10) (by omega), one (d.day % 10) (by omega),
    show '-'.utf8Size = 1 by decide]

theorem fromIsoformat_isoformat (d : Date) : fromIsoformat d.isoformat = some d := by
  obtain ⟨-, years, -, months, -, days⟩ := d.valid
  have short : daysInMonth d.year d.month ≤ 31 := by
    unfold daysInMonth
    split_ifs <;> omega
  have noWeek : digitText (d.month / 10) ≠ 'W' := (digitText_spec _ (by omega)).2.2.1
  unfold fromIsoformat
  simp only [size_isoformat]
  rw [if_pos (by decide), Date.isoformat, parseDigits_four (by omega)]
  simp only [Option.bind_eq_bind, Option.bind_some, List.head?_cons, List.tail_cons, if_true]
  split
  case h_1 same => exact absurd (List.cons.inj same).1 noWeek
  case h_2 =>
    rw [parseDigits_two (by omega)]
    simp only [Option.bind_some, parseSeparator, decide_true, if_true, parseDigits_two (show d.day < 100 by omega)]
    exact date_self d

end Counselle.Calendar

import Counselle.Binary64
import Counselle.PyText

/-! The numbers that Python reads from text and writes as text, and the times that it makes
of them. -/
namespace Counselle.PyNumber
open PyJson (PyFloat)
open PyText (PyError isSpace isDigit digitValue)
open Binary64 (ofRat rounded)

/-- What the C readers are given: blanks and digits of every script as ASCII. -/
def asciiOf (c : Char) : Char :=
  if c.toNat < 127 then c
  else if isSpace c then ' '
  else match digitValue c with
    | some n => Char.ofNat ('0'.toNat + n)
    | none => '?'

/-- `isspace` of the C locale. -/
def isBlank (c : Char) : Bool := (9 ≤ c.toNat && c.toNat ≤ 13) || c == ' '

def trimmed (text : List Char) : List Char :=
  (((text.map asciiOf).dropWhile isBlank).reverse.dropWhile isBlank).reverse

def placeValue (c : Char) : Option Nat :=
  if '0' ≤ c && c ≤ '9' then some (c.toNat - '0'.toNat)
  else if 'a' ≤ c && c ≤ 'z' then some (c.toNat - 'a'.toNat + 10)
  else if 'A' ≤ c && c ≤ 'Z' then some (c.toNat - 'A'.toNat + 10)
  else none

/-- Digits with single underscores between them: their value and their number. `fresh` is
right after the start or an underscore, where a digit has to stand. -/
def readPlaces (base : Nat) : List Char → Bool → Nat → Nat → Option (Nat × Nat)
  | [], fresh, value, count => if fresh then none else some (value, count)
  | c :: rest, fresh, value, count =>
    if c = '_' then if fresh then none else readPlaces base rest true value count
    else match placeValue c with
      | some place =>
        if place < base then readPlaces base rest false (base * value + place) (count + 1) else none
      | none => none

def signed (text : List Char) : Bool × List Char :=
  match text with
  | '-' :: rest => (true, rest)
  | '+' :: rest => (false, rest)
  | rest => (false, rest)

/-- `int(text)`; `none` is the `ValueError`. -/
def intText (text : List Char) : Option Int :=
  let (negative, digits) := signed (trimmed text)
  match readPlaces 10 digits true 0 0 with
  | some (value, count) =>
    if PyText.maxStrDigits < count then none else some (if negative then -value else value)
  | none => none

/-- `int(text, 16)` -/
def hexText (text : List Char) : Option Int :=
  let (negative, digits) := signed (trimmed text)
  let digits := match digits with
    | '0' :: 'x' :: '_' :: rest | '0' :: 'X' :: '_' :: rest => rest
    | '0' :: 'x' :: rest | '0' :: 'X' :: rest => rest
    | digits => digits
  (readPlaces 16 digits true 0 0).map fun (value, _) => if negative then -value else value

/-- The text of `float` without its underscores, each of which stands between two digits;
`last` is the character before. -/
def withoutUnderscores : List Char → Char → Option (List Char)
  | [], last => if last = '_' then none else some []
  | c :: rest, last =>
    if c = '_' then if last.isDigit then withoutUnderscores rest c else none
    else if last = '_' && !c.isDigit then none
    else (withoutUnderscores rest c).map (c :: ·)

def digitsValue (digits : List Char) : Nat :=
  digits.foldl (fun n c => 10 * n + (c.toNat - '0'.toNat)) 0

/-- `[e[sign]digits]` at the end of a number. -/
def exponentOf : List Char → Option Int
  | [] => some 0
  | c :: rest =>
    if c = 'e' || c = 'E' then
      let (negative, digits) := signed rest
      if digits ≠ [] && digits.all Char.isDigit then
        some (if negative then -(digitsValue digits : Int) else digitsValue digits)
      else none
    else none

/-- `digits[.digits][exponent]`, with a digit before or after the point. -/
def unsignedDecimal (text : List Char) : Option ℚ :=
  let whole := text.takeWhile Char.isDigit
  let rest := text.dropWhile Char.isDigit
  let (fraction, rest) := match rest with
    | '.' :: rest => (rest.takeWhile Char.isDigit, rest.dropWhile Char.isDigit)
    | rest => ([], rest)
  if whole = [] && fraction = [] then none
  else (exponentOf rest).map fun (exponent : Int) =>
    (digitsValue (whole ++ fraction) : ℚ) * 10 ^ (exponent - fraction.length)

/-- `float(text)`; `none` is the `ValueError`. -/
def floatText (text : List Char) : Option PyFloat :=
  (withoutUnderscores (trimmed text) ' ').bind fun text =>
    let (negative, unsigned) := signed text
    let name := unsigned.map Char.toLower
    if name = "inf".toList || name = "infinity".toList then some (.infinite negative)
    else if name = "nan".toList then some .nan
    else (unsignedDecimal unsigned).map fun q => Binary64.ofRat (if negative then -q else q)

/-- The shortest decimal that rounds to the positive double `q`: its digits, and the power
of ten that they count. -/
def shortest (q : ℚ) : Nat × Int :=
  let point := Int.log 10 q + 1
  let rounding (count : Nat) : Option (Nat × Int) :=
    let unit : ℚ := 10 ^ (point - count)
    let low := (⌊q / unit⌋).toNat
    let nearest := if q / unit - low ≤ 1 / 2 then [low, low + 1] else [low + 1, low]
    (nearest.find? fun (digits : Nat) => decide (Binary64.ofRat (digits * unit) = .finite q)).map fun digits =>
      (digits, point - count)
  ((List.range 17).findSome? fun i => rounding (i + 1)).getD
    ((⌊q / 10 ^ (point - 17)⌋).toNat, point - 17)

/-- Digits with the point after the first `place` of them, padded with zeros. -/
def pointed (digits : List Char) (place : Int) : List Char :=
  if place ≤ 0 then "0.".toList ++ List.replicate place.natAbs '0' ++ digits
  else
    let padded := digits ++ List.replicate (place.toNat - digits.length) '0'
    let fraction := padded.drop place.toNat
    padded.take place.toNat ++ '.' :: (if fraction = [] then ['0'] else fraction)

def exponential (digits : List Char) (exponent : Int) : List Char :=
  let size := Nat.toDigits 10 exponent.natAbs
  digits.take 1 ++ (if digits.length ≤ 1 then [] else '.' :: digits.drop 1) ++ 'e' ::
    (if exponent < 0 then '-' else '+') :: (if size.length < 2 then '0' :: size else size)

/-- `repr` of a double; the sign of a zero is not kept. -/
def floatRepr : PyFloat → List Char
  | .nan => "nan".toList
  | .infinite negative => (if negative then "-inf" else "inf").toList
  | .finite q =>
    if q = 0 then "0.0".toList
    else
      let (value, power) := shortest |q|
      let digits := Nat.toDigits 10 value
      let point := digits.length + power
      let digits := (digits.reverse.dropWhile (· = '0')).reverse
      (if q < 0 then ['-'] else []) ++
        (if -4 < point ∧ point ≤ 16 then pointed digits point else exponential digits (point - 1))

theorem ofRat_finite {q r : ℚ} : ofRat q = .finite r ↔ rounded q = r ∧ |r| < 2 ^ 1024 := by
  rw [ofRat]
  split_ifs with huge
  · simp only [false_iff, not_and]
    rintro rfl
    exact not_lt.mpr huge
  · simp only [PyFloat.finite.injEq, iff_self_and]
    rintro rfl
    exact not_le.mp huge

theorem near_of_unit {q unit : ℚ} (positive : 0 < q) (unitPositive : 0 < unit) (fine : unit * 10 ^ 16 ≤ q) :
    ∃ digits ∈ (if q / unit - ((⌊q / unit⌋).toNat : ℚ) ≤ 1 / 2 then [(⌊q / unit⌋).toNat, (⌊q / unit⌋).toNat + 1]
      else [(⌊q / unit⌋).toNat + 1, (⌊q / unit⌋).toNat]), |(digits : ℚ) * unit - q| < q / 2 ^ 54 := by
  have quotient : 0 ≤ q / unit := by positivity
  have cast : (((⌊q / unit⌋).toNat : Nat) : ℚ) = (⌊q / unit⌋ : ℚ) := by
    exact_mod_cast Int.toNat_of_nonneg (Int.floor_nonneg.mpr quotient)
  have low := Int.floor_le (q / unit)
  have high := Int.lt_floor_add_one (q / unit)
  have small : unit / 2 < q / 2 ^ 54 := by
    norm_num at fine ⊢
    linarith
  have scaled : ∀ d : ℚ, |d - q / unit| ≤ 1 / 2 → |d * unit - q| < q / 2 ^ 54 := by
    intro d close
    have factored : d * unit - q = (d - q / unit) * unit := by field_simp
    rw [factored, abs_mul, abs_of_pos unitPositive]
    have := mul_le_mul_of_nonneg_right close unitPositive.le
    linarith
  split_ifs with lower
  · refine ⟨_, List.mem_cons_self, scaled _ (abs_le.mpr ?_)⟩
    rw [cast] at lower ⊢
    constructor <;> linarith
  · refine ⟨_, List.mem_cons_self, scaled _ (abs_le.mpr ?_)⟩
    push_cast
    rw [cast] at lower ⊢
    constructor <;> linarith

theorem ofRat_shortest {q : ℚ} (positive : 0 < q) (double : ofRat q = .finite q) :
    ofRat ((shortest q).1 * 10 ^ (shortest q).2) = .finite q := by
  unfold shortest
  dsimp only
  generalize isFound : List.findSome? _ (List.range 17) = found
  cases found with
  | some written =>
    obtain ⟨i, -, rounds⟩ := List.exists_of_findSome?_eq_some isFound
    obtain ⟨digits, isIn, rfl⟩ := Option.map_eq_some_iff.mp rounds
    simpa using List.find?_some isIn
  | none =>
    exfalso
    have rounds := List.findSome?_eq_none_iff.mp isFound 16 (by simp)
    rw [Option.map_eq_none_iff, List.find?_eq_none] at rounds
    have fine : (10 : ℚ) ^ (Int.log 10 q + 1 - ((16 + 1 : Nat) : Int)) * 10 ^ 16 ≤ q := by
      rw [← zpow_natCast, ← zpow_add₀ (by norm_num)]
      have least : (10 : ℚ) ^ Int.log 10 q ≤ q := by simpa using Int.zpow_log_le_self (b := 10) (by norm_num) positive
      rwa [show Int.log 10 q + 1 - ((16 + 1 : Nat) : Int) + ((16 : Nat) : Int) = Int.log 10 q by push_cast; ring]
    obtain ⟨digits, isIn, near⟩ := near_of_unit positive (by positivity) fine
    obtain ⟨isDouble, bounded⟩ := ofRat_finite.mp double
    exact rounds digits isIn
      (decide_eq_true (ofRat_finite.mpr ⟨Binary64.rounded_of_near positive isDouble near, bounded⟩))

end Counselle.PyNumber

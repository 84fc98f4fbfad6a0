import Counselle.PyText
import Mathlib.Algebra.Order.Field.Rat

/-! The grading of an attempt: a key as text, a key as a number, and the entry rule for a
free response whose value does not fit the field. -/
namespace Counselle.Sat
open PyText (isDigit strip decimal)

inductive ItemType where
  | mcq
  | spr
  deriving DecidableEq

structure Casing where
  upper : List Char → List Char
  lower : List Char → List Char

/-- `\d+(?:\.\d*)?|\.\d+` -/
def isUnsignedDecimal (text : List Char) : Bool :=
  let whole := text.takeWhile isDigit
  match text.dropWhile isDigit with
  | [] => whole ≠ []
  | c :: fraction => c = '.' && fraction.all isDigit && (whole ≠ [] || fraction ≠ [])

def unsign (text : List Char) : Bool × List Char :=
  match text with
  | '-' :: rest => (true, rest)
  | rest => (false, rest)

/-- One side of `_NUMERIC_RE`. -/
def isDecimalLiteral (text : List Char) : Bool := isUnsignedDecimal (unsign text).2

/-- `Fraction(Decimal(text))` of a literal. -/
def decimalLiteral (text : List Char) : ℚ :=
  let (negative, unsigned) := unsign text
  let fraction := (unsigned.dropWhile isDigit).drop 1
  let value : ℚ := decimal (unsigned.takeWhile isDigit ++ fraction) / 10 ^ fraction.length
  if negative then -value else value

def parseNumeric (text : List Char) : Option ℚ :=
  let trimmed := strip text
  let left := trimmed.takeWhile (· ≠ '/')
  match trimmed.dropWhile (· ≠ '/') with
  | [] => if isDecimalLiteral left then some (decimalLiteral left) else none
  | _ :: right =>
    if isDecimalLiteral left && isDecimalLiteral right && decimalLiteral right ≠ 0 then
      some (decimalLiteral left / decimalLiteral right)
    else none

def stripLeadingZero (cleaned : List Char) : Option (List Char) :=
  match cleaned with
  | '0' :: '.' :: rest => some ('.' :: rest)
  | '-' :: '0' :: '.' :: rest => some ('-' :: '.' :: rest)
  | _ => none

def addLeadingZero (cleaned : List Char) : Option (List Char) :=
  match cleaned with
  | '.' :: rest => some ('0' :: '.' :: rest)
  | '-' :: '.' :: rest => some ('-' :: '0' :: '.' :: rest)
  | _ => none

def nearMissEpsilon : ℚ := 1 / 1000000

def agreed (values : List ℚ) : Option ℚ :=
  match values with
  | [] => none
  | first :: rest => if rest.all (· = first) then some first else none

def unambiguousExactValue (keys : List (List Char)) : Option ℚ :=
  let fractions := (keys.filter fun key => (strip key).contains '/').filterMap parseNumeric
  if fractions ≠ [] then agreed fractions
  else agreed ((keys.filter fun key => !(strip key).contains '/').filterMap parseNumeric)

/-- Digits of a long division and the remainder that is left. -/
def longDivision (denominator : Nat) : Nat → Nat → List Nat × Nat
  | 0, remainder => ([], remainder)
  | places + 1, remainder =>
    let (digits, rest) := longDivision denominator places (remainder * 10 % denominator)
    (remainder * 10 / denominator :: digits, rest)

def longDivisionDigits (v : ℚ) (places : Nat) : List Nat × Nat :=
  longDivision v.den places (v.num.natAbs % v.den)

def hasNonzeroDigitBeyond (v : ℚ) (places : Nat) : Bool := (longDivisionDigits v places).2 ≠ 0

def digitChars (digits : List Nat) : List Char := digits.map fun n => Char.ofNat ('0'.toNat + n)

def decimalString (negative : Bool) (integerPart : Nat) (fractionDigits : List Char) : List Char :=
  (if negative then ['-'] else []) ++
    (if integerPart = 0 then [] else Nat.toDigits 10 integerPart) ++ '.' :: fractionDigits

def truncateTowardZero (v : ℚ) (places : Nat) : List Char :=
  decimalString (v < 0) (v.num.natAbs / v.den) (digitChars (longDivisionDigits v places).1)

/-- `str(n).zfill(places)` -/
def zfill (n places : Nat) : List Char :=
  let digits := Nat.toDigits 10 n
  List.replicate (places - digits.length) '0' ++ digits

def roundHalfAwayFromZero (v : ℚ) (places : Nat) : List Char :=
  let integerPart := v.num.natAbs / v.den
  let (digits, remainder) := longDivisionDigits v places
  let fractionValue := digits.foldl (fun n d => 10 * n + d) 0 +
    if 5 ≤ remainder * 10 / v.den then 1 else 0
  let scale := 10 ^ places
  if scale ≤ fractionValue then decimalString (v < 0) (integerPart + 1) (zfill (fractionValue - scale) places)
  else decimalString (v < 0) integerPart (zfill fractionValue places)

/-- `_O7_ENTRY_RE` -/
def isO7Entry (trimmed : List Char) : Bool :=
  let unsigned := (unsign trimmed).2
  match unsigned.dropWhile isDigit with
  | '.' :: fraction => fraction ≠ [] && fraction.all isDigit
  | _ => false

def acceptsUnderO7 (keys : List (List Char)) (answer : List Char) : Bool :=
  match unambiguousExactValue keys with
  | none => false
  | some v =>
    let trimmed := strip answer
    let expectedLength := if (unsign trimmed).1 then 6 else 5
    let places := trimmed.length - trimmed.idxOf '.' - 1
    isO7Entry trimmed && trimmed.length = expectedLength && hasNonzeroDigitBeyond v places &&
      let withoutLeadingZero := (stripLeadingZero trimmed).getD trimmed
      withoutLeadingZero = truncateTowardZero v places ||
        withoutLeadingZero = roundHalfAwayFromZero v places

def isCorrect (casing : Casing) (itemType : ItemType) (keys : List (List Char)) (answer : List Char) :
    Bool :=
  let cleaned := casing.lower (strip answer)
  let normalizedKeys := keys.map fun key => casing.lower (strip key)
  normalizedKeys.contains cleaned ||
    (stripLeadingZero cleaned).any normalizedKeys.contains ||
    (addLeadingZero cleaned).any normalizedKeys.contains ||
    itemType = .spr &&
      ((parseNumeric answer).any (fun user => keys.any fun key =>
          (parseNumeric key).any fun value => decide (|user - value| < nearMissEpsilon)) ||
        acceptsUnderO7 keys answer)

example : acceptsUnderO7 ["2/3".toList] ".6667".toList = true := by decide +kernel

theorem isCorrect_key (casing : Casing) (itemType : ItemType) {keys : List (List Char)} {key : List Char}
    (isIn : key ∈ keys) : isCorrect casing itemType keys key = true := by
  have found : (keys.map fun key => casing.lower (strip key)).contains (casing.lower (strip key)) = true :=
    List.contains_iff_mem.mpr (List.mem_map.mpr ⟨key, isIn, rfl⟩)
  simp only [isCorrect, found, Bool.true_or]

end Counselle.Sat

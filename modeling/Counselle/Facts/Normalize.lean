import Counselle.Facts.Models
import Counselle.PyNumber
import Counselle.PyRegex

/-! The normalisers of the printed values that are numbers: what they accept, and how they
fail. -/
namespace Counselle.Facts.Normalize
open PyJson (JsonValue PyFloat)
open PyText (isSpace isDigit strip decimal)
open PyRegex (Regex)
open PyRegex.Regex (plus lit)

abbrev Chars : Type := List Char

/-- The exceptions: `NormalizeError`, the `ValueError` of a conversion, the
`ValidationError` of the model. -/
inductive Failure where
  | normalizeError
  | valueError
  | validationError
  deriving DecidableEq

def makeValue (kind : ValueKind) (display : Chars) (unit : Option String) (typed : Typed) (value : JsonValue) :
    Except Failure NormalizedValue :=
  if valid : String.ofList display ≠ "" ∧ typed.columns ≤ 1 ∧ value.isFinite = true ∧ typed.num ≠ some .nan then
    .ok { kind, display := String.ofList display, unit, typed, value, shown := valid.1, oneTyped := valid.2.1,
          finite := valid.2.2.1, number := valid.2.2.2 }
  else .error .validationError

/-- `float(text)` -/
def floatOf (text : Chars) : Except Failure PyFloat :=
  match PyNumber.floatText text with
  | some x => .ok x
  | none => .error .valueError

def withoutCommas (text : Chars) : Chars := text.filter (· ≠ ',')

def digitOrComma (c : Char) : Bool := isDigit c || c == ','

/-- `(?:\.\d+)?` -/
def decimals : Regex := .opt (.seq (lit '.') (plus isDigit))

/-- `_NUMBER_RE` -/
def numberPattern : Regex :=
  .seq (.opt (lit '-')) (.seq (.char isDigit) (.seq (.many digitOrComma) (.seq decimals .stop)))

def parseNumber (text : Chars) : Except Failure PyFloat :=
  let cleaned := strip text
  if (numberPattern.atStart cleaned).isSome then floatOf (withoutCommas cleaned) else .error .normalizeError

def moneyBody (cleaned : Chars) : Chars := if cleaned.head? = some '$' then cleaned.tail else cleaned

def normalizeMoney (raw : Chars) (unit : String) : Except Failure NormalizedValue := do
  let cleaned := strip raw
  let amount ← parseNumber (moneyBody cleaned)
  makeValue .money cleaned (some unit) { num := some amount } .null

def percentBody (cleaned : Chars) : Chars := if cleaned.getLast? = some '%' then cleaned.dropLast else cleaned

def normalizePercent (raw : Chars) : Except Failure NormalizedValue := do
  let cleaned := strip raw
  let pct ← parseNumber (percentBody cleaned)
  makeValue .percent cleaned (some "percent") { num := some pct } .null

def normalizeCount (raw : Chars) (unit : Option String) : Except Failure NormalizedValue := do
  let cleaned := strip raw
  makeValue .count cleaned unit { num := some (← parseNumber cleaned) } .null

def normalizeDecimal (raw : Chars) (unit : Option String) : Except Failure NormalizedValue := do
  let cleaned := strip raw
  makeValue .decimal cleaned unit { num := some (← parseNumber cleaned) } .null

def normalizeText (raw : Chars) : Except Failure NormalizedValue :=
  let cleaned := strip raw
  if cleaned = [] then .error .normalizeError
  else makeValue .text cleaned none { text := some (String.ofList cleaned) } .null

def monthNames : List String :=
  ["January", "February", "March", "April", "May", "June", "July", "August", "September", "October", "November",
    "December"]

/-- `\d{4}-\d{2}-\d{2}` -/
def isoParts : Chars → Option (Nat × Nat × Nat)
  | [y₁, y₂, y₃, y₄, dash, m₁, m₂, dash', d₁, d₂] =>
    if dash = '-' ∧ dash' = '-' ∧ [y₁, y₂, y₃, y₄, m₁, m₂, d₁, d₂].all isDigit = true then
      some (decimal [y₁, y₂, y₃, y₄], decimal [m₁, m₂], decimal [d₁, d₂])
    else none
  | _ => none

def normalizeDate (raw : Chars) : Except Failure NormalizedValue :=
  match isoParts (strip raw) with
  | none => .error .normalizeError
  | some (year, month, day) =>
    if 1 ≤ month ∧ month ≤ 12 then
      match Calendar.date year month day with
      | none => .error .normalizeError
      | some found =>
        makeValue .date ((monthNames[month - 1]?.getD "").toList ++ ' ' :: Nat.toDigits 10 day ++ ", ".toList ++
          Nat.toDigits 10 year) none { date := some found } .null
    else .error .normalizeError

/-- `-?[\d,]+(?:\.\d+)?` -/
def side : Regex := .seq (.opt (lit '-')) (.seq (plus digitOrComma) decimals)

def isDash (c : Char) : Bool := c == '-' || c == '–'

/-- `_RANGE_RE` -/
def rangePattern : Regex :=
  .seq (.group "lo" side) (.seq (.many isSpace) (.seq (.char isDash) (.seq (.many isSpace) (.group "hi" side))))

def floatSides (lo hi : Chars) : Except Failure (PyFloat × PyFloat) := do
  let low ← floatOf (withoutCommas lo)
  let high ← floatOf (withoutCommas hi)
  return (low, high)

def normalizeRange (raw : Chars) (unit : Option String) : Except Failure NormalizedValue :=
  match rangePattern.search raw with
  | none => .error .normalizeError
  | some m => do
    let (lo, hi) ← floatSides (m.group "lo") (m.group "hi")
    makeValue .range (strip raw) unit {} (.dict [("lo", .float lo), ("hi", .float hi)])

/-- `_BUCKET_RANGE_RE` -/
def bucketPattern : Regex := .seq rangePattern .stop

def bucketRange (label : Chars) : Except Failure (Option (PyFloat × PyFloat)) :=
  match bucketPattern.atStart (strip label) with
  | none => .ok none
  | some m => do return some (← floatSides (m.group "lo") (m.group "hi"))

structure DistributionBucket where
  label : Chars
  lo : Option PyFloat
  hi : Option PyFloat
  pct : Option PyFloat
  /-- `absence="not_reported"` -/
  absent : Bool

def isNegative : PyFloat → Bool
  | .finite q => q < 0
  | .infinite negative => negative
  | .nan => false

def makeBucket (raw : Chars × PyFloat) : Except Failure DistributionBucket := do
  let range ← bucketRange raw.1
  return { label := raw.1, lo := range.map Prod.fst, hi := range.map Prod.snd,
           pct := if isNegative raw.2 then none else some raw.2, absent := isNegative raw.2 }

/-- `model_dump(exclude_none=True)` -/
def DistributionBucket.dump (bucket : DistributionBucket) : JsonValue :=
  .dict ([("label", .str (String.ofList bucket.label))] ++ (bucket.lo.map fun x => ("lo", .float x)).toList ++
    (bucket.hi.map fun x => ("hi", .float x)).toList ++ (bucket.pct.map fun x => ("pct", .float x)).toList ++
    if bucket.absent then [("absence", .str "not_reported")] else [])

/-- What a distribution stores; `roundedSum` is `round(sum(values), 1)`. -/
def distributionValue (roundedSum : List PyFloat → PyFloat) (scale : String) (buckets : List DistributionBucket)
    (omitted : List Chars) : JsonValue :=
  let reported := buckets.filterMap DistributionBucket.pct
  .dict [("scale", .str scale), ("buckets", .list (buckets.map DistributionBucket.dump)),
    ("omitted_buckets", .list (omitted.map fun label => .str (String.ofList label))),
    ("sums_to", if reported = [] then .null else .float (roundedSum reported))]

def omittedLabels (rawBuckets : List (Chars × PyFloat)) (labels : List Chars) : List Chars :=
  labels.filter fun label => !(rawBuckets.map Prod.fst).contains label

def normalizeDistribution (roundedSum : List PyFloat → PyFloat) (rawBuckets : List (Chars × PyFloat)) (scale unit : String)
    (allLabels : Option (List Chars)) : Except Failure NormalizedValue :=
  if rawBuckets = [] then .error .normalizeError
  else do
    let buckets ← rawBuckets.mapM makeBucket
    let labels := allLabels.getD []
    let total := if labels = [] then buckets.length else labels.length
    makeValue .distribution (Nat.toDigits 10 buckets.length ++ " of ".toList ++ Nat.toDigits 10 total ++ " buckets reported".toList)
      (some unit) {} (distributionValue roundedSum scale buckets (omittedLabels rawBuckets labels))

def leadChar (c : Char) : Bool := isDigit c || c == ',' || c == '.'

def between (c : Char) : Bool := !(c == '$' || c == '%' || isDigit c)

/-- `_DUAL_MERIT_RE` -/
def dualMeritPattern : Regex :=
  .seq (.group "lead" (.seq (plus leadChar) (.opt (lit '%')))) (.seq (plus between) (.seq (lit '$')
    (.group "amount" (.seq (plus digitOrComma) decimals))))

def normalizeLead (lead : Chars) : Except Failure NormalizedValue :=
  if lead.getLast? = some '%' then normalizePercent lead else normalizeCount lead none

def normalizeDualMerit (raw : Chars) : Except Failure (NormalizedValue × NormalizedValue) :=
  match dualMeritPattern.search raw with
  | none => .error .normalizeError
  | some m => do
    let lead ← normalizeLead (m.group "lead")
    let amount ← normalizeMoney ('$' :: m.group "amount") "USD"
    return (lead, amount)

end Counselle.Facts.Normalize

import Counselle.Json
import Counselle.PyNumber
import Counselle.Upsert

/-! The texts of Python's `json` module: `dumps` with an indent of two, `loads`, and the
round trip between them for values without floats. Limits on the nesting are not modelled. -/
namespace Counselle.PyJson
open Json (blank skipBlanks numeralChar isNumeral parseUnits parseKey dumpString)

def unitsOf (text : List Char) : Units := text.flatMap Json.utf16

def isHigh (unit : UInt16) : Bool := 0xd800 ≤ unit.toNat && unit.toNat < 0xdc00

def isLow (unit : UInt16) : Bool := 0xdc00 ≤ unit.toNat && unit.toNat < 0xe000

/-- A code unit by itself. A lone surrogate, which Python keeps and no character is, reads
as U+FFFD. -/
def charOf (unit : UInt16) : Char :=
  if isHigh unit || isLow unit then '\uFFFD' else Char.ofNat unit.toNat

def textOf : Units → List Char
  | [] => []
  | [unit] => [charOf unit]
  | first :: second :: rest =>
    if isHigh first && isLow second then
      Char.ofNat (65536 + (first.toNat - 0xd800) * 1024 + (second.toNat - 0xdc00)) :: textOf rest
    else charOf first :: textOf (second :: rest)

def dumpText (text : String) : List Char := dumpString (unitsOf text.toList)

def intRepr (n : Int) : List Char :=
  (if n < 0 then ['-'] else []) ++ Nat.toDigits 10 n.natAbs

/-- `float.__repr__` under the names of the format. -/
def dumpFloat : PyFloat → List Char
  | .nan => "NaN".toList
  | .infinite negative => (if negative then "-Infinity" else "Infinity").toList
  | q => PyNumber.floatRepr q

def newline (level : Nat) : List Char := '\n' :: List.replicate (2 * level) ' '

mutual
/-- `json.dumps(value, indent=2)` at a level of nesting. -/
def dumps (level : Nat) : JsonValue → List Char
  | .null => "null".toList
  | .bool value => (if value then "true" else "false").toList
  | .int n => intRepr n
  | .float q => dumpFloat q
  | .str text => dumpText text
  | .list [] => ['[', ']']
  | .list (item :: rest) =>
    '[' :: (newline (level + 1) ++ (dumps (level + 1) item ++ dumpItems level rest))
  | .dict [] => ['{', '}']
  | .dict ((key, value) :: rest) =>
    '{' :: (newline (level + 1) ++ (dumpText key ++ ':' :: ' ' ::
      (dumps (level + 1) value ++ dumpMembers level rest)))

def dumpItems (level : Nat) : List JsonValue → List Char
  | [] => newline level ++ [']']
  | item :: rest => ',' :: (newline (level + 1) ++ (dumps (level + 1) item ++ dumpItems level rest))

def dumpMembers (level : Nat) : List (String × JsonValue) → List Char
  | [] => newline level ++ ['}']
  | (key, value) :: rest =>
    ',' :: (newline (level + 1) ++ (dumpText key ++ ':' :: ' ' ::
      (dumps (level + 1) value ++ dumpMembers level rest)))
end

inductive LoadError where
  | decodeError
  /-- The `ValueError` of `int` for a numeral of more than 4300 digits. -/
  | longInteger
  deriving DecidableEq

def reading {A : Type} : Option A → Except LoadError A
  | some a => .ok a
  | none => .error .decodeError

def words : List (List Char × JsonValue) :=
  [("null".toList, .null), ("true".toList, .bool true), ("false".toList, .bool false),
    ("NaN".toList, .float .nan), ("Infinity".toList, .float (.infinite false)),
    ("-Infinity".toList, .float (.infinite true))]

/-- A numeral is a float by a point or an exponent, else an integer. -/
def numberOf (numeral : List Char) : Except LoadError JsonValue :=
  if numeral.any fun c => c == '.' || c == 'e' || c == 'E' then
    (reading (PyNumber.floatText numeral)).map .float
  else
    let (negative, digits) := PyNumber.signed numeral
    if PyText.maxStrDigits < digits.length then .error .longInteger
    else
      let size : Int := PyNumber.digitsValue digits
      .ok (.int (if negative then -size else size))

def scanScalar (text : List Char) : Except LoadError (JsonValue × List Char) :=
  match words.find? fun word => word.1.isPrefixOf text with
  | some word => .ok (word.2, text.drop word.1.length)
  | none =>
    let numeral := text.takeWhile numeralChar
    if isNumeral numeral then
      (numberOf numeral).map fun value => (value, text.dropWhile numeralChar)
    else .error .decodeError

def scanKey (text : List Char) : Except LoadError (String × List Char) :=
  reading ((parseKey text).map fun (key, rest) => (String.ofList (textOf key), rest))

mutual
/-- Every level of nesting and every further item uses up a character of fuel. -/
def scan : Nat → List Char → Except LoadError (JsonValue × List Char)
  | 0, _ => .error .decodeError
  | fuel + 1, text =>
    match skipBlanks text with
    | '"' :: rest =>
      reading ((parseUnits rest).map fun (units, rest) => (.str (String.ofList (textOf units)), rest))
    | '[' :: rest =>
      match skipBlanks rest with
      | ']' :: rest => .ok (.list [], rest)
      | rest => do
        let (item, rest) ← scan fuel rest
        let (items, rest) ← scanItems fuel rest
        return (.list (item :: items), rest)
    | '{' :: rest =>
      match skipBlanks rest with
      | '}' :: rest => .ok (.dict [], rest)
      | rest => do
        let (key, rest) ← scanKey rest
        let (value, rest) ← scan fuel rest
        let (members, rest) ← scanMembers fuel rest
        -- a key that comes again replaces the value of the first
        return (.dict (Upsert.dictOf Prod.fst ((key, value) :: members)), rest)
    | text => scanScalar text

def scanItems : Nat → List Char → Except LoadError (List JsonValue × List Char)
  | 0, _ => .error .decodeError
  | fuel + 1, text =>
    match skipBlanks text with
    | ']' :: rest => .ok ([], rest)
    | ',' :: rest => do
      let (item, rest) ← scan fuel rest
      let (items, rest) ← scanItems fuel rest
      return (item :: items, rest)
    | _ => .error .decodeError

def scanMembers : Nat → List Char → Except LoadError (List (String × JsonValue) × List Char)
  | 0, _ => .error .decodeError
  | fuel + 1, text =>
    match skipBlanks text with
    | '}' :: rest => .ok ([], rest)
    | ',' :: rest => do
      let (key, rest) ← scanKey rest
      let (value, rest) ← scan fuel rest
      let (members, rest) ← scanMembers fuel rest
      return ((key, value) :: members, rest)
    | _ => .error .decodeError
end

/-- `json.loads(text)` -/
def loads (text : List Char) : Except LoadError JsonValue := do
  let (value, rest) ← scan (text.length + 1) text
  if skipBlanks rest = [] then return value else .error .decodeError

def behind {A : Type} (read : Except LoadError (A × List Char)) (further : List Char → Nat) : Nat :=
  match read with
  | .ok (_, rest) => further rest
  | .error _ => 0

mutual
/-- How many lists and dicts the reader is inside of where it is deepest, up to the end of
the text or to its first error. Each takes a level of the interpreter's recursion. -/
def reach : Nat → List Char → Nat
  | 0, _ => 0
  | fuel + 1, text =>
    match skipBlanks text with
    | '[' :: rest =>
      match skipBlanks rest with
      | ']' :: _ => 1
      | rest => 1 + max (reach fuel rest) (behind (scan fuel rest) (reachItems fuel))
    | '{' :: rest =>
      match skipBlanks rest with
      | '}' :: _ => 1
      | rest => 1 + behind (scanKey rest) fun rest =>
          max (reach fuel rest) (behind (scan fuel rest) (reachMembers fuel))
    | _ => 0

def reachItems : Nat → List Char → Nat
  | 0, _ => 0
  | fuel + 1, text =>
    match skipBlanks text with
    | ',' :: rest => max (reach fuel rest) (behind (scan fuel rest) (reachItems fuel))
    | _ => 0

def reachMembers : Nat → List Char → Nat
  | 0, _ => 0
  | fuel + 1, text =>
    match skipBlanks text with
    | ',' :: rest => behind (scanKey rest) fun rest =>
        max (reach fuel rest) (behind (scan fuel rest) (reachMembers fuel))
    | _ => 0
end

def nesting (text : List Char) : Nat := reach (text.length + 1) text

example : nesting "[\x7b\"a\": [[]]\x7d, 1".toList = 4 := by decide +kernel

theorem utf16_cases (c : Char) :
    (∃ unit, Json.utf16 c = [unit] ∧ isHigh unit = false ∧ charOf unit = c) ∨
      ∃ high low, Json.utf16 c = [high, low] ∧ isHigh high = true ∧ isLow low = true ∧
        Char.ofNat (65536 + (high.toNat - 0xd800) * 1024 + (low.toNat - 0xdc00)) = c := by
  have valid : c.toNat < 0xd800 ∨ (0xdfff < c.toNat ∧ c.toNat < 0x110000) := c.valid
  unfold Json.utf16
  dsimp only
  split
  case isTrue small =>
    have unit : (UInt16.ofNat c.toNat).toNat = c.toNat := by
      rw [UInt16.toNat_ofNat']
      omega
    have high : isHigh (UInt16.ofNat c.toNat) = false := by
      simp only [isHigh, unit, Bool.and_eq_false_iff, decide_eq_false_iff_not]
      omega
    have low : isLow (UInt16.ofNat c.toNat) = false := by
      simp only [isLow, unit, Bool.and_eq_false_iff, decide_eq_false_iff_not]
      omega
    exact Or.inl ⟨_, rfl, high, by simp [charOf, high, low, unit]⟩
  case isFalse large =>
    have first : (UInt16.ofNat (55296 + (c.toNat - 65536) / 1024)).toNat =
        55296 + (c.toNat - 65536) / 1024 := by
      rw [UInt16.toNat_ofNat']
      omega
    have second : (UInt16.ofNat (56320 + (c.toNat - 65536) % 1024)).toNat =
        56320 + (c.toNat - 65536) % 1024 := by
      rw [UInt16.toNat_ofNat']
      omega
    refine Or.inr ⟨_, _, rfl, ?_, ?_, ?_⟩
    · simp only [isHigh, first, Bool.and_eq_true, decide_eq_true_eq]
      omega
    · simp only [isLow, second, Bool.and_eq_true, decide_eq_true_eq]
      omega
    · rw [first, second, show 65536 + (55296 + (c.toNat - 65536) / 1024 - 55296) * 1024 +
        (56320 + (c.toNat - 65536) % 1024 - 56320) = c.toNat by omega, Char.ofNat_toNat]

theorem textOf_utf16 (c : Char) (units : Units) : textOf (Json.utf16 c ++ units) = c :: textOf units := by
  rcases utf16_cases c with ⟨unit, isUnit, high, char⟩ | ⟨high, low, isPair, isHi, isLo, char⟩
  · rw [isUnit]
    cases units with
    | nil => simp [textOf, char]
    | cons next rest => simp [textOf, char, high]
  · rw [isPair, List.cons_append, List.singleton_append, textOf, isHi, isLo, char]
    simp

theorem textOf_unitsOf (text : List Char) : textOf (unitsOf text) = text := by
  induction text with
  | nil => rfl
  | cons c text ih =>
    rw [unitsOf, List.flatMap_cons, textOf_utf16]
    exact congrArg _ ih

theorem digitsValue_toDigits (n : Nat) : PyNumber.digitsValue (Nat.toDigits 10 n) = n := by
  rw [PyNumber.digitsValue, ← Nat.ofDigitChars_eq_foldl, Nat.ofDigitChars_toDigits (by decide) (by decide)]

theorem numeralChar_digit {c : Char} (digit : c.isDigit = true) : numeralChar c = true := by
  simp [numeralChar, digit]

theorem digit_ne {c d : Char} (digit : c.isDigit = true) (other : d.isDigit = false) : c ≠ d := by
  rintro rfl
  rw [digit] at other
  exact absurd other (by decide)

theorem isDigit_toDigits {n : Nat} {c : Char} (isIn : c ∈ Nat.toDigits 10 n) : c.isDigit = true :=
  Nat.isDigit_of_mem_toDigits (by decide) (by decide) isIn

theorem toDigits_head (n : Nat) : n = 0 ∨ ∃ c rest, Nat.toDigits 10 n = c :: rest ∧ c ≠ '0' := by
  induction n using Nat.strongRecOn with
  | ind n ih =>
    rcases Nat.eq_zero_or_pos n with zero | positive
    · exact Or.inl zero
    · right
      rw [Nat.toDigits_eq_if (by decide)]
      split
      case isTrue small =>
        have table : ∀ d < 10, 0 < d → Nat.digitChar d ≠ '0' := by decide
        exact ⟨_, _, rfl, table n small positive⟩
      case isFalse large =>
        obtain zero | ⟨c, rest, digits, other⟩ := ih (n / 10) (by omega)
        · omega
        · exact ⟨c, rest ++ [(n % 10).digitChar], by rw [digits, List.cons_append], other⟩

theorem behindInteger_toDigits (n : Nat) : Json.behindInteger (Nat.toDigits 10 n) = some [] := by
  rcases toDigits_head n with rfl | ⟨c, rest, digits, other⟩
  · rfl
  · have all : (Nat.toDigits 10 n).dropWhile Char.isDigit = [] :=
      List.dropWhile_eq_nil_iff.mpr fun _ => isDigit_toDigits
    have first : c.isDigit = true := isDigit_toDigits (n := n) (by simp [digits])
    rw [digits] at all ⊢
    rw [Json.behindInteger.eq_def]
    split
    case h_1 same => exact absurd (List.cons.inj same).1 other
    case h_2 => simp [Json.behindDigits, first, all]

theorem intRepr_chars {n : Int} {c : Char} (isIn : c ∈ intRepr n) : c.isDigit = true ∨ c = '-' := by
  unfold intRepr at isIn
  rcases List.mem_append.mp isIn with sign | digit
  · split at sign <;> simp_all
  · exact Or.inl (isDigit_toDigits digit)

theorem isNumeral_intRepr (n : Int) : isNumeral (intRepr n) = true := by
  have chars : (intRepr n).all numeralChar = true := by
    rw [List.all_eq_true]
    intro c isIn
    rcases intRepr_chars isIn with digit | rfl
    · exact numeralChar_digit digit
    · rfl
  have unsigned : (if (intRepr n).head? = some '-' then (intRepr n).tail else intRepr n) =
      Nat.toDigits 10 n.natAbs := by
    unfold intRepr
    split_ifs with negative dash dash
    · rfl
    · simp at dash
    · obtain ⟨c, rest, digits⟩ := List.exists_cons_of_ne_nil (Nat.toDigits_ne_nil (n := n.natAbs) (b := 10))
      have first : c.isDigit = true := isDigit_toDigits (n := n.natAbs) (by simp [digits])
      simp only [List.nil_append, digits, List.head?_cons, Option.some.injEq] at dash
      exact absurd dash (digit_ne first (by decide))
    · rfl
  simp only [isNumeral, chars, unsigned, behindInteger_toDigits, Bool.true_and]
  rfl

theorem numberOf_intRepr {n : Int} (short : (Nat.toDigits 10 n.natAbs).length ≤ PyText.maxStrDigits) :
    numberOf (intRepr n) = .ok (.int n) := by
  have plain : ((intRepr n).any fun c => c == '.' || c == 'e' || c == 'E') = false := by
    rw [List.any_eq_false]
    intro c isIn
    rcases intRepr_chars isIn with digit | rfl
    · simp [digit_ne digit (d := '.') (by decide), digit_ne digit (d := 'e') (by decide),
        digit_ne digit (d := 'E') (by decide)]
    · decide
  have signed : PyNumber.signed (intRepr n) = (decide (n < 0), Nat.toDigits 10 n.natAbs) := by
    unfold intRepr
    split_ifs with negative
    · simp [PyNumber.signed, negative]
    · obtain ⟨c, rest, digits⟩ := List.exists_cons_of_ne_nil (Nat.toDigits_ne_nil (n := n.natAbs) (b := 10))
      have first : c.isDigit = true := isDigit_toDigits (n := n.natAbs) (by simp [digits])
      rw [List.nil_append, digits, PyNumber.signed.eq_def]
      split
      case h_1 same => exact absurd (List.cons.inj same).1 (digit_ne first (by decide))
      case h_2 same => exact absurd (List.cons.inj same).1 (digit_ne first (by decide))
      case h_3 => simp [negative]
  rw [numberOf, plain, if_neg (by decide), signed]
  simp only [Nat.not_lt.mpr short, if_false, digitsValue_toDigits, Except.ok.injEq, JsonValue.int.injEq]
  split_ifs with negative <;> simp only [decide_eq_true_eq] at negative <;> omega

mutual
/-- Values that `dumps` writes so that `loads` reads them back: no floats, and integers and
keys as the format has them. -/
def plain : JsonValue → Prop
  | .int n => (Nat.toDigits 10 n.natAbs).length ≤ PyText.maxStrDigits
  | .float _ => False
  | .list items => plainItems items
  | .dict members => (members.map Prod.fst).Nodup ∧ plainMembers members
  | _ => True

def plainItems : List JsonValue → Prop
  | [] => True
  | item :: rest => plain item ∧ plainItems rest

def plainMembers : List (String × JsonValue) → Prop
  | [] => True
  | (_, value) :: rest => plain value ∧ plainMembers rest
end

theorem skipBlanks_newline (level : Nat) (text : List Char) :
    skipBlanks (newline level ++ text) = skipBlanks text := by
  apply List.dropWhile_append_of_pos
  intro c isIn
  rcases List.mem_cons.mp isIn with rfl | isBlank
  · rfl
  · rw [(List.mem_replicate.mp isBlank).2]
    rfl

theorem scan_skip {fuel : Nat} {text other : List Char} (same : skipBlanks text = skipBlanks other) :
    scan (fuel + 1) text = scan (fuel + 1) other := by
  rw [scan, scan, same]

theorem scanKey_skip {text other : List Char} (same : skipBlanks text = skipBlanks other) :
    scanKey text = scanKey other := by
  rw [scanKey, scanKey, parseKey, parseKey, same]

theorem scanKey_dump (key : String) (rest : List Char) :
    scanKey (dumpText key ++ ':' :: rest) = .ok (key, rest) := by
  rw [scanKey, dumpText, Json.parseKey_dump]
  simp [reading, textOf_unitsOf]

theorem dumpText_quoted (text : String) (rest : List Char) :
    dumpText text ++ rest = '"' :: ((unitsOf text.toList).flatMap Json.dumpUnit ++ '"' :: rest) := by
  simp [dumpText, dumpString]

theorem intRepr_head (n : Int) (rest : List Char) : ∃ c more, c.isDigit = true ∧
    (intRepr n ++ rest = c :: more ∨ intRepr n ++ rest = '-' :: c :: more) := by
  obtain ⟨c, more, digits⟩ := List.exists_cons_of_ne_nil (Nat.toDigits_ne_nil (n := n.natAbs) (b := 10))
  have first : c.isDigit = true := isDigit_toDigits (n := n.natAbs) (by simp [digits])
  refine ⟨c, more ++ rest, first, ?_⟩
  unfold intRepr
  rw [digits]
  split <;> simp

theorem scanScalar_int {n : Int} {rest : List Char} (ends : Json.Ends rest)
    (short : (Nat.toDigits 10 n.natAbs).length ≤ PyText.maxStrDigits) :
    scanScalar (intRepr n ++ rest) = .ok (.int n, rest) := by
  have noWord : (words.find? fun word => word.1.isPrefixOf (intRepr n ++ rest)) = none := by
    obtain ⟨c, more, digit, shape⟩ := intRepr_head n rest
    have apart : ∀ d : Char, d.isDigit = false → (d == c) = false :=
      fun d other => beq_false_of_ne (digit_ne digit other).symm
    rcases shape with shape | shape <;> rw [shape]
    · simp [words, List.isPrefixOf, apart]
    · simp [words, List.isPrefixOf, apart]
  have read := Json.parseNumeral_text ⟨intRepr n, isNumeral_intRepr n⟩ ends
  rw [Json.parseNumeral] at read
  split at read
  case isFalse => cases read
  case isTrue ok =>
    simp only [Option.some.injEq, Prod.mk.injEq, Json.number.injEq, Json.Numeral.mk.injEq] at read
    rw [scanScalar, noWord]
    simp only [read.1, read.2, isNumeral_intRepr, if_true, numberOf_intRepr short]
    rfl

theorem intRepr_solid (n : Int) (rest : List Char) : ∃ c more, intRepr n ++ rest = c :: more ∧
    blank c = false ∧ c ≠ ']' ∧ c ≠ '}' ∧ c ≠ '"' ∧ c ≠ '[' ∧ c ≠ '{' := by
  obtain ⟨c, more, digit, shape⟩ := intRepr_head n rest
  rcases shape with shape | shape
  · have solid : blank c = false := by
      simp only [blank, Bool.or_eq_false_iff, beq_eq_false_iff_ne]
      exact ⟨⟨⟨digit_ne digit (by decide), digit_ne digit (by decide)⟩, digit_ne digit (by decide)⟩,
        digit_ne digit (by decide)⟩
    exact ⟨c, more, shape, solid, digit_ne digit (by decide), digit_ne digit (by decide),
      digit_ne digit (by decide), digit_ne digit (by decide), digit_ne digit (by decide)⟩
  · exact ⟨_, _, shape, by decide, by decide, by decide, by decide, by decide, by decide⟩

theorem dumps_head (level : Nat) {value : JsonValue} (isPlain : plain value) (rest : List Char) :
    ∃ c more, dumps level value ++ rest = c :: more ∧ blank c = false ∧ c ≠ ']' ∧ c ≠ '}' := by
  cases value with
  | null => exact ⟨_, _, rfl, by decide, by decide, by decide⟩
  | bool value => cases value <;> exact ⟨_, _, rfl, by decide, by decide, by decide⟩
  | int n =>
    obtain ⟨c, more, shape, solid, first, second, -⟩ := intRepr_solid n rest
    exact ⟨c, more, by rw [dumps, shape], solid, first, second⟩
  | float q => exact absurd isPlain (by simp [plain])
  | str text =>
    refine ⟨_, _, by rw [dumps, dumpText_quoted], by decide, by decide, by decide⟩
  | list items => cases items <;> exact ⟨_, _, rfl, by decide, by decide, by decide⟩
  | dict members =>
    obtain _ | ⟨⟨key, value⟩, more⟩ := members <;>
      exact ⟨_, _, rfl, by decide, by decide, by decide⟩

theorem ends_items (level : Nat) (items : List JsonValue) (rest : List Char) :
    Json.Ends (dumpItems level items ++ rest) := by
  cases items <;> (intro c isHead; cases isHead; decide)

theorem ends_members (level : Nat) (members : List (String × JsonValue)) (rest : List Char) :
    Json.Ends (dumpMembers level members ++ rest) := by
  obtain _ | ⟨⟨key, value⟩, more⟩ := members <;> (intro c isHead; cases isHead; decide)

theorem dumps_length (level : Nat) {value : JsonValue} (isPlain : plain value) :
    ∃ n, (dumps level value).length = n + 1 := by
  obtain ⟨c, more, shape, -⟩ := dumps_head level isPlain []
  rw [List.append_nil] at shape
  exact ⟨more.length, by rw [shape, List.length_cons]⟩

theorem scan_word {fuel : Nat} {word rest : List Char} {value : JsonValue} {c : Char} {more : List Char}
    (shape : word ++ rest = c :: more) (solid : blank c = false) (noText : c ≠ '"') (noList : c ≠ '[')
    (noDict : c ≠ '{') (scalar : scanScalar (word ++ rest) = .ok (value, rest)) :
    scan (fuel + 1) (word ++ rest) = .ok (value, rest) := by
  rw [shape] at scalar ⊢
  rw [scan.eq_def]
  simp only
  rw [Json.skipBlanks_cons solid]
  split
  case h_1 same => exact absurd (List.cons.inj same).1 noText
  case h_2 same => exact absurd (List.cons.inj same).1 noList
  case h_3 same => exact absurd (List.cons.inj same).1 noDict
  case h_4 => exact scalar

mutual
/-- By induction on the value: the reader takes what was written and leaves the rest. -/
theorem scan_dumps : ∀ (value : JsonValue) (level fuel : Nat) (rest : List Char), plain value →
    (dumps level value).length ≤ fuel + 1 → Json.Ends rest →
    scan (fuel + 1) (dumps level value ++ rest) = .ok (value, rest)
  | .null, _, _, _, _, _, _ =>
    scan_word rfl (by decide) (by decide) (by decide) (by decide) rfl
  | .bool true, _, _, _, _, _, _ =>
    scan_word rfl (by decide) (by decide) (by decide) (by decide) rfl
  | .bool false, _, _, _, _, _, _ =>
    scan_word rfl (by decide) (by decide) (by decide) (by decide) rfl
  | .int n, _, _, rest, isPlain, _, ends => by
    obtain ⟨c, more, shape, solid, -, -, noText, noList, noDict⟩ := intRepr_solid n rest
    rw [dumps]
    exact scan_word shape solid noText noList noDict (scanScalar_int ends isPlain)
  | .float _, _, _, _, isPlain, _, _ => absurd isPlain (by simp [plain])
  | .str text, level, fuel, rest, _, _, _ => by
    rw [dumps, dumpText_quoted, scan, Json.skipBlanks_cons (by decide)]
    simp only [Json.parseUnits_dump]
    simp [reading, textOf_unitsOf]
  | .list [], _, _, _, _, _, _ => rfl
  | .list (item :: more), level, fuel, rest, isPlain, enough, _ => by
    obtain ⟨plainItem, plainMore⟩ := isPlain
    obtain ⟨n, length⟩ := dumps_length (level + 1) plainItem
    simp only [dumps, List.length_cons, List.length_append] at enough
    obtain ⟨fuel, rfl⟩ := Nat.exists_eq_succ_of_ne_zero (by omega : fuel ≠ 0)
    have first := scan_dumps item (level + 1) fuel (dumpItems level more ++ rest) plainItem (by omega)
      (ends_items level more rest)
    have later := scanItems_dumps more level fuel rest plainMore (by omega)
    obtain ⟨c, text, shape, solid, other, -⟩ :=
      dumps_head (level + 1) plainItem (dumpItems level more ++ rest)
    rw [dumps, List.cons_append, List.append_assoc, List.append_assoc, scan,
      Json.skipBlanks_cons (by decide)]
    simp only
    rw [skipBlanks_newline, shape, Json.skipBlanks_cons solid]
    rw [shape] at first
    split
    case h_1 same => exact absurd (List.cons.inj same).1 other
    case h_2 =>
      rw [first]
      simp only [bind, Except.bind, later]
      rfl
  | .dict [], _, _, _, _, _, _ => rfl
  | .dict ((key, value) :: more), level, fuel, rest, isPlain, enough, _ => by
    obtain ⟨distinct, plainValue, plainMore⟩ := isPlain
    obtain ⟨n, length⟩ := dumps_length (level + 1) plainValue
    simp only [dumps, List.length_cons, List.length_append] at enough
    obtain ⟨fuel, rfl⟩ := Nat.exists_eq_succ_of_ne_zero (by omega : fuel ≠ 0)
    have first := scan_dumps value (level + 1) fuel (dumpMembers level more ++ rest) plainValue
      (by omega) (ends_members level more rest)
    have later := scanMembers_dumps more level fuel rest plainMore (by omega)
    have named := scanKey_dump key (' ' :: (dumps (level + 1) value ++ (dumpMembers level more ++ rest)))
    have spaced : scan (fuel + 1) (' ' :: (dumps (level + 1) value ++ (dumpMembers level more ++ rest))) =
        scan (fuel + 1) (dumps (level + 1) value ++ (dumpMembers level more ++ rest)) := scan_skip rfl
    rw [dumps, List.cons_append, List.append_assoc, List.append_assoc, List.cons_append,
      List.cons_append, List.append_assoc, scan, Json.skipBlanks_cons (by decide)]
    simp only
    rw [skipBlanks_newline, dumpText_quoted, Json.skipBlanks_cons (by decide)]
    rw [dumpText_quoted] at named
    split
    case h_1 same => exact absurd (List.cons.inj same).1 (by decide)
    case h_2 =>
      rw [named]
      simp only [bind, Except.bind, spaced, first, later]
      rw [Upsert.dictOf_of_nodup distinct]
      rfl

theorem scanItems_dumps : ∀ (items : List JsonValue) (level fuel : Nat) (rest : List Char),
    plainItems items → (dumpItems level items).length ≤ fuel + 1 →
    scanItems (fuel + 1) (dumpItems level items ++ rest) = .ok (items, rest)
  | [], level, fuel, rest, _, _ => by
    rw [dumpItems, List.append_assoc, scanItems, skipBlanks_newline]
    rfl
  | item :: more, level, fuel, rest, isPlain, enough => by
    obtain ⟨plainItem, plainMore⟩ := isPlain
    obtain ⟨n, length⟩ := dumps_length (level + 1) plainItem
    simp only [dumpItems, List.length_cons, List.length_append] at enough
    obtain ⟨fuel, rfl⟩ := Nat.exists_eq_succ_of_ne_zero (by omega : fuel ≠ 0)
    have first := scan_dumps item (level + 1) fuel (dumpItems level more ++ rest) plainItem (by omega)
      (ends_items level more rest)
    have later := scanItems_dumps more level fuel rest plainMore (by omega)
    have spaced : scan (fuel + 1) (newline (level + 1) ++ (dumps (level + 1) item ++
        (dumpItems level more ++ rest))) = _ :=
      (scan_skip (skipBlanks_newline (level + 1) _)).trans first
    rw [dumpItems, List.cons_append, List.append_assoc, List.append_assoc, scanItems,
      Json.skipBlanks_cons (by decide)]
    simp only [bind, Except.bind, spaced, later]
    rfl

theorem scanMembers_dumps : ∀ (members : List (String × JsonValue)) (level fuel : Nat) (rest : List Char),
    plainMembers members → (dumpMembers level members).length ≤ fuel + 1 →
    scanMembers (fuel + 1) (dumpMembers level members ++ rest) = .ok (members, rest)
  | [], level, fuel, rest, _, _ => by
    rw [dumpMembers, List.append_assoc, scanMembers, skipBlanks_newline]
    rfl
  | (key, value) :: more, level, fuel, rest, isPlain, enough => by
    obtain ⟨plainValue, plainMore⟩ := isPlain
    obtain ⟨n, length⟩ := dumps_length (level + 1) plainValue
    simp only [dumpMembers, List.length_cons, List.length_append] at enough
    obtain ⟨fuel, rfl⟩ := Nat.exists_eq_succ_of_ne_zero (by omega : fuel ≠ 0)
    have first := scan_dumps value (level + 1) fuel (dumpMembers level more ++ rest) plainValue
      (by omega) (ends_members level more rest)
    have later := scanMembers_dumps more level fuel rest plainMore (by omega)
    have named : scanKey (newline (level + 1) ++ (dumpText key ++ ':' :: ' ' ::
        (dumps (level + 1) value ++ (dumpMembers level more ++ rest)))) = _ :=
      (scanKey_skip (skipBlanks_newline (level + 1) _)).trans (scanKey_dump key _)
    have spaced : scan (fuel + 1) (' ' :: (dumps (level + 1) value ++ (dumpMembers level more ++ rest))) =
        _ := (scan_skip rfl).trans first
    rw [dumpMembers, List.cons_append, List.append_assoc, List.append_assoc, List.cons_append,
      List.cons_append, List.append_assoc, scanMembers, Json.skipBlanks_cons (by decide)]
    simp only [bind, Except.bind, named, spaced, later]
    rfl
end

theorem loads_dumps {value : JsonValue} (isPlain : plain value) : loads (dumps 0 value) = .ok value := by
  have read := scan_dumps value 0 (dumps 0 value).length [] isPlain (by omega) (by simp [Json.Ends])
  rw [List.append_nil] at read
  simp [loads, read, bind, Except.bind, skipBlanks]
  rfl

end Counselle.PyJson

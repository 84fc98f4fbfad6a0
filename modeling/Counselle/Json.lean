import Mathlib.Data.List.TakeWhile

/-! JSON: a compact ASCII writer, a reader, and the round trip between them. A string is
its UTF-16 code units, a number the numeral that is written. -/
namespace Counselle

abbrev Units := List UInt16

namespace Json

def numeralChar (c : Char) : Bool :=
  c.isDigit || c == '-' || c == '+' || c == '.' || c == 'e' || c == 'E'

def behindDigits (text : List Char) : Option (List Char) :=
  if (text.head?.any Char.isDigit) then some (text.dropWhile Char.isDigit) else none

def behindInteger : List Char → Option (List Char)
  | '0' :: rest => some rest
  | text => behindDigits text

def behindFraction : List Char → Option (List Char)
  | '.' :: rest => behindDigits rest
  | text => some text

def behindExponent : List Char → Option (List Char)
  | 'e' :: sign :: rest | 'E' :: sign :: rest =>
    behindDigits (if sign == '-' || sign == '+' then rest else sign :: rest)
  | text => some text

/-- `-?(0|[1-9]\d*)(\.\d+)?([eE][+-]?\d+)?` -/
def isNumeral (text : List Char) : Bool :=
  let unsigned := if text.head? = some '-' then text.tail else text
  text.all numeralChar && (((behindInteger unsigned).bind behindFraction).bind behindExponent) == some []

structure Numeral where
  text : List Char
  ok : isNumeral text = true
deriving DecidableEq

theorem Numeral.chars (n : Numeral) : ∀ c ∈ n.text, numeralChar c = true := by
  have ok := n.ok
  simp only [isNumeral, Bool.and_eq_true] at ok
  exact List.all_eq_true.mp ok.1

theorem Numeral.written (n : Numeral) : n.text ≠ [] := by
  intro empty
  have ok := n.ok
  rw [empty] at ok
  exact absurd ok (by decide)

end Json

inductive Json where
  | null
  | bool (value : Bool)
  | number (value : Json.Numeral)
  | string (value : Units)
  | array (items : List Json)
  | object (members : List (Units × Json))

namespace Json

def hexDigit (n : Nat) : Char := Char.ofNat (if n < 10 then 48 + n else 87 + n)

def escapes : List (UInt16 × Char) :=
  [(34, '"'), (92, '\\'), (10, 'n'), (13, 'r'), (9, 't'), (12, 'f'), (8, 'b')]

/-- One code unit of a string: printable ASCII as it is, the rest escaped. -/
def dumpUnit (unit : UInt16) : List Char :=
  let n := unit.toNat
  match escapes.lookup unit with
  | some c => ['\\', c]
  | none =>
    if 32 ≤ n ∧ n < 127 then [Char.ofNat n]
    else ['\\', 'u', hexDigit (n / 4096), hexDigit (n / 256 % 16), hexDigit (n / 16 % 16),
      hexDigit (n % 16)]

def dumpString (units : Units) : List Char := '"' :: (units.flatMap dumpUnit ++ ['"'])

mutual
def dumps : Json → List Char
  | .null => ['n', 'u', 'l', 'l']
  | .bool true => ['t', 'r', 'u', 'e']
  | .bool false => ['f', 'a', 'l', 's', 'e']
  | .number n => n.text
  | .string units => dumpString units
  | .array [] => ['[', ']']
  | .array (item :: rest) => '[' :: (dumps item ++ dumpItems rest)
  | .object [] => ['{', '}']
  | .object ((key, value) :: rest) =>
    '{' :: (dumpString key ++ ':' :: (dumps value ++ dumpMembers rest))

def dumpItems : List Json → List Char
  | [] => [']']
  | item :: rest => ',' :: (dumps item ++ dumpItems rest)

def dumpMembers : List (Units × Json) → List Char
  | [] => ['}']
  | (key, value) :: rest => ',' :: (dumpString key ++ ':' :: (dumps value ++ dumpMembers rest))
end

def blank (c : Char) : Bool := c == ' ' || c == '\t' || c == '\n' || c == '\r'

def skipBlanks (text : List Char) : List Char := text.dropWhile blank

def hexValue (c : Char) : Option Nat :=
  let n := c.toNat
  if 48 ≤ n ∧ n ≤ 57 then some (n - 48)
  else if 97 ≤ n ∧ n ≤ 102 then some (n - 87)
  else if 65 ≤ n ∧ n ≤ 70 then some (n - 55)
  else none

def escaped : Char → Option UInt16
  | '"' => some 34
  | '\\' => some 92
  | '/' => some 47
  | 'b' => some 8
  | 'f' => some 12
  | 'n' => some 10
  | 'r' => some 13
  | 't' => some 9
  | _ => none

def utf16 (c : Char) : Units :=
  let n := c.toNat
  if n < 65536 then [UInt16.ofNat n]
  else [UInt16.ofNat (55296 + (n - 65536) / 1024), UInt16.ofNat (56320 + (n - 65536) % 1024)]

def parseUnits : List Char → Option (Units × List Char)
  | [] => none
  | '"' :: rest => some ([], rest)
  | '\\' :: 'u' :: a :: b :: c :: d :: rest => do
    let unit := (← hexValue a) * 4096 + (← hexValue b) * 256 + (← hexValue c) * 16 + (← hexValue d)
    let (units, rest) ← parseUnits rest
    return (UInt16.ofNat unit :: units, rest)
  | '\\' :: c :: rest => do
    let unit ← escaped c
    let (units, rest) ← parseUnits rest
    return (unit :: units, rest)
  | c :: rest =>
    if c.toNat < 32 ∨ c = '\\' then none
    else do
      let (units, rest) ← parseUnits rest
      return (utf16 c ++ units, rest)

def parseNumeral (text : List Char) : Option (Json × List Char) :=
  if ok : isNumeral (text.takeWhile numeralChar) = true then
    some (.number ⟨text.takeWhile numeralChar, ok⟩, text.dropWhile numeralChar)
  else none

def parseKey (text : List Char) : Option (Units × List Char) :=
  match skipBlanks text with
  | '"' :: rest => do
    let (key, rest) ← parseUnits rest
    match skipBlanks rest with
    | ':' :: rest => some (key, rest)
    | _ => none
  | _ => none

mutual
/-- Every nesting level and every further item uses up a character of fuel. -/
def parseValue : Nat → List Char → Option (Json × List Char)
  | 0, _ => none
  | fuel + 1, text =>
    match skipBlanks text with
    | 'n' :: rest =>
      match rest with
      | 'u' :: 'l' :: 'l' :: rest => some (.null, rest)
      | _ => none
    | 't' :: rest =>
      match rest with
      | 'r' :: 'u' :: 'e' :: rest => some (.bool true, rest)
      | _ => none
    | 'f' :: rest =>
      match rest with
      | 'a' :: 'l' :: 's' :: 'e' :: rest => some (.bool false, rest)
      | _ => none
    | '"' :: rest => (parseUnits rest).map fun (units, rest) => (.string units, rest)
    | '[' :: rest =>
      match skipBlanks rest with
      | ']' :: rest => some (.array [], rest)
      | rest => do
        let (item, rest) ← parseValue fuel rest
        let (items, rest) ← parseItems fuel rest
        return (.array (item :: items), rest)
    | '{' :: rest =>
      match skipBlanks rest with
      | '}' :: rest => some (.object [], rest)
      | rest => do
        let (key, rest) ← parseKey rest
        let (value, rest) ← parseValue fuel rest
        let (members, rest) ← parseMembers fuel rest
        return (.object ((key, value) :: members), rest)
    | text => parseNumeral text

def parseItems : Nat → List Char → Option (List Json × List Char)
  | 0, _ => none
  | fuel + 1, text =>
    match skipBlanks text with
    | ']' :: rest => some ([], rest)
    | ',' :: rest => do
      let (item, rest) ← parseValue fuel rest
      let (items, rest) ← parseItems fuel rest
      return (item :: items, rest)
    | _ => none

def parseMembers : Nat → List Char → Option (List (Units × Json) × List Char)
  | 0, _ => none
  | fuel + 1, text =>
    match skipBlanks text with
    | '}' :: rest => some ([], rest)
    | ',' :: rest => do
      let (key, rest) ← parseKey rest
      let (value, rest) ← parseValue fuel rest
      let (members, rest) ← parseMembers fuel rest
      return ((key, value) :: members, rest)
    | _ => none
end

def parse (text : List Char) : Option Json := do
  let (value, rest) ← parseValue (text.length + 1) text
  if skipBlanks rest = [] then some value else none

theorem hexValue_hexDigit : ∀ n < 16, hexValue (hexDigit n) = some n := by decide

theorem plain_unit : ∀ n < 127, 32 ≤ n ∧ n ≠ 34 ∧ n ≠ 92 →
    Char.ofNat n ≠ '"' ∧ Char.ofNat n ≠ '\\' ∧ ¬ (Char.ofNat n).toNat < 32 ∧
      utf16 (Char.ofNat n) = [UInt16.ofNat n] := by decide +kernel

theorem parseUnits_plain {c : Char} {rest : List Char} (quote : c ≠ '"') (slash : c ≠ '\\')
    (printed : ¬ c.toNat < 32) :
    parseUnits (c :: rest) = (parseUnits rest).map fun (units, rest) => (utf16 c ++ units, rest) := by
  rw [parseUnits.eq_def]
  split
  · contradiction
  · simp_all
  · simp_all
  · simp_all
  case h_5 same =>
    obtain ⟨rfl, rfl⟩ := List.cons.inj same
    rw [if_neg (by simp [printed, slash])]
    cases parseUnits rest <;> rfl

theorem escapes_escaped : ∀ entry ∈ escapes, entry.2 ≠ 'u' ∧ escaped entry.2 = some entry.1 := by
  decide

theorem parseUnits_escape {unit : UInt16} {c : Char} (found : escapes.lookup unit = some c)
    (rest : List Char) : parseUnits ('\\' :: c :: rest) =
      (parseUnits rest).map fun (units, rest) => (unit :: units, rest) := by
  have isEntry : (unit, c) ∈ escapes := by
    obtain ⟨front, back, split, -⟩ := List.lookup_eq_some_iff.mp found
    rw [split]
    simp
  obtain ⟨other, read⟩ := escapes_escaped _ isEntry
  rw [parseUnits.eq_def]
  simp only at other read
  split
  · contradiction
  · simp_all
  · simp_all
  case h_4 same =>
    obtain ⟨-, same⟩ := List.cons.inj same
    obtain ⟨rfl, rfl⟩ := List.cons.inj same
    rw [read]
    cases parseUnits rest <;> rfl
  case h_5 _ _ _ apart same =>
    obtain ⟨rfl, rfl⟩ := List.cons.inj same
    exact absurd rfl (apart _ _ rfl)

theorem parseUnits_dumpUnit (unit : UInt16) (rest : List Char) :
    parseUnits (dumpUnit unit ++ rest) =
      (parseUnits rest).map fun (units, rest) => (unit :: units, rest) := by
  have named : UInt16.ofNat unit.toNat = unit := UInt16.ofNat_toNat
  have bound := unit.toNat_lt
  unfold dumpUnit
  split
  case h_1 c found => exact parseUnits_escape found rest
  case h_2 none =>
    simp only
    split
    case isTrue printed =>
      have other : unit.toNat ≠ 34 ∧ unit.toNat ≠ 92 := by
        constructor
        · intro quote
          rw [← named, quote] at none
          exact absurd none (by decide)
        · intro slash
          rw [← named, slash] at none
          exact absurd none (by decide)
      have plain := plain_unit unit.toNat printed.2 ⟨printed.1, other⟩
      rw [List.singleton_append, parseUnits_plain plain.1 plain.2.1 plain.2.2.1, plain.2.2.2, named]
      rfl
    case isFalse =>
      simp only [List.cons_append, List.nil_append, parseUnits]
      rw [hexValue_hexDigit _ (by omega), hexValue_hexDigit _ (by omega),
        hexValue_hexDigit _ (by omega), hexValue_hexDigit _ (by omega)]
      have whole : unit.toNat / 4096 * 4096 + unit.toNat / 256 % 16 * 256 +
          unit.toNat / 16 % 16 * 16 + unit.toNat % 16 = unit.toNat := by omega
      simp only [Option.bind_eq_bind, Option.bind_some, whole, named]
      cases parseUnits rest <;> rfl

theorem parseUnits_dump (units : Units) (rest : List Char) :
    parseUnits (units.flatMap dumpUnit ++ '"' :: rest) = some (units, rest) := by
  induction units with
  | nil => rfl
  | cons unit units ih =>
    rw [List.flatMap_cons, List.append_assoc, parseUnits_dumpUnit, ih]
    rfl

/-- A numeral is read to its end when no further character of one follows. -/
def Ends (rest : List Char) : Prop := ∀ c ∈ rest.head?, numeralChar c = false

theorem parseNumeral_text (n : Numeral) {rest : List Char} (ends : Ends rest) :
    parseNumeral (n.text ++ rest) = some (.number n, rest) := by
  have stop : rest.takeWhile numeralChar = [] ∧ rest.dropWhile numeralChar = rest := by
    cases rest with
    | nil => exact ⟨rfl, rfl⟩
    | cons c rest =>
      have other := ends c rfl
      simp [other]
  have taken : (n.text ++ rest).takeWhile numeralChar = n.text := by
    rw [List.takeWhile_append_of_pos n.chars, stop.1, List.append_nil]
  have left : (n.text ++ rest).dropWhile numeralChar = rest := by
    rw [List.dropWhile_append_of_pos n.chars, stop.2]
  simp only [parseNumeral, taken, left, n.ok, dif_pos]

theorem skipBlanks_cons {c : Char} (solid : blank c = false) (rest : List Char) :
    skipBlanks (c :: rest) = c :: rest := by
  simp [skipBlanks, solid]

theorem dumps_head (value : Json) : ∃ c rest, dumps value = c :: rest ∧
    blank c = false ∧ c ≠ ']' ∧ c ≠ '}' := by
  cases value with
  | null => exact ⟨_, _, rfl, by decide, by decide, by decide⟩
  | bool value => cases value <;> exact ⟨_, _, rfl, by decide, by decide, by decide⟩
  | number n =>
    obtain ⟨c, rest, text⟩ := List.exists_cons_of_ne_nil n.written
    have isChar := n.chars c (by simp [text])
    refine ⟨c, rest, text, ?_, ?_, ?_⟩
    · cases isBlank : blank c with
      | false => rfl
      | true =>
        simp only [blank, Bool.or_eq_true, beq_iff_eq] at isBlank
        obtain ((rfl | rfl) | rfl) | rfl := isBlank <;> exact absurd isChar (by decide)
    · rintro rfl
      exact absurd isChar (by decide)
    · rintro rfl
      exact absurd isChar (by decide)
  | string units => exact ⟨_, _, rfl, by decide, by decide, by decide⟩
  | array items => cases items <;> exact ⟨_, _, rfl, by decide, by decide, by decide⟩
  | object members =>
    cases members with
    | nil => exact ⟨_, _, rfl, by decide, by decide, by decide⟩
    | cons member rest =>
      cases member
      exact ⟨_, _, rfl, by decide, by decide, by decide⟩

theorem parseKey_dump (key : Units) (rest : List Char) :
    parseKey (dumpString key ++ ':' :: rest) = some (key, rest) := by
  have quoted : dumpString key ++ ':' :: rest =
      '"' :: (key.flatMap dumpUnit ++ '"' :: ':' :: rest) := by simp [dumpString]
  rw [quoted, parseKey, skipBlanks_cons (by decide)]
  simp only [parseUnits_dump, Option.bind_eq_bind, Option.bind_some]
  rw [skipBlanks_cons (by decide)]
  rfl

theorem parseValue_numeral {fuel : Nat} (n : Numeral) {rest : List Char} (ends : Ends rest) :
    parseValue (fuel + 1) (n.text ++ rest) = some (.number n, rest) := by
  obtain ⟨c, more, text⟩ := List.exists_cons_of_ne_nil n.written
  have isChar := n.chars c (by simp [text])
  have solid : blank c = false := by
    obtain ⟨_, _, same, solid, -⟩ := dumps_head (.number n)
    rw [dumps, text] at same
    rw [(List.cons.inj same).1]
    exact solid
  rw [parseValue.eq_def]
  simp only
  rw [text, List.cons_append, skipBlanks_cons solid]
  have read := parseNumeral_text n ends
  rw [text, List.cons_append] at read
  split
  case h_7 => exact read
  -- a numeral starts like no other value
  all_goals
    rename_i same
    rw [(List.cons.inj same).1] at isChar
    exact absurd isChar (by decide)

theorem ends_items (items : List Json) (rest : List Char) : Ends (dumpItems items ++ rest) := by
  cases items <;> (intro c isHead; cases isHead; decide)

theorem ends_members (members : List (Units × Json)) (rest : List Char) :
    Ends (dumpMembers members ++ rest) := by
  obtain _ | ⟨⟨key, value⟩, more⟩ := members <;> (intro c isHead; cases isHead; decide)

theorem dumps_length (value : Json) : ∃ n, (dumps value).length = n + 1 := by
  obtain ⟨c, rest, text, -⟩ := dumps_head value
  exact ⟨rest.length, by rw [text, List.length_cons]⟩

mutual
/-- By induction on the value: the reader takes what was written and leaves the rest. -/
theorem parseValue_dumps : ∀ (value : Json) (fuel : Nat) (rest : List Char),
    (dumps value).length ≤ fuel + 1 → Ends rest →
    parseValue (fuel + 1) (dumps value ++ rest) = some (value, rest)
  | .null, _, _, _, _ => rfl
  | .bool true, _, _, _, _ => rfl
  | .bool false, _, _, _, _ => rfl
  | .number n, _, _, _, ends => by
    rw [dumps]
    exact parseValue_numeral n ends
  | .string units, fuel, rest, _, _ => by
    have quoted : dumps (.string units) ++ rest = '"' :: (units.flatMap dumpUnit ++ '"' :: rest) := by
      simp [dumps, dumpString]
    rw [quoted, parseValue, skipBlanks_cons (by decide)]
    simp only [parseUnits_dump]
    rfl
  | .array [], _, _, _, _ => rfl
  | .array (item :: more), fuel, rest, enough, _ => by
    obtain ⟨n, length⟩ := dumps_length item
    simp only [dumps, List.length_cons, List.length_append] at enough
    obtain ⟨fuel, rfl⟩ := Nat.exists_eq_succ_of_ne_zero (by omega : fuel ≠ 0)
    have first := parseValue_dumps item fuel (dumpItems more ++ rest) (by omega) (ends_items more rest)
    have later := parseItems_dumps more fuel rest (by omega)
    obtain ⟨c, text, isText, solid, other, -⟩ := dumps_head item
    rw [dumps, List.cons_append, List.append_assoc, parseValue, skipBlanks_cons (by decide)]
    simp only
    rw [isText, List.cons_append, skipBlanks_cons solid]
    rw [isText, List.cons_append] at first
    split
    case h_1 same => exact absurd (List.cons.inj same).1 other
    case h_2 =>
      simp only [first, later, Option.bind_eq_bind, Option.bind_some]
      rfl
  | .object [], _, _, _, _ => rfl
  | .object ((key, value) :: more), fuel, rest, enough, _ => by
    obtain ⟨n, length⟩ := dumps_length value
    simp only [dumps, List.length_cons, List.length_append] at enough
    obtain ⟨fuel, rfl⟩ := Nat.exists_eq_succ_of_ne_zero (by omega : fuel ≠ 0)
    have first := parseValue_dumps value fuel (dumpMembers more ++ rest) (by omega)
      (ends_members more rest)
    have later := parseMembers_dumps more fuel rest (by omega)
    have named := parseKey_dump key (dumps value ++ (dumpMembers more ++ rest))
    rw [dumps, List.cons_append, List.append_assoc, List.cons_append, List.append_assoc, parseValue,
      skipBlanks_cons (by decide)]
    simp only
    rw [dumpString, List.cons_append, skipBlanks_cons (by decide)]
    rw [dumpString, List.cons_append] at named
    split
    case h_1 same => exact absurd (List.cons.inj same).1 (by decide)
    case h_2 =>
      simp only [named, first, later, Option.bind_eq_bind, Option.bind_some]
      rfl

theorem parseItems_dumps : ∀ (items : List Json) (fuel : Nat) (rest : List Char),
    (dumpItems items).length ≤ fuel + 1 →
    parseItems (fuel + 1) (dumpItems items ++ rest) = some (items, rest)
  | [], _, _, _ => rfl
  | item :: more, fuel, rest, enough => by
    obtain ⟨n, length⟩ := dumps_length item
    simp only [dumpItems, List.length_cons, List.length_append] at enough
    obtain ⟨fuel, rfl⟩ := Nat.exists_eq_succ_of_ne_zero (by omega : fuel ≠ 0)
    have first := parseValue_dumps item fuel (dumpItems more ++ rest) (by omega) (ends_items more rest)
    have later := parseItems_dumps more fuel rest (by omega)
    rw [dumpItems, List.cons_append, parseItems, skipBlanks_cons (by decide), List.append_assoc]
    simp only [first, later, Option.bind_eq_bind, Option.bind_some]
    rfl

theorem parseMembers_dumps : ∀ (members : List (Units × Json)) (fuel : Nat) (rest : List Char),
    (dumpMembers members).length ≤ fuel + 1 →
    parseMembers (fuel + 1) (dumpMembers members ++ rest) = some (members, rest)
  | [], _, _, _ => rfl
  | (key, value) :: more, fuel, rest, enough => by
    obtain ⟨n, length⟩ := dumps_length value
    simp only [dumpMembers, List.length_cons, List.length_append] at enough
    obtain ⟨fuel, rfl⟩ := Nat.exists_eq_succ_of_ne_zero (by omega : fuel ≠ 0)
    have first := parseValue_dumps value fuel (dumpMembers more ++ rest) (by omega)
      (ends_members more rest)
    have later := parseMembers_dumps more fuel rest (by omega)
    rw [dumpMembers, List.cons_append, parseMembers, skipBlanks_cons (by decide), List.append_assoc,
      List.cons_append, List.append_assoc]
    simp only [parseKey_dump, first, later, Option.bind_eq_bind, Option.bind_some]
    rfl
end

theorem parse_dumps (value : Json) : parse (dumps value) = some value := by
  have read := parseValue_dumps value (dumps value).length [] (by omega) (by simp [Ends])
  rw [List.append_nil] at read
  rw [parse, read]
  rfl

theorem parse_append {value : Json} {mark : Char} {more : List Char} (isBlank : blank mark = true)
    (other : skipBlanks more ≠ []) : parse (dumps value ++ mark :: more) = none := by
  have ends : Ends (mark :: more) := by
    intro c isHead
    cases isHead
    simp only [blank, Bool.or_eq_true, beq_iff_eq] at isBlank
    obtain ((rfl | rfl) | rfl) | rfl := isBlank <;> decide
  have read := parseValue_dumps value (dumps value ++ mark :: more).length (mark :: more)
    (by simp; omega) ends
  have left : skipBlanks (mark :: more) = skipBlanks more := by simp [skipBlanks, isBlank]
  rw [parse, read]
  simp [left, other]

def printable (c : Char) : Prop := 32 ≤ c.toNat ∧ c.toNat < 127

instance (c : Char) : Decidable (printable c) := inferInstanceAs (Decidable (_ ∧ _))

theorem printable_hexDigit : ∀ n < 16, printable (hexDigit n) := by decide

theorem printable_escapes : ∀ entry ∈ escapes, printable entry.2 := by decide

theorem printable_ofNat : ∀ n < 127, 32 ≤ n → printable (Char.ofNat n) := by decide

theorem printable_dumpUnit (unit : UInt16) : ∀ c ∈ dumpUnit unit, printable c := by
  have bound := unit.toNat_lt
  unfold dumpUnit
  split
  case h_1 e found =>
    obtain ⟨front, back, split, -⟩ := List.lookup_eq_some_iff.mp found
    have isEntry : (unit, e) ∈ escapes := by
      rw [split]
      simp
    simp only [List.mem_cons, List.not_mem_nil, or_false]
    rintro c (rfl | rfl)
    · decide
    · exact printable_escapes _ isEntry
  case h_2 =>
    simp only
    split
    case isTrue inside =>
      simp only [List.mem_singleton]
      rintro c rfl
      exact printable_ofNat _ inside.2 inside.1
    case isFalse =>
      simp only [List.mem_cons, List.not_mem_nil, or_false]
      rintro c (rfl | rfl | rfl | rfl | rfl | rfl)
      · decide
      · decide
      all_goals exact printable_hexDigit _ (by omega)

theorem printable_dumpString (units : Units) : ∀ c ∈ dumpString units, printable c := by
  simp only [dumpString, List.mem_cons, List.mem_append, List.mem_flatMap, List.not_mem_nil,
    or_false]
  rintro c (rfl | ⟨unit, -, isIn⟩ | rfl)
  · decide
  · exact printable_dumpUnit unit c isIn
  · decide

theorem printable_numeral (n : Numeral) : ∀ c ∈ n.text, printable c := by
  intro c isIn
  have isChar := n.chars c isIn
  simp only [numeralChar, Char.isDigit, Bool.or_eq_true, Bool.and_eq_true, decide_eq_true_eq,
    beq_iff_eq] at isChar
  obtain ((((digit | rfl) | rfl) | rfl) | rfl) | rfl := isChar
  · obtain ⟨low, high⟩ := digit
    have low : 48 ≤ c.toNat := low
    have high : c.toNat ≤ 57 := high
    exact ⟨by omega, by omega⟩
  all_goals decide

mutual
theorem printable_dumps : ∀ value : Json, ∀ c ∈ dumps value, printable c
  | .null => by simp [dumps, printable]
  | .bool true => by simp [dumps, printable]
  | .bool false => by simp [dumps, printable]
  | .number n => printable_numeral n
  | .string units => printable_dumpString units
  | .array [] => by simp [dumps, printable]
  | .array (item :: rest) => by
    simp only [dumps, List.mem_cons, List.mem_append]
    rintro c (rfl | isIn | isIn)
    · decide
    · exact printable_dumps item c isIn
    · exact printable_dumpItems rest c isIn
  | .object [] => by simp [dumps, printable]
  | .object ((key, value) :: rest) => by
    simp only [dumps, List.mem_cons, List.mem_append]
    rintro c (rfl | isIn | rfl | isIn | isIn)
    · decide
    · exact printable_dumpString key c isIn
    · decide
    · exact printable_dumps value c isIn
    · exact printable_dumpMembers rest c isIn

theorem printable_dumpItems : ∀ items : List Json, ∀ c ∈ dumpItems items, printable c
  | [] => by simp [dumpItems, printable]
  | item :: rest => by
    simp only [dumpItems, List.mem_cons, List.mem_append]
    rintro c (rfl | isIn | isIn)
    · decide
    · exact printable_dumps item c isIn
    · exact printable_dumpItems rest c isIn

theorem printable_dumpMembers : ∀ members : List (Units × Json), ∀ c ∈ dumpMembers members, printable c
  | [] => by simp [dumpMembers, printable]
  | (key, value) :: rest => by
    simp only [dumpMembers, List.mem_cons, List.mem_append]
    rintro c (rfl | isIn | rfl | isIn | isIn)
    · decide
    · exact printable_dumpString key c isIn
    · decide
    · exact printable_dumps value c isIn
    · exact printable_dumpMembers rest c isIn
end

theorem dumpMembers_last (members : List (Units × Json)) :
    ∃ front, dumpMembers members = front ++ ['}'] := by
  induction members with
  | nil => exact ⟨[], rfl⟩
  | cons member rest ih =>
    obtain ⟨key, value⟩ := member
    obtain ⟨front, last⟩ := ih
    exact ⟨',' :: (dumpString key ++ ':' :: (dumps value ++ front)), by simp [dumpMembers, last]⟩

theorem dumps_object (members : List (Units × Json)) :
    ∃ inside, dumps (.object members) = '{' :: (inside ++ ['}']) := by
  obtain _ | ⟨⟨key, value⟩, rest⟩ := members
  · exact ⟨[], rfl⟩
  · obtain ⟨front, last⟩ := dumpMembers_last rest
    exact ⟨dumpString key ++ ':' :: (dumps value ++ front), by simp [dumps, last]⟩

end Json
end Counselle

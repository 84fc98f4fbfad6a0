import Counselle.CommonMarkCode

/-! Link destinations, as CommonMark defines them: the bare and the angle form, with
backslash escapes and entity references. -/
namespace Counselle.CommonMark

/-- What stands for something else at the start of a text: what for, and how many
characters it takes. -/
abbrev Decoder : Type := List Char → Option (List Char × Nat)

def decodeWith (read : Decoder) : Nat → List Char → List Char
  | _, [] => []
  | skip + 1, _ :: rest => decodeWith read skip rest
  | 0, c :: rest =>
    match read (c :: rest) with
    | some (value, width) => value ++ decodeWith read (width - 1) rest
    | none => c :: decodeWith read 0 rest

def Shortens (read : Decoder) : Prop :=
  ∀ text value width, read text = some (value, width) → value.length < width ∧ width ≤ text.length

def Plain (read : Decoder) (text : List Char) : Prop := ∀ back, back <:+ text → read back = none

section Decode
variable {read : Decoder} {text : List Char}

theorem plain_cons {c : Char} : Plain read (c :: text) ↔ read (c :: text) = none ∧ Plain read text := by
  constructor
  · intro plain
    exact ⟨plain _ (List.suffix_refl _), fun back isBack => plain back (isBack.trans (List.suffix_cons c text))⟩
  · rintro ⟨here, later⟩ back isBack
    obtain rfl | isBack := List.suffix_cons_iff.mp isBack
    · exact here
    · exact later back isBack

theorem decodeWith_plain (plain : Plain read text) : decodeWith read 0 text = text := by
  induction text with
  | nil => rfl
  | cons c rest ih =>
    obtain ⟨here, later⟩ := plain_cons.mp plain
    rw [decodeWith, here]
    exact congrArg (c :: ·) (ih later)

theorem length_decodeWith_le (shortens : Shortens read) (skip : Nat) (text : List Char) :
    (decodeWith read skip text).length ≤ text.length - skip := by
  induction text generalizing skip with
  | nil => exact Nat.zero_le _
  | cons c rest ih =>
    cases skip with
    | succ skip =>
      rw [decodeWith, List.length_cons, Nat.add_sub_add_right]
      exact ih skip
    | zero =>
      rw [decodeWith]
      split
      case h_1 value width isRead =>
        obtain ⟨less, within⟩ := shortens _ _ _ isRead
        have later := ih (width - 1)
        rw [List.length_cons] at within ⊢
        rw [List.length_append]
        omega
      case h_2 => exact Nat.succ_le_succ (ih 0)

theorem plain_of_length (shortens : Shortens read) (empty : read [] = none)
    (same : (decodeWith read 0 text).length = text.length) : Plain read text := by
  induction text with
  | nil =>
    intro back isBack
    rw [List.suffix_nil.mp isBack]
    exact empty
  | cons c rest ih =>
    rw [decodeWith] at same
    split at same
    case h_1 value width isRead =>
      obtain ⟨less, within⟩ := shortens _ _ _ isRead
      have later := length_decodeWith_le shortens (width - 1) rest
      rw [List.length_cons] at within same
      rw [List.length_append] at same
      omega
    case h_2 none => exact plain_cons.mpr ⟨none, ih (Nat.succ.inj same)⟩

end Decode

/-- The table of the named entity references: no value is as long as its reference. -/
structure Entities where
  value : List Char → Option (List Char)
  shorter : ∀ {name text}, value name = some text → text.length < name.length + 2

/-- A code point that is no character, and zero, reads as the replacement character. -/
def codePoint (n : Nat) : Char := if n ≠ 0 ∧ n.isValidChar then Char.ofNat n else '\uFFFD'

def hexDigit (c : Char) : Option Nat :=
  if c.isDigit then some (c.toNat - '0'.toNat)
  else if 'a' ≤ c ∧ c ≤ 'f' then some (c.toNat - 'a'.toNat + 10)
  else if 'A' ≤ c ∧ c ≤ 'F' then some (c.toNat - 'A'.toNat + 10)
  else none

/-- The digits as a number to a base, where each of them is one. -/
def numeral (digit : Char → Option Nat) (base : Nat) (digits : List Char) : Option Nat :=
  (digits.mapM digit).map (·.foldl (fun n d => n * base + d) 0)

def numericReference (digit : Char → Option Nat) (base longest : Nat) (digits : List Char) : Option (List Char) :=
  if 1 ≤ digits.length ∧ digits.length ≤ longest then (numeral digit base digits).map ([codePoint ·]) else none

/-- The value of what is between the ampersand and the semicolon. -/
def referenceValue (entities : Entities) : List Char → Option (List Char)
  | '#' :: 'x' :: digits => numericReference hexDigit 16 6 digits
  | '#' :: 'X' :: digits => numericReference hexDigit 16 6 digits
  | '#' :: digits => numericReference (fun c => if c.isDigit then hexDigit c else none) 10 7 digits
  | name => entities.value name

def inReference (c : Char) : Bool := c.isAlphanum || c = '#'

def reference (entities : Entities) : Decoder
  | [] => none
  | c :: rest =>
    let body := rest.takeWhile inReference
    if c = '&' ∧ (rest.dropWhile inReference).head? = some ';' then
      (referenceValue entities body).map fun value => (value, body.length + 2)
    else none

theorem length_numericReference {digit : Char → Option Nat} {base longest : Nat} {digits value : List Char}
    (isValue : numericReference digit base longest digits = some value) : value.length = 1 := by
  rw [numericReference] at isValue
  split at isValue
  · obtain ⟨n, -, rfl⟩ := Option.map_eq_some_iff.mp isValue
    rfl
  · cases isValue

theorem referenceValue_shorter {entities : Entities} {body value : List Char}
    (isValue : referenceValue entities body = some value) : value.length < body.length + 2 := by
  rw [referenceValue.eq_def] at isValue
  split at isValue
  case h_4 => exact entities.shorter isValue
  all_goals
    have one := length_numericReference isValue
    omega

theorem reference_shortens (entities : Entities) : Shortens (reference entities) := by
  intro text value width isRead
  cases text with
  | nil => cases isRead
  | cons c rest =>
    simp only [reference] at isRead
    split at isRead
    case isTrue ends =>
      obtain ⟨value, isValue, same⟩ := Option.map_eq_some_iff.mp isRead
      cases same
      refine ⟨referenceValue_shorter isValue, ?_⟩
      have semicolon : rest.dropWhile inReference ≠ [] := fun none => by simp [none] at ends
      have whole := congrArg List.length (List.takeWhile_append_dropWhile (p := inReference) (l := rest))
      have positive := List.length_pos_iff.mpr semicolon
      rw [List.length_append] at whole
      rw [List.length_cons]
      omega
    case isFalse => cases isRead

def isPunctuation (c : Char) : Bool :=
  ('!' ≤ c && c ≤ '/') || (':' ≤ c && c ≤ '@') || ('[' ≤ c && c ≤ '`') || ('{' ≤ c && c ≤ '~')

def escape : Decoder
  | '\\' :: c :: _ => if isPunctuation c then some ([c], 2) else none
  | _ => none

def escapeOrReference (entities : Entities) : Decoder := fun text => (escape text).or (reference entities text)

theorem escape_shortens : Shortens escape := by
  intro text value width isRead
  rw [escape.eq_def] at isRead
  split at isRead
  · split at isRead
    · cases isRead
      exact ⟨Nat.lt_succ_self 1, by simp⟩
    · cases isRead
  · cases isRead

theorem escapeOrReference_shortens (entities : Entities) : Shortens (escapeOrReference entities) := by
  intro text value width isRead
  obtain isEscape | ⟨-, isReference⟩ := Option.or_eq_some_iff.mp isRead
  · exact escape_shortens text value width isEscape
  · exact reference_shortens entities text value width isReference

theorem plain_iff {entities : Entities} {text : List Char} :
    Plain (escapeOrReference entities) text ↔ Plain escape text ∧ Plain (reference entities) text := by
  simp only [Plain, escapeOrReference, Option.or_eq_none_iff]
  exact ⟨fun plain => ⟨fun back isBack => (plain back isBack).1, fun back isBack => (plain back isBack).2⟩,
    fun plain back isBack => ⟨plain.1 back isBack, plain.2 back isBack⟩⟩

def isControl (c : Char) : Bool := c.toNat < 32 || c.toNat = 127

/-- The characters up to the closing angle bracket, and what is behind it. -/
def angleContent : Bool → List Char → Option (List Char × List Char)
  | _, [] => none
  | true, c :: rest => (angleContent false rest).map fun (content, behind) => (c :: content, behind)
  | false, c :: rest =>
    if c = '>' then some ([], rest)
    else if c = '<' ∨ c = '\n' ∨ c = '\r' then none
    else (angleContent (escape (c :: rest)).isSome rest).map fun (content, behind) => (c :: content, behind)

/-- No space and no control character, and the parentheses that are not escaped are balanced. -/
def isBare : Bool → Nat → List Char → Bool
  | _, depth, [] => depth = 0
  | true, depth, _ :: rest => isBare false depth rest
  | false, depth, c :: rest =>
    if c = ' ' || isControl c then false
    else if c = '(' then isBare false (depth + 1) rest
    else if c = ')' then depth ≠ 0 && isBare false (depth - 1) rest
    else isBare (escape (c :: rest)).isSome depth rest

def decoded (entities : Entities) (content : List Char) : List Char :=
  (decodeWith (escapeOrReference entities) 0 content).map secured

def readDestination (entities : Entities) : List Char → Option (List Char)
  | [] => some []
  | c :: rest =>
    if c = '<' then
      (angleContent false rest).bind fun (content, behind) => if behind = [] then some (decoded entities content) else none
    else if isBare false 0 (c :: rest) then some (decoded entities (c :: rest))
    else none

section Bare
variable {text : List Char}

theorem isControl_of_isPunctuation {c : Char} (punctuation : isPunctuation c = true) : isControl c = false := by
  have bounds : 33 ≤ c.toNat ∧ c.toNat ≤ 126 := by
    simp [isPunctuation, Char.le_def, UInt32.le_iff_toNat_le] at punctuation
    omega
  rw [isControl, decide_eq_false (by omega), decide_eq_false (by omega)]
  rfl

theorem escape_isSome {c : Char} (isEscape : (escape (c :: text)).isSome = true) :
    ∃ d rest, c = '\\' ∧ text = d :: rest ∧ isPunctuation d = true := by
  rw [escape.eq_def] at isEscape
  split at isEscape
  case h_1 d rest same =>
    cases same
    split at isEscape
    case isTrue punctuation => exact ⟨d, rest, rfl, rfl, punctuation⟩
    case isFalse => cases isEscape
  case h_2 => cases isEscape

theorem no_control_of_isBare {escaped : Bool} {depth : Nat} (bare : isBare escaped depth text = true)
    (first : escaped = true → ∃ d rest, text = d :: rest ∧ isPunctuation d = true) : ∀ c ∈ text, isControl c = false := by
  induction text generalizing escaped depth with
  | nil => nofun
  | cons c rest ih =>
    rw [List.forall_mem_cons]
    cases escaped with
    | true =>
      obtain ⟨d, rest, same, punctuation⟩ := first rfl
      cases same
      exact ⟨isControl_of_isPunctuation punctuation, ih bare nofun⟩
    | false =>
      rw [isBare] at bare
      split at bare
      case isTrue => cases bare
      case isFalse clean =>
        simp only [Bool.or_eq_true, decide_eq_true_eq, not_or, Bool.not_eq_true] at clean
        refine ⟨clean.2, ?_⟩
        split at bare
        · exact ih bare nofun
        · split at bare
          · exact ih (Bool.and_eq_true_iff.mp bare).2 nofun
          · refine ih bare fun isEscape => ?_
            obtain ⟨d, behind, -, isRest, punctuation⟩ := escape_isSome isEscape
            exact ⟨d, behind, isRest, punctuation⟩

end Bare

end Counselle.CommonMark

import Counselle.PyNumber

/-! `float` of a plain numeral: an optional minus, digits of any script, and digits behind
a point. -/
namespace Counselle.PyNumber
open PyText (isSpace isDigit digitValue decimal)
open Binary64 (ofRat)

structure Numeral where
  negative : Bool
  whole : List Char
  fraction : List Char
  /-- there is a point, and digits behind it -/
  pointed : Bool

namespace Numeral

def sign (n : Numeral) : List Char := if n.negative then ['-'] else []

def pointPart (n : Numeral) : List Char := if n.pointed then '.' :: n.fraction else []

def text (n : Numeral) : List Char := n.sign ++ n.whole ++ n.pointPart

def value (n : Numeral) : ℚ :=
  let magnitude : ℚ := decimal (n.whole ++ n.fraction) / 10 ^ n.fraction.length
  if n.negative then -magnitude else magnitude

structure Plain (n : Numeral) : Prop where
  whole : ∀ c ∈ n.whole, isDigit c = true
  fraction : ∀ c ∈ n.fraction, isDigit c = true
  pointed : n.fraction ≠ [] ↔ n.pointed = true
  some : n.whole ≠ [] ∨ n.fraction ≠ []

end Numeral

theorem digitValue_lt {c : Char} {v : Nat} (digit : digitValue c = some v) : v < 10 := by
  obtain ⟨start, found, rfl⟩ := Option.map_eq_some_iff.mp digit
  have range := List.find?_some found
  rw [Bool.and_eq_true, decide_eq_true_eq, decide_eq_true_eq] at range
  omega

theorem digitValue_low {c : Char} {v : Nat} (digit : digitValue c = some v) (low : c.toNat < 127) : c = Char.ofNat ('0'.toNat + v) := by
  obtain ⟨start, found, rfl⟩ := Option.map_eq_some_iff.mp digit
  have block := List.find?_some found
  simp only [Bool.and_eq_true, decide_eq_true_eq] at block
  have first : ∀ start ∈ PyText.decimalZeros, start < 127 → start = '0'.toNat := by decide
  have isFirst := first start (List.mem_of_find?_eq_some found) (by omega)
  rw [isFirst, Nat.add_sub_cancel' (isFirst ▸ block.1), Char.ofNat_toNat]

theorem asciiOf_digit {c : Char} (digit : isDigit c = true) :
    (asciiOf c).isDigit = true ∧ (asciiOf c).toNat - '0'.toNat = (digitValue c).getD 0 := by
  have digits : ∀ v < 10, (Char.ofNat ('0'.toNat + v)).isDigit = true ∧ (Char.ofNat ('0'.toNat + v)).toNat - '0'.toNat = v := by
    decide
  obtain ⟨v, isValue⟩ := Option.isSome_iff_exists.mp digit
  rw [isValue]
  have isAscii : asciiOf c = Char.ofNat ('0'.toNat + v) := by
    unfold asciiOf
    split
    case isTrue low => exact digitValue_low isValue low
    case isFalse =>
      rw [if_neg (by simp [PyText.isSpace_of_isDigit digit]), isValue]
  rw [isAscii]
  exact digits v (digitValue_lt isValue)

theorem digitsValue_asciiOf {digits : List Char} (all : ∀ c ∈ digits, isDigit c = true) :
    digitsValue (digits.map asciiOf) = decimal digits := by
  rw [digitsValue, decimal, List.foldl_map]
  refine List.foldl_ext _ _ _ fun n c isIn => ?_
  rw [(asciiOf_digit (all c isIn)).2]

theorem ascii_digits {digits : List Char} (all : ∀ c ∈ digits, isDigit c = true) :
    ∀ c ∈ digits.map asciiOf, c.isDigit = true := by
  intro c isIn
  obtain ⟨d, isDigit, rfl⟩ := List.mem_map.mp isIn
  exact (asciiOf_digit (all d isDigit)).1

theorem digit_solid {c : Char} (digit : c.isDigit = true) : isBlank c = false ∧ c ≠ '_' ∧ c.toLower ≠ 'i' ∧ c.toLower ≠ 'n' := by
  obtain ⟨low, high⟩ : 48 ≤ c.toNat ∧ c.toNat ≤ 57 := Char.isDigit_iff_toNat.mp digit
  have table : ∀ n ≤ 57, 48 ≤ n → isBlank (Char.ofNat n) = false ∧ Char.ofNat n ≠ '_' ∧ (Char.ofNat n).toLower ≠ 'i' ∧
      (Char.ofNat n).toLower ≠ 'n' := by decide
  have here := table c.toNat high low
  rwa [Char.ofNat_toNat] at here

theorem withoutUnderscores_self {text : List Char} {last : Char} (start : last ≠ '_') (none : ∀ c ∈ text, c ≠ '_') :
    withoutUnderscores text last = some text := by
  induction text generalizing last with
  | nil => rw [withoutUnderscores, if_neg start]
  | cons c rest ih =>
    obtain ⟨here, later⟩ := List.forall_mem_cons.mp none
    have plain : ¬ (decide (last = '_') && !c.isDigit) = true := by simp [start]
    rw [withoutUnderscores, if_neg here, if_neg plain, ih here later, Option.map_some]

theorem dropBlanks_self {text : List Char} (solid : ∀ c ∈ text, isBlank c = false) :
    ((text.dropWhile isBlank).reverse.dropWhile isBlank).reverse = text := by
  have nothing {chars : List Char} (solid : ∀ c ∈ chars, isBlank c = false) : chars.dropWhile isBlank = chars := by
    cases chars with
    | nil => rfl
    | cons c rest => rw [List.dropWhile_cons_of_neg (by simp [solid c List.mem_cons_self])]
  rw [nothing solid, nothing fun c isIn => solid c (List.mem_reverse.mp isIn), List.reverse_reverse]

namespace Numeral
variable {n : Numeral}

def ascii (n : Numeral) : Numeral := { n with whole := n.whole.map asciiOf, fraction := n.fraction.map asciiOf }

theorem map_text (n : Numeral) : n.text.map asciiOf = n.ascii.text := by
  rw [text, text, List.map_append, List.map_append, sign, sign, pointPart, pointPart]
  have minus : asciiOf '-' = '-' := rfl
  have point : asciiOf '.' = '.' := rfl
  congr 1
  · congr 1
    split <;> simp [ascii, *]
  · split <;> simp [ascii, *]

theorem unsigned_digits {whole fraction : List Char} (digits : ∀ c ∈ whole, c.isDigit = true)
    (digits' : ∀ c ∈ fraction, c.isDigit = true) {pointed : Bool} (isPointed : fraction ≠ [] ↔ pointed = true)
    (some' : whole ≠ [] ∨ fraction ≠ []) :
    unsignedDecimal (whole ++ if pointed then '.' :: fraction else []) =
      some ((digitsValue (whole ++ fraction) : ℚ) / 10 ^ fraction.length) := by
  have shift : (digitsValue (whole ++ fraction) : ℚ) * 10 ^ ((0 : Int) - fraction.length) =
      (digitsValue (whole ++ fraction) : ℚ) / 10 ^ fraction.length := by
    rw [zero_sub, zpow_neg, zpow_natCast, div_eq_mul_inv]
  have filled : (decide (whole = []) && decide (fraction = [])) = false := by
    rw [Bool.and_eq_false_iff, decide_eq_false_iff_not, decide_eq_false_iff_not]
    exact some'
  cases pointed with
  | true =>
    have front : (whole ++ '.' :: fraction).takeWhile Char.isDigit = whole := by
      rw [List.takeWhile_append_of_pos digits, List.takeWhile_cons_of_neg (by decide), List.append_nil]
    have rest : (whole ++ '.' :: fraction).dropWhile Char.isDigit = '.' :: fraction := by
      rw [List.dropWhile_append_of_pos digits, List.dropWhile_cons_of_neg (by decide)]
    have back := List.takeWhile_eq_self_iff.mpr digits'
    have none := List.dropWhile_eq_nil_iff.mpr digits'
    simp only [if_true, unsignedDecimal, front, rest, back, none, filled, Bool.false_eq_true, if_false, exponentOf,
      Option.map_some, shift]
  | false =>
    have empty : fraction = [] := by
      by_contra some
      cases isPointed.mp some
    subst empty
    have front := List.takeWhile_eq_self_iff.mpr digits
    have rest := List.dropWhile_eq_nil_iff.mpr digits
    simp only [Bool.false_eq_true, if_false, List.append_nil, unsignedDecimal, front, rest] at shift filled ⊢
    simp only [filled, Bool.false_eq_true, if_false, exponentOf, Option.map_some, shift]

def body (n : Numeral) : List Char := n.whole ++ n.pointPart

theorem mem_body (plain : n.Plain) {c : Char} (isIn : c ∈ n.ascii.body) : c.isDigit = true ∨ c = '.' := by
  obtain front | back := List.mem_append.mp isIn
  · exact Or.inl (ascii_digits plain.whole c front)
  · rw [pointPart] at back
    split at back
    · obtain rfl | digit := List.mem_cons.mp back
      · exact Or.inr rfl
      · exact Or.inl (ascii_digits plain.fraction c digit)
    · cases back

theorem body_filled (plain : n.Plain) : ∃ c rest, n.ascii.body = c :: rest := by
  refine List.exists_cons_of_ne_nil fun empty => ?_
  obtain ⟨noWhole, noPoint⟩ := List.append_eq_nil_iff.mp empty
  obtain some | some := plain.some
  · exact some (List.map_eq_nil_iff.mp noWhole)
  · rw [pointPart, ascii, if_pos (plain.pointed.mp some)] at noPoint
    cases noPoint

theorem trimmed_text (plain : n.Plain) : trimmed n.text = n.ascii.text := by
  rw [trimmed, map_text]
  refine dropBlanks_self fun c isIn => ?_
  rw [text, List.append_assoc] at isIn
  obtain minus | isBody := List.mem_append.mp isIn
  · rw [sign] at minus
    split at minus
    · rw [List.mem_singleton.mp minus]
      rfl
    · cases minus
  · obtain digit | rfl := mem_body plain isBody
    · exact (digit_solid digit).1
    · rfl

theorem signed_text (plain : n.Plain) : signed n.ascii.text = (n.negative, n.ascii.body) := by
  obtain ⟨c, rest, isBody⟩ := body_filled plain
  have first := mem_body plain (isBody ▸ List.mem_cons_self)
  have whole : n.ascii.text = n.ascii.sign ++ n.ascii.body := List.append_assoc ..
  rw [whole, isBody, sign]
  change signed ((if n.negative then ['-'] else []) ++ c :: rest) = _
  cases n.negative with
  | true => rfl
  | false =>
    have other : c ≠ '-' ∧ c ≠ '+' := by
      constructor <;> rintro rfl <;> simp_all
    simp only [Bool.false_eq_true, if_false, List.nil_append]
    unfold signed
    split
    case h_1 same => exact absurd (List.cons.inj same).1 other.1
    case h_2 same => exact absurd (List.cons.inj same).1 other.2
    case h_3 => rfl

theorem floatText_plain (plain : n.Plain) : floatText n.text = some (ofRat n.value) := by
  obtain ⟨c, rest, isBody⟩ := body_filled plain
  have first := mem_body plain (isBody ▸ List.mem_cons_self)
  have noUnderscore : ∀ c ∈ n.ascii.text, c ≠ '_' := by
    intro c isIn
    rw [text, List.append_assoc] at isIn
    obtain minus | isBody := List.mem_append.mp isIn
    · rw [sign] at minus
      split at minus
      · rw [List.mem_singleton.mp minus]
        decide
      · cases minus
    · obtain digit | rfl := mem_body plain isBody
      · exact (digit_solid digit).2.1
      · decide
  have letter : c.toLower ≠ 'i' ∧ c.toLower ≠ 'n' := by
    obtain digit | rfl := first
    · exact (digit_solid digit).2.2
    · decide
  have noName : n.ascii.body.map Char.toLower ≠ "inf".toList ∧ n.ascii.body.map Char.toLower ≠ "infinity".toList ∧
      n.ascii.body.map Char.toLower ≠ "nan".toList := by
    rw [isBody]
    refine ⟨fun same => letter.1 ?_, fun same => letter.1 ?_, fun same => letter.2 ?_⟩ <;> exact (List.cons.inj same).1
  have pointed : n.fraction.map asciiOf ≠ [] ↔ n.pointed = true := by
    rw [Ne, List.map_eq_nil_iff]
    exact plain.pointed
  have digits := unsigned_digits (ascii_digits plain.whole) (ascii_digits plain.fraction) pointed
    (plain.some.imp (mt List.map_eq_nil_iff.mp) (mt List.map_eq_nil_iff.mp))
  have kept : withoutUnderscores n.ascii.text ' ' = some n.ascii.text := withoutUnderscores_self (by decide) noUnderscore
  have all : ∀ c ∈ n.whole ++ n.fraction, isDigit c = true := by
    intro c isIn
    exact (List.mem_append.mp isIn).elim (plain.whole c) (plain.fraction c)
  rw [← List.map_append, digitsValue_asciiOf all, List.length_map] at digits
  have read : unsignedDecimal n.ascii.body = some (decimal (n.whole ++ n.fraction) / 10 ^ n.fraction.length : ℚ) := digits
  simp only [floatText, trimmed_text plain, kept, Option.bind_some, signed_text plain,
    noName, decide_false, Bool.or_self, Bool.false_eq_true, if_false, read, Option.map_some]
  rfl

end Numeral

end Counselle.PyNumber

import Counselle.Positional
import Counselle.PyJsonText
import Counselle.Sat.Grading

/-! The entry rule of a free response: the value of the keys does not fit the field, and
the entry is that value cut off or rounded at the last place of the field. -/
namespace Counselle.Sat
open PyText (isDigit strip decimal digitValue)

section Keys
variable {keys : List (List Char)} {V : ℚ}

/-- The values of the keys that are written as fractions, or of those that are not. -/
def namedBy (keys : List (List Char)) (slashed : Bool) : Set ℚ :=
  {q | ∃ key ∈ keys, (strip key).contains '/' = slashed ∧ parseNumeric key = some q}

/-- The keys have one exact value: a decimal may be the fraction cut off, so that decimals
count where there is no fraction. -/
def Names (keys : List (List Char)) (V : ℚ) : Prop :=
  namedBy keys true = {V} ∨ namedBy keys true = ∅ ∧ namedBy keys false = {V}

theorem agreed_eq_some {values : List ℚ} : agreed values = some V ↔ {q | q ∈ values} = {V} := by
  rw [Set.eq_singleton_iff_nonempty_unique_mem]
  cases values with
  | nil => exact ⟨nofun, fun ⟨⟨_, isIn⟩, _⟩ => absurd isIn List.not_mem_nil⟩
  | cons first rest =>
    rw [agreed]
    constructor
    · intro isV
      obtain ⟨same, isFirst⟩ := Option.ite_none_right_eq_some.mp isV
      obtain rfl := Option.some.inj isFirst
      refine ⟨⟨first, List.mem_cons_self⟩, fun q isIn => ?_⟩
      obtain rfl | later := List.mem_cons.mp isIn
      · rfl
      · exact of_decide_eq_true (List.all_eq_true.mp same q later)
    · rintro ⟨-, only⟩
      have isFirst := only first List.mem_cons_self
      have same : rest.all (· = first) = true := by
        refine List.all_eq_true.mpr fun q isIn => decide_eq_true ?_
        exact (only q (List.mem_cons_of_mem _ isIn)).trans isFirst.symm
      rw [if_pos same, isFirst]

theorem namedBy_true : namedBy keys true = {q | q ∈ (keys.filter fun key => (strip key).contains '/').filterMap parseNumeric} := by
  ext q
  simp only [namedBy, Set.mem_ofPred_eq, List.mem_filterMap, List.mem_filter, and_assoc]

theorem namedBy_false : namedBy keys false = {q | q ∈ (keys.filter fun key => !(strip key).contains '/').filterMap parseNumeric} := by
  ext q
  simp only [namedBy, Set.mem_ofPred_eq, List.mem_filterMap, List.mem_filter, and_assoc, Bool.not_eq_true']

theorem unambiguousExactValue_eq_some : unambiguousExactValue keys = some V ↔ Names keys V := by
  simp only [unambiguousExactValue, Names, namedBy_true, namedBy_false]
  generalize (keys.filter fun key => (strip key).contains '/').filterMap parseNumeric = fractions
  cases fractions with
  | nil =>
    rw [if_neg (fun bad => bad rfl), agreed_eq_some]
    have empty : {q : ℚ | q ∈ ([] : List ℚ)} = ∅ := Set.eq_empty_of_forall_notMem fun _ => List.not_mem_nil
    rw [empty]
    exact ⟨fun named => Or.inr ⟨rfl, named⟩, fun named => named.elim (fun bad => absurd bad (Set.singleton_ne_empty V).symm) And.right⟩
  | cons first rest =>
    rw [if_pos (List.cons_ne_nil _ _), agreed_eq_some]
    refine ⟨Or.inl, fun named => named.resolve_right fun ⟨empty, _⟩ => ?_⟩
    exact Set.eq_empty_iff_forall_notMem.mp empty first List.mem_cons_self

end Keys

/-- The sign of an entry and its digits around the point. -/
structure Entry where
  negative : Bool
  whole : List Char
  fraction : List Char

namespace Entry
variable {e d : Entry}

def text (e : Entry) : List Char := (if e.negative then ['-'] else []) ++ e.whole ++ '.' :: e.fraction

def places (e : Entry) : Nat := e.fraction.length

structure Fills (e : Entry) : Prop where
  digits : ∀ c ∈ e.whole ++ e.fraction, isDigit c = true
  decimals : e.fraction ≠ []
  width : e.text.length = if e.negative then 6 else 5

/-- The decimal rendering of `n` units of the last place, without a zero before the point
or with one. -/
structure Shows (e : Entry) (negative : Bool) (n : Nat) : Prop where
  sign : e.negative = negative
  ascii : ∀ c ∈ e.whole ++ e.fraction, c.isDigit = true
  lead : e.whole = ['0'] ∨ e.whole.head? ≠ some '0'
  value : decimal (e.whole ++ e.fraction) = n

def ofText (text : List Char) : Entry :=
  let unsigned := (unsign text).2
  ⟨(unsign text).1, unsigned.takeWhile isDigit, (unsigned.dropWhile isDigit).drop 1⟩

theorem unsign_text (digits : ∀ c ∈ e.whole, isDigit c = true) :
    unsign e.text = (e.negative, e.whole ++ '.' :: e.fraction) := by
  obtain ⟨negative, whole, fraction⟩ := e
  cases negative with
  | true => rfl
  | false =>
    cases whole with
    | nil => rfl
    | cons c rest =>
      have other : c ≠ '-' := by
        rintro rfl
        exact absurd (digits '-' List.mem_cons_self) (by decide)
      simp only [text, Bool.false_eq_true, if_false, List.nil_append, List.cons_append]
      unfold unsign
      split
      case h_1 same => exact absurd (List.cons.inj same).1 other
      case h_2 => rfl

theorem takeWhile_digits {whole fraction : List Char} (digits : ∀ c ∈ whole, isDigit c = true) :
    (whole ++ '.' :: fraction).takeWhile isDigit = whole := by
  rw [List.takeWhile_append_of_pos digits, List.takeWhile_cons_of_neg (by decide), List.append_nil]

theorem dropWhile_digits {whole fraction : List Char} (digits : ∀ c ∈ whole, isDigit c = true) :
    (whole ++ '.' :: fraction).dropWhile isDigit = '.' :: fraction := by
  rw [List.dropWhile_append_of_pos digits, List.dropWhile_cons_of_neg (by decide)]

theorem ofText_text (digits : ∀ c ∈ e.whole, isDigit c = true) : ofText e.text = e := by
  simp only [ofText, unsign_text digits, takeWhile_digits digits, dropWhile_digits digits, List.drop_succ_cons, List.drop_zero]

theorem text_inj (digits : ∀ c ∈ e.whole, isDigit c = true) (digits' : ∀ c ∈ d.whole, isDigit c = true)
    (same : e.text = d.text) : e = d := by
  rw [← ofText_text digits, same, ofText_text digits']

theorem text_unsign (text : List Char) : (if (unsign text).1 then ['-'] else []) ++ (unsign text).2 = text := by
  unfold unsign
  split <;> rfl

theorem isO7Entry_iff {text : List Char} : isO7Entry text = true ↔
    ∃ e : Entry, text = e.text ∧ (∀ c ∈ e.whole ++ e.fraction, isDigit c = true) ∧ e.fraction ≠ [] := by
  constructor
  · intro isEntry
    rw [isO7Entry] at isEntry
    have whole := List.takeWhile_append_dropWhile (p := isDigit) (l := (unsign text).2)
    split at isEntry
    case h_1 fraction point =>
      rw [Bool.and_eq_true, List.all_eq_true] at isEntry
      rw [point] at whole
      refine ⟨⟨(unsign text).1, (unsign text).2.takeWhile isDigit, fraction⟩, ?_, fun c isIn => ?_, of_decide_eq_true isEntry.1⟩
      · rw [Entry.text, List.append_assoc, whole, text_unsign]
      · obtain front | back := List.mem_append.mp isIn
        · exact List.mem_takeWhile_imp front
        · exact isEntry.2 c back
    case h_2 => cases isEntry
  · rintro ⟨e, rfl, digits, some⟩
    have front (c : Char) (isIn : c ∈ e.whole) : isDigit c = true := digits c (List.mem_append_left _ isIn)
    simp only [isO7Entry, unsign_text front, dropWhile_digits front]
    rw [Bool.and_eq_true, List.all_eq_true]
    exact ⟨decide_eq_true some, fun c isIn => digits c (List.mem_append_right _ isIn)⟩

end Entry

section LongDivision
variable {den r : Nat} (places : Nat)

theorem longDivision_length : (longDivision den places r).1.length = places := by
  induction places generalizing r with
  | zero => rfl
  | succ places ih => exact congrArg (· + 1) ih

theorem longDivision_spec (positive : 0 < den) (small : r < den) :
    r * 10 ^ places = den * Positional.value 10 (longDivision den places r).1 + (longDivision den places r).2 ∧
      (longDivision den places r).2 < den := by
  induction places generalizing r with
  | zero => exact ⟨by simp [longDivision, Positional.value], small⟩
  | succ places ih =>
    obtain ⟨quotient, rest⟩ := ih (Nat.mod_lt (r * 10) positive)
    refine ⟨?_, rest⟩
    simp only [longDivision]
    rw [Positional.value_cons, longDivision_length, Nat.mul_add, Nat.add_assoc, ← quotient]
    calc r * 10 ^ (places + 1) = r * 10 * 10 ^ places := by ring
      _ = (den * (r * 10 / den) + r * 10 % den) * 10 ^ places := by rw [Nat.div_add_mod]
      _ = den * (r * 10 / den * 10 ^ places) + r * 10 % den * 10 ^ places := by ring

theorem longDivision_digits (positive : 0 < den) (small : r < den) : ∀ d ∈ (longDivision den places r).1, d < 10 := by
  induction places generalizing r with
  | zero => exact fun _ isIn => absurd isIn List.not_mem_nil
  | succ places ih =>
    refine List.forall_mem_cons.mpr ⟨?_, ih (Nat.mod_lt _ positive)⟩
    exact Nat.div_lt_of_lt_mul (Nat.mul_lt_mul_of_pos_right small (by decide))

end LongDivision

section Value
variable (V : ℚ) (places : Nat)

/-- How often the unit of the last place is in the value. -/
def units : Nat := V.num.natAbs / V.den * 10 ^ places + Positional.value 10 (longDivisionDigits V places).1

def behind : Nat := (longDivisionDigits V places).2

theorem remainder_lt : V.num.natAbs % V.den < V.den := Nat.mod_lt _ V.den_pos

theorem behind_lt : behind V places < V.den := (longDivision_spec places V.den_pos (remainder_lt V)).2

theorem scaled_num : V.num.natAbs * 10 ^ places = V.den * units V places + behind V places := by
  have quotient := (longDivision_spec places V.den_pos (remainder_lt V)).1
  calc V.num.natAbs * 10 ^ places
      = (V.den * (V.num.natAbs / V.den) + V.num.natAbs % V.den) * 10 ^ places := by rw [Nat.div_add_mod]
    _ = V.den * (V.num.natAbs / V.den * 10 ^ places) + V.num.natAbs % V.den * 10 ^ places := by ring
    _ = V.den * units V places + behind V places := by
      rw [quotient, ← Nat.add_assoc, ← Nat.mul_add]
      rfl

theorem abs_scaled : |V| * 10 ^ places = units V places + (behind V places : ℚ) / V.den := by
  have den : (V.den : ℚ) ≠ 0 := Nat.cast_ne_zero.mpr V.den_nz
  have magnitude : |V| = (V.num.natAbs : ℚ) / V.den := by
    conv_lhs => rw [← Rat.num_div_den V]
    rw [abs_div, Nat.cast_natAbs, Nat.abs_cast, Int.cast_abs]
  have scaled : (V.num.natAbs : ℚ) * 10 ^ places = V.den * units V places + behind V places := by
    exact_mod_cast scaled_num V places
  rw [magnitude, div_mul_eq_mul_div, scaled, add_div, mul_div_cancel_left₀ _ den]

theorem fraction_lt_one : (behind V places : ℚ) / V.den < 1 := by
  rw [div_lt_one (Nat.cast_pos.mpr V.den_pos)]
  exact_mod_cast behind_lt V places

theorem fraction_nonneg : 0 ≤ (behind V places : ℚ) / V.den := by positivity

theorem floor_scaled : ⌊|V| * 10 ^ places⌋₊ = units V places := by
  rw [Nat.floor_eq_iff (by positivity), abs_scaled]
  have below := fraction_lt_one V places
  have above := fraction_nonneg V places
  constructor <;> linarith

theorem floor_rounded : ⌊|V| * 10 ^ places + 1 / 2⌋₊ =
    units V places + if 5 ≤ behind V places * 10 / V.den then 1 else 0 := by
  have den : (0 : ℚ) < V.den := Nat.cast_pos.mpr V.den_pos
  have below := fraction_lt_one V places
  have above := fraction_nonneg V places
  have next : 5 ≤ behind V places * 10 / V.den ↔ (1 / 2 : ℚ) ≤ behind V places / V.den := by
    rw [Nat.le_div_iff_mul_le V.den_pos, le_div_iff₀ den]
    constructor
    · intro half
      have half : (5 * V.den : ℚ) ≤ behind V places * 10 := by exact_mod_cast half
      linarith
    · intro half
      have half : (5 * V.den : ℚ) ≤ behind V places * 10 := by linarith
      exact_mod_cast half
  rw [Nat.floor_eq_iff (by positivity), abs_scaled]
  split
  case isTrue half =>
    have half := next.mp half
    push_cast
    constructor <;> linarith
  case isFalse less =>
    have less := lt_of_not_ge (mt next.mpr less)
    push_cast
    constructor <;> linarith

theorem hasNonzeroDigitBeyond_iff : hasNonzeroDigitBeyond V places = true ↔ (V * 10 ^ places).den ≠ 1 := by
  have whole : (V * 10 ^ places).den = 1 ↔ behind V places = 0 := by
    have scaled : V * 10 ^ places = ((V.num * 10 ^ places : ℤ) : ℚ) / ((V.den : ℤ) : ℚ) := by
      conv_lhs => rw [← Rat.num_div_den V]
      push_cast
      ring
    rw [scaled, Rat.den_div_intCast_eq_one_iff _ _ (by exact_mod_cast V.den_nz), Int.natCast_dvd, Int.natAbs_mul,
      Int.natAbs_pow]
    change V.den ∣ V.num.natAbs * 10 ^ places ↔ _
    rw [scaled_num, Nat.dvd_add_right (Nat.dvd_mul_right _ _)]
    exact ⟨fun divides => Nat.eq_zero_of_dvd_of_lt divides (behind_lt V places), fun zero => zero ▸ Nat.dvd_zero _⟩
  rw [hasNonzeroDigitBeyond, decide_eq_true_eq, Ne, Ne, whole]
  rfl

end Value

section Rendering

theorem digit_range {c : Char} (digit : c.isDigit = true) : 48 ≤ c.toNat ∧ c.toNat ≤ 57 :=
  Char.isDigit_iff_toNat.mp digit

theorem digitValue_ascii {c : Char} (digit : c.isDigit = true) : digitValue c = some (c.toNat - 48) := by
  obtain ⟨lower, upper⟩ := digit_range digit
  have found : (decide (48 ≤ c.toNat) && decide (c.toNat < 48 + 10)) = true := by
    rw [Bool.and_eq_true]
    exact ⟨decide_eq_true lower, decide_eq_true (Nat.lt_succ_of_le upper)⟩
  have zeros : PyText.decimalZeros = 48 :: PyText.decimalZeros.tail := rfl
  rw [digitValue, zeros, List.find?_cons_of_pos (by exact found)]
  rfl

theorem isDigit_ascii {c : Char} (digit : c.isDigit = true) : isDigit c = true := by
  rw [isDigit, digitValue_ascii digit]
  rfl

def digitsOf (text : List Char) : List Nat := text.map fun c => c.toNat - 48

theorem digitsOf_lt {text : List Char} (ascii : ∀ c ∈ text, c.isDigit = true) : ∀ d ∈ digitsOf text, d < 10 := by
  intro d isIn
  obtain ⟨c, isChar, rfl⟩ := List.mem_map.mp isIn
  have range := digit_range (ascii c isChar)
  omega

theorem digitsOf_inj {first second : List Char} (ascii : ∀ c ∈ first, c.isDigit = true)
    (ascii' : ∀ c ∈ second, c.isDigit = true) (same : digitsOf first = digitsOf second) : first = second := by
  induction first generalizing second with
  | nil => exact (List.map_eq_nil_iff.mp same.symm).symm
  | cons c rest ih =>
    cases second with
    | nil => cases same
    | cons c' rest' =>
      obtain ⟨here, later⟩ := List.cons.inj same
      have range := digit_range (List.forall_mem_cons.mp ascii).1
      have range' := digit_range (List.forall_mem_cons.mp ascii').1
      have same : c.toNat - 48 = c'.toNat - 48 := here
      have codes : c.toNat = c'.toNat := by omega
      rw [Char.toNat_inj.mp codes, ih (List.forall_mem_cons.mp ascii).2 (List.forall_mem_cons.mp ascii').2 later]

theorem decimal_ascii {text : List Char} (ascii : ∀ c ∈ text, c.isDigit = true) :
    decimal text = Positional.value 10 (digitsOf text) := by
  rw [decimal, Positional.value, digitsOf, List.foldl_map]
  refine List.foldl_ext _ _ _ fun n c isIn => ?_
  rw [digitValue_ascii (ascii c isIn), Option.getD_some]

theorem value_toDigits (n : Nat) : Positional.value 10 (digitsOf (Nat.toDigits 10 n)) = n := by
  rw [Positional.value, digitsOf, List.foldl_map]
  exact Nat.ofDigitChars_eq_foldl.symm.trans (Nat.ofDigitChars_toDigits (by decide) (by decide))

theorem digitChars_ascii {digits : List Nat} (small : ∀ d ∈ digits, d < 10) :
    (∀ c ∈ digitChars digits, c.isDigit = true) ∧ digitsOf (digitChars digits) = digits := by
  have table : ∀ d < 10, (Char.ofNat ('0'.toNat + d)).isDigit = true ∧ (Char.ofNat ('0'.toNat + d)).toNat - 48 = d := by
    decide
  induction digits with
  | nil => exact ⟨nofun, rfl⟩
  | cons d rest ih =>
    obtain ⟨here, later⟩ := List.forall_mem_cons.mp small
    obtain ⟨ascii, same⟩ := ih later
    exact ⟨List.forall_mem_cons.mpr ⟨(table d here).1, ascii⟩, congrArg₂ List.cons (table d here).2 same⟩

theorem zfill_ascii {n places : Nat} (some : 0 < places) (small : n < 10 ^ places) :
    (∀ c ∈ zfill n places, c.isDigit = true) ∧ (zfill n places).length = places ∧
      Positional.value 10 (digitsOf (zfill n places)) = n := by
  have short : (Nat.toDigits 10 n).length ≤ places := (Nat.length_toDigits_le_iff (by decide) some).mpr small
  refine ⟨fun c isIn => ?_, ?_, ?_⟩
  · obtain zero | digit := List.mem_append.mp isIn
    · rw [List.eq_of_mem_replicate zero]
      rfl
    · exact PyJson.isDigit_toDigits digit
  · rw [zfill, List.length_append, List.length_replicate, Nat.sub_add_cancel short]
  · have zeros (k : Nat) : Positional.value 10 (List.replicate k 0) = 0 := by
      induction k with
      | zero => rfl
      | succ k ih => rw [List.replicate_succ, Positional.value_cons, ih, Nat.zero_mul]
    rw [zfill, digitsOf, List.map_append, List.map_replicate, Positional.value_append]
    change Positional.value 10 (List.replicate _ 0) * _ + Positional.value 10 (digitsOf _) = n
    rw [zeros, Nat.zero_mul, Nat.zero_add, value_toDigits]

/-- A text that is the rendering of `n` units of its last place, and its entry. -/
structure Rendered (text : List Char) (negative : Bool) (n places : Nat) (d : Entry) : Prop where
  text : text = d.text
  shows : d.Shows negative n
  lead : d.whole.head? ≠ some '0'
  places : d.places = places

theorem decimalString_rendered (negative : Bool) (integerPart : Nat) {fraction : List Char}
    (ascii : ∀ c ∈ fraction, c.isDigit = true) : ∃ d, Rendered (decimalString negative integerPart fraction) negative
      (integerPart * 10 ^ fraction.length + Positional.value 10 (digitsOf fraction)) fraction.length d := by
  let whole := if integerPart = 0 then [] else Nat.toDigits 10 integerPart
  have facts : (∀ c ∈ whole, c.isDigit = true) ∧ whole.head? ≠ some '0' ∧
      Positional.value 10 (digitsOf whole) = integerPart := by
    simp only [whole]
    split
    case isTrue zero => exact ⟨List.forall_mem_nil _, by simp, zero.symm⟩
    case isFalse nonzero =>
      obtain zero | ⟨c, rest, digits, other⟩ := PyJson.toDigits_head integerPart
      · exact absurd zero nonzero
      · refine ⟨fun c isIn => PyJson.isDigit_toDigits isIn, ?_, value_toDigits integerPart⟩
        rw [digits]
        exact fun same => other (Option.some.inj same)
  obtain ⟨front, lead, value⟩ := facts
  have all : ∀ c ∈ whole ++ fraction, c.isDigit = true := by
    intro c isIn
    exact (List.mem_append.mp isIn).elim (front c) (ascii c)
  refine ⟨⟨negative, whole, fraction⟩, rfl, ⟨rfl, all, Or.inr lead, ?_⟩, lead, rfl⟩
  rw [decimal_ascii all, digitsOf, List.map_append, Positional.value_append, List.length_map]
  change Positional.value 10 (digitsOf whole) * _ + _ = _
  rw [value]
  rfl

theorem truncateTowardZero_rendered (V : ℚ) (places : Nat) :
    ∃ d, Rendered (truncateTowardZero V places) (decide (V < 0)) (units V places) places d := by
  obtain ⟨ascii, same⟩ := digitChars_ascii (longDivision_digits places V.den_pos (remainder_lt V))
  obtain ⟨d, rendered⟩ := decimalString_rendered (decide (V < 0)) (V.num.natAbs / V.den) ascii
  rw [same, digitChars, List.length_map, longDivision_length] at rendered
  exact ⟨d, rendered⟩

theorem roundHalfAwayFromZero_rendered (V : ℚ) {places : Nat} (some : 0 < places) :
    ∃ d, Rendered (roundHalfAwayFromZero V places) (decide (V < 0))
      (units V places + if 5 ≤ behind V places * 10 / V.den then 1 else 0) places d := by
  have small := Positional.value_lt (longDivision_digits places V.den_pos (remainder_lt V))
  rw [longDivision_length] at small
  have added : (if 5 ≤ behind V places * 10 / V.den then 1 else 0) ≤ 1 := by
    split <;> decide
  have rounded : roundHalfAwayFromZero V places =
      if 10 ^ places ≤ Positional.value 10 (longDivisionDigits V places).1 + (if 5 ≤ behind V places * 10 / V.den then 1 else 0) then
        decimalString (decide (V < 0)) (V.num.natAbs / V.den + 1) (zfill (Positional.value 10 (longDivisionDigits V places).1 +
          (if 5 ≤ behind V places * 10 / V.den then 1 else 0) - 10 ^ places) places)
      else decimalString (decide (V < 0)) (V.num.natAbs / V.den) (zfill (Positional.value 10 (longDivisionDigits V places).1 +
          (if 5 ≤ behind V places * 10 / V.den then 1 else 0)) places) := rfl
  rw [rounded, units, Nat.add_assoc]
  generalize (if 5 ≤ behind V places * 10 / V.den then 1 else 0) = up at added ⊢
  change Positional.value 10 (longDivisionDigits V places).1 < _ at small
  generalize Positional.value 10 (longDivisionDigits V places).1 = digits at small ⊢
  split
  case isTrue carries =>
    obtain ⟨ascii, length, value⟩ := zfill_ascii some (show digits + up - 10 ^ places < 10 ^ places by omega)
    obtain ⟨d, rendered⟩ := decimalString_rendered (decide (V < 0)) (V.num.natAbs / V.den + 1) ascii
    have total : (V.num.natAbs / V.den + 1) * 10 ^ places + (digits + up - 10 ^ places) =
        V.num.natAbs / V.den * 10 ^ places + (digits + up) := by
      rw [Nat.add_mul, Nat.one_mul]
      omega
    rw [length, value, total] at rendered
    exact ⟨d, rendered⟩
  case isFalse fits =>
    obtain ⟨ascii, length, value⟩ := zfill_ascii some (Nat.lt_of_not_le fits)
    obtain ⟨d, rendered⟩ := decimalString_rendered (decide (V < 0)) (V.num.natAbs / V.den) ascii
    rw [length, value] at rendered
    exact ⟨d, rendered⟩

end Rendering

namespace Entry
variable {e d : Entry} {negative : Bool} {n : Nat}

theorem Shows.unique (here : e.Shows negative n) (there : d.Shows negative n) (lead : e.whole.head? ≠ some '0')
    (lead' : d.whole.head? ≠ some '0') (places : e.places = d.places) : e = d := by
  obtain ⟨negative, whole, fraction⟩ := e
  obtain ⟨negative', whole', fraction'⟩ := d
  have small := digitsOf_lt here.ascii
  have small' := digitsOf_lt there.ascii
  have values := here.value.trans there.value.symm
  rw [decimal_ascii here.ascii, decimal_ascii there.ascii] at values
  simp only [digitsOf, List.map_append] at small small' values
  have nonzero {text : List Char} (ascii : ∀ c ∈ text, c.isDigit = true) (lead : text.head? ≠ some '0') :
      (digitsOf text).head? ≠ some 0 := by
    cases text with
    | nil => nofun
    | cons c rest =>
      intro zero
      have range := digit_range (ascii c List.mem_cons_self)
      have low : c.toNat - 48 = 0 := Option.some.inj zero
      have code : c.toNat = '0'.toNat := by
        change c.toNat = 48
        omega
      exact lead (congrArg some (Char.toNat_inj.mp code))
  have front (c : Char) (isIn : c ∈ whole) : c.isDigit = true := here.ascii c (List.mem_append_left _ isIn)
  have front' (c : Char) (isIn : c ∈ whole') : c.isDigit = true := there.ascii c (List.mem_append_left _ isIn)
  obtain ⟨wholes, fractions⟩ := Positional.point_inj (by decide) small small' (nonzero front lead) (nonzero front' lead')
    (by rw [List.length_map, List.length_map]; exact places) values
  have back (c : Char) (isIn : c ∈ fraction) : c.isDigit = true := here.ascii c (List.mem_append_right _ isIn)
  have back' (c : Char) (isIn : c ∈ fraction') : c.isDigit = true := there.ascii c (List.mem_append_right _ isIn)
  obtain rfl := digitsOf_inj front front' wholes
  obtain rfl := digitsOf_inj back back' fractions
  obtain rfl := here.sign.trans there.sign.symm
  rfl

def bare (e : Entry) : Entry := { e with whole := if e.whole = ['0'] then [] else e.whole }

theorem bare_whole (e : Entry) : e.bare.whole = [] ∨ e.bare.whole = e.whole ∧ e.whole ≠ ['0'] := by
  unfold bare
  by_cases zero : e.whole = ['0']
  · exact Or.inl (if_pos zero)
  · exact Or.inr ⟨if_neg zero, zero⟩

theorem stripLeadingZero_some {text bare : List Char} (strips : stripLeadingZero text = some bare) :
    (ofText text).whole = ['0'] := by
  unfold stripLeadingZero at strips
  split at strips
  case h_1 => rfl
  case h_2 => rfl
  case h_3 => cases strips

theorem bare_text (digits : ∀ c ∈ e.whole, isDigit c = true) : (stripLeadingZero e.text).getD e.text = e.bare.text := by
  obtain ⟨negative, whole, fraction⟩ := e
  unfold bare
  split
  case isTrue zero =>
    obtain rfl : whole = ['0'] := zero
    cases negative <;> rfl
  case isFalse other =>
    have nothing : stripLeadingZero (text ⟨negative, whole, fraction⟩) = none := by
      refine Option.eq_none_iff_forall_ne_some.mpr fun bare strips => other ?_
      have zero := stripLeadingZero_some strips
      rwa [ofText_text digits] at zero
    rw [nothing]
    rfl

theorem shows_bare : e.bare.Shows negative n ↔ e.Shows negative n := by
  obtain ⟨sign, whole, fraction⟩ := e
  unfold bare
  split
  case isTrue zero =>
    obtain rfl : whole = ['0'] := zero
    have same : decimal (['0'] ++ fraction) = decimal fraction := rfl
    constructor
    · intro shows
      exact ⟨shows.sign, List.forall_mem_cons.mpr ⟨rfl, shows.ascii⟩, Or.inl rfl, same.trans shows.value⟩
    · intro shows
      exact ⟨shows.sign, (List.forall_mem_cons.mp shows.ascii).2, Or.inr nofun, same.symm.trans shows.value⟩
  case isFalse => rfl

theorem text_eq_rendered {text : List Char} {places : Nat} (digits : ∀ c ∈ e.whole, isDigit c = true)
    (rendered : Rendered text negative n places d) (samePlaces : e.places = places) :
    (stripLeadingZero e.text).getD e.text = text ↔ e.Shows negative n := by
  rw [bare_text digits, rendered.text, ← shows_bare]
  constructor
  · intro same
    have front : ∀ c ∈ e.bare.whole, isDigit c = true := by
      obtain empty | ⟨same, -⟩ := bare_whole e
      · rw [empty]
        exact List.forall_mem_nil _
      · exact same ▸ digits
    have front' (c : Char) (isIn : c ∈ d.whole) : isDigit c = true :=
      isDigit_ascii (rendered.shows.ascii c (List.mem_append_left _ isIn))
    rw [text_inj front front' same]
    exact rendered.shows
  · intro shows
    have lead : e.bare.whole.head? ≠ some '0' := by
      obtain empty | ⟨same, other⟩ := bare_whole e
      · simp [empty]
      · exact shows.lead.resolve_left (same ▸ other)
    rw [shows.unique rendered.shows lead rendered.lead (samePlaces.trans rendered.places.symm)]

end Entry

structure Granted (keys : List (List Char)) (answer : List Char) (V : ℚ) (e : Entry) : Prop where
  names : Names keys V
  entry : strip answer = e.text
  fills : e.Fills
  continues : (V * 10 ^ e.places).den ≠ 1
  shows : e.Shows (decide (V < 0)) ⌊|V| * 10 ^ e.places⌋₊ ∨ e.Shows (decide (V < 0)) ⌊|V| * 10 ^ e.places + 1 / 2⌋₊

section Rule
variable {keys : List (List Char)} {answer : List Char} {V : ℚ} {e : Entry}

theorem Entry.idxOf_point (digits : ∀ c ∈ e.whole, isDigit c = true) : e.text.length - e.text.idxOf '.' - 1 = e.places := by
  have absent : '.' ∉ (if e.negative then ['-'] else []) ++ e.whole := by
    rw [List.mem_append]
    rintro (sign | front)
    · revert sign
      split <;> decide
    · exact absurd (digits '.' front) (by decide)
  rw [Entry.text, List.idxOf_append_of_notMem absent, List.idxOf_cons_self, List.length_append, List.length_cons,
    Entry.places]
  omega

theorem accepts_entry (entry : strip answer = e.text) (digits : ∀ c ∈ e.whole ++ e.fraction, isDigit c = true)
    (decimals : e.fraction ≠ []) : acceptsUnderO7 keys answer = true ↔ ∃ V, Granted keys answer V e := by
  have front (c : Char) (isIn : c ∈ e.whole) : isDigit c = true := digits c (List.mem_append_left _ isIn)
  have isEntry : isO7Entry e.text = true := Entry.isO7Entry_iff.mpr ⟨e, rfl, digits, decimals⟩
  have positive : 0 < e.places := List.length_pos_of_ne_nil decimals
  have shows (V : ℚ) : ((stripLeadingZero e.text).getD e.text = truncateTowardZero V e.places ∨
      (stripLeadingZero e.text).getD e.text = roundHalfAwayFromZero V e.places) ↔
      e.Shows (decide (V < 0)) ⌊|V| * 10 ^ e.places⌋₊ ∨ e.Shows (decide (V < 0)) ⌊|V| * 10 ^ e.places + 1 / 2⌋₊ := by
    obtain ⟨_, truncated⟩ := truncateTowardZero_rendered V e.places
    obtain ⟨_, rounded⟩ := roundHalfAwayFromZero_rendered V positive
    rw [Entry.text_eq_rendered front truncated rfl, Entry.text_eq_rendered front rounded rfl, floor_scaled, floor_rounded]
  have code (V : ℚ) (named : unambiguousExactValue keys = some V) : acceptsUnderO7 keys answer = true ↔
      e.text.length = (if e.negative then 6 else 5) ∧ hasNonzeroDigitBeyond V e.places = true ∧
        ((stripLeadingZero e.text).getD e.text = truncateTowardZero V e.places ∨
          (stripLeadingZero e.text).getD e.text = roundHalfAwayFromZero V e.places) := by
    simp only [acceptsUnderO7, named, entry, isEntry, Entry.idxOf_point front, Entry.unsign_text front, Bool.and_eq_true,
      Bool.or_eq_true, decide_eq_true_eq, true_and, and_assoc]
  constructor
  · intro accepts
    cases named : unambiguousExactValue keys with
    | none =>
      rw [acceptsUnderO7, named] at accepts
      cases accepts
    | some V =>
      obtain ⟨width, continues, rendered⟩ := (code V named).mp accepts
      exact ⟨V, unambiguousExactValue_eq_some.mp named, entry, ⟨digits, decimals, width⟩,
        (hasNonzeroDigitBeyond_iff V e.places).mp continues, (shows V).mp rendered⟩
  · rintro ⟨V, accepted⟩
    refine (code V (unambiguousExactValue_eq_some.mpr accepted.names)).mpr ⟨accepted.fills.width, ?_, ?_⟩
    · exact (hasNonzeroDigitBeyond_iff V e.places).mpr accepted.continues
    · exact (shows V).mpr accepted.shows

theorem accepts_iff : acceptsUnderO7 keys answer = true ↔ ∃ V e, Granted keys answer V e := by
  constructor
  · intro accepts
    have isEntry : isO7Entry (strip answer) = true := by
      rw [acceptsUnderO7] at accepts
      split at accepts
      case h_1 => cases accepts
      case h_2 =>
        simp only [Bool.and_eq_true] at accepts
        exact accepts.1.1.1
    obtain ⟨e, entry, digits, decimals⟩ := Entry.isO7Entry_iff.mp isEntry
    obtain ⟨V, accepted⟩ := (accepts_entry entry digits decimals).mp accepts
    exact ⟨V, e, accepted⟩
  · rintro ⟨V, e, accepted⟩
    exact (accepts_entry accepted.entry accepted.fills.digits accepted.fills.decimals).mpr ⟨V, accepted⟩

theorem parseNumeric_entry (entry : strip answer = e.text) (digits : ∀ c ∈ e.whole ++ e.fraction, isDigit c = true)
    (decimals : e.fraction ≠ []) : parseNumeric answer =
      some (if e.negative then -(decimal (e.whole ++ e.fraction) / 10 ^ e.places : ℚ)
        else decimal (e.whole ++ e.fraction) / 10 ^ e.places) := by
  have front (c : Char) (isIn : c ∈ e.whole) : isDigit c = true := digits c (List.mem_append_left _ isIn)
  have back (c : Char) (isIn : c ∈ e.fraction) : isDigit c = true := digits c (List.mem_append_right _ isIn)
  have unslashed : ∀ c ∈ e.text, (decide (c ≠ '/')) = true := by
    intro c isIn
    refine decide_eq_true ?_
    rintro rfl
    rw [Entry.text, List.mem_append, List.mem_append, List.mem_cons] at isIn
    obtain (sign | isDigit) | isPoint | isDigit := isIn
    · revert sign
      split <;> decide
    · exact absurd (front '/' isDigit) (by decide)
    · exact absurd isPoint (by decide)
    · exact absurd (back '/' isDigit) (by decide)
  have isLiteral : isDecimalLiteral e.text = true := by
    have all : e.fraction.all isDigit = true := List.all_eq_true.mpr back
    simp [isDecimalLiteral, Entry.unsign_text front, isUnsignedDecimal, Entry.takeWhile_digits front,
      Entry.dropWhile_digits front, all, decimals]
  have value : decimalLiteral e.text = if e.negative then -(decimal (e.whole ++ e.fraction) / 10 ^ e.places : ℚ)
      else decimal (e.whole ++ e.fraction) / 10 ^ e.places := by
    simp only [decimalLiteral, Entry.unsign_text front, Entry.takeWhile_digits front, Entry.dropWhile_digits front,
      List.drop_succ_cons, List.drop_zero]
    rfl
  have left := List.takeWhile_eq_self_iff.mpr unslashed
  have right := List.dropWhile_eq_nil_iff.mpr unslashed
  simp only [parseNumeric, entry, left, right, isLiteral, if_true, value]

theorem sub_lt_unit {n : Nat} {places : Nat} (near : |(n : ℚ) - |V| * 10 ^ places| < 1) :
    |(if decide (V < 0) then -(n / 10 ^ places : ℚ) else n / 10 ^ places) - V| < 1 / 10 ^ places := by
  have unit : (0 : ℚ) < 10 ^ places := by positivity
  have scaled : |(n : ℚ) / 10 ^ places - (|V| : ℚ)| < 1 / 10 ^ places := by
    have split : (n : ℚ) / 10 ^ places - |V| = (n - |V| * 10 ^ places) / 10 ^ places := by
      field_simp
    rw [split, abs_div, abs_of_pos unit]
    exact div_lt_div_of_pos_right near unit
  split
  case isTrue negative =>
    rw [abs_of_neg (of_decide_eq_true negative)] at scaled
    have flipped : -(n / 10 ^ places : ℚ) - V = -(n / 10 ^ places - -V) := by ring
    rwa [flipped, abs_neg]
  case isFalse other =>
    have nonneg : 0 ≤ V := le_of_not_gt fun negative => other (decide_eq_true negative)
    rwa [abs_of_nonneg nonneg] at scaled

theorem accepted_near (accepted : Granted keys answer V e) :
    ∃ a, parseNumeric answer = some a ∧ |a - V| < 1 / 10 ^ e.places := by
  refine ⟨_, parseNumeric_entry accepted.entry accepted.fills.digits accepted.fills.decimals, ?_⟩
  have magnitude : 0 ≤ |V| * 10 ^ e.places := by positivity
  obtain cut | rounded := accepted.shows
  · rw [cut.sign, cut.value]
    refine sub_lt_unit (abs_sub_lt_iff.mpr ?_)
    have below := Nat.floor_le magnitude
    have above := Nat.lt_floor_add_one (|V| * 10 ^ e.places)
    constructor <;> linarith
  · rw [rounded.sign, rounded.value]
    refine sub_lt_unit (abs_sub_lt_iff.mpr ?_)
    have below := Nat.floor_le (a := |V| * 10 ^ e.places + 1 / 2) (by positivity)
    have above := Nat.lt_floor_add_one (|V| * 10 ^ e.places + 1 / 2)
    constructor <;> linarith

theorem isCorrect_equal (casing : Casing) {key : List Char} {q : ℚ} (isIn : key ∈ keys) (value : parseNumeric key = some q)
    (same : parseNumeric answer = some q) : isCorrect casing .spr keys answer = true := by
  have near : (parseNumeric answer).any (fun user => keys.any fun key =>
      (parseNumeric key).any fun value => decide (|user - value| < nearMissEpsilon)) = true := by
    rw [same, Option.any_some, List.any_eq_true]
    refine ⟨key, isIn, ?_⟩
    rw [value, Option.any_some, sub_self, abs_zero]
    exact decide_eq_true (by norm_num [nearMissEpsilon])
  simp only [isCorrect, near, Bool.true_or, decide_true, Bool.and_true, Bool.or_true]

structure EntryRule (casing : Casing) (keys : List (List Char)) (answer : List Char) : Prop where
  accepts : acceptsUnderO7 keys answer = true ↔ ∃ V e, Granted keys answer V e
  near : ∀ V e, Granted keys answer V e → ∃ a, parseNumeric answer = some a ∧ |a - V| < 1 / 10 ^ e.places
  equal : ∀ key ∈ keys, ∀ q, parseNumeric key = some q → parseNumeric answer = some q →
    isCorrect casing .spr keys answer = true

end Rule

end Counselle.Sat

import Counselle.Facts.Normalize
import Counselle.Fallible
import Counselle.PyNumeral

/-! What the normalisers return is what is printed: the numerals they match are converted
as a whole, and what cannot be converted is a `NormalizeError`. -/
namespace Counselle.Facts.Normalize
open PyJson (JsonValue PyFloat)
open PyText (isSpace isDigit strip decimal)
open PyRegex (Regex Match)
open PyRegex.Regex (plus lit plus_fits lit_fits search_fits atStart_fits)
open PyNumber (Numeral)
open Binary64 (ofRat)

def splitSign : Chars → Bool × Chars
  | '-' :: rest => (true, rest)
  | rest => (false, rest)

/-- The numeral of a printed text, without its thousands commas. -/
def numeralOf (text : Chars) : Numeral :=
  let (negative, unsigned) := splitSign (withoutCommas text)
  let fraction := (unsigned.dropWhile isDigit).drop 1
  ⟨negative, unsigned.takeWhile isDigit, fraction, fraction ≠ []⟩

def printed (text : Chars) : ℚ := (numeralOf text).value

/-- A sign, digits and commas, and digits behind a point. -/
structure Sided (text : Chars) (n : Numeral) : Prop where
  text : text = n.sign ++ n.whole ++ n.pointPart
  whole : ∀ c ∈ n.whole, digitOrComma c = true
  fraction : ∀ c ∈ n.fraction, isDigit c = true
  pointed : n.fraction ≠ [] ↔ n.pointed = true

section Numerals
variable {text : Chars} {n : Numeral}

theorem withoutCommas_append (front back : Chars) : withoutCommas (front ++ back) = withoutCommas front ++ withoutCommas back :=
  List.filter_append ..

theorem withoutCommas_self {text : Chars} (none : ∀ c ∈ text, c ≠ ',') : withoutCommas text = text :=
  List.filter_eq_self.mpr fun c isIn => decide_eq_true (none c isIn)

theorem digit_ne_comma {c : Char} (digit : isDigit c = true) : c ≠ ',' := by
  rintro rfl
  exact absurd digit (by decide)

def bare (n : Numeral) : Numeral := { n with whole := withoutCommas n.whole }

theorem Sided.digits (sided : Sided text n) : ∀ c ∈ (bare n).whole, isDigit c = true := by
  intro c isIn
  obtain ⟨isWhole, other⟩ := List.mem_filter.mp isIn
  have either := sided.whole c isWhole
  rw [digitOrComma, Bool.or_eq_true] at either
  exact either.resolve_right fun comma => of_decide_eq_true other (beq_iff_eq.mp comma)

theorem Sided.withoutCommas_text (sided : Sided text n) : withoutCommas text = (bare n).text := by
  have point : withoutCommas n.pointPart = n.pointPart := by
    refine withoutCommas_self fun c isIn => ?_
    rw [Numeral.pointPart] at isIn
    split at isIn
    · obtain rfl | digit := List.mem_cons.mp isIn
      · decide
      · exact digit_ne_comma (sided.fraction c digit)
    · cases isIn
  have sign : withoutCommas n.sign = n.sign := by
    refine withoutCommas_self fun c isIn => ?_
    rw [Numeral.sign] at isIn
    split at isIn
    · rw [List.mem_singleton.mp isIn]
      decide
    · cases isIn
  rw [sided.text, withoutCommas_append, withoutCommas_append, sign, point]
  rfl

theorem splitSign_append {negative : Bool} {unsigned : Chars} (other : '-' ∉ unsigned) :
    splitSign ((if negative then ['-'] else []) ++ unsigned) = (negative, unsigned) := by
  cases negative with
  | true => rfl
  | false =>
    change splitSign unsigned = _
    unfold splitSign
    split
    case h_1 => exact absurd List.mem_cons_self other
    case h_2 => rfl

theorem Sided.numeralOf_eq (sided : Sided text n) : numeralOf text = bare n := by
  have digits : ∀ c ∈ withoutCommas n.whole, isDigit c = true := sided.digits
  have front : (withoutCommas n.whole ++ n.pointPart).takeWhile isDigit = withoutCommas n.whole := by
    rw [List.takeWhile_append_of_pos digits, Numeral.pointPart]
    split
    · rw [List.takeWhile_cons_of_neg (by decide), List.append_nil]
    · rw [List.takeWhile_nil, List.append_nil]
  have back : ((withoutCommas n.whole ++ n.pointPart).dropWhile isDigit).drop 1 = n.fraction := by
    rw [List.dropWhile_append_of_pos digits, Numeral.pointPart]
    split
    case isTrue => rw [List.dropWhile_cons_of_neg (by decide), List.drop_succ_cons, List.drop_zero]
    case isFalse plain =>
      rw [List.dropWhile_nil, List.drop_nil]
      exact (not_not.mp (mt sided.pointed.mp plain)).symm
  have pointed : decide (n.fraction ≠ []) = n.pointed := by
    rw [Bool.eq_iff_iff, decide_eq_true_eq]
    exact sided.pointed
  have unsigned : '-' ∉ withoutCommas n.whole ++ n.pointPart := by
    intro isIn
    obtain digit | point := List.mem_append.mp isIn
    · exact absurd (digits '-' digit) (by decide)
    · rw [Numeral.pointPart] at point
      split at point
      · obtain bad | digit := List.mem_cons.mp point
        · exact absurd bad (by decide)
        · exact absurd (sided.fraction '-' digit) (by decide)
      · cases point
  have parts : splitSign (withoutCommas text) = (n.negative, withoutCommas n.whole ++ n.pointPart) := by
    rw [sided.withoutCommas_text, Numeral.text, List.append_assoc]
    exact splitSign_append unsigned
  simp only [numeralOf, parts, front, back, pointed]
  rfl

theorem Sided.floatOf_eq (sided : Sided text n) {c : Char} (isIn : c ∈ text) (digit : isDigit c = true) :
    floatOf (withoutCommas text) = .ok (ofRat (printed text)) := by
  have some : (bare n).whole ≠ [] ∨ n.fraction ≠ [] := by
    rw [sided.text, List.mem_append, List.mem_append] at isIn
    obtain (sign | whole) | point := isIn
    · rw [Numeral.sign] at sign
      split at sign
      · rw [List.mem_singleton.mp sign] at digit
        exact absurd digit (by decide)
      · cases sign
    · exact Or.inl (List.ne_nil_of_mem (List.mem_filter.mpr ⟨whole, decide_eq_true (digit_ne_comma digit)⟩))
    · rw [Numeral.pointPart] at point
      split at point
      case isTrue pointed => exact Or.inr (sided.pointed.mpr pointed)
      case isFalse => cases point
  have read := Numeral.floatText_plain ⟨sided.digits, sided.fraction, sided.pointed, some⟩
  rw [floatOf, sided.withoutCommas_text, read, printed, sided.numeralOf_eq]

theorem decimals_fits {groups : List (String × Chars)} (fits : decimals.Fits groups text) : groups = [] ∧
    ∃ fraction, ∃ pointed : Bool, text = (if pointed then '.' :: fraction else []) ∧ (∀ c ∈ fraction, isDigit c = true) ∧
      (fraction ≠ [] ↔ pointed = true) := by
  obtain ⟨_, _, _, _, point, digits, rfl, rfl⟩ | ⟨rfl, rfl⟩ := fits
  · obtain ⟨rfl, rfl⟩ := lit_fits point
    obtain ⟨rfl, some, all⟩ := plus_fits digits
    exact ⟨rfl, _, true, rfl, all, iff_of_true some rfl⟩
  · exact ⟨rfl, [], false, rfl, nofun, iff_of_false (fun bad => bad rfl) Bool.false_ne_true⟩

theorem sign_fits {groups : List (String × Chars)} (fits : (Regex.opt (lit '-')).Fits groups text) :
    groups = [] ∧ ∃ negative : Bool, text = if negative then ['-'] else [] := by
  obtain minus | ⟨rfl, rfl⟩ := fits
  · obtain ⟨rfl, rfl⟩ := lit_fits minus
    exact ⟨rfl, true, rfl⟩
  · exact ⟨rfl, false, rfl⟩

theorem sided_of_parts {front whole back : Chars} {groups : List (String × Chars)} {negative : Bool}
    (sign : front = if negative then ['-'] else []) (chars : ∀ c ∈ whole, digitOrComma c = true)
    (point : decimals.Fits groups back) : groups = [] ∧ ∃ n, Sided (front ++ (whole ++ back)) n ∧ n.whole = whole := by
  obtain ⟨none, fraction, pointed, rfl, digits, isPointed⟩ := decimals_fits point
  refine ⟨none, ⟨negative, whole, fraction, pointed⟩, ⟨?_, chars, digits, isPointed⟩, rfl⟩
  rw [sign, ← List.append_assoc]
  rfl

theorem side_fits {groups : List (String × Chars)} (fits : side.Fits groups text) :
    groups = [] ∧ ∃ n, Sided text n := by
  obtain ⟨_, _, _, _, sign, ⟨_, _, _, _, whole, point, rfl, rfl⟩, rfl, rfl⟩ := fits
  obtain ⟨rfl, negative, isSign⟩ := sign_fits sign
  obtain ⟨rfl, -, chars⟩ := plus_fits whole
  obtain ⟨rfl, n, sided, -⟩ := sided_of_parts isSign chars point
  exact ⟨rfl, n, sided⟩

theorem anchored_whole {r : Regex} (ends : r.anchored = true) {m : Match} (found : r.atStart (strip text) = some m) :
    strip text = m.matched ∧ r.Fits m.groups m.matched := by
  obtain ⟨whole, fits⟩ := atStart_fits found
  have blank : ∀ c ∈ m.rest, isSpace c = true := by
    obtain none | newline := PyRegex.Regex.anchored_rest ends (List.mem_of_mem_head? found)
    · exact none ▸ nofun
    · rw [newline]
      intro c isIn
      rw [List.mem_singleton.mp isIn]
      rfl
  rw [PyText.strip_end whole blank, List.append_nil] at whole
  exact ⟨whole, fits⟩

theorem number_fits {groups : List (String × Chars)} (fits : numberPattern.Fits groups text) :
    (∃ n, Sided text n) ∧ ∃ c ∈ text, isDigit c = true := by
  obtain ⟨_, _, _, _, sign, ⟨_, _, _, _, first, ⟨_, _, _, _, more, ⟨_, _, _, _, point, ⟨rfl, rfl⟩, rfl, rfl⟩, rfl, rfl⟩,
    rfl, rfl⟩, rfl, rfl⟩ := fits
  obtain ⟨rfl, negative, isSign⟩ := sign_fits sign
  obtain ⟨rfl, c, digit, rfl⟩ := first
  obtain ⟨rfl, chars⟩ := more
  have whole : ∀ d ∈ c :: _, digitOrComma d = true :=
    List.forall_mem_cons.mpr ⟨by rw [digitOrComma, digit, Bool.true_or], chars⟩
  obtain ⟨-, n, sided, -⟩ := sided_of_parts isSign whole point
  refine ⟨⟨n, by simpa using sided⟩, c, by simp, digit⟩

theorem parseNumber_reads (text : Chars) :
    parseNumber text = .error .normalizeError ∨ parseNumber text = .ok (ofRat (printed (strip text))) := by
  simp only [parseNumber]
  cases found : numberPattern.atStart (strip text) with
  | none => exact Or.inl rfl
  | some m =>
    obtain ⟨whole, fits⟩ := anchored_whole rfl found
    rw [← whole] at fits
    obtain ⟨⟨n, sided⟩, c, isIn, digit⟩ := number_fits fits
    exact Or.inr (sided.floatOf_eq isIn digit)

theorem parseNumber_some {x : PyFloat} (read : parseNumber text = .ok x) : strip text ≠ [] := by
  intro empty
  simp only [parseNumber, empty] at read
  cases read

theorem ofRat_ne_nan (q : ℚ) : ofRat q ≠ .nan := by
  rw [ofRat]
  split <;> simp

theorem makeValue_ok {kind : ValueKind} {display : Chars} {unit : Option String} {typed : Typed} {value : JsonValue}
    (shown : display ≠ []) (columns : typed.columns ≤ 1) (finite : value.isFinite = true) (number : typed.num ≠ some .nan) :
    ∃ v, makeValue kind display unit typed value = .ok v ∧ v.typed = typed ∧ v.value = value := by
  have valid : String.ofList display ≠ "" ∧ typed.columns ≤ 1 ∧ value.isFinite = true ∧ typed.num ≠ some .nan := by
    refine ⟨fun empty => shown ?_, columns, finite, number⟩
    have chars := congrArg String.toList empty
    rwa [String.toList_ofList] at chars
  rw [makeValue, dif_pos valid]
  exact ⟨_, rfl, rfl, rfl⟩

theorem makeValue_typed {kind : ValueKind} {display : Chars} {unit : Option String} {typed : Typed} {value : JsonValue}
    {made : NormalizedValue} (ok : makeValue kind display unit typed value = .ok made) : made.typed = typed := by
  rw [makeValue] at ok
  split at ok
  · cases ok
    rfl
  · cases ok

/-- A result that is a `NormalizeError` or a value of which `reads` holds. -/
def Declared (reads : NormalizedValue → Prop) (result : Except Failure NormalizedValue) : Prop :=
  result = .error .normalizeError ∨ ∃ value, result = .ok value ∧ reads value

theorem numbered {kind : ValueKind} {display body : Chars} {unit : Option String} (shown : strip body ≠ [] → display ≠ []) :
    Declared (fun value => value.typed.num = some (ofRat (printed (strip body))))
      (parseNumber body >>= fun x => makeValue kind display unit { num := some x } .null) := by
  obtain refused | read := parseNumber_reads body
  · rw [refused]
    exact Or.inl rfl
  · rw [read]
    have number : ({ num := some (ofRat (printed (strip body))) } : Typed).num ≠ some .nan :=
      fun bad => ofRat_ne_nan _ (Option.some.inj bad)
    obtain ⟨value, made, typed, -⟩ := @makeValue_ok kind display unit { num := some (ofRat (printed (strip body))) } .null
      (shown (parseNumber_some read)) le_rfl rfl number
    exact Or.inr ⟨value, made, congrArg Typed.num typed⟩

theorem strip_nil : strip [] = [] := rfl

theorem normalizeMoney_declared (raw : Chars) (unit : String) :
    Declared (fun value => value.typed.num = some (ofRat (printed (strip (moneyBody (strip raw)))))) (normalizeMoney raw unit) := by
  refine numbered fun some empty => some ?_
  rw [empty]
  rfl

theorem normalizePercent_declared (raw : Chars) :
    Declared (fun value => value.typed.num = some (ofRat (printed (strip (percentBody (strip raw)))))) (normalizePercent raw) := by
  refine numbered fun some empty => some ?_
  rw [empty]
  rfl

theorem normalizeCount_declared (raw : Chars) (unit : Option String) :
    Declared (fun value => value.typed.num = some (ofRat (printed (strip raw)))) (normalizeCount raw unit) := by
  have read := @numbered .count (strip raw) (strip raw) unit fun some empty => some (by rw [empty]; rfl)
  rwa [PyText.strip_strip] at read

theorem normalizeDecimal_declared (raw : Chars) (unit : Option String) :
    Declared (fun value => value.typed.num = some (ofRat (printed (strip raw)))) (normalizeDecimal raw unit) := by
  have read := @numbered .decimal (strip raw) (strip raw) unit fun some empty => some (by rw [empty]; rfl)
  rwa [PyText.strip_strip] at read

theorem normalizeDate_ok {raw : Chars} {year month day : Nat} {found : Calendar.Date}
    (parts : isoParts (strip raw) = some (year, month, day)) (isDay : Calendar.date year month day = some found) :
    ∃ value, normalizeDate raw = .ok value ∧ value.typed.date = some found := by
  obtain ⟨valid, same⟩ := Option.dite_none_right_eq_some.mp isDay
  have inYear : 1 ≤ month ∧ month ≤ 12 := ⟨valid.2.2.1, valid.2.2.2.1⟩
  simp only [normalizeDate, parts, if_pos inYear, isDay]
  obtain ⟨value, made, typed, -⟩ := @makeValue_ok .date ((monthNames[month - 1]?.getD "").toList ++
    ' ' :: Nat.toDigits 10 day ++ ", ".toList ++ Nat.toDigits 10 year) none { date := some found } .null
    (by simp) le_rfl rfl nofun
  exact ⟨value, made, congrArg Typed.date typed⟩

theorem normalizeDate_declared (raw : Chars) :
    Declared (fun value => ∃ day, value.typed.date = some day ∧ isoParts (strip raw) = some (day.year, day.month, day.day))
      (normalizeDate raw) := by
  cases parts : isoParts (strip raw) with
  | none =>
    rw [normalizeDate, parts]
    exact Or.inl rfl
  | some numbers =>
    obtain ⟨year, month, day⟩ := numbers
    cases isDay : Calendar.date year month day with
    | none =>
      refine Or.inl ?_
      rw [normalizeDate, parts]
      simp only [isDay, ite_self]
    | some found =>
      obtain ⟨value, made, typed⟩ := normalizeDate_ok parts isDay
      obtain ⟨_, same⟩ := Option.dite_none_right_eq_some.mp isDay
      cases same
      exact Or.inr ⟨value, made, _, typed, rfl⟩

def HasDigit (text : Chars) : Prop := ∃ c ∈ text, isDigit c = true

/-- A structured value is built if its numbers are finite; the model refuses it otherwise. -/
def Checked (payload : JsonValue) (result : Except Failure NormalizedValue) : Prop :=
  payload.isFinite = true ∧ (∃ value, result = .ok value ∧ value.value = payload) ∨
    payload.isFinite = false ∧ result = .error .validationError

theorem makeValue_checked {kind : ValueKind} {display : Chars} {unit : Option String} {payload : JsonValue} (shown : display ≠ []) :
    Checked payload (makeValue kind display unit {} payload) := by
  cases finite : payload.isFinite with
  | true =>
    obtain ⟨value, made, -, isPayload⟩ := @makeValue_ok kind display unit {} payload shown (by decide) finite nofun
    exact Or.inl ⟨finite, value, made, isPayload⟩
  | false =>
    refine Or.inr ⟨finite, ?_⟩
    rw [makeValue, dif_neg]
    intro valid
    exact absurd (finite.symm.trans valid.2.2.1) Bool.false_ne_true

theorem range_fits {groups : List (String × Chars)} (fits : rangePattern.Fits groups text) : ∃ lo hi,
    groups = [("lo", lo), ("hi", hi)] ∧ (∃ n, Sided lo n) ∧ (∃ n, Sided hi n) ∧ lo <:+: text ∧ hi <:+: text := by
  obtain ⟨_, _, lo, _, ⟨_, low, rfl⟩, ⟨_, _, blanks, _, ⟨rfl, -⟩, ⟨_, _, dash, _, ⟨rfl, -⟩, ⟨_, _, blanks', _, ⟨rfl, -⟩,
    ⟨_, high, rfl⟩, rfl, rfl⟩, rfl, rfl⟩, rfl, rfl⟩, rfl, rfl⟩ := fits
  obtain ⟨rfl, sidedLo⟩ := side_fits low
  obtain ⟨rfl, sidedHi⟩ := side_fits high
  refine ⟨lo, _, rfl, sidedLo, sidedHi, ⟨[], _, rfl⟩, ⟨lo ++ (blanks ++ (dash ++ blanks')), [], ?_⟩⟩
  simp only [List.append_assoc, List.append_nil]

theorem floatSides_eq {lo hi : Chars} {n k : Numeral} (low : Sided lo n) (high : Sided hi k) (digitLo : HasDigit lo)
    (digitHi : HasDigit hi) : floatSides lo hi = .ok (ofRat (printed lo), ofRat (printed hi)) := by
  obtain ⟨c, isIn, digit⟩ := digitLo
  obtain ⟨d, isIn', digit'⟩ := digitHi
  rw [floatSides, low.floatOf_eq isIn digit, high.floatOf_eq isIn' digit']
  rfl

def rangeValue (lo hi : Chars) : JsonValue :=
  .dict [("lo", .float (ofRat (printed lo))), ("hi", .float (ofRat (printed hi)))]

theorem normalizeRange_reads {raw : Chars} {unit : Option String} {m : Match} (found : rangePattern.search raw = some m)
    (digitLo : HasDigit (m.group "lo")) (digitHi : HasDigit (m.group "hi")) :
    m.group "lo" <:+: raw ∧ m.group "hi" <:+: raw ∧
      Checked (rangeValue (m.group "lo") (m.group "hi")) (normalizeRange raw unit) := by
  obtain ⟨before, whole, fits⟩ := search_fits found
  obtain ⟨lo, hi, groups, ⟨n, low⟩, ⟨k, high⟩, inLo, inHi⟩ := range_fits fits
  have isLo : m.group "lo" = lo := by rw [Match.group, groups]; rfl
  have isHi : m.group "hi" = hi := by rw [Match.group, groups]; rfl
  rw [isLo] at digitLo ⊢
  rw [isHi] at digitHi ⊢
  have within : m.matched <:+: raw := ⟨before, m.rest, whole.symm⟩
  refine ⟨inLo.trans within, inHi.trans within, ?_⟩
  simp only [normalizeRange, found, isLo, isHi, floatSides_eq low high digitLo digitHi]
  obtain ⟨c, isIn, digit⟩ := digitLo
  exact makeValue_checked (PyText.strip_ne_nil ((inLo.trans within).subset isIn) (PyText.isSpace_of_isDigit digit))

def printedBucket (raw : Chars × PyFloat) : DistributionBucket :=
  let range := (bucketPattern.atStart (strip raw.1)).map fun m =>
    (ofRat (printed (m.group "lo")), ofRat (printed (m.group "hi")))
  { label := raw.1, lo := range.map Prod.fst, hi := range.map Prod.snd,
    pct := if isNegative raw.2 then none else some raw.2, absent := isNegative raw.2 }

/-- The label is no range, or one whose sides have digits. -/
def Convertible (label : Chars) : Prop :=
  ∀ m, bucketPattern.atStart (strip label) = some m → HasDigit (m.group "lo") ∧ HasDigit (m.group "hi")

theorem makeBucket_eq {raw : Chars × PyFloat} (convertible : Convertible raw.1) : makeBucket raw = .ok (printedBucket raw) := by
  have range : bucketRange raw.1 = .ok ((bucketPattern.atStart (strip raw.1)).map fun m =>
      (ofRat (printed (m.group "lo")), ofRat (printed (m.group "hi")))) := by
    rw [bucketRange]
    cases found : bucketPattern.atStart (strip raw.1) with
    | none => rfl
    | some m =>
      obtain ⟨digitLo, digitHi⟩ := convertible m found
      obtain ⟨_, _, _, _, fits, ⟨rfl, rfl⟩, groups, -⟩ := (atStart_fits found).2
      obtain ⟨lo, hi, rfl, ⟨n, low⟩, ⟨k, high⟩, -⟩ := range_fits fits
      have isLo : m.group "lo" = lo := by rw [Match.group, groups]; rfl
      have isHi : m.group "hi" = hi := by rw [Match.group, groups]; rfl
      rw [isLo] at digitLo
      rw [isHi] at digitHi
      simp only [Option.map_some, isLo, isHi, floatSides_eq low high digitLo digitHi]
      rfl
  rw [makeBucket, range]
  rfl

theorem normalizeDistribution_reads {roundedSum : List PyFloat → PyFloat} {rawBuckets : List (Chars × PyFloat)} {scale unit : String}
    {allLabels : Option (List Chars)} (some : rawBuckets ≠ []) (convertible : ∀ raw ∈ rawBuckets, Convertible raw.1) :
    Checked (distributionValue roundedSum scale (rawBuckets.map printedBucket) (omittedLabels rawBuckets (allLabels.getD [])))
      (normalizeDistribution roundedSum rawBuckets scale unit allLabels) := by
  have buckets : rawBuckets.mapM makeBucket = .ok (rawBuckets.map printedBucket) := by
    rw [Fallible.mapM_ok_iff, List.forall₂_map_right_iff, List.forall₂_same]
    exact fun raw isIn => makeBucket_eq (convertible raw isIn)
  rw [normalizeDistribution, if_neg some, buckets]
  exact makeValue_checked (by simp)

theorem strip_solid_all {text : Chars} (solid : ∀ c ∈ text, isSpace c = false) : strip text = text := by
  have nothing {chars : Chars} (solid : ∀ c ∈ chars, isSpace c = false) : chars.dropWhile isSpace = chars := by
    cases chars with
    | nil => rfl
    | cons c rest => rw [List.dropWhile_cons_of_neg (by simp [solid c List.mem_cons_self])]
  rw [strip, nothing solid, nothing fun c isIn => solid c (List.mem_reverse.mp isIn), List.reverse_reverse]

/-- The two numerals of a merit sentence: the lead without its percent sign, and the amount. -/
structure MeritParts (m : Match) (lead : Chars) : Prop where
  isLead : m.group "lead" = lead ∨ m.group "lead" = lead ++ ['%']
  filled : lead ≠ []
  leadChars : ∀ c ∈ lead, leadChar c = true
  amountSolid : ∀ c ∈ m.group "amount", isSpace c = false

theorem leadChar_solid {c : Char} (isLead : leadChar c = true) : isSpace c = false ∧ c ≠ '%' := by
  simp only [leadChar, Bool.or_eq_true, beq_iff_eq] at isLead
  obtain (digit | rfl) | rfl := isLead
  · refine ⟨PyText.isSpace_of_isDigit digit, ?_⟩
    rintro rfl
    exact absurd digit (by decide)
  · exact ⟨rfl, by decide⟩
  · exact ⟨rfl, by decide⟩

theorem dualMerit_fits {m : Match} (fits : dualMeritPattern.Fits m.groups m.matched) : ∃ lead, MeritParts m lead := by
  obtain ⟨_, _, _, _, ⟨_, ⟨_, _, body, percent, chars, optional, rfl, rfl⟩, rfl⟩, ⟨_, _, _, _, words, ⟨_, _, _, _, dollar,
    ⟨_, ⟨_, _, digits, point, amount, fraction, rfl, rfl⟩, rfl⟩, rfl, -⟩, rfl, -⟩, groups, -⟩ := fits
  obtain ⟨rfl, filled, isLead⟩ := plus_fits chars
  obtain ⟨rfl, -, -⟩ := plus_fits words
  obtain ⟨rfl, -⟩ := lit_fits dollar
  obtain ⟨rfl, -, isAmount⟩ := plus_fits amount
  obtain ⟨rfl, part, pointed, rfl, areDigits, -⟩ := decimals_fits fraction
  have leadGroup : m.group "lead" = body ++ percent := by rw [Match.group, groups]; rfl
  have amountGroup : m.group "amount" = digits ++ if pointed then '.' :: part else [] := by
    obtain percent | ⟨none, -⟩ := optional
    · obtain ⟨rfl, -⟩ := lit_fits percent
      rw [Match.group, groups]
      rfl
    · rw [Match.group, groups, none]
      rfl
  refine ⟨body, ?_, filled, isLead, fun c isIn => ?_⟩
  · obtain percent | ⟨-, none⟩ := optional
    · obtain ⟨-, isPercent⟩ := lit_fits percent
      exact Or.inr (isPercent ▸ leadGroup)
    · refine Or.inl ?_
      rw [leadGroup, none, List.append_nil]
  · rw [amountGroup] at isIn
    obtain whole | behind := List.mem_append.mp isIn
    · have either := isAmount c whole
      rw [digitOrComma, Bool.or_eq_true, beq_iff_eq] at either
      obtain digit | rfl := either
      · exact PyText.isSpace_of_isDigit digit
      · rfl
    · split at behind
      · obtain rfl | digit := List.mem_cons.mp behind
        · rfl
        · exact PyText.isSpace_of_isDigit (areDigits c digit)
      · cases behind

theorem lead_declared {m : Match} {lead : Chars} (parts : MeritParts m lead) :
    Declared (fun value => value.typed.num = some (ofRat (printed lead))) (normalizeLead (m.group "lead")) := by
  have solid : strip lead = lead := strip_solid_all fun c isIn => (leadChar_solid (parts.leadChars c isIn)).1
  obtain count | percent := parts.isLead
  · have last : lead.getLast? ≠ some '%' := fun bad =>
      (leadChar_solid (parts.leadChars '%' (List.mem_of_getLast? bad))).2 rfl
    rw [normalizeLead, count, if_neg last]
    have read := normalizeCount_declared lead none
    rwa [solid] at read
  · have whole : strip (lead ++ ['%']) = lead ++ ['%'] := by
      refine strip_solid_all fun c isIn => ?_
      obtain front | last := List.mem_append.mp isIn
      · exact (leadChar_solid (parts.leadChars c front)).1
      · rw [List.mem_singleton.mp last]
        rfl
    have body : percentBody (lead ++ ['%']) = lead := by
      rw [percentBody, List.getLast?_concat, if_pos rfl, List.dropLast_concat]
    rw [normalizeLead, percent, List.getLast?_concat, if_pos rfl]
    have read := normalizePercent_declared (lead ++ ['%'])
    rwa [whole, body, solid] at read

theorem amount_declared {m : Match} {lead : Chars} (parts : MeritParts m lead) :
    Declared (fun value => value.typed.num = some (ofRat (printed (m.group "amount"))))
      (normalizeMoney ('$' :: m.group "amount") "USD") := by
  have solid : strip (m.group "amount") = m.group "amount" := strip_solid_all parts.amountSolid
  have whole : strip ('$' :: m.group "amount") = '$' :: m.group "amount" :=
    strip_solid_all (List.forall_mem_cons.mpr ⟨rfl, parts.amountSolid⟩)
  have read := normalizeMoney_declared ('$' :: m.group "amount") "USD"
  have body : moneyBody ('$' :: m.group "amount") = m.group "amount" := rfl
  rwa [whole, body, solid] at read

structure MeritReads (raw : Chars) (lead amount : NormalizedValue) : Prop where
  reads : ∃ m leadNumeral, dualMeritPattern.search raw = some m ∧
    (m.group "lead" = leadNumeral ∨ m.group "lead" = leadNumeral ++ ['%']) ∧
    lead.typed.num = some (ofRat (printed leadNumeral)) ∧ amount.typed.num = some (ofRat (printed (m.group "amount")))

theorem normalizeDualMerit_declared (raw : Chars) : normalizeDualMerit raw = .error .normalizeError ∨
    ∃ lead amount, normalizeDualMerit raw = .ok (lead, amount) ∧ MeritReads raw lead amount := by
  simp only [normalizeDualMerit]
  cases found : dualMeritPattern.search raw with
  | none => exact Or.inl rfl
  | some m =>
    obtain ⟨_, _, fits⟩ := search_fits found
    obtain ⟨numeral, parts⟩ := dualMerit_fits fits
    simp only
    obtain refused | ⟨lead, isLead, reads⟩ := lead_declared parts
    · rw [refused]
      exact Or.inl rfl
    · rw [isLead]
      obtain refused | ⟨amount, isAmount, reads'⟩ := amount_declared parts
      · rw [refused]
        exact Or.inl rfl
      · rw [isAmount]
        exact Or.inr ⟨lead, amount, rfl, m, numeral, found, parts.isLead, reads, reads'⟩

end Numerals

/-- How the normalisers fail, and what the numbers are that they return: the doubles nearest
to what is printed. -/
structure Declares (roundedSum : List PyFloat → PyFloat) : Prop where
  money : ∀ raw unit, Declared (fun value => value.typed.num = some (ofRat (printed (strip (moneyBody (strip raw))))))
    (normalizeMoney raw unit)
  percent : ∀ raw, Declared (fun value => value.typed.num = some (ofRat (printed (strip (percentBody (strip raw))))))
    (normalizePercent raw)
  count : ∀ raw unit, Declared (fun value => value.typed.num = some (ofRat (printed (strip raw)))) (normalizeCount raw unit)
  decimal : ∀ raw unit, Declared (fun value => value.typed.num = some (ofRat (printed (strip raw)))) (normalizeDecimal raw unit)
  date : ∀ raw, Declared (fun value => ∃ day, value.typed.date = some day ∧
    isoParts (strip raw) = some (day.year, day.month, day.day)) (normalizeDate raw)
  merit : ∀ raw, normalizeDualMerit raw = .error .normalizeError ∨
    ∃ lead amount, normalizeDualMerit raw = .ok (lead, amount) ∧ MeritReads raw lead amount
  noRange : ∀ raw unit, rangePattern.search raw = none → normalizeRange raw unit = .error .normalizeError
  range : ∀ raw unit m, rangePattern.search raw = some m → HasDigit (m.group "lo") → HasDigit (m.group "hi") →
    m.group "lo" <:+: raw ∧ m.group "hi" <:+: raw ∧
      Checked (rangeValue (m.group "lo") (m.group "hi")) (normalizeRange raw unit)
  noBuckets : ∀ scale unit allLabels,
    normalizeDistribution roundedSum [] scale unit allLabels = .error .normalizeError
  distribution : ∀ rawBuckets scale unit allLabels, rawBuckets ≠ [] → (∀ raw ∈ rawBuckets, Convertible raw.1) →
    Checked (distributionValue roundedSum scale (rawBuckets.map printedBucket) (omittedLabels rawBuckets (allLabels.getD [])))
      (normalizeDistribution roundedSum rawBuckets scale unit allLabels)

end Counselle.Facts.Normalize

import Counselle.Facts.Deadlines
import Counselle.Facts.Normalizers

/-! The deadlines that `map_snapshot` writes: the regular one, whose year is the anchor of
the month-days that the other pages print. -/
namespace Counselle.Facts.Cycle
open Calendar (Date)
open Normalize (Failure makeValue normalizeDate normalizeText isoParts)
open PyText (isSpace isDigit strip decimal isSpace_of_isDigit strip_solid)

abbrev Chars : Type := List Char

structure MappedFact where
  factKey : String
  value : Option NormalizedValue
  reportedPeriod : Option String
  reportedPeriodYear : Option Int

def MappedFact.day (fact : MappedFact) : Option Date := fact.value.bind fun value => value.typed.date

structure Header where
  admissionDeadline : Option Chars
  admissionDeadlineDate : Option Chars

section Texts
variable (lower : Chars → Chars)

/-- `absence_display`, as far as a caller asks for it -/
def isAbsence (raw : Chars) : Bool :=
  ["".toList, "-".toList, "—".toList, "not reported".toList, "not available".toList].contains (lower (strip raw))

def monthByName : List (Chars × Nat) :=
  [("january".toList, 1), ("february".toList, 2), ("march".toList, 3), ("april".toList, 4), ("may".toList, 5),
    ("june".toList, 6), ("july".toList, 7), ("august".toList, 8), ("september".toList, 9), ("october".toList, 10),
    ("november".toList, 11), ("december".toList, 12)]

/-- `_MONTH_DAY_RE` on the stripped text, and the month's number. -/
def parseBareMonthDay (raw : Chars) : Option (Nat × Nat) :=
  let cleaned := strip raw
  let month := cleaned.takeWhile Char.isAlpha
  let rest := cleaned.dropWhile Char.isAlpha
  let day := rest.dropWhile isSpace
  if rest.takeWhile isSpace ≠ [] ∧ (day.length = 1 ∨ day.length = 2) ∧ day.all isDigit = true then
    (monthByName.lookup (month.map Char.toLower)).map fun number => (number, decimal day)
  else none

/-- The `$` of a pattern also stands before a newline at the end. -/
def beforeNewline (text : Chars) : Chars := if text.getLast? = some '\n' then text.dropLast else text

def isoYear (raw : Chars) : Option Nat := (isoParts (beforeNewline raw)).map (·.1)

def resolveDeadlineDate (month day : Nat) (cycleYear : Int) : Except Failure Date :=
  match Calendar.date (if 8 ≤ month then cycleYear - 1 else cycleYear).toNat month day with
  | some found => .ok found
  | none => .error .valueError

def anchoredMonthDay (month day : Nat) (display : Chars) (cycleYear : Int) (baseKey : String) : Except Failure MappedFact := do
  let resolved ← resolveDeadlineDate month day cycleYear
  let value ← makeValue .date (strip display) none { date := some resolved } .null
  return ⟨baseKey, some value, some (deadlineReportedPeriod cycleYear), some (cycleYear - 1)⟩

def splitTwoDates (raw : Chars) (baseKey secondKey : String) (cycleYear : Int) : Except Failure (Option (List MappedFact)) :=
  if raw.count ',' ≠ 1 then .ok none
  else
    let firstRaw := strip (raw.takeWhile (· ≠ ','))
    let secondRaw := strip ((raw.dropWhile (· ≠ ',')).drop 1)
    match parseBareMonthDay firstRaw, parseBareMonthDay secondRaw with
    | some first, some second => do
      let first ← anchoredMonthDay first.1 first.2 firstRaw cycleYear baseKey
      let second ← anchoredMonthDay second.1 second.2 secondRaw cycleYear secondKey
      return some [first, second]
    | _, _ => .ok none

def splitPair (raw : Chars) (baseKey : String) (secondKey : Option String) (cycleYear : Option Int) :
    Except Failure (Option (List MappedFact)) :=
  match secondKey, cycleYear with
  | some secondKey, some cycleYear => splitTwoDates raw baseKey secondKey cycleYear
  | _, _ => .ok none

/-- The last rungs: a single month-day, or the text as it is. -/
def bareMonthDay (raw : Chars) (baseKey : String) (cycleYear : Option Int) : Except Failure (List MappedFact) :=
  match parseBareMonthDay raw, cycleYear with
  | some (month, day), some cycleYear => do return [← anchoredMonthDay month day raw cycleYear baseKey]
  | _, _ => do return [⟨baseKey, some (← normalizeText raw), none, none⟩]

def textFallbackDate (raw : Chars) (baseKey : String) (secondKey : Option String) (cycleYear : Option Int) :
    Except Failure (List MappedFact) :=
  if isAbsence lower raw then .ok [⟨baseKey, none, none, none⟩]
  else
    match normalizeDate raw with
    | .ok value => .ok [⟨baseKey, some value, none, none⟩]
    | .error .valueError => .error .valueError
    | .error .validationError => .error .validationError
    | .error .normalizeError => do
      let pair ← splitPair raw baseKey secondKey cycleYear
      match pair with
      | some pair => return pair
      | none => bareMonthDay raw baseKey cycleYear

end Texts

def regularKey : String := "deadlines.regular"

def cycleYearOf (admission : Option Header) (fallback : Option Int) : Option Int :=
  match (admission.bind Header.admissionDeadlineDate).bind isoYear with
  | some year => some year
  | none => fallback

/-- `_admission_deadline_facts`; the row that says that a school is rolling has no date. -/
def admissionDeadlineFacts (lower : Chars → Chars) (header : Header) : Except Failure (List MappedFact) :=
  match header.admissionDeadlineDate.filter (· ≠ []) with
  | some raw =>
    match isoYear raw with
    | none => .ok []
    | some year => do
      let value ← normalizeDate raw
      return [⟨regularKey, some value, some (deadlineReportedPeriod year), some (year - 1)⟩]
  | none =>
    if (header.admissionDeadline.filter (· ≠ [])).map (fun text => lower (strip text)) = some "rolling".toList then do
      let rolling ← makeValue .enum "Rolling".toList none { text := some "rolling" } .null
      return [⟨regularKey, some rolling, none, none⟩]
    else .ok []

/-- The keys of a rule that reads a deadline; the regular one is read off the header. -/
structure DateRule where
  factKey : String
  secondKey : Option String
  notRegular : factKey ≠ regularKey ∧ secondKey ≠ some regularKey

/-- What the walk of the pages yields: a text that is read as a deadline, or something that
another handler maps. -/
inductive Leaf (Row : Type) where
  | deadline (rule : DateRule) (raw : Chars)
  | other (rows : Except Failure (List Row))

structure Pages (Row : Type) where
  admission : Option Header
  leaves : List (Leaf Row)

section Snapshot
variable {Row : Type} (lower : Chars → Chars)

def mapLeaf (cycleYear : Option Int) : Leaf Row → Except Failure (List (MappedFact ⊕ Row))
  | .deadline rule raw => do
    let facts ← textFallbackDate lower raw rule.factKey rule.secondKey cycleYear
    return facts.map .inl
  | .other rows => do return (← rows).map .inr

def mapSnapshot (pages : Pages Row) (fallback : Option Int) : Except Failure (List (MappedFact ⊕ Row)) := do
  let mapped ← pages.leaves.mapM (mapLeaf lower (cycleYearOf pages.admission fallback))
  let regular ← match pages.admission with
    | some header => admissionDeadlineFacts lower header
    | none => .ok []
  return mapped.flatten ++ regular.map .inl

def deadlinesOf (rows : List (MappedFact ⊕ Row)) : List MappedFact := rows.filterMap Sum.getLeft?

/-- `get_stored_deadline_year` after the rows have been written. -/
def storedDeadlineYear (rows : List (MappedFact ⊕ Row)) : Option Nat :=
  ((deadlinesOf rows).find? fun fact => fact.factKey = regularKey).bind fun fact => fact.day.map Date.year

end Snapshot

/-- The admissions cycle that begins in August of `start`. -/
def InCycle (start : Int) (day : Date) : Prop :=
  (day.year : Int) = start ∧ 8 ≤ day.month ∨ (day.year : Int) = start + 1 ∧ day.month ≤ 7

def cycleLabel (start : Int) : String := toString start ++ "-" ++ twoDigits ((start + 1) % 100)

/-- The date of a fact lies in a cycle, and what is stored with it says so. -/
structure MappedFact.Names (fact : MappedFact) (start : Int) : Prop where
  day : ∃ day, fact.day = some day ∧ InCycle start day
  period : fact.reportedPeriod = some (cycleLabel start)
  year : fact.reportedPeriodYear = some start

/-- The regular deadline and all anchored ones, which are those with a period, name one
cycle; what is stored anchors the same texts in the same way when the admission tab is
not read. -/
structure OneCycle {Row : Type} (lower : Chars → Chars) (pages : Pages Row) (fallback : Option Int)
    (rows : List (MappedFact ⊕ Row)) : Prop where
  together : ∃ start, ∀ fact ∈ deadlinesOf rows, fact.reportedPeriod.isSome = true → fact.Names start
  recovered : ∃ year, storedDeadlineYear rows = some year ∧ ∀ raw baseKey secondKey,
    textFallbackDate lower raw baseKey secondKey (cycleYearOf none (some year)) =
      textFallbackDate lower raw baseKey secondKey (cycleYearOf pages.admission fallback)

/-- The regular deadline of a header whose date is an ISO date. -/
def regularDate (header : Header) : Option Date :=
  header.admissionDeadlineDate.bind fun raw => (isoParts raw).bind fun (year, month, day) => Calendar.date year month day

section Texts

theorem isoParts_reads {raw : Chars} {year month day : Nat} (iso : isoParts raw = some (year, month, day)) :
    beforeNewline raw = raw ∧ strip raw = raw ∧ raw ≠ [] := by
  unfold isoParts at iso
  split at iso
  case h_1 y₁ y₂ y₃ y₄ dash m₁ m₂ dash' d₁ d₂ =>
    obtain ⟨⟨-, -, digits⟩, -⟩ := Option.ite_none_right_eq_some.mp iso
    have start : isDigit y₁ = true := List.all_eq_true.mp digits y₁ (by simp)
    have stop : isDigit d₂ = true := List.all_eq_true.mp digits d₂ (by simp)
    refine ⟨?_, ?_, List.cons_ne_nil _ _⟩
    · have other : d₂ ≠ '\n' := by
        rintro rfl
        exact absurd stop (by decide)
      rw [beforeNewline, if_neg]
      simpa using other
    · exact @strip_solid y₁ d₂ [y₂, y₃, y₄, dash, m₁, m₂, dash', d₁] (isSpace_of_isDigit start) (isSpace_of_isDigit stop)
  case h_2 => cases iso

theorem date_fields {year month day : Nat} {found : Date} (isDay : Calendar.date year month day = some found) :
    found.year = year ∧ found.month = month := by
  obtain ⟨_, same⟩ := Option.dite_none_right_eq_some.mp isDay
  cases same
  exact ⟨rfl, rfl⟩

theorem resolveDeadlineDate_inCycle {month day : Nat} {cycleYear : Int} {found : Date}
    (resolved : resolveDeadlineDate month day cycleYear = .ok found) : InCycle (cycleYear - 1) found := by
  unfold resolveDeadlineDate at resolved
  split at resolved
  case h_1 other isDay =>
    cases resolved
    obtain ⟨year, months⟩ := date_fields isDay
    have valid := found.valid.1
    split at year
    case isTrue late => exact Or.inl ⟨by omega, months ▸ late⟩
    case isFalse early => exact Or.inr ⟨by omega, by omega⟩
  case h_2 => cases resolved

end Texts

section Ladder
variable {lower : Chars → Chars} {raw : Chars} {baseKey second : String} {secondKey : Option String} {facts : List MappedFact}

theorem anchoredMonthDay_names {month day : Nat} {display : Chars} {cycleYear : Int} {fact : MappedFact}
    (anchored : anchoredMonthDay month day display cycleYear baseKey = .ok fact) :
    fact.Names (cycleYear - 1) ∧ fact.factKey = baseKey := by
  obtain ⟨found, resolved, rest⟩ := Fallible.bind_ok_iff.mp anchored
  obtain ⟨value, made, isFact⟩ := Fallible.bind_ok_iff.mp rest
  cases isFact
  have isDay : value.typed.date = some found := congrArg Typed.date (Normalize.makeValue_typed made)
  refine ⟨⟨⟨found, isDay, resolveDeadlineDate_inCycle resolved⟩, ?_, rfl⟩, rfl⟩
  rw [cycleLabel, Int.sub_add_cancel]
  rfl

theorem splitTwoDates_names {cycleYear : Int} (split : splitTwoDates raw baseKey second cycleYear = .ok (some facts)) :
    ∀ fact ∈ facts, fact.Names (cycleYear - 1) ∧ (fact.factKey = baseKey ∨ fact.factKey = second) := by
  rw [splitTwoDates] at split
  split at split
  case isTrue => cases split
  case isFalse =>
    simp only at split
    split at split
    case h_1 =>
      obtain ⟨first, isFirst, split⟩ := Fallible.bind_ok_iff.mp split
      obtain ⟨last, isLast, pair⟩ := Fallible.bind_ok_iff.mp split
      cases pair
      have here := anchoredMonthDay_names isFirst
      have there := anchoredMonthDay_names isLast
      intro fact isIn
      obtain rfl | isIn := List.mem_cons.mp isIn
      · exact ⟨here.1, Or.inl here.2⟩
      · rw [List.mem_singleton.mp isIn]
        exact ⟨there.1, Or.inr there.2⟩
    case h_2 => cases split

theorem textFallbackDate_names {cycleYear : Option Int} (read : textFallbackDate lower raw baseKey secondKey cycleYear = .ok facts) :
    ∀ fact ∈ facts, (fact.reportedPeriod.isSome = true → ∃ year, cycleYear = some year ∧ fact.Names (year - 1)) ∧
      (fact.factKey = baseKey ∨ some fact.factKey = secondKey) := by
  have plain {value : Option NormalizedValue} (single : facts = [⟨baseKey, value, none, none⟩]) :
      ∀ fact ∈ facts, (fact.reportedPeriod.isSome = true → ∃ year, cycleYear = some year ∧ fact.Names (year - 1)) ∧
        (fact.factKey = baseKey ∨ some fact.factKey = secondKey) := by
    intro fact isIn
    rw [single] at isIn
    obtain rfl := List.mem_singleton.mp isIn
    exact ⟨nofun, Or.inl rfl⟩
  rw [textFallbackDate] at read
  split at read
  case isTrue =>
    cases read
    exact plain rfl
  case isFalse =>
    split at read
    case h_1 =>
      cases read
      exact plain rfl
    case h_2 => cases read
    case h_3 => cases read
    case h_4 =>
      obtain ⟨pair, isPair, read⟩ := Fallible.bind_ok_iff.mp read
      cases pair with
      | some pair =>
        cases read
        unfold splitPair at isPair
        split at isPair
        case h_1 second year =>
          intro fact isIn
          obtain ⟨names, key⟩ := splitTwoDates_names isPair fact isIn
          exact ⟨fun _ => ⟨year, rfl, names⟩, key.imp_right (congrArg some)⟩
        case h_2 => cases isPair
      | none =>
        change bareMonthDay raw baseKey cycleYear = .ok facts at read
        unfold bareMonthDay at read
        split at read
        case h_1 month day year _ _ =>
          obtain ⟨fact, anchored, single⟩ := Fallible.bind_ok_iff.mp read
          cases single
          obtain ⟨names, key⟩ := anchoredMonthDay_names anchored
          intro other isIn
          obtain rfl := List.mem_singleton.mp isIn
          exact ⟨fun _ => ⟨year, rfl, names⟩, Or.inl key⟩
        case h_2 =>
          obtain ⟨value, -, single⟩ := Fallible.bind_ok_iff.mp read
          cases single
          exact plain rfl

end Ladder

section Snapshot
variable {Row : Type} {lower : Chars → Chars} {pages : Pages Row} {header : Header} {fallback : Option Int}
  {rows : List (MappedFact ⊕ Row)} {day : Date}

theorem cycleYearOf_regular (regular : regularDate header = some day) : cycleYearOf (some header) fallback = some (day.year : Int) := by
  obtain ⟨raw, isRaw, iso⟩ := Option.bind_eq_some_iff.mp regular
  obtain ⟨⟨year, month, dayOf⟩, parts, isDay⟩ := Option.bind_eq_some_iff.mp iso
  have isYear : isoYear raw = some year := by
    rw [isoYear, (isoParts_reads parts).1, parts]
    rfl
  rw [cycleYearOf, Option.bind_some, isRaw, Option.bind_some, isYear, (date_fields isDay).1]

theorem admissionDeadlineFacts_regular (lower : Chars → Chars) (regular : regularDate header = some day) :
    ∃ value : NormalizedValue, value.typed.date = some day ∧ admissionDeadlineFacts lower header =
      .ok [⟨regularKey, some value, some (deadlineReportedPeriod day.year), some ((day.year : Int) - 1)⟩] := by
  obtain ⟨raw, isRaw, iso⟩ := Option.bind_eq_some_iff.mp regular
  obtain ⟨⟨year, month, dayOf⟩, parts, isDay⟩ := Option.bind_eq_some_iff.mp iso
  obtain ⟨bare, solid, filled⟩ := isoParts_reads parts
  obtain ⟨rfl, -⟩ := date_fields isDay
  have isYear : isoYear raw = some day.year := by
    rw [isoYear, bare, parts]
    rfl
  obtain ⟨value, isValue, isDate⟩ := @Normalize.normalizeDate_ok raw _ _ _ _ (solid.symm ▸ parts) isDay
  have some : header.admissionDeadlineDate.filter (· ≠ []) = some raw := by
    rw [isRaw, Option.filter_some, if_pos (decide_eq_true filled)]
  refine ⟨value, isDate, ?_⟩
  simp only [admissionDeadlineFacts, some, isYear, isValue]
  rfl

theorem mapSnapshot_deadlines (admission : pages.admission = some header) (regular : regularDate header = some day)
    (mapped : mapSnapshot lower pages fallback = .ok rows) : ∃ (value : NormalizedValue) (leaves : List MappedFact),
      value.typed.date = some day ∧
      deadlinesOf rows = leaves ++ [⟨regularKey, some value, some (deadlineReportedPeriod day.year),
        some ((day.year : Int) - 1)⟩] ∧
      ∀ fact ∈ leaves, fact.factKey ≠ regularKey ∧ (fact.reportedPeriod.isSome = true → fact.Names ((day.year : Int) - 1)) := by
  obtain ⟨lists, perLeaf, mapped⟩ := Fallible.bind_ok_iff.mp mapped
  rw [admission] at mapped perLeaf
  obtain ⟨value, isDate, isRegular⟩ := admissionDeadlineFacts_regular lower regular
  simp only [isRegular] at mapped
  obtain ⟨_, same, whole⟩ := Fallible.bind_ok_iff.mp mapped
  cases same
  cases whole
  rw [cycleYearOf_regular regular] at perLeaf
  refine ⟨value, deadlinesOf lists.flatten, isDate, List.filterMap_append, fun fact isIn => ?_⟩
  obtain ⟨row, isRow, left⟩ := List.mem_filterMap.mp isIn
  obtain ⟨list, isList, inList⟩ := List.mem_flatten.mp isRow
  obtain ⟨leaf, -, isLeaf⟩ := Fallible.mapM_of_mem perLeaf list isList
  cases leaf with
  | deadline rule raw =>
    obtain ⟨facts, read, made⟩ := Fallible.bind_ok_iff.mp isLeaf
    cases made
    obtain ⟨found, isFound, rfl⟩ := List.mem_map.mp inList
    cases left
    obtain ⟨names, key⟩ := textFallbackDate_names read fact isFound
    constructor
    · rintro isRegular
      exact key.elim (fun base => rule.notRegular.1 (base.symm.trans isRegular))
        fun second => rule.notRegular.2 (second.symm.trans (congrArg some isRegular))
    · intro period
      obtain ⟨year, isYear, names⟩ := names period
      cases isYear
      exact names
  | other other =>
    obtain ⟨others, -, made⟩ := Fallible.bind_ok_iff.mp isLeaf
    cases made
    obtain ⟨found, -, rfl⟩ := List.mem_map.mp inList
    cases left

theorem OneCycle.early (admission : pages.admission = some header) (regular : regularDate header = some day)
    (mapped : mapSnapshot lower pages fallback = .ok rows) (one : OneCycle lower pages fallback rows) : day.month ≤ 7 := by
  obtain ⟨value, leaves, isDate, whole, -⟩ := mapSnapshot_deadlines admission regular mapped
  obtain ⟨start, names⟩ := one.together
  have isIn : (⟨regularKey, some value, some (deadlineReportedPeriod day.year), some ((day.year : Int) - 1)⟩ :
      MappedFact) ∈ deadlinesOf rows := by
    rw [whole]
    exact List.mem_append_right _ List.mem_cons_self
  obtain ⟨⟨found, isFound, inCycle⟩, -, year⟩ := names _ isIn rfl
  obtain rfl := Option.some.inj (isDate.symm.trans isFound)
  cases year
  obtain ⟨bad, -⟩ | ⟨-, early⟩ := inCycle
  · omega
  · exact early

theorem oneCycle_of_early (admission : pages.admission = some header) (regular : regularDate header = some day)
    (mapped : mapSnapshot lower pages fallback = .ok rows) (early : day.month ≤ 7) : OneCycle lower pages fallback rows := by
  obtain ⟨value, leaves, isDate, whole, apart⟩ := mapSnapshot_deadlines admission regular mapped
  refine ⟨⟨(day.year : Int) - 1, fun fact isIn period => ?_⟩, day.year, ?_, fun raw baseKey secondKey => ?_⟩
  · rw [whole] at isIn
    obtain inLeaves | isRegular := List.mem_append.mp isIn
    · exact (apart fact inLeaves).2 period
    · obtain rfl := List.mem_singleton.mp isRegular
      refine ⟨⟨day, isDate, Or.inr ⟨by omega, early⟩⟩, ?_, rfl⟩
      rw [cycleLabel, Int.sub_add_cancel]
      rfl
  · have others : leaves.find? (fun fact => fact.factKey = regularKey) = none := by
      refine List.find?_eq_none.mpr fun fact isIn => ?_
      rw [decide_eq_true_eq]
      exact (apart fact isIn).1
    have year : (⟨regularKey, some value, some (deadlineReportedPeriod day.year), some ((day.year : Int) - 1)⟩ :
        MappedFact).day.map Date.year = some day.year := by
      rw [MappedFact.day, Option.bind_some, isDate, Option.map_some]
    rw [storedDeadlineYear, whole, List.find?_append, others]
    exact year
  · rw [admission, cycleYearOf_regular regular]
    rfl

/-- All deadlines of a school lie in one cycle if and only if the regular one is due
between January and July. -/
theorem oneCycle_iff (admission : pages.admission = some header) (regular : regularDate header = some day)
    (mapped : mapSnapshot lower pages fallback = .ok rows) :
    OneCycle lower pages fallback rows ↔ day.month ≤ 7 :=
  ⟨OneCycle.early admission regular mapped, oneCycle_of_early admission regular mapped⟩

end Snapshot

def earlyAction : DateRule := ⟨"deadlines.early_action", some "deadlines.early_action_2", by decide⟩

/-- A school with the given regular deadline and a pair of early ones. -/
def pairPages (date : String) : Pages Unit :=
  ⟨some ⟨none, some date.toList⟩, [.deadline earlyAction "November 1, January 15".toList]⟩

theorem pair_oneCycle : ∃ rows, mapSnapshot (List.map Char.toLower) (pairPages "2027-01-02") none = .ok rows ∧
    (OneCycle (List.map Char.toLower) (pairPages "2027-01-02") none rows ↔ 1 ≤ 7) := by
  have ran : (mapSnapshot (List.map Char.toLower) (pairPages "2027-01-02") none).isOk = true := by decide +kernel
  cases mapped : mapSnapshot (List.map Char.toLower) (pairPages "2027-01-02") none with
  | error e =>
    rw [mapped] at ran
    cases ran
  | ok rows => exact ⟨rows, rfl, @oneCycle_iff _ _ _ _ _ _ ⟨2027, 1, 2, by decide⟩ rfl (by decide +kernel) mapped⟩

theorem november_notOneCycle : ∃ rows, mapSnapshot (List.map Char.toLower) (pairPages "2026-11-15") none = .ok rows ∧
    ¬ OneCycle (List.map Char.toLower) (pairPages "2026-11-15") none rows := by
  have ran : (mapSnapshot (List.map Char.toLower) (pairPages "2026-11-15") none).isOk = true := by decide +kernel
  cases mapped : mapSnapshot (List.map Char.toLower) (pairPages "2026-11-15") none with
  | error e =>
    rw [mapped] at ran
    cases ran
  | ok rows =>
    have late : regularDate ⟨none, some "2026-11-15".toList⟩ = some ⟨2026, 11, 15, by decide⟩ := by decide +kernel
    exact ⟨rows, rfl, fun one => absurd (one.early rfl late mapped) (by decide)⟩

end Counselle.Facts.Cycle

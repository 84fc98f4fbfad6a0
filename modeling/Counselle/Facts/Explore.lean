import Counselle.Binary64
import Counselle.Facts.Store
import Counselle.Fallible
import Counselle.PyText

/-! The explore row of a school, as it is projected from the basic profile and the open
facts, and what the columns of `school_explore_rows` take. -/
namespace Counselle.Facts
open PyJson (JsonValue PyFloat)
open PyText (PyError)
open Calendar (Date)
open Versions (Table)

inductive ExploreColumn where
  | region | locale | control | institutionLevel | genderModel | religiousAffiliation
  | hbcu | hsi | tribal | landGrant
  | undergraduates | graduateStudents | internationalPct
  | admitRate | admitRateWomen | admitRateMen | applicantsTotal | admittedTotal | enrolledTotal
  | yieldRate | entranceDifficulty
  | satMathP25 | satMathP75 | satEbrwP25 | satEbrwP75
  | actCompositeP25 | actCompositeP75 | actCompositeAvg | gpaAvg
  | needMetPct | needFullyMetPct | meritAidPct
  | costAttendanceInState | costAttendanceOutOfState | tuitionInState | tuitionOutOfState
  | roomAndBoard | booksAndSupplies | otherExpenses
  | avgIndebtedness | graduatesWithLoansPct | retentionPct | gradRate4y | gradRate5y | gradRate6y
  | undergraduateFullTime | facultyFullTime | facultyPartTime | facultyTerminalPct
  | housingPct | greekPctMen | greekPctWomen | calendar
  | applicationFee | applicationFeeWaiver | acceptsCommonApp | offersEarlyDecision
  | offersEarlyAction | isRolling | deadlineRegular | waitlistUsed
  | majors | majorsCount | specialPrograms
  deriving DecidableEq

def exploreColumns : List ExploreColumn :=
  [.region, .locale, .control, .institutionLevel, .genderModel, .religiousAffiliation, .hbcu,
    .hsi, .tribal, .landGrant, .undergraduates, .graduateStudents, .internationalPct, .admitRate,
    .admitRateWomen, .admitRateMen, .applicantsTotal, .admittedTotal, .enrolledTotal, .yieldRate,
    .entranceDifficulty, .satMathP25, .satMathP75, .satEbrwP25, .satEbrwP75, .actCompositeP25,
    .actCompositeP75, .actCompositeAvg, .gpaAvg, .needMetPct, .needFullyMetPct, .meritAidPct,
    .costAttendanceInState, .costAttendanceOutOfState, .tuitionInState, .tuitionOutOfState,
    .roomAndBoard, .booksAndSupplies, .otherExpenses, .avgIndebtedness, .graduatesWithLoansPct,
    .retentionPct, .gradRate4y, .gradRate5y, .gradRate6y, .undergraduateFullTime,
    .facultyFullTime, .facultyPartTime, .facultyTerminalPct, .housingPct, .greekPctMen,
    .greekPctWomen, .calendar, .applicationFee, .applicationFeeWaiver, .acceptsCommonApp,
    .offersEarlyDecision, .offersEarlyAction, .isRolling, .deadlineRegular, .waitlistUsed,
    .majors, .majorsCount, .specialPrograms]

theorem mem_exploreColumns (column : ExploreColumn) : column ∈ exploreColumns := by
  cases column <;> decide

inductive PyValue where
  | json (value : JsonValue)
  | date (value : Date)
  | texts (items : List String)

inductive SqlType where
  | integer | numeric | text | boolean | date | textArray
  deriving DecidableEq

namespace ExploreColumn

def sqlType : ExploreColumn → SqlType
  | region | locale | control | institutionLevel | genderModel | religiousAffiliation
  | entranceDifficulty | calendar => .text
  | hbcu | hsi | tribal | landGrant | applicationFeeWaiver | acceptsCommonApp
  | offersEarlyDecision | offersEarlyAction | isRolling | waitlistUsed => .boolean
  | internationalPct | admitRate | admitRateWomen | admitRateMen | yieldRate | actCompositeAvg
  | gpaAvg | needMetPct | needFullyMetPct | meritAidPct | graduatesWithLoansPct | retentionPct
  | gradRate4y | gradRate5y | gradRate6y | facultyTerminalPct | housingPct | greekPctMen
  | greekPctWomen => .numeric
  | deadlineRegular => .date
  | majors | specialPrograms => .textArray
  | _ => .integer

/-- `NOT NULL` -/
def required : ExploreColumn → Bool
  | region | control | hbcu | tribal | landGrant => true
  | _ => false

end ExploreColumn

def fitsInteger (n : Int) : Bool := -2 ^ 31 ≤ n && n < 2 ^ 31

/-- The arguments that the driver encodes for a column; it raises on any other. -/
def SqlType.encodes : SqlType → PyValue → Bool
  | _, .json .null => true
  | .integer, .json (.int n) => fitsInteger n
  | .integer, .json (.bool _) => true
  | .numeric, .json (.int _) | .numeric, .json (.float _) => true
  | .text, .json (.str _) => true
  | .boolean, .json (.bool _) => true
  | .date, .date _ => true
  | .textArray, .texts _ => true
  | _, _ => false

abbrev ExploreValues := ExploreColumn → PyValue

def ExploreValues.Encodes (values : ExploreValues) : Prop :=
  ∀ column : ExploreColumn, column.sqlType.encodes (values column) = true

instance (values : ExploreValues) : Decidable values.Encodes :=
  decidable_of_iff (∀ column ∈ exploreColumns, column.sqlType.encodes (values column) = true)
    ⟨fun all column => all column (mem_exploreColumns column), fun all column _ => all column⟩

def ExploreValues.set (values : ExploreValues) (column : ExploreColumn) (value : PyValue) :
    ExploreValues := Function.update values column value

/-- One row of `school_explore_rows`. -/
structure ExploreRow where
  values : ExploreValues
  encodes : values.Encodes
  factsUpdatedAt : Nat
  mapperVersion : String
  retiredAt : Option Nat

/-- `schools.basic_profile`: the table checks that it is an object. -/
abbrev BasicProfile := List (String × JsonValue)

inductive ProjectError where
  | unmappedControl (label : JsonValue)
  | raised (error : PyError)

/-- `profile.get(key) or {}`, on which `.get` is called: it raises on anything but an
object. -/
def subObject (profile : BasicProfile) (key : String) : Except ProjectError BasicProfile :=
  match JsonValue.get profile key with
  | some (.dict members) => .ok members
  | some value => if value.truthy then .error (.raised .attributeError) else .ok []
  | none => .ok []

def getOrNull (members : BasicProfile) (key : String) : JsonValue :=
  (JsonValue.get members key).getD .null

def controlFromClassification : JsonValue → Except ProjectError String
  | .str "Public" => .ok "public"
  | .str "Private for-profit" => .ok "private_for_profit"
  | .str "Private not-for-profit" => .ok "private"
  | .null => .error (.unmappedControl (.str "<missing>"))
  | control => .error (.unmappedControl control)

def genderModel (menOnly womenOnly : JsonValue) : JsonValue :=
  match menOnly, womenOnly with
  | .null, .null => .null
  | _, _ =>
    if menOnly.truthy then .str "men" else if womenOnly.truthy then .str "women" else .str "coed"

def ipedsFilterColumns (profile : BasicProfile) : Except ProjectError (List (ExploreColumn × JsonValue)) := do
  let identity ← subObject profile "identity_and_mission"
  let location ← subObject profile "location"
  let classification ← subObject profile "classification"
  let control ← controlFromClassification (getOrNull classification "control")
  let region := getOrNull location "region"
  return [
    (.region, if region.truthy then region else .str "Unknown"),
    (.locale, getOrNull location "locale"),
    (.control, .str control),
    (.institutionLevel, getOrNull classification "institution_level"),
    (.genderModel, genderModel (getOrNull identity "men_only") (getOrNull identity "women_only")),
    (.religiousAffiliation, getOrNull identity "religious_affiliation"),
    (.hbcu, .bool (getOrNull identity "hbcu").truthy),
    (.hsi, getOrNull identity "hsi"),
    (.tribal, .bool (getOrNull identity "tribal").truthy),
    (.landGrant, .bool (getOrNull identity "land_grant").truthy)]

inductive Extractor where
  | asInt | asFloat | asBool | asDate | asDisplay | asList
  deriving DecidableEq

/-- `int` of a number read back from the table. -/
def intOfNum : PyFloat → Except PyError Int
  | .finite q => .ok (if q < 0 then ⌈q⌉ else ⌊q⌋)
  | .infinite _ => .error .overflowError
  | .nan => .error .valueError

/-- `float` of it. -/
def floatOfNum : PyFloat → PyFloat
  | .finite q => Binary64.ofRat q
  | other => other

/-- The `items` of the column, or those of its `items` member. -/
def storedItems (value : JsonValue) : Option (List JsonValue) :=
  match storedInner value with
  | .list items => some items
  | .dict members =>
    match getOrNull members "items" with
    | .list items => some items
    | _ => none
  | _ => none

/-- The column's value; `str` is Python's, of an item. -/
def Extractor.run (str : JsonValue → Except PyError String) (extractor : Extractor)
    (record : SchoolFact) : Except PyError PyValue :=
  match extractor with
  | .asInt =>
    match record.typed.num with
    | some num => (intOfNum num).map fun n => .json (.int n)
    | none => .ok (.json .null)
  | .asFloat => .ok (.json ((record.typed.num.map fun num => .float (floatOfNum num)).getD .null))
  | .asBool => .ok (.json ((record.typed.bool.map .bool).getD .null))
  | .asDate => .ok ((record.typed.date.map .date).getD (.json .null))
  | .asDisplay =>
    match record.typed.text, storedInner record.value with
    | some text, _ => .ok (.json (.str text))
    | none, .str display => .ok (.json (.str display))
    | none, _ => .ok (.json .null)
  | .asList =>
    match storedItems record.value with
    | some items => (items.mapM str).map .texts
    | none => .ok (.json .null)

def factKeyMap : List (String × ExploreColumn × Extractor) := [
  ("students.undergraduate_total", .undergraduates, .asInt),
  ("students.graduate_total", .graduateStudents, .asInt),
  ("students.undergraduate_full_time", .undergraduateFullTime, .asInt),
  ("students.international_pct", .internationalPct, .asFloat),
  ("class_profile.average_gpa", .gpaAvg, .asFloat),
  ("class_profile.sat_math_p25", .satMathP25, .asInt),
  ("class_profile.sat_math_p75", .satMathP75, .asInt),
  ("class_profile.sat_ebrw_p25", .satEbrwP25, .asInt),
  ("class_profile.sat_ebrw_p75", .satEbrwP75, .asInt),
  ("class_profile.act_composite_p25", .actCompositeP25, .asInt),
  ("class_profile.act_composite_p75", .actCompositeP75, .asInt),
  ("class_profile.act_composite_avg", .actCompositeAvg, .asFloat),
  ("admissions.admit_rate", .admitRate, .asFloat),
  ("admissions.admit_rate_women", .admitRateWomen, .asFloat),
  ("admissions.admit_rate_men", .admitRateMen, .asFloat),
  ("admissions.applicants_total", .applicantsTotal, .asInt),
  ("admissions.admitted_total", .admittedTotal, .asInt),
  ("admissions.enrolled_total", .enrolledTotal, .asInt),
  ("admissions.yield_rate", .yieldRate, .asFloat),
  ("admissions.entrance_difficulty", .entranceDifficulty, .asDisplay),
  ("aid.avg_percent_need_met_all_undergraduates", .needMetPct, .asFloat),
  ("admissions.regular_deadline_is_rolling", .isRolling, .asBool),
  ("deadlines.regular", .deadlineRegular, .asDate),
  ("applying.application_fee", .applicationFee, .asInt),
  ("applying.application_fee_waiver", .applicationFeeWaiver, .asBool),
  ("applying.accepts_common_app", .acceptsCommonApp, .asBool),
  ("admissions.early_decision_offered", .offersEarlyDecision, .asBool),
  ("admissions.early_action_offered", .offersEarlyAction, .asBool),
  ("admissions.waitlist_used", .waitlistUsed, .asBool),
  ("costs.room_and_board", .roomAndBoard, .asInt),
  ("costs.books_and_supplies", .booksAndSupplies, .asInt),
  ("costs.other_expenses", .otherExpenses, .asInt),
  ("costs.attendance_in_state", .costAttendanceInState, .asInt),
  ("costs.attendance_out_of_state", .costAttendanceOutOfState, .asInt),
  ("costs.tuition_fees_in_state", .tuitionInState, .asInt),
  ("costs.tuition_fees_out_of_state", .tuitionOutOfState, .asInt),
  ("outcomes.average_indebtedness", .avgIndebtedness, .asInt),
  ("outcomes.graduates_with_loans_pct", .graduatesWithLoansPct, .asFloat),
  ("outcomes.retention_first_year", .retentionPct, .asFloat),
  ("outcomes.graduation_rate_4y", .gradRate4y, .asFloat),
  ("outcomes.graduation_rate_5y", .gradRate5y, .asFloat),
  ("outcomes.graduation_rate_6y", .gradRate6y, .asFloat),
  ("faculty.full_time_count", .facultyFullTime, .asInt),
  ("faculty.part_time_count", .facultyPartTime, .asInt),
  ("faculty.terminal_degree_pct", .facultyTerminalPct, .asFloat),
  ("campus.students_in_housing_pct", .housingPct, .asFloat),
  ("campus.fraternity_participation_pct", .greekPctMen, .asFloat),
  ("campus.sorority_participation_pct", .greekPctWomen, .asFloat),
  ("academics.calendar", .calendar, .asDisplay),
  ("academics.undergraduate_majors", .majors, .asList),
  ("academics.special_programs", .specialPrograms, .asList),
  ("aid.merit_no_need_recipients_pct_all_undergraduates", .meritAidPct, .asFloat)]

def needFullyMetKey : String := "aid.need_fully_met_all_undergraduates"
def receivedKey : String := "aid.received_all_undergraduates"

/-- The group of `_LEADING_COUNT_RE`, without its commas; `none` where nothing matches. -/
def leadingDigits (text : String) : Option (List Char) :=
  let run := (text.toList.dropWhile PyText.isSpace).takeWhile fun c => PyText.isDigit c || c == ','
  if run = [] then none else some (run.filter (· != ','))

def leadingCount (text : Option String) : Except PyError (Option Nat) :=
  match text.bind leadingDigits with
  | some digits => (PyText.intOfDigits digits).map some
  | none => .ok none

/-- `round(need / received * 100, 1)`: the quotient of two integers must be a double. -/
def needRatio (need received : Nat) : Except PyError PyFloat :=
  match Binary64.ofRat (need / received) with
  | .finite quotient =>
    match Binary64.ofRat (quotient * 100) with
    | .finite percent => .ok (Binary64.ofRat (Binary64.nearestEven (percent * 10) / 10))
    | infinite => .ok infinite
  | _ => .error .overflowError

def startValues (columns : List (ExploreColumn × JsonValue)) : ExploreValues :=
  columns.foldl (fun values entry => values.set entry.1 (.json entry.2)) fun _ => .json .null

section Projection
variable (str : JsonValue → Except PyError String)

def projectFact (values : ExploreValues) (record : SchoolFact) : Except PyError ExploreValues :=
  match factKeyMap.lookup record.factKey with
  | none => .ok values
  | some (column, extractor) => (extractor.run str record).map fun value => values.set column value

/-- `facts_by_key[key]["value_text"]` -/
def textOf (facts : List SchoolFact) (key : String) : Option String :=
  (facts.reverse.find? fun record => record.factKey = key).bind fun record => record.typed.text

def raise {A : Type} (computed : Except PyError A) : Except ProjectError A :=
  computed.mapError .raised

/-- `need_fully_met_pct`, where both counts are there. -/
def setNeedFullyMet (values : ExploreValues) (need received : Option Nat) :
    Except PyError ExploreValues :=
  match need, received with
  | some need, some received =>
    if received = 0 then .ok values
    else (needRatio need received).map fun percent =>
      values.set .needFullyMetPct (.json (.float percent))
  | _, _ => .ok values

def setMajorsCount (values : ExploreValues) : ExploreValues :=
  values.set .majorsCount (match values .majors with
    | .texts items => .json (.int items.length)
    | _ => .json .null)

def projectExploreRow (profile : BasicProfile) (currentFacts : List SchoolFact) :
    Except ProjectError ExploreValues := do
  let columns ← ipedsFilterColumns profile
  let values ← raise (currentFacts.foldlM (projectFact str) (startValues columns))
  let need ← raise (leadingCount (textOf currentFacts needFullyMetKey))
  let received ← raise (leadingCount (textOf currentFacts receivedKey))
  let values ← raise (setNeedFullyMet values need received)
  return setMajorsCount values

theorem factKeyMap_columns : (factKeyMap.map fun entry => entry.2.1).Nodup := by decide +kernel

theorem mem_factKeyMap {key : String} {column : ExploreColumn} {extractor : Extractor}
    (found : factKeyMap.lookup key = some (column, extractor)) :
    (key, column, extractor) ∈ factKeyMap := by
  obtain ⟨before, after, split, _⟩ := List.lookup_eq_some_iff.mp found
  exact split ▸ List.mem_append_right _ List.mem_cons_self

theorem factKey_unique {first second : String} {column : ExploreColumn} {one two : Extractor}
    (here : factKeyMap.lookup first = some (column, one))
    (there : factKeyMap.lookup second = some (column, two)) : first = second ∧ one = two := by
  have same := List.inj_on_of_nodup_map factKeyMap_columns (mem_factKeyMap here)
    (mem_factKeyMap there) rfl
  simpa using same

structure Projected (facts : List SchoolFact) (values after : ExploreValues) : Prop where
  mapped : ∀ fact ∈ facts, ∀ column extractor,
    factKeyMap.lookup fact.factKey = some (column, extractor) →
      extractor.run str fact = .ok (after column)
  others : ∀ column, (∀ fact ∈ facts, ∀ extractor,
    factKeyMap.lookup fact.factKey ≠ some (column, extractor)) → after column = values column

theorem projectFact_ok {values after : ExploreValues} {fact : SchoolFact}
    (done : projectFact str values fact = .ok after) : Projected str [fact] values after := by
  unfold projectFact at done
  cases entry : factKeyMap.lookup fact.factKey with
  | none =>
    rw [entry] at done
    cases done
    exact ⟨by simp [entry], fun _ _ => rfl⟩
  | some found =>
    obtain ⟨column, extractor⟩ := found
    simp only [entry] at done
    obtain ⟨value, ran, rfl⟩ := Fallible.map_ok_iff.mp done
    constructor
    · intro other isFact column' extractor' same
      rw [List.mem_singleton.mp isFact, entry] at same
      cases same
      rw [List.mem_singleton.mp isFact, ran]
      simp [ExploreValues.set]
    · intro other untouched
      have off : other ≠ column := by
        rintro rfl
        exact untouched fact (List.mem_singleton.mpr rfl) extractor entry
      simp [ExploreValues.set, off]

theorem foldlM_projectFact {facts : List SchoolFact} (distinct : (facts.map SchoolFact.factKey).Nodup)
    {values after : ExploreValues} (done : facts.foldlM (projectFact str) values = .ok after) :
    Projected str facts values after := by
  induction facts generalizing values with
  | nil =>
    cases done
    exact ⟨by simp, fun _ _ => rfl⟩
  | cons fact rest ih =>
    rw [List.foldlM_cons] at done
    cases first : projectFact str values fact with
    | error e =>
      rw [first] at done
      cases done
    | ok middle =>
      rw [first] at done
      have here := projectFact_ok str first
      have there := ih (List.nodup_cons.mp distinct).2 done
      have fresh : ∀ other ∈ rest, other.factKey ≠ fact.factKey := fun other isIn same =>
        (List.nodup_cons.mp distinct).1 (same ▸ List.mem_map_of_mem isIn)
      constructor
      · intro other isIn column extractor entry
        rcases List.mem_cons.mp isIn with rfl | later
        · rw [there.others column fun next isNext extractor' again =>
            fresh next isNext (factKey_unique again entry).1]
          exact here.mapped other (List.mem_singleton.mpr rfl) column extractor entry
        · exact there.mapped other later column extractor entry
      · intro column untouched
        rw [there.others column fun next isNext => untouched next (List.mem_cons_of_mem _ isNext),
          here.others column fun next isNext => ?_]
        rw [List.mem_singleton.mp isNext]
        exact untouched fact List.mem_cons_self

theorem foldlM_projectFact_ok {facts : List SchoolFact} (values : ExploreValues)
    (runs : ∀ fact ∈ facts, ∀ column extractor,
      factKeyMap.lookup fact.factKey = some (column, extractor) →
        ∃ value, extractor.run str fact = .ok value) :
    ∃ after, facts.foldlM (projectFact str) values = .ok after := by
  induction facts generalizing values with
  | nil => exact ⟨values, rfl⟩
  | cons fact rest ih =>
    have first : ∃ middle, projectFact str values fact = .ok middle := by
      unfold projectFact
      cases entry : factKeyMap.lookup fact.factKey with
      | none => exact ⟨_, rfl⟩
      | some found =>
        obtain ⟨value, ran⟩ := runs fact List.mem_cons_self found.1 found.2 entry
        exact ⟨_, by simp only [ran]; rfl⟩
    obtain ⟨middle, first⟩ := first
    obtain ⟨after, later⟩ := ih middle fun other isIn => runs other (List.mem_cons_of_mem _ isIn)
    refine ⟨after, ?_⟩
    rw [List.foldlM_cons, first]
    exact later

/-- What the profile and the open fact of each key must be for a row to be built that
the columns take. -/
structure Projectable (profile : BasicProfile) (fact : String → Option SchoolFact) : Prop where
  profile : ∀ columns, ipedsFilterColumns profile = .ok columns →
    ∀ entry ∈ columns, entry.1.sqlType.encodes (.json entry.2) = true
  integers : ∀ key column record num, (key, column, Extractor.asInt) ∈ factKeyMap →
    fact key = some record → record.typed.num = some num →
      ∃ n, intOfNum num = .ok n ∧ fitsInteger n = true
  lists : ∀ key column record items, (key, column, Extractor.asList) ∈ factKeyMap →
    fact key = some record → storedItems record.value = some items →
      ∃ texts, items.mapM str = .ok texts ∧
        (column = .majors → fitsInteger texts.length = true)
  counts : ∃ need received,
    leadingCount ((fact needFullyMetKey).bind fun record => record.typed.text) = .ok need ∧
    leadingCount ((fact receivedKey).bind fun record => record.typed.text) = .ok received ∧
    ∀ a b, need = some a → received = some b → b ≠ 0 → ∃ percent, needRatio a b = .ok percent

theorem textOf_current (table : FactsTable) (key : String) :
    textOf table.current key = (table.find key).bind fun record => record.typed.text := by
  have same : (table.current.reverse.find? fun record => record.factKey = key) = table.find key := by
    cases found : table.find key with
    | none => simpa [List.find?_eq_none] using Table.find_eq_none.mp found
    | some record =>
      obtain ⟨isIn, isKey⟩ := Table.find_eq_some.mp found
      cases last : table.current.reverse.find? fun record => record.factKey = key with
      | none =>
        have absent := List.find?_eq_none.mp last record (List.mem_reverse.mpr isIn)
        simp [isKey] at absent
      | some other =>
        have otherKey : other.factKey = key := by simpa using List.find?_some last
        have otherIn := List.mem_reverse.mp (List.mem_of_find?_eq_some last)
        rw [table.eq_of_key otherIn isIn (otherKey.trans isKey.symm)]
  rw [textOf, same]

theorem foldl_set {columns : List (ExploreColumn × JsonValue)} {base : ExploreValues}
    (distinct : (columns.map Prod.fst).Nodup) (column : ExploreColumn) :
    (∀ entry ∈ columns, entry.1 = column →
      columns.foldl (fun values entry => values.set entry.1 (.json entry.2)) base column =
        .json entry.2) ∧
    (column ∉ columns.map Prod.fst →
      columns.foldl (fun values entry => values.set entry.1 (.json entry.2)) base column =
        base column) := by
  induction columns generalizing base with
  | nil => simp
  | cons first rest ih =>
    obtain ⟨hit, miss⟩ := @ih (base.set first.1 (.json first.2)) (List.nodup_cons.mp distinct).2
    rw [List.foldl_cons]
    constructor
    · rintro entry isIn rfl
      rcases List.mem_cons.mp isIn with rfl | later
      · rw [miss (List.nodup_cons.mp distinct).1]
        simp [ExploreValues.set]
      · exact hit entry later rfl
    · intro outside
      rw [List.map_cons, List.mem_cons, not_or] at outside
      rw [miss outside.2]
      simp [ExploreValues.set, outside.1]

theorem ipedsFilterColumns_names {profile : BasicProfile} {columns : List (ExploreColumn × JsonValue)}
    (ok : ipedsFilterColumns profile = .ok columns) : columns.map Prod.fst =
      [.region, .locale, .control, .institutionLevel, .genderModel, .religiousAffiliation,
        .hbcu, .hsi, .tribal, .landGrant] := by
  unfold ipedsFilterColumns at ok
  cases identity : subObject profile "identity_and_mission" with
  | error e => simp [identity, bind, Except.bind] at ok
  | ok members =>
    cases location : subObject profile "location" with
    | error e => simp [identity, location, bind, Except.bind] at ok
    | ok places =>
      cases classification : subObject profile "classification" with
      | error e => simp [identity, location, classification, bind, Except.bind] at ok
      | ok classes =>
        cases control : controlFromClassification (getOrNull classes "control") with
        | error e => simp [identity, location, classification, control, bind, Except.bind] at ok
        | ok owner =>
          simp only [identity, location, classification, control, bind, Except.bind, pure,
            Except.pure, Except.ok.injEq] at ok
          rw [← ok]
          rfl

theorem raise_ok {A : Type} {computed : Except PyError A} {a : A} :
    raise computed = .ok a ↔ computed = .ok a := by
  cases computed <;> simp [raise, Except.mapError]

theorem projectExploreRow_ok {profile : BasicProfile} {facts : List SchoolFact}
    {values : ExploreValues} : projectExploreRow str profile facts = .ok values ↔
      ∃ columns, ipedsFilterColumns profile = .ok columns ∧
      ∃ mapped, facts.foldlM (projectFact str) (startValues columns) = .ok mapped ∧
      ∃ need, leadingCount (textOf facts needFullyMetKey) = .ok need ∧
      ∃ received, leadingCount (textOf facts receivedKey) = .ok received ∧
      ∃ ratio, setNeedFullyMet mapped need received = .ok ratio ∧ setMajorsCount ratio = values := by
  unfold projectExploreRow
  simp only [Fallible.bind_ok_iff, raise_ok, pure, Except.pure, Except.ok.injEq]

/-- Every extractor of the map gives what its column is declared as. -/
def Extractor.sqlTypes : Extractor → List SqlType
  | .asInt => [.integer]
  | .asFloat => [.numeric]
  | .asBool => [.boolean]
  | .asDate => [.date]
  | .asDisplay => [.text]
  | .asList => [.textArray]

theorem factKeyMap_distinct : (factKeyMap.map Prod.fst).Nodup := by
  simp only [factKeyMap, List.map_cons, List.map_nil, List.nodup_cons, List.mem_cons, List.not_mem_nil,
    String.reduceEq, or_self, not_false_eq_true, List.nodup_nil, and_self]

theorem factKeyMap_lookup {entry : String × ExploreColumn × Extractor} (isIn : entry ∈ factKeyMap) :
    factKeyMap.lookup entry.1 = some entry.2 := Upsert.lookup_of_mem factKeyMap_distinct isIn

theorem factKeyMap_typed : ∀ entry ∈ factKeyMap, entry.2.1.sqlType ∈ entry.2.2.sqlTypes ∧
    entry.2.1 ≠ .needFullyMetPct ∧ entry.2.1 ≠ .majorsCount ∧
    entry.2.1 ∉ ([.region, .locale, .control, .institutionLevel, .genderModel,
      .religiousAffiliation, .hbcu, .hsi, .tribal, .landGrant] : List ExploreColumn) := by
  decide +kernel

theorem setNeedFullyMet_other {values ratio : ExploreValues} {need received : Option Nat}
    (set : setNeedFullyMet values need received = .ok ratio) {column : ExploreColumn}
    (other : column ≠ .needFullyMetPct) : ratio column = values column := by
  unfold setNeedFullyMet at set
  split at set
  · split at set
    · cases set
      rfl
    · obtain ⟨percent, _, rfl⟩ := Fallible.map_ok_iff.mp set
      simp [ExploreValues.set, other]
  · cases set
    rfl

theorem setNeedFullyMet_ok {values : ExploreValues} {need received : Option Nat} :
    (∃ ratio, setNeedFullyMet values need received = .ok ratio) ↔
      ∀ a b, need = some a → received = some b → b ≠ 0 → ∃ percent, needRatio a b = .ok percent := by
  unfold setNeedFullyMet
  cases need with
  | none => simp
  | some a =>
    cases received with
    | none => simp
    | some b =>
      by_cases zero : b = 0
      · simp [zero]
      · cases computed : needRatio a b <;> simp [zero, computed, Except.map]

theorem setNeedFullyMet_encodes {values ratio : ExploreValues} {need received : Option Nat}
    (set : setNeedFullyMet values need received = .ok ratio)
    (blank : values .needFullyMetPct = .json .null) :
    SqlType.numeric.encodes (ratio .needFullyMetPct) = true := by
  unfold setNeedFullyMet at set
  split at set
  · split at set
    · cases set
      rw [blank]
      rfl
    · obtain ⟨percent, _, rfl⟩ := Fallible.map_ok_iff.mp set
      simp [ExploreValues.set, SqlType.encodes]
  · cases set
    rw [blank]
    rfl

theorem Extractor.run_encodes {extractor : Extractor} {record : SchoolFact} {value : PyValue}
    {type : SqlType} (typed : type ∈ extractor.sqlTypes) (ran : extractor.run str record = .ok value)
    (integers : extractor = .asInt → ∀ num, record.typed.num = some num →
      ∃ n, intOfNum num = .ok n ∧ fitsInteger n = true) : type.encodes value = true := by
  cases extractor with
  | asInt =>
    rw [List.mem_singleton.mp typed]
    cases num : record.typed.num with
    | none =>
      simp only [run, num, Except.ok.injEq] at ran
      rw [← ran]
      rfl
    | some q =>
      obtain ⟨n, whole, fits⟩ := integers rfl q num
      simp only [run, num, whole, Except.map, Except.ok.injEq] at ran
      rw [← ran]
      exact fits
  | asFloat =>
    rw [List.mem_singleton.mp typed]
    cases num : record.typed.num <;> simp only [run, num, Except.ok.injEq] at ran <;> rw [← ran] <;> rfl
  | asBool =>
    rw [List.mem_singleton.mp typed]
    cases flag : record.typed.bool <;> simp only [run, flag, Except.ok.injEq] at ran <;> rw [← ran] <;> rfl
  | asDate =>
    rw [List.mem_singleton.mp typed]
    cases day : record.typed.date <;> simp only [run, day, Except.ok.injEq] at ran <;> rw [← ran] <;> rfl
  | asDisplay =>
    rw [List.mem_singleton.mp typed]
    simp only [run] at ran
    split at ran <;> cases ran <;> rfl
  | asList =>
    rw [List.mem_singleton.mp typed]
    simp only [run] at ran
    split at ran
    · obtain ⟨texts, _, rfl⟩ := Fallible.map_ok_iff.mp ran
      rfl
    · cases ran
      rfl

section Row
variable {str} {profile : BasicProfile} {table : FactsTable}
  {columns : List (ExploreColumn × JsonValue)} {mapped : ExploreValues}

theorem mapped_column (folded : table.current.foldlM (projectFact str) (startValues columns) = .ok mapped)
    {key : String} {column : ExploreColumn} {extractor : Extractor} {record : SchoolFact}
    (entry : (key, column, extractor) ∈ factKeyMap) (found : table.find key = some record) :
    extractor.run str record = .ok (mapped column) := by
  obtain ⟨isIn, rfl⟩ := Table.find_eq_some.mp found
  have looked : factKeyMap.lookup record.factKey = some (column, extractor) :=
    factKeyMap_lookup entry
  exact (foldlM_projectFact str table.unique folded).mapped record isIn column extractor looked

theorem unmapped_column (folded : table.current.foldlM (projectFact str) (startValues columns) = .ok mapped)
    {column : ExploreColumn} (absent : ∀ key extractor record, (key, column, extractor) ∈ factKeyMap →
      table.find key ≠ some record) : mapped column = startValues columns column := by
  refine (foldlM_projectFact str table.unique folded).others column ?_
  intro record isIn extractor looked
  exact absent record.factKey extractor record (mem_factKeyMap looked)
    (Table.find_eq_some.mpr ⟨isIn, rfl⟩)

theorem profile_column (names : columns.map Prod.fst =
      [.region, .locale, .control, .institutionLevel, .genderModel, .religiousAffiliation,
        .hbcu, .hsi, .tribal, .landGrant])
    {entry : ExploreColumn × JsonValue} (isIn : entry ∈ columns) :
    entry.1 ≠ .needFullyMetPct ∧ entry.1 ≠ .majorsCount ∧ ∀ row ∈ factKeyMap, row.2.1 ≠ entry.1 := by
  have name : entry.1 ∈ columns.map Prod.fst := List.mem_map_of_mem isIn
  rw [names] at name
  refine ⟨?_, ?_, ?_⟩
  · intro same
    rw [same] at name
    revert name
    decide
  · intro same
    rw [same] at name
    revert name
    decide
  · intro row isRow same
    exact (factKeyMap_typed row isRow).2.2.2 (same ▸ name)

theorem projectable_of_row {values : ExploreValues} (known : ipedsFilterColumns profile = .ok columns)
    (projected : projectExploreRow str profile table.current = .ok values)
    (encodes : values.Encodes) : Projectable str profile table.find := by
  obtain ⟨columns', known', mapped, folded, need, hasNeed, received, hasReceived, ratio, set, rfl⟩ :=
    (projectExploreRow_ok str).mp projected
  rw [known, Except.ok.injEq] at known'
  subst known'
  have names := ipedsFilterColumns_names known
  have distinct : (columns.map Prod.fst).Nodup := by
    rw [names]
    decide
  have kept : ∀ column : ExploreColumn, column ≠ .needFullyMetPct → column ≠ .majorsCount →
      column.sqlType.encodes (mapped column) = true := by
    intro column notRatio notCount
    have taken := encodes column
    rwa [setMajorsCount, ExploreValues.set, Function.update_of_ne notCount,
      setNeedFullyMet_other set notRatio] at taken
  refine ⟨?_, ?_, ?_, ?_⟩
  · intro again isKnown entry isIn
    rw [known, Except.ok.injEq] at isKnown
    subst isKnown
    obtain ⟨notRatio, notCount, unmapped⟩ := profile_column names isIn
    have taken := kept entry.1 notRatio notCount
    rw [unmapped_column folded fun key extractor record isRow => absurd rfl (unmapped _ isRow)] at taken
    rwa [startValues, (foldl_set distinct entry.1).1 entry isIn rfl] at taken
  · intro key column record num entry found hasNum
    obtain ⟨typed, notRatio, notCount, _⟩ := factKeyMap_typed _ entry
    have ran := mapped_column folded entry found
    simp only [Extractor.run, hasNum] at ran
    obtain ⟨n, whole, isN⟩ := Fallible.map_ok_iff.mp ran
    refine ⟨n, whole, ?_⟩
    have taken := kept column notRatio notCount
    rw [← isN, List.mem_singleton.mp typed] at taken
    exact taken
  · intro key column record items entry found hasItems
    have ran := mapped_column folded entry found
    simp only [Extractor.run, hasItems] at ran
    obtain ⟨texts, strs, isTexts⟩ := Fallible.map_ok_iff.mp ran
    refine ⟨texts, strs, ?_⟩
    rintro rfl
    have count := encodes .majorsCount
    rw [setMajorsCount, ExploreValues.set, Function.update_self,
      setNeedFullyMet_other set (by decide), ← isTexts] at count
    exact count
  · rw [textOf_current] at hasNeed hasReceived
    exact ⟨need, received, hasNeed, hasReceived, setNeedFullyMet_ok.mp ⟨ratio, set⟩⟩

theorem extractor_runs (projectable : Projectable str profile table.find) :
    ∀ fact ∈ table.current, ∀ column extractor,
      factKeyMap.lookup fact.factKey = some (column, extractor) →
        ∃ value, extractor.run str fact = .ok value := by
  intro fact isIn column extractor looked
  have entry := mem_factKeyMap looked
  have found : table.find fact.factKey = some fact := Table.find_eq_some.mpr ⟨isIn, rfl⟩
  cases extractor with
  | asInt =>
    cases num : fact.typed.num with
    | none => exact ⟨_, by simp only [Extractor.run, num]; rfl⟩
    | some q =>
      obtain ⟨n, whole, _⟩ := projectable.integers _ column fact q entry found num
      exact ⟨_, by simp only [Extractor.run, num, whole]; rfl⟩
  | asList =>
    cases items : storedItems fact.value with
    | none => exact ⟨_, by simp only [Extractor.run, items]; rfl⟩
    | some list =>
      obtain ⟨texts, strs, _⟩ := projectable.lists _ column fact list entry found items
      exact ⟨_, by simp only [Extractor.run, items, strs]; rfl⟩
  | asDisplay =>
    simp only [Extractor.run]
    split <;> exact ⟨_, rfl⟩
  | asFloat => exact ⟨_, rfl⟩
  | asBool => exact ⟨_, rfl⟩
  | asDate => exact ⟨_, rfl⟩

theorem mapped_encodes (known : ipedsFilterColumns profile = .ok columns)
    (projectable : Projectable str profile table.find)
    (folded : table.current.foldlM (projectFact str) (startValues columns) = .ok mapped)
    (column : ExploreColumn) : column.sqlType.encodes (mapped column) = true := by
  have distinct : (columns.map Prod.fst).Nodup := by
    rw [ipedsFilterColumns_names known]
    decide
  by_cases isOpen : ∃ key extractor record, (key, column, extractor) ∈ factKeyMap ∧
      table.find key = some record
  · obtain ⟨key, extractor, record, entry, found⟩ := isOpen
    apply Extractor.run_encodes str (factKeyMap_typed _ entry).1 (mapped_column folded entry found)
    rintro rfl num hasNum
    exact projectable.integers key column record num entry found hasNum
  · rw [unmapped_column folded fun key extractor record entry found =>
      isOpen ⟨key, extractor, record, entry, found⟩]
    by_cases inside : column ∈ columns.map Prod.fst
    · obtain ⟨entry, isIn, rfl⟩ := List.mem_map.mp inside
      rw [startValues, (foldl_set distinct entry.1).1 entry isIn rfl]
      exact projectable.profile columns known entry isIn
    · rw [startValues, (foldl_set distinct column).2 inside]
      cases column.sqlType <;> rfl

theorem majors_fit (known : ipedsFilterColumns profile = .ok columns)
    (projectable : Projectable str profile table.find)
    (folded : table.current.foldlM (projectFact str) (startValues columns) = .ok mapped)
    {texts : List String} (held : mapped .majors = .texts texts) :
    fitsInteger texts.length = true := by
  have names := ipedsFilterColumns_names known
  have distinct : (columns.map Prod.fst).Nodup := by
    rw [names]
    decide
  have entry : ("academics.undergraduate_majors", .majors, .asList) ∈ factKeyMap := by
    simp [factKeyMap]
  cases found : table.find "academics.undergraduate_majors" with
  | none =>
    have start : mapped .majors = startValues columns .majors := by
      refine unmapped_column folded fun key extractor record other isFound => ?_
      have same := List.inj_on_of_nodup_map factKeyMap_columns other entry rfl
      cases same
      rw [found] at isFound
      cases isFound
    rw [start, startValues, (foldl_set distinct _).2 (by rw [names]; decide)] at held
    cases held
  | some record =>
    have ran := mapped_column folded entry found
    rw [held] at ran
    cases items : storedItems record.value with
    | none =>
      simp only [Extractor.run, items] at ran
      cases ran
    | some list =>
      obtain ⟨texts', strs, fits⟩ := projectable.lists _ _ record list entry found items
      simp only [Extractor.run, items, strs] at ran
      cases ran
      exact fits rfl

theorem row_of_projectable (known : ipedsFilterColumns profile = .ok columns)
    (projectable : Projectable str profile table.find) :
    ∃ values, projectExploreRow str profile table.current = .ok values ∧ values.Encodes := by
  obtain ⟨need, received, hasNeed, hasReceived, divides⟩ := projectable.counts
  obtain ⟨mapped, folded⟩ :=
    foldlM_projectFact_ok str (startValues columns) (extractor_runs projectable)
  obtain ⟨ratio, set⟩ := (@setNeedFullyMet_ok mapped need received).mpr divides
  have names := ipedsFilterColumns_names known
  have blank : mapped .needFullyMetPct = .json .null := by
    rw [unmapped_column folded fun key extractor record entry =>
      absurd rfl (factKeyMap_typed _ entry).2.1]
    exact (foldl_set (by rw [names]; decide) _).2 (by rw [names]; decide)
  refine ⟨setMajorsCount ratio, (projectExploreRow_ok str).mpr ⟨columns, known, mapped, folded, need,
    by rwa [textOf_current], received, by rwa [textOf_current], ratio, set, rfl⟩, ?_⟩
  intro column
  by_cases count : column = .majorsCount
  · subst count
    rw [setMajorsCount, ExploreValues.set, Function.update_self, setNeedFullyMet_other set (by decide)]
    cases held : mapped .majors with
    | texts texts => exact majors_fit known projectable folded held
    | json _ => rfl
    | date _ => rfl
  · rw [setMajorsCount, ExploreValues.set, Function.update_of_ne count]
    by_cases isRatio : column = .needFullyMetPct
    · subst isRatio
      exact setNeedFullyMet_encodes set blank
    · rw [setNeedFullyMet_other set isRatio]
      exact mapped_encodes known projectable folded column

end Row

end Projection

end Counselle.Facts

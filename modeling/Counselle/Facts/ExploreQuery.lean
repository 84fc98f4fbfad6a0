import Counselle.Sql

/-! The statements that a search of the schools runs: one condition for each filter that is
set, one count of the schools each filter leaves out for want of data, and the counts without
one of the filters. -/
namespace Counselle.Facts
open Calendar (Date)
open PyJson (PyFloat)
open Sql (Engine Value Truth Term Condition Template Plain)

inductive Control where
  | publicSchool | privateSchool | privateForProfit
  deriving DecidableEq

def Control.text : Control → String
  | .publicSchool => "public"
  | .privateSchool => "private"
  | .privateForProfit => "private_for_profit"

inductive TestPolicy where
  | required | considered | notRequired | notReported
  deriving DecidableEq

def TestPolicy.text : TestPolicy → String
  | .required => "required"
  | .considered => "considered"
  | .notRequired => "not_required"
  | .notReported => "not_reported"

inductive Gender where
  | coed | women | men
  deriving DecidableEq

def Gender.text : Gender → String
  | .coed => "coed"
  | .women => "women"
  | .men => "men"

/-- A row of the view `school_explore`, with the columns that the filters read. -/
structure ExploreSchool where
  schoolId : Nat
  name : String
  state : Option String
  region : String
  locale : Option String
  control : Control
  genderModel : Option Gender
  religiousAffiliation : Option String
  hbcu : Bool
  hsi : Option Bool
  tribal : Bool
  landGrant : Bool
  undergraduates : Option Int
  admitRate : Option PyFloat
  entranceDifficulty : Option String
  testPolicy : Option TestPolicy
  satMathP25 : Option Int
  satMathP75 : Option Int
  satEbrwP25 : Option Int
  satEbrwP75 : Option Int
  actCompositeP25 : Option Int
  actCompositeP75 : Option Int
  costAttendanceInState : Option Int
  costAttendanceOutOfState : Option Int
  needMetPct : Option PyFloat
  needFullyMetPct : Option PyFloat
  meritAidPct : Option PyFloat
  retentionPct : Option PyFloat
  gradRate4y : Option PyFloat
  gradRate6y : Option PyFloat
  undergraduateFullTime : Option Int
  facultyFullTime : Option Int
  housingPct : Option PyFloat
  internationalPct : Option PyFloat
  calendar : Option String
  applicationFee : Option Int
  offersEarlyDecision : Option Bool
  offersEarlyAction : Option Bool
  isRolling : Option Bool
  deadlineRegular : Option Date
  majors : Option (List String)
  deriving DecidableEq

inductive SchoolColumn where
  | name | state | region | locale | control | genderModel | religiousAffiliation
  | hbcu | hsi | tribal | landGrant | undergraduates | admitRate | entranceDifficulty | testPolicy
  | satMathP25 | satMathP75 | satEbrwP25 | satEbrwP75 | actCompositeP25 | actCompositeP75
  | costAttendanceInState | costAttendanceOutOfState | needMetPct | needFullyMetPct | meritAidPct
  | retentionPct | gradRate4y | gradRate6y | undergraduateFullTime | facultyFullTime
  | housingPct | internationalPct | calendar | applicationFee
  | offersEarlyDecision | offersEarlyAction | isRolling | deadlineRegular | majors
  deriving DecidableEq

def ExploreSchool.get (school : ExploreSchool) : SchoolColumn → Option Value
  | .name => some (.text school.name)
  | .state => school.state.map .text
  | .region => some (.text school.region)
  | .locale => school.locale.map .text
  | .control => some (.text school.control.text)
  | .genderModel => school.genderModel.map fun gender => .text gender.text
  | .religiousAffiliation => school.religiousAffiliation.map .text
  | .hbcu => some (.boolean school.hbcu)
  | .hsi => school.hsi.map .boolean
  | .tribal => some (.boolean school.tribal)
  | .landGrant => some (.boolean school.landGrant)
  | .undergraduates => school.undergraduates.map .integer
  | .admitRate => school.admitRate.map .numeric
  | .entranceDifficulty => school.entranceDifficulty.map .text
  | .testPolicy => school.testPolicy.map fun policy => .text policy.text
  | .satMathP25 => school.satMathP25.map .integer
  | .satMathP75 => school.satMathP75.map .integer
  | .satEbrwP25 => school.satEbrwP25.map .integer
  | .satEbrwP75 => school.satEbrwP75.map .integer
  | .actCompositeP25 => school.actCompositeP25.map .integer
  | .actCompositeP75 => school.actCompositeP75.map .integer
  | .costAttendanceInState => school.costAttendanceInState.map .integer
  | .costAttendanceOutOfState => school.costAttendanceOutOfState.map .integer
  | .needMetPct => school.needMetPct.map .numeric
  | .needFullyMetPct => school.needFullyMetPct.map .numeric
  | .meritAidPct => school.meritAidPct.map .numeric
  | .retentionPct => school.retentionPct.map .numeric
  | .gradRate4y => school.gradRate4y.map .numeric
  | .gradRate6y => school.gradRate6y.map .numeric
  | .undergraduateFullTime => school.undergraduateFullTime.map .integer
  | .facultyFullTime => school.facultyFullTime.map .integer
  | .housingPct => school.housingPct.map .numeric
  | .internationalPct => school.internationalPct.map .numeric
  | .calendar => school.calendar.map .text
  | .applicationFee => school.applicationFee.map .integer
  | .offersEarlyDecision => school.offersEarlyDecision.map .boolean
  | .offersEarlyAction => school.offersEarlyAction.map .boolean
  | .isRolling => school.isRolling.map .boolean
  | .deadlineRegular => school.deadlineRegular.map .date
  | .majors => school.majors.map .texts

inductive CampusSettingFamily where
  | city | suburb | town | rural
  deriving DecidableEq

def CampusSettingFamily.text : CampusSettingFamily → String
  | .city => "City"
  | .suburb => "Suburb"
  | .town => "Town"
  | .rural => "Rural"

inductive SizeBucket where
  | lt2k | from2kTo10k | from10kTo25k | gt25k
  deriving DecidableEq

inductive ScoreFit where
  | any | atOrAboveP25 | insideBand | atOrAboveP75
  deriving DecidableEq

inductive RangeKey where
  | admits | cost | needMet | needFullyMet | meritAid | gradFour | gradSix | retention | ratio
  | housing | international
  deriving DecidableEq

/-- The bounds of the range filters are one field here, by their key. -/
structure ExploreQuery where
  q : Option String
  state : List String
  region : List String
  sizeBucket : List SizeBucket
  control : Option Control
  testPolicy : Option TestPolicy
  campusSetting : List CampusSettingFamily
  religiousAffiliation : Option String
  gender : Option Gender
  hbcu : Bool
  hsi : Bool
  tribal : Bool
  landGrant : Bool
  entranceDifficulty : Option String
  calendar : Option String
  major : Option String
  noApplicationFee : Bool
  offersEarlyDecision : Bool
  offersEarlyAction : Bool
  rollingAdmission : Bool
  includeRolling : Bool
  deadlineBefore : Option Date
  homeState : Option String
  scoreFit : ScoreFit
  satMath : Option Int
  satEbrw : Option Int
  act : Option Int
  min : RangeKey → Option PyFloat
  max : RangeKey → Option PyFloat
  includeMissing : List RangeKey

inductive FilterKey where
  | q | state | region | sizeBucket | control | testPolicy | campusSetting | religiousAffiliation
  | gender | hbcu | hsi | tribal | landGrant | entranceDifficulty | calendar | major
  | noApplicationFee | offersEarlyDecision | offersEarlyAction | rollingAdmission | deadlineBefore
  | satMath | satEbrw | act
  | range (key : RangeKey)
  deriving DecidableEq

def FilterKey.text : FilterKey → String
  | .q => "q"
  | .state => "state"
  | .region => "region"
  | .sizeBucket => "sizeBucket"
  | .control => "control"
  | .testPolicy => "testPolicy"
  | .campusSetting => "campusSetting"
  | .religiousAffiliation => "religiousAffiliation"
  | .gender => "gender"
  | .hbcu => "hbcu"
  | .hsi => "hsi"
  | .tribal => "tribal"
  | .landGrant => "landGrant"
  | .entranceDifficulty => "entranceDifficulty"
  | .calendar => "calendar"
  | .major => "major"
  | .noApplicationFee => "noApplicationFee"
  | .offersEarlyDecision => "offersEarlyDecision"
  | .offersEarlyAction => "offersEarlyAction"
  | .rollingAdmission => "rollingAdmission"
  | .deadlineBefore => "deadlineBefore"
  | .satMath => "satMath"
  | .satEbrw => "satEbrw"
  | .act => "act"
  | .range .admits => "admit"
  | .range .cost => "cost"
  | .range .needMet => "needMet"
  | .range .needFullyMet => "needFullyMet"
  | .range .meritAid => "meritAid"
  | .range .gradFour => "gradFour"
  | .range .gradSix => "gradSix"
  | .range .retention => "retention"
  | .range .ratio => "ratio"
  | .range .housing => "housing"
  | .range .international => "international"

def metricLabels : FilterKey → Option String
  | .q => "search text"
  | .state => "state"
  | .region => "region"
  | .sizeBucket => "undergraduate count"
  | .testPolicy => "test policy"
  | .campusSetting => "campus setting"
  | .gender => "gender model"
  | .hsi => "HSI status"
  | .entranceDifficulty => "entrance difficulty"
  | .calendar => "academic calendar"
  | .major => "major"
  | .deadlineBefore => "deadline date"
  | .noApplicationFee => "application fee"
  | .offersEarlyDecision => "early decision offer"
  | .offersEarlyAction => "early action offer"
  | .rollingAdmission => "rolling admission"
  | .satMath => "SAT Math range"
  | .satEbrw => "SAT EBRW range"
  | .act => "ACT range"
  | .range .admits => "admit rate"
  | .range .cost => "cost of attendance"
  | .range .needMet => "share of need met"
  | .range .needFullyMet => "need fully met rate"
  | .range .meritAid => "merit aid rate"
  | .range .gradFour => "4-year graduation rate"
  | .range .gradSix => "6-year graduation rate"
  | .range .retention => "retention rate"
  | .range .ratio => "undergraduates-per-faculty figure"
  | .range .housing => "housing rate"
  | .range .international => "international student rate"
  | .control | .religiousAffiliation | .hbcu | .tribal | .landGrant => none

inductive ExclusionReason where
  | missing | notReported
  deriving DecidableEq

/-- `_Clause`: without a null test, no exclusions are counted. -/
structure Clause where
  key : FilterKey
  metricLabel : String
  reason : ExclusionReason
  sql : Template SchoolColumn
  params : List Value
  nullSql : Option (Plain SchoolColumn)

def metricLabel (key : FilterKey) : String := (metricLabels key).getD ""

section Clauses
variable {P : Type}

def hole : Term SchoolColumn Unit := .placeholder ()

/-- Parts joined by `OR`. -/
def disjunction (part : Template SchoolColumn) (parts : List (Template SchoolColumn)) :
    Template SchoolColumn := parts.foldl .or part

/-- `_RANGE_COLUMNS`; the basis of the cost depends on the query. -/
def rangeColumn : RangeKey → Term SchoolColumn P
  | .admits => .column .admitRate
  | .cost => .column .costAttendanceOutOfState
  | .needMet => .column .needMetPct
  | .needFullyMet => .column .needFullyMetPct
  | .meritAid => .column .meritAidPct
  | .gradFour => .column .gradRate4y
  | .gradSix => .column .gradRate6y
  | .retention => .column .retentionPct
  | .ratio => .ratio (.column .undergraduateFullTime) (.column .facultyFullTime)
  | .housing => .column .housingPct
  | .international => .column .internationalPct

def withinBounds (column : Term SchoolColumn Unit) (low high : Option PyFloat) :
    Option (Template SchoolColumn × List Value) :=
  match low, high with
  | none, none => none
  | some low, some high => some (.between column hole hole, [.numeric low, .numeric high])
  | some low, none => some (.ge column hole, [.numeric low])
  | none, some high => some (.le column hole, [.numeric high])

def rangeClause (query : ExploreQuery) (key : RangeKey) : Option Clause :=
  (withinBounds (rangeColumn key) (query.min key) (query.max key)).map fun (sql, params) =>
    ⟨.range key, metricLabel (.range key), .missing, sql, params, some (.isNull (rangeColumn key))⟩

def truthy (text : Option String) : Option String := text.filter (· ≠ "")

def costClause (query : ExploreQuery) : Option Clause :=
  let column : Term SchoolColumn Unit :=
    if (truthy query.homeState).isSome then
      .choose (.column .state) hole (.column .costAttendanceInState) (.column .costAttendanceOutOfState)
    else .column .costAttendanceOutOfState
  (withinBounds column (query.min .cost) (query.max .cost)).map fun (sql, params) =>
    ⟨.range .cost, metricLabel (.range .cost), .missing, sql,
      ((truthy query.homeState).map .text).toList ++ params,
      some (.and (.isNull (.column .costAttendanceInState)) (.isNull (.column .costAttendanceOutOfState)))⟩

def sizeBuckets : SizeBucket → Template SchoolColumn × List Value
  | .lt2k => (.le (.column .undergraduates) hole, [.integer 1999])
  | .from2kTo10k => (.between (.column .undergraduates) hole hole, [.integer 2000, .integer 9999])
  | .from10kTo25k => (.between (.column .undergraduates) hole hole, [.integer 10000, .integer 24999])
  | .gt25k => (.ge (.column .undergraduates) hole, [.integer 25000])

def sizeBucketClause (buckets : List SizeBucket) : Option Clause :=
  match buckets.map sizeBuckets with
  | [] => none
  | part :: parts => some ⟨.sizeBucket, metricLabel .sizeBucket, .missing,
      disjunction part.1 (parts.map Prod.fst), part.2 ++ parts.flatMap Prod.snd,
      some (.isNull (.column .undergraduates))⟩

def campusSettingClause (families : List CampusSettingFamily) : Option Clause :=
  let part : Template SchoolColumn := .like (.column .locale) (.append hole ": %")
  match families with
  | [] => none
  | family :: others => some ⟨.campusSetting, metricLabel .campusSetting, .notReported,
      disjunction part (others.map fun _ => part),
      .text family.text :: others.map fun family => .text family.text,
      some (.isNull (.column .locale))⟩

def religiousAffiliationClause (value : Option String) : Option Clause :=
  value.map fun value =>
    if value = "any_affiliated" then
      ⟨.religiousAffiliation, "", .missing, .isNotNull (.column .religiousAffiliation), [], none⟩
    else if value = "none_on_file" then
      ⟨.religiousAffiliation, "", .missing, .isNull (.column .religiousAffiliation), [], none⟩
    else
      ⟨.religiousAffiliation, "", .missing, .eq (.column .religiousAffiliation) hole, [.text value], none⟩

def scoreFitClause (key : FilterKey) (p25 p75 : SchoolColumn) (score : Option Int) (mode : ScoreFit) :
    Option Clause :=
  let clause (score : Int) (sql : Template SchoolColumn) : Clause :=
    ⟨key, metricLabel key, .missing, sql, [.integer score],
      some (.or (.isNull (.column p25)) (.isNull (.column p75)))⟩
  match score, mode with
  | none, _ | _, .any => none
  | some score, .atOrAboveP25 => some (clause score (.le (.column p25) hole))
  | some score, .atOrAboveP75 => some (clause score (.le (.column p75) hole))
  | some score, .insideBand => some (clause score (.between hole (.column p25) (.column p75)))

def boolClause (key : FilterKey) (column : SchoolColumn) (active : Bool) : Option Clause :=
  if active then
    some ⟨key, metricLabel key, .missing, .isTrue (.column column), [], some (.isNull (.column column))⟩
  else none

def deadlineBeforeClause (before : Option Date) (includeRolling : Bool) : Option Clause :=
  before.map fun before =>
    if includeRolling then
      ⟨.deadlineBefore, metricLabel .deadlineBefore, .missing,
        .or (.le (.column .deadlineRegular) hole) (.isTrue (.column .isRolling)), [.date before],
        some (.and (.isNull (.column .deadlineRegular)) (.isNotTrue (.column .isRolling)))⟩
    else
      ⟨.deadlineBefore, metricLabel .deadlineBefore, .missing, .le (.column .deadlineRegular) hole,
        [.date before], some (.isNull (.column .deadlineRegular))⟩

def textClause (key : FilterKey) (reason : ExclusionReason) (column : SchoolColumn)
    (text : Option String) : Option Clause :=
  (truthy text).map fun text =>
    ⟨key, metricLabel key, reason, .eq (.column column) hole, [.text text], some (.isNull (.column column))⟩

def flagClause (key : FilterKey) (column : SchoolColumn) (active : Bool) : Option Clause :=
  if active then some ⟨key, "", .missing, .isTrue (.column column), [], none⟩ else none

/-- A clause that looks a text column up in the given list. -/
def anyClause (key : FilterKey) (column : SchoolColumn) (texts : List String) : Option Clause :=
  if texts = [] then none
  else some ⟨key, metricLabel key, .missing, .any (.column column) hole, [.texts texts], none⟩

end Clauses

def rangeKeys : List RangeKey :=
  [.admits, .needMet, .needFullyMet, .meritAid, .gradFour, .gradSix, .retention, .ratio, .housing,
    .international]

section Build
variable (query : ExploreQuery)

def qClause : Option Clause :=
  (truthy query.q).map fun q =>
    ⟨.q, metricLabel .q, .missing, .ilike (.column .name) hole, [.text ("%" ++ q ++ "%")], none⟩

def controlClause : Option Clause :=
  query.control.map fun control =>
    ⟨.control, "", .missing, .eq (.column .control) hole, [.text control.text], none⟩

def hsiClause : Option Clause :=
  if query.hsi then some ⟨.hsi, metricLabel .hsi, .notReported, .isTrue (.column .hsi), [],
    some (.isNull (.column .hsi))⟩ else none

def majorClause : Option Clause :=
  (truthy query.major).map fun major =>
    ⟨.major, metricLabel .major, .missing, .contains (.column .majors) hole, [.text major],
      some (.isNull (.column .majors))⟩

def noApplicationFeeClause : Option Clause :=
  if query.noApplicationFee then some ⟨.noApplicationFee, metricLabel .noApplicationFee, .missing,
    .eq (.column .applicationFee) (.integer 0), [], some (.isNull (.column .applicationFee))⟩ else none

/-- The clauses in their order, one place for each filter. -/
def places : List (Option Clause) :=
  [qClause query, anyClause .state .state query.state, anyClause .region .region query.region,
    sizeBucketClause query.sizeBucket, controlClause query,
    textClause .testPolicy .missing .testPolicy (query.testPolicy.map TestPolicy.text),
    campusSettingClause query.campusSetting, religiousAffiliationClause query.religiousAffiliation,
    textClause .gender .notReported .genderModel (query.gender.map Gender.text),
    flagClause .hbcu .hbcu query.hbcu, hsiClause query, flagClause .tribal .tribal query.tribal,
    flagClause .landGrant .landGrant query.landGrant,
    textClause .entranceDifficulty .missing .entranceDifficulty query.entranceDifficulty,
    textClause .calendar .missing .calendar query.calendar, majorClause query,
    noApplicationFeeClause query,
    boolClause .offersEarlyDecision .offersEarlyDecision query.offersEarlyDecision,
    boolClause .offersEarlyAction .offersEarlyAction query.offersEarlyAction,
    boolClause .rollingAdmission .isRolling query.rollingAdmission,
    deadlineBeforeClause query.deadlineBefore query.includeRolling,
    scoreFitClause .satMath .satMathP25 .satMathP75 query.satMath query.scoreFit,
    scoreFitClause .satEbrw .satEbrwP25 .satEbrwP75 query.satEbrw query.scoreFit,
    scoreFitClause .act .actCompositeP25 .actCompositeP75 query.act query.scoreFit] ++
  rangeKeys.map (rangeClause query) ++ [costClause query]

def filters : List Clause := (places query).filterMap id

/-- `clause.key in query.include_missing` -/
def opted (key : FilterKey) : Bool := query.includeMissing.any fun optedIn => .range optedIn = key

/-- A range key whose missing values are opted in loses its clause. -/
def buildClauses : List Clause := (filters query).filter fun clause => !opted query clause.key

end Build

structure Where where
  parts : List (Condition SchoolColumn Nat)
  params : List Value

/-- The body of the loop, with the number of the next placeholder. -/
def combineStep (skip : Option FilterKey) (state : Where × Nat) (clause : Clause) : Where × Nat :=
  if some clause.key = skip then state
  else (⟨state.1.parts ++ [clause.sql.number state.2], state.1.params ++ clause.params⟩,
    state.2 + clause.sql.holes)

def combine (clauses : List Clause) (skip nullCheckFor : Option FilterKey) : Where :=
  let body := (clauses.foldl (combineStep skip) (⟨[], []⟩, 1)).1
  match (nullCheckFor.bind fun key => clauses.find? fun clause => clause.key = key).bind Clause.nullSql with
  | some nullSql => ⟨body.parts ++ [nullSql.number 1], body.params⟩
  | none => body

/-- A row is kept when the condition is true, neither false nor unknown. -/
def Where.keeps (engine : Engine) (body : Where) (school : ExploreSchool) : Bool :=
  Sql.conjunction engine school.get body.parts body.params = some true

structure Exclusion where
  key : FilterKey
  metricLabel : String
  count : Nat
  reason : ExclusionReason
  deriving DecidableEq

structure Narrowest where
  key : FilterKey
  label : String
  remainingWithoutIt : Nat

section Run
variable (engine : Engine) (query : ExploreQuery) (table : List ExploreSchool)

def matching : List ExploreSchool := table.filter ((combine (buildClauses query) none none).keeps engine)

/-- Whether the count of the exclusions of a filter counts this school. -/
def countedFor (key : FilterKey) (school : ExploreSchool) : Bool :=
  (combine (buildClauses query) (some key) (some key)).keeps engine school

def exclusionEligible : List Clause := (buildClauses query).filter fun clause => clause.nullSql.isSome

def exclusions : List Exclusion :=
  ((exclusionEligible query).map fun clause =>
    ⟨clause.key, clause.metricLabel, table.countP (countedFor engine query clause.key), clause.reason⟩).filter
      fun exclusion => 0 < exclusion.count

/-- The count that the answer reports for a filter; a count that is zero is not shown. -/
def reportedCount (key : FilterKey) : Nat :=
  (((exclusions engine query table).find? fun exclusion => exclusion.key = key).map Exclusion.count).getD 0

/-- How many schools of each kind of control there are without the filter of it. -/
def controlCounts (control : Control) : Nat :=
  table.countP fun school =>
    (combine (buildClauses query) (some .control) none).keeps engine school && school.control = control

/-- `total`, which a page behind the last one does not know. -/
def total (page pageSize maxCount : Nat) : Nat :=
  let found := (matching engine query table).length
  if 0 < pageSize ∧ (page - 1) * pageSize < found then min found maxCount else 0

/-- The first filter without which the most schools are left, when the total is none. -/
def narrowest (total : Nat) : Option Narrowest :=
  if total = 0 then
    ((buildClauses query).foldl (fun (best : Option (FilterKey × Nat)) clause =>
      let count := table.countP ((combine (buildClauses query) (some clause.key) none).keeps engine)
      match best with
      | some (_, most) => if most < count then some (clause.key, count) else best
      | none => some (clause.key, count)) none).map fun (key, count) =>
      ⟨key, (metricLabels key).getD key.text, count⟩
  else none

end Run

end Counselle.Facts

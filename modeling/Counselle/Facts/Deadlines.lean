import Counselle.Facts.Crawl
import Counselle.PyTime
import Counselle.Sql
import Mathlib.Data.List.Sort

/-! The three readers of the deadline facts: the applications of a student, which inherit a
date they do not have themselves, the calendar of all schools, and the deadlines of the facts
page. -/
namespace Counselle.Facts
open Calendar (Date)

/-- A row of the view `current_school_facts`: an open fact with the time of its page. -/
structure CurrentFact where
  schoolId : Nat
  fact : SchoolFact
  observedAt : Option Int

structure SchoolStatus where
  hasCollegedata : Bool
  tabs : TabName → PageStatus

/-- A row of `school_pages` gives the time of the last fetch, which may be missing. -/
structure FactsStore where
  schoolIds : List Nat
  distinct : schoolIds.Nodup
  facts : Nat → FactsTable
  pages : Nat → TabName → Option (Option Int)
  status : Nat → SchoolStatus

namespace FactsStore
variable (store : FactsStore)

def current (schoolId : Nat) : List CurrentFact :=
  (store.facts schoolId).current.filterMap fun fact =>
    (store.pages schoolId fact.tab).map fun observedAt => ⟨schoolId, fact, observedAt⟩

def view : List CurrentFact := store.schoolIds.flatMap store.current

end FactsStore

inductive ApplicationRound where
  | ea | ed | ed2 | rea | rd | rolling | priority
  deriving DecidableEq

def roundFactKey : ApplicationRound → Option String
  | .ea | .rea => "deadlines.early_action"
  | .ed => "deadlines.early_decision"
  | .ed2 => "deadlines.early_decision_2"
  | .rd => "deadlines.regular"
  | .rolling | .priority => none

def aidFactKey : String := "deadlines.financial_aid"

def offeredKeyForDeadline : List (String × String) := [
  ("deadlines.early_decision", "admissions.early_decision_offered"),
  ("deadlines.early_decision_2", "admissions.early_decision_offered"),
  ("deadlines.early_action", "admissions.early_action_offered"),
  ("deadlines.early_action_2", "admissions.early_action_offered")]

structure DeadlineFact where
  valueDate : Option Date
  reportedPeriod : Option String
  observedAt : Option Int
  deriving DecidableEq

structure InheritedDate where
  date : Date
  checkedAt : Date
  deriving DecidableEq

def twoDigits (n : Int) : String := if n < 10 then "0" ++ toString n else toString n

def deadlineReportedPeriod (cycleYear : Int) : String :=
  toString (cycleYear - 1) ++ "-" ++ twoDigits (cycleYear % 100)

def isStale (observedAt : Option Int) (staleDays : Nat) (now : Int) : Bool :=
  match observedAt with
  | none => false
  | some observedAt => (staleDays : Int) * 86400000000 < now - observedAt

def inheritedDate (fact : Option DeadlineFact) (cycleYear : Option Int) (staleDays : Nat) (now : Int) :
    Option InheritedDate :=
  match fact, cycleYear with
  | some ⟨some date, period, observedAt⟩, some cycleYear =>
    if period ≠ some (deadlineReportedPeriod cycleYear) then none
    else if isStale observedAt staleDays now then none
    else observedAt.map fun observedAt => ⟨date, PyTime.utcDate observedAt⟩
  | _, _ => none

def CurrentFact.deadline (row : CurrentFact) : DeadlineFact :=
  ⟨row.fact.typed.date, row.fact.reportedPeriod, row.observedAt⟩

def deadlineFactKeys : List String :=
  ["deadlines.early_action", "deadlines.early_decision", "deadlines.early_decision_2",
    "deadlines.financial_aid", "deadlines.regular"]

abbrev DeadlineFacts := List ((Nat × String) × DeadlineFact)

def DeadlineFacts.get (facts : DeadlineFacts) (unitid : Nat) (key : String) : Option DeadlineFact :=
  (facts.find? fun entry => entry.1 = (unitid, key)).map Prod.snd

def schoolDeadlineFacts (store : FactsStore) (unitids : List Nat) : DeadlineFacts :=
  Upsert.dictOf Prod.fst ((store.view.filter fun row =>
    unitids.contains row.schoolId && deadlineFactKeys.contains row.fact.factKey).map fun row =>
      ((row.schoolId, row.fact.factKey), row.deadline))

structure ApplicationRow where
  schoolUnitid : Nat
  round : ApplicationRound
  cycleYear : Option Int
  deadline : Option Date
  aidDeadline : Option Date

inductive DeadlineSource where
  | student | facts
  deriving DecidableEq

/-- One deadline column of the view, with what it would inherit. -/
structure DeadlineColumn where
  value : Option Date
  source : Option DeadlineSource
  checkedAt : Option Date
  inheritedDate : Option Date
  inheritedCheckedAt : Option Date
  deriving DecidableEq

def effectiveDeadline (ownValue : Option Date) (fact : Option DeadlineFact) (cycleYear : Option Int)
    (staleDays : Nat) (now : Int) : DeadlineColumn :=
  let inherited := inheritedDate fact cycleYear staleDays now
  match ownValue, inherited with
  | some own, inherited =>
    ⟨some own, some .student, none, inherited.map InheritedDate.date, inherited.map InheritedDate.checkedAt⟩
  | none, none => ⟨none, none, none, none, none⟩
  | none, some inherited => ⟨some inherited.date, some .facts, some inherited.checkedAt,
    some inherited.date, some inherited.checkedAt⟩

structure ApplicationDeadlines where
  deadline : DeadlineColumn
  aidDeadline : DeadlineColumn
  deriving DecidableEq

def viewFromRow (facts : DeadlineFacts) (staleDays : Nat) (now : Int) (row : ApplicationRow) :
    ApplicationDeadlines where
  deadline := effectiveDeadline row.deadline
    ((roundFactKey row.round).bind fun key => facts.get row.schoolUnitid key) row.cycleYear staleDays now
  aidDeadline := effectiveDeadline row.aidDeadline (facts.get row.schoolUnitid aidFactKey) row.cycleYear
    staleDays now

/-- The views of one listing, whose facts are read in one query. -/
def viewsFromRows (store : FactsStore) (staleDays : Nat) (now : Int) (rows : List ApplicationRow) :
    List ApplicationDeadlines :=
  rows.map (viewFromRow (schoolDeadlineFacts store (rows.map ApplicationRow.schoolUnitid)) staleDays now)

inductive CalendarRound where
  | ed | ed2 | ea | ea2 | rd
  deriving DecidableEq

def CalendarRound.text : CalendarRound → String
  | .ed => "ED"
  | .ed2 => "ED2"
  | .ea => "EA"
  | .ea2 => "EA2"
  | .rd => "RD"

def calendarRoundKeys : List (String × CalendarRound) := [
  ("deadlines.early_decision", .ed),
  ("deadlines.early_decision_2", .ed2),
  ("deadlines.early_action", .ea),
  ("deadlines.early_action_2", .ea2),
  ("deadlines.regular", .rd)]

/-- `_FACT_KEYS` -/
def calendarFactKeys : List String :=
  calendarRoundKeys.map Prod.fst ++ offeredKeyForDeadline.map Prod.snd

structure CatalogSchool where
  name : String
  officialDomain : Option String

abbrev Catalog := Nat → Option CatalogSchool

def websiteUrl (catalog : Catalog) (unitid : Nat) : Option String :=
  (((catalog unitid).bind CatalogSchool.officialDomain).filter (· ≠ "")).map ("https://" ++ ·)

structure SchoolDeadlineItem where
  unitid : Nat
  schoolName : String
  websiteUrl : Option String
  round : CalendarRound
  date : Date
  checkedAt : Date
  deriving DecidableEq

structure SchoolDeadlineCalendar where
  cycleYear : Int
  reportedPeriod : String
  schoolsWithDates : Nat
  items : List SchoolDeadlineItem

abbrev OfferedFlags := List ((Nat × String) × Option Bool)

/-- `offered.get((unitid, key)) is False` -/
def OfferedFlags.denies (offered : OfferedFlags) (unitid : Nat) (key : String) : Bool :=
  (offered.find? fun entry => entry.1 = (unitid, key)).map Prod.snd = some (some false)

def offeredFlags (rows : List CurrentFact) : OfferedFlags :=
  Upsert.dictOf Prod.fst ((rows.filter fun row =>
    !(calendarRoundKeys.map Prod.fst).contains row.fact.factKey).map fun row =>
      ((row.schoolId, row.fact.factKey), row.fact.typed.bool))

/-- `_item`, for the rows of a round. -/
def calendarItem (offered : OfferedFlags) (catalog : Catalog) (cycleYear : Int) (staleDays : Nat) (now : Int)
    (row : CurrentFact) : Option SchoolDeadlineItem :=
  match calendarRoundKeys.lookup row.fact.factKey with
  | none => none
  | some round =>
    if ((offeredKeyForDeadline.lookup row.fact.factKey).any fun key => offered.denies row.schoolId key) then none
    else
      match inheritedDate (some row.deadline) (some cycleYear) staleDays now, catalog row.schoolId with
      | some inherited, some school => some ⟨row.schoolId, school.name, websiteUrl catalog row.schoolId, round,
        inherited.date, inherited.checkedAt⟩
      | _, _ => none

def textLe : List Char → List Char → Bool
  | [], _ => true
  | _ :: _, [] => false
  | a :: s, b :: t => a.toNat < b.toNat || a = b && textLe s t

def SchoolDeadlineItem.le (a b : SchoolDeadlineItem) : Bool :=
  if a.date ≠ b.date then Sql.dateLe a.date b.date
  else if a.schoolName ≠ b.schoolName then textLe a.schoolName.toList b.schoolName.toList
  else textLe a.round.text.toList b.round.text.toList

def buildSchoolDeadlineCalendar (rows : List CurrentFact) (catalog : Catalog) (cycleYear : Int)
    (staleDays : Nat) (now : Int) : SchoolDeadlineCalendar :=
  let items := (rows.filterMap (calendarItem (offeredFlags rows) catalog cycleYear staleDays now)).insertionSort
    fun a b => a.le b = true
  ⟨cycleYear, deadlineReportedPeriod cycleYear, (items.map SchoolDeadlineItem.unitid).dedup.length, items⟩

def schoolDeadlineCalendar (store : FactsStore) (catalog : Catalog) (cycleYear : Int) (staleDays : Nat)
    (now : Int) : SchoolDeadlineCalendar :=
  buildSchoolDeadlineCalendar (store.view.filter fun row => calendarFactKeys.contains row.fact.factKey)
    catalog cycleYear staleDays now

/-- A row as the facts page reads it; its model requires the time of the observation. -/
structure FactValueRow where
  fact : SchoolFact
  observedAt : Int

inductive PageError where
  | unknownSchool
  | invalidRow
  deriving DecidableEq

inductive FactState where
  | value | notReported | notPublished | notFetched | notCollected
  deriving DecidableEq

def factState (hasRow hasValue : Bool) (pageStatus : PageStatus) (hasCollegedata : Bool) : FactState :=
  if !hasCollegedata then .notCollected
  else if hasRow then if hasValue then .value else .notReported
  else match pageStatus with
    | .notFound => .notPublished
    | .ok => .notReported
    | _ => .notFetched

def absenceDisplay (state : FactState) (pageStatus : PageStatus) : String :=
  match state with
  | .notReported => "Not reported"
  | .notPublished => "Not on file"
  | .notFetched => if pageStatus = .neverFetched then "Not checked yet" else "Not checked"
  | .notCollected => "Not collected"
  | .value => ""

structure SectionFact where
  key : String
  label : String
  tab : TabName

/-- The facts of the group `deadlines` of the section `applying`. -/
def deadlinesGroup : List SectionFact := [
  ⟨"deadlines.regular", "Regular decision deadline", .admission⟩,
  ⟨"admissions.regular_deadline_is_rolling", "Rolling admission", .admission⟩,
  ⟨"deadlines.early_decision", "Early decision deadline", .admission⟩,
  ⟨"deadlines.early_decision_2", "Early decision II deadline", .admission⟩,
  ⟨"deadlines.early_action", "Early action deadline", .admission⟩,
  ⟨"deadlines.early_action_2", "Early action II deadline", .admission⟩,
  ⟨"deadlines.financial_aid", "Financial aid deadline", .moneyMatters⟩,
  ⟨"deadlines.test_due_sat_or_act", "Test due SAT or ACT", .admission⟩,
  ⟨"deadlines.test_due_sat_only", "Test due SAT only", .admission⟩,
  ⟨"deadlines.test_due_act_only", "Test due ACT only", .admission⟩,
  ⟨"deadlines.test_due_act_writing_test_policy", "Test due ACT writing test policy", .admission⟩,
  ⟨"deadlines.test_due_sat_subject_tests_only", "Test due SAT subject tests only", .admission⟩,
  ⟨"deadlines.test_due_sat_and_sat_subject_tests_or_act", "Test due SAT and SAT subject tests or ACT",
    .admission⟩]

structure DeadlineRow where
  round : String
  date : Option (List Char)
  display : String
  reportedPeriod : Option String
  state : FactState
  observedAt : Option Int

def rollingKey : String := "admissions.regular_deadline_is_rolling"

def deadlineRoundLabel (label : String) : String :=
  let suffix := " deadline".toList
  if suffix.isSuffixOf label.toList then String.ofList (label.toList.dropLast.take (label.length - suffix.length))
  else label

def factsByKey (rows : List FactValueRow) : List FactValueRow :=
  Upsert.dictOf (fun row => row.fact.factKey) rows

def factOf (byKey : List FactValueRow) (key : String) : Option FactValueRow :=
  byKey.find? fun row => row.fact.factKey = key

def deadlineRow (byKey : List FactValueRow) (status : SchoolStatus) (spec : SectionFact) : DeadlineRow :=
  let round := deadlineRoundLabel spec.label
  let offeredRow := (offeredKeyForDeadline.lookup spec.key).bind (factOf byKey)
  match offeredRow.filter fun row => row.fact.typed.bool = some false with
  | some denied => ⟨round, none, "Not offered", none, .value, some denied.observedAt⟩
  | none =>
    let state := factState (factOf byKey spec.key).isSome true (status.tabs spec.tab) status.hasCollegedata
    match factOf byKey spec.key with
    | some row =>
      let text := PyText.strip (row.fact.typed.text.getD "").toList
      ⟨round, row.fact.typed.date.map Date.isoformat,
        if text.map Char.toLower = "rolling".toList then "Rolling" else row.fact.display,
        row.fact.reportedPeriod, state, some row.observedAt⟩
    | none => ⟨round, none, absenceDisplay state (status.tabs spec.tab), none, state, none⟩

def buildDeadlines (byKey : List FactValueRow) (status : SchoolStatus) : List DeadlineRow :=
  (deadlinesGroup.filter fun spec => spec.key ≠ rollingKey).map (deadlineRow byKey status)

/-- `FactValueRow(**record)`, which raises without the time of the observation. -/
def readRow (row : CurrentFact) : Except PageError FactValueRow :=
  match row.observedAt with
  | some observedAt => .ok ⟨row.fact, observedAt⟩
  | none => .error .invalidRow

def getSchoolFacts (store : FactsStore) (catalog : Catalog) (unitid : Nat) : Except PageError (List DeadlineRow) :=
  if (catalog unitid).isNone || !store.schoolIds.contains unitid then .error .unknownSchool
  else do
    let rows ← (store.current unitid).mapM readRow
    return buildDeadlines (factsByKey rows) (store.status unitid)

end Counselle.Facts

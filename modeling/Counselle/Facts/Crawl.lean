import Counselle.Facts.Explore
import Counselle.Transactions

/-! The transaction of one school in a pass: the page statements, then the mapper, the
facts and the explore row under one handler that swallows every exception. -/
namespace Counselle.Facts
open PyJson (JsonValue)
open PyText (PyError)
open Versions (Table)
open Transactions (Txn Failure commit)

inductive PageStatus where
  | ok | httpError | notFound | buildIdRotated | parseError | neverFetched
  deriving DecidableEq

def PageStatus.name : PageStatus → String
  | ok => "ok"
  | httpError => "http_error"
  | notFound => "not_found"
  | buildIdRotated => "build_id_rotated"
  | parseError => "parse_error"
  | neverFetched => "never_fetched"

/-- One row of `page_snapshots`. -/
structure Snapshot (Body : Type) where
  id : Nat
  sha : Sha256
  body : Body

/-- One row of `school_pages`. -/
structure PageRow (Body : Type) where
  latest : Option (Snapshot Body)
  lastStatus : PageStatus
  lastAttemptedAt : Option Nat
  lastFetchedAt : Option Nat
  lastChangedAt : Option Nat
  consecutiveFailures : Nat

/-- What the database holds for one school; the snapshots of a tab stand newest first. -/
structure School (Body : Type) where
  pages : TabName → Option (PageRow Body)
  snapshots : TabName → List (Snapshot Body)
  nextSnapshotId : Nat
  facts : FactsTable
  explore : Option ExploreRow
  profile : Option BasicProfile

/-- The parser and the mapper of the pages, and `str` on JSON values. A page that
`content_hash` or `parse_page` refuses is none. -/
structure Reader (Body Page : Type) where
  contentHash : Body → Option Sha256
  parsePage : TabName → Body → Option Page
  mapSnapshot : (TabName → Option Page) → Int → Except PyError (List FactRow)
  str : JsonValue → Except PyError String

structure Settings where
  currentAdmissionsCycleYear : Int
  snapshotRetentionPerPage : Nat
  mapperVersion : String

def tabNames : List TabName :=
  [.overview, .admission, .moneyMatters, .academics, .campusLife, .students]

structure SchoolCounters where
  pagesFetched : Nat := 0
  pagesChanged : Nat := 0
  pagesFailed : Nat := 0
  factsChanged : Nat := 0
  unmapped : List (String × JsonValue) := []
  failureKinds : List String := []

/-- The statements of the block, each of which the server can refuse. -/
inductive Statement where
  | basicProfile | writeFacts | currentFacts | upsertExplore
  deriving DecidableEq

inductive SchoolError where
  | mapping (error : PyError)
  | noSchool
  | project (error : ProjectError)
  | encoding

/-- The arguments of `_write_school`. -/
structure WriteArgs (Page : Type) where
  pages : TabName → Option Page
  changedTabs : List TabName
  snapshotIds : TabName → Nat
  snapshotSha256 : TabName → Sha256
  fallbackCycleYear : Int

def WriteArgs.call {Page : Type} (args : WriteArgs Page) (settings : Settings) (now : Nat)
    (rows : List FactRow) : FactsWrite where
  changedTabs := args.changedTabs
  rows := rows
  snapshotIds := args.snapshotIds
  snapshotSha256 := args.snapshotSha256
  mapperVersion := settings.mapperVersion
  now := now

def unmappedLabels (rows : List FactRow) : List (String × JsonValue) :=
  (rows.filter fun row => row.factKey.startsWith "unmapped:").map fun row =>
    (row.sourcePath, .str row.label)

section Block
variable {Body Page : Type} (reader : Reader Body Page) (settings : Settings)
  (accepts : Statement → Bool) (now : Nat)

def upsertExploreRow (values : ExploreValues) : Txn SchoolError (School Body) Unit :=
  if encodes : values.Encodes then
    Txn.write (accepts .upsertExplore) fun school =>
      some ({ school with explore := some ⟨values, encodes, now, settings.mapperVersion, none⟩ }, ())
  else Txn.compute id (.error .encoding)

def writeSchool (args : WriteArgs Page) :
    Txn SchoolError (School Body) (FactsWriteResult × List (String × JsonValue)) := do
  let rows ← Txn.compute .mapping (reader.mapSnapshot args.pages args.fallbackCycleYear)
  let found ← Txn.read (accepts .basicProfile) School.profile
  let profile ← Txn.compute id (match found with
    | some profile => .ok profile
    | none => .error .noSchool)
  let _ ← Txn.compute .project (ipedsFilterColumns profile)
  let result ← Txn.write (accepts .writeFacts) fun school =>
    (writeSchoolFacts school.facts (args.call settings now rows)).map fun written =>
      ({ school with facts := written.1 }, written.2)
  let current ← Txn.read (accepts .currentFacts) fun school => school.facts.current
  let values ← Txn.compute .project (projectExploreRow reader.str profile current)
  upsertExploreRow settings accepts now values
  return (result, unmappedLabels rows)

/-- The handler around the block, and the commit of the transaction. -/
def settleSchool (began : School Body) (counters : SchoolCounters) (args : WriteArgs Page)
    (school : School Body) : School Body × SchoolCounters :=
  let ended := writeSchool reader settings accepts now args school
  (commit began ended, match ended.2 with
    | .ok (result, unmapped) =>
      { counters with factsChanged := result.inserted + result.closedWithdrawn, unmapped := unmapped }
    | .error (.raised (.project (.unmappedControl label))) =>
      { counters with unmapped := [("classification.control", label)] }
    | .error _ => { counters with failureKinds := counters.failureKinds ++ ["mapper_error"] })

end Block

/-- What the fetcher gives for one tab: a failure of this school alone, a status other
than `ok`, or the profile of the page. -/
inductive Fetched (Body : Type) where
  | failed
  | status (status : PageStatus)
  | page (body : Body)

/-- The state of the transaction while the page statements run. -/
structure Recorded (Body : Type) where
  school : School Body
  changedTabs : List TabName
  snapshotIds : TabName → Nat
  snapshotSha256 : TabName → Sha256
  counters : SchoolCounters

section Pages
variable {Body Page : Type} (reader : Reader Body Page) (settings : Settings) (now : Nat)

def School.setPage (school : School Body) (tab : TabName) (row : PageRow Body) : School Body :=
  { school with pages := Function.update school.pages tab (some row) }

def recordPageFailure (tab : TabName) (status : PageStatus) (school : School Body) : School Body :=
  school.setPage tab (match school.pages tab with
    | some row =>
      { row with
        lastStatus := status
        lastAttemptedAt := some now
        consecutiveFailures := row.consecutiveFailures + 1 }
    | none => ⟨none, status, some now, none, none, 1⟩)

def recordPageUnchanged (tab : TabName) (school : School Body) : School Body :=
  school.setPage tab (match school.pages tab with
    | some row =>
      { row with
        lastStatus := .ok
        lastAttemptedAt := some now
        lastFetchedAt := some now
        consecutiveFailures := 0 }
    | none => ⟨none, .ok, some now, some now, none, 0⟩)

def School.latest (school : School Body) (tab : TabName) : Option (Snapshot Body) :=
  (school.pages tab).bind PageRow.latest

/-- `record_page_changed`: a body that was seen before keeps its snapshot. What is past
the retention, and is neither the latest nor an open fact's, is pruned. -/
def recordPageChanged (tab : TabName) (sha : Sha256) (body : Body) (school : School Body) :
    School Body × Nat :=
  let seen := (school.snapshots tab).find? fun snapshot => snapshot.sha = sha
  let snapshot := seen.getD ⟨school.nextSnapshotId, sha, body⟩
  let kept := if seen.isSome then school.snapshots tab else snapshot :: school.snapshots tab
  let referenced := school.facts.current.map SchoolFact.snapshotId
  let retained := kept.take settings.snapshotRetentionPerPage ++
    (kept.drop settings.snapshotRetentionPerPage).filter fun old =>
      old.id = snapshot.id || referenced.contains old.id
  let row : PageRow Body := ⟨some snapshot, .ok, some now, some now, some now, 0⟩
  ({ school.setPage tab row with
      snapshots := Function.update school.snapshots tab retained
      nextSnapshotId := school.nextSnapshotId + 1 }, snapshot.id)

def readPage (tab : TabName) (body : Body) : Option (Sha256 × Page) :=
  (reader.contentHash body).bind fun sha => (reader.parsePage tab body).map fun page => (sha, page)

def Recorded.fail (recorded : Recorded Body) (tab : TabName) (status : PageStatus) (kind : String) :
    Recorded Body :=
  { recorded with
    school := recordPageFailure now tab status recorded.school
    counters := { recorded.counters with
      pagesFailed := recorded.counters.pagesFailed + 1
      failureKinds := recorded.counters.failureKinds ++ [kind] } }

/-- The statements of one tab, with what its fetch had counted. -/
def recordOutcome (fetched : TabName → Fetched Body) (recorded : Recorded Body) (tab : TabName) :
    Recorded Body :=
  match fetched tab with
  | .failed => recorded.fail now tab .httpError "fetch_error"
  | .status status => recorded.fail now tab status status.name
  | .page body =>
    match readPage reader tab body with
    | none => recorded.fail now tab .parseError "parse_error"
    | some (sha, _) =>
      if (recorded.school.latest tab).map Snapshot.sha = some sha then
        { recorded with school := recordPageUnchanged now tab recorded.school }
      else
        let (school, id) := recordPageChanged settings now tab sha body recorded.school
        { school := school
          changedTabs := recorded.changedTabs ++ [tab]
          snapshotIds := Function.update recorded.snapshotIds tab id
          snapshotSha256 := Function.update recorded.snapshotSha256 tab sha
          counters := { recorded.counters with pagesChanged := recorded.counters.pagesChanged + 1 } }

def recordPages (fetched : TabName → Fetched Body) (school : School Body) : Recorded Body :=
  tabNames.foldl (recordOutcome reader settings now fetched)
    ⟨school, [], fun _ => 0, fun _ => 0, { pagesFetched := tabNames.length }⟩

/-- The tabs fetched and parsed in this pass, changed or not. -/
def parsedPages (fetched : TabName → Fetched Body) (tab : TabName) : Option Page :=
  match fetched tab with
  | .page body => (readPage reader tab body).map Prod.snd
  | _ => none

def storedDeadlineYear (facts : FactsTable) : Option Int :=
  ((facts.find "deadlines.regular").bind fun row => row.typed.date).map fun day => day.year

def liveArgs (fetched : TabName → Fetched Body) (recorded : Recorded Body) : WriteArgs Page where
  pages := parsedPages reader fetched
  changedTabs := recorded.changedTabs
  snapshotIds := recorded.snapshotIds
  snapshotSha256 := recorded.snapshotSha256
  fallbackCycleYear :=
    if (parsedPages reader fetched .admission).isNone then
      (storedDeadlineYear recorded.school.facts).getD settings.currentAdmissionsCycleYear
    else settings.currentAdmissionsCycleYear

end Pages

section Passes
variable {Body Page : Type} (reader : Reader Body Page) (settings : Settings)
  (accepts : Statement → Bool) (now : Nat)

def processSchoolLive (fetched : TabName → Fetched Body) (school : School Body) :
    School Body × SchoolCounters :=
  let recorded := recordPages reader settings now fetched school
  if recorded.changedTabs = [] then (recorded.school, recorded.counters)
  else settleSchool reader settings accepts now school recorded.counters
    (liveArgs reader settings fetched recorded) recorded.school

def storedPages (school : School Body) (tab : TabName) : Option Page :=
  (school.latest tab).bind fun snapshot => reader.parsePage tab snapshot.body

def remapArgs (school : School Body) : WriteArgs Page where
  pages := storedPages reader school
  changedTabs := tabNames.filter fun tab => (storedPages reader school tab).isSome
  snapshotIds tab := ((school.latest tab).map Snapshot.id).getD 0
  snapshotSha256 tab := ((school.latest tab).map Snapshot.sha).getD 0
  fallbackCycleYear := settings.currentAdmissionsCycleYear

def remapCounters (school : School Body) : SchoolCounters :=
  { failureKinds := (tabNames.filter fun tab => (school.latest tab).isSome &&
      (storedPages reader school tab).isNone).map fun _ => "parse_error" }

def processSchoolRemap (school : School Body) : School Body × SchoolCounters :=
  let args := remapArgs reader settings school
  let counters := remapCounters reader school
  if args.changedTabs = [] then (school, counters)
  else settleSchool reader settings accepts now school counters args school

variable {reader settings accepts now}

theorem processSchoolLive_fst (fetched : TabName → Fetched Body) (school : School Body) :
    (processSchoolLive reader settings accepts now fetched school).1 =
      if (recordPages reader settings now fetched school).changedTabs = [] then
        (recordPages reader settings now fetched school).school
      else commit school (writeSchool reader settings accepts now
        (liveArgs reader settings fetched (recordPages reader settings now fetched school))
        (recordPages reader settings now fetched school).school) := by
  unfold processSchoolLive
  by_cases unchanged : (recordPages reader settings now fetched school).changedTabs = []
  · simp [unchanged]
  · simp only [if_neg unchanged]
    rfl

theorem processSchoolRemap_fst (school : School Body) :
    (processSchoolRemap reader settings accepts now school).1 =
      if (remapArgs reader settings school).changedTabs = [] then school
      else commit school (writeSchool reader settings accepts now
        (remapArgs reader settings school) school) := by
  unfold processSchoolRemap
  by_cases unchanged : (remapArgs reader settings school).changedTabs = []
  · simp [unchanged]
  · simp only [if_neg unchanged]
    rfl

end Passes

end Counselle.Facts

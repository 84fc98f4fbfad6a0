import Counselle.Facts.Incremental

/-! The two transactions of a school side by side, each statement reading what is then
committed. Only the live pass takes the advisory lock, so that one live transaction is
open at a time and any number of remaps beside it. The three writes of a transaction and
its commit are one step: the rows they touch stay locked until the commit. -/
namespace Counselle.Facts
open PyText (PyError)
open Versions (Table)
open Transactions (Txn Failure commit)

variable {Body Page : Type}

/-- `write_school_facts`, whose select saw the facts of `seen`. -/
def writeSchoolFactsSeen (seen table : FactsTable) (call : FactsWrite) :
    Option (FactsTable × FactsWriteResult) :=
  if call.changedTabs = [] then some (table, ⟨0, 0, 0⟩)
  else
    let current := call.currentRows seen
    let toClose := call.toClose current
    let toInsert := call.toInsert current
    let toUpdateMeta := call.toUpdateMeta current
    let closed := call.closeRows table toClose
    (closed.insertAll call.now (toInsert.map call.insertRow)).map fun inserted =>
      let reinserted := toInsert.countP fun new =>
        (current.map SchoolFact.factKey).contains new.factKey
      (call.updateRows inserted toUpdateMeta,
        ⟨toInsert.length, toClose.length - reinserted, toUpdateMeta.length⟩)

section Block
variable (reader : Reader Body Page) (settings : Settings) (accepts : Statement → Bool) (now : Nat)

/-- `_write_school`, whose select of the open facts saw those of `seen`. -/
def writeSchoolSeen (seen : FactsTable) (args : WriteArgs Page) :
    Txn SchoolError (School Body) (FactsWriteResult × List (String × PyJson.JsonValue)) := do
  let rows ← Txn.compute .mapping (reader.mapSnapshot args.pages args.fallbackCycleYear)
  let found ← Txn.read (accepts .basicProfile) School.profile
  let profile ← Txn.compute id (match found with
    | some profile => .ok profile
    | none => .error .noSchool)
  let _ ← Txn.compute .project (ipedsFilterColumns profile)
  let result ← Txn.write (accepts .writeFacts) fun school =>
    (writeSchoolFactsSeen seen school.facts (args.call settings now rows)).map fun written =>
      ({ school with facts := written.1 }, written.2)
  let current ← Txn.read (accepts .currentFacts) fun school => school.facts.current
  let values ← Txn.compute .project (projectExploreRow reader.str profile current)
  upsertExploreRow settings accepts now values
  return (result, unmappedLabels rows)

end Block

structure LiveTxn (Body : Type) where
  pass : LivePass Body
  recorded : Recorded Body
  /-- The facts that the stored deadline year was read from. -/
  yearFacts : Option FactsTable
  /-- The facts that the select of the write saw. -/
  seen : Option FactsTable

structure RemapTxn (Body : Type) where
  accepts : Statement → Bool
  now : Nat
  bodies : TabName → Option (Snapshot Body)
  ids : Option (TabName → Option (Snapshot Body))
  seen : Option FactsTable

structure Shared (Body : Type) where
  db : School Body
  live : Option (LiveTxn Body)
  remaps : Nat → Option (RemapTxn Body)

inductive Move (Body : Type) where
  | livePages (pass : LivePass Body)
  | liveYear
  | liveSelect
  | liveCommit
  | liveAbort
  | remapBodies (i : Nat) (accepts : Statement → Bool) (now : Nat)
  | remapIds (i : Nat)
  | remapSelect (i : Nat)
  | remapCommit (i : Nat)
  | remapAbort (i : Nat)

section Step
variable (site : Site Body Page) (settings : Settings)

/-- The pages of the live transaction over the committed school. -/
def LiveTxn.start (txn : LiveTxn Body) (db : School Body) : School Body :=
  { db with
    pages := txn.recorded.school.pages
    snapshots := txn.recorded.school.snapshots
    nextSnapshotId := txn.recorded.school.nextSnapshotId }

def LiveTxn.args (txn : LiveTxn Body) (yearFacts : FactsTable) : WriteArgs Page :=
  liveArgs site.reader settings txn.pass.fetched
    { txn.recorded with school := { txn.recorded.school with facts := yearFacts } }

/-- What the live transaction commits; `none` while it has not read what it needs. -/
def LiveTxn.commit (txn : LiveTxn Body) (db : School Body) : Option (School Body) :=
  if txn.recorded.changedTabs = [] then some (txn.start db)
  else
    match txn.yearFacts, txn.seen with
    | some yearFacts, some seen =>
      some (Transactions.commit db (writeSchoolSeen site.reader settings txn.pass.accepts txn.pass.now
        seen (txn.args site settings yearFacts) (txn.start db)))
    | _, _ => none

def RemapTxn.pages (txn : RemapTxn Body) (tab : TabName) : Option Page :=
  (txn.bodies tab).bind fun snapshot => site.reader.parsePage tab snapshot.body

def RemapTxn.args (txn : RemapTxn Body) (ids : TabName → Option (Snapshot Body)) : WriteArgs Page where
  pages := txn.pages site
  changedTabs := tabNames.filter fun tab => (txn.pages site tab).isSome
  snapshotIds tab := ((ids tab).map Snapshot.id).getD 0
  snapshotSha256 tab := ((txn.bodies tab).map Snapshot.sha).getD 0
  fallbackCycleYear := settings.currentAdmissionsCycleYear

def RemapTxn.commit (txn : RemapTxn Body) (db : School Body) : Option (School Body) :=
  match txn.ids, txn.seen with
  | some ids, some seen =>
    some (if (txn.args site settings ids).changedTabs = [] then db
      else Transactions.commit db (writeSchoolSeen site.reader settings txn.accepts txn.now seen
        (txn.args site settings ids) db))
  | _, _ => none

def Shared.setRemap (shared : Shared Body) (i : Nat) (txn : Option (RemapTxn Body)) : Shared Body :=
  { shared with remaps := Function.update shared.remaps i txn }

def step (shared : Shared Body) : Move Body → Option (Shared Body)
  | .livePages pass =>
    match shared.live with
    | none => some { shared with live := some ⟨pass, pass.recorded site settings shared.db, none, none⟩ }
    | some _ => none
  | .liveYear => shared.live.map fun txn =>
      { shared with live := some { txn with yearFacts := some shared.db.facts } }
  | .liveSelect => shared.live.map fun txn =>
      { shared with live := some { txn with seen := some shared.db.facts } }
  | .liveCommit => shared.live.bind fun txn =>
      (txn.commit site settings shared.db).map fun db => { shared with db := db, live := none }
  | .liveAbort => some { shared with live := none }
  | .remapBodies i accepts now =>
    match shared.remaps i with
    | none => some (shared.setRemap i (some ⟨accepts, now, shared.db.latest, none, none⟩))
    | some _ => none
  | .remapIds i => (shared.remaps i).map fun txn =>
      shared.setRemap i (some { txn with ids := some shared.db.latest })
  | .remapSelect i => (shared.remaps i).map fun txn =>
      shared.setRemap i (some { txn with seen := some shared.db.facts })
  | .remapCommit i => (shared.remaps i).bind fun txn =>
      (txn.commit site settings shared.db).map fun db => { shared.setRemap i none with db := db }
  | .remapAbort i => some (shared.setRemap i none)

/-- A transaction that commits would read again what it has read. -/
def UpToDate (shared : Shared Body) : Move Body → Prop
  | .liveCommit => ∀ txn, shared.live = some txn →
      txn.recorded = txn.pass.recorded site settings shared.db ∧
      (∀ facts, txn.yearFacts = some facts → facts = shared.db.facts) ∧
      (∀ facts, txn.seen = some facts → facts = shared.db.facts) ∧
      ((txn.pass.recorded site settings shared.db).changedTabs = [] ∨
        Smooth site settings shared.db txn.pass)
  | .remapCommit i => ∀ txn, shared.remaps i = some txn →
      txn.bodies = shared.db.latest ∧
      (∀ ids, txn.ids = some ids → ids = shared.db.latest) ∧
      ∀ facts, txn.seen = some facts → facts = shared.db.facts
  | _ => True

end Step

variable {site : Site Body Page} {settings : Settings}

theorem writeSchoolSeen_self (reader : Reader Body Page) (settings : Settings)
    (accepts : Statement → Bool) (now : Nat) (args : WriteArgs Page) (start : School Body) :
    writeSchoolSeen reader settings accepts now start.facts args start =
      writeSchool reader settings accepts now args start := by
  unfold writeSchoolSeen writeSchool
  cases reader.mapSnapshot args.pages args.fallbackCycleYear with
  | error e => rw [Txn.bind_compute_error rfl, Txn.bind_compute_error rfl]
  | ok rows =>
    rw [Txn.bind_compute_ok rfl, Txn.bind_compute_ok rfl]
    cases accepts .basicProfile with
    | false => rw [Txn.bind_read_refused rfl, Txn.bind_read_refused rfl]
    | true =>
      rw [Txn.bind_read rfl, Txn.bind_read rfl]
      cases start.profile with
      | none => rw [Txn.bind_compute_error rfl, Txn.bind_compute_error rfl]
      | some profile =>
        rw [Txn.bind_compute_ok rfl, Txn.bind_compute_ok rfl]
        cases ipedsFilterColumns profile with
        | error e => rw [Txn.bind_compute_error rfl, Txn.bind_compute_error rfl]
        | ok columns =>
          rw [Txn.bind_compute_ok rfl, Txn.bind_compute_ok rfl]
          rfl

variable {shared next : Shared Body} {move : Move Body}

theorem start_recorded (pass : LivePass Body) (db : School Body) (txn : LiveTxn Body)
    (recorded : txn.recorded = pass.recorded site settings db) :
    txn.start db = (pass.recorded site settings db).school := by
  have recording := recorded_spec site settings db pass
  unfold LiveTxn.start
  rw [recorded, ← recording.facts, ← recording.explore, ← recording.profile]

theorem live_commit {txn : LiveTxn Body} {db after : School Body}
    (recorded : txn.recorded = txn.pass.recorded site settings db)
    (year : ∀ facts, txn.yearFacts = some facts → facts = db.facts)
    (seen : ∀ facts, txn.seen = some facts → facts = db.facts)
    (committed : txn.commit site settings db = some after) :
    after = (processSchoolLive site.reader settings txn.pass.accepts txn.pass.now
      txn.pass.fetched db).1 := by
  have recording := recorded_spec site settings db txn.pass
  have isStart := start_recorded txn.pass db txn recorded
  rw [processSchoolLive_fst]
  unfold LiveTxn.commit at committed
  rw [isStart, recorded] at committed
  by_cases unchanged : (txn.pass.recorded site settings db).changedTabs = []
  · rw [if_pos unchanged, Option.some.injEq] at committed
    rw [← committed]
    exact (if_pos unchanged).symm
  · rw [if_neg unchanged] at committed
    refine Eq.trans ?_ (if_neg unchanged).symm
    cases isYear : txn.yearFacts with
    | none => simp [isYear] at committed
    | some yearFacts =>
      cases isSeen : txn.seen with
      | none => simp [isYear, isSeen] at committed
      | some facts =>
        have sameFacts : (txn.pass.recorded site settings db).school.facts = db.facts := recording.facts
        have sameArgs : txn.args site settings yearFacts = txn.pass.args site settings db := by
          unfold LiveTxn.args LivePass.args
          rw [recorded, year yearFacts isYear, ← sameFacts]
        rw [isYear, isSeen] at committed
        dsimp only at committed
        rw [sameArgs, seen facts isSeen, ← sameFacts, writeSchoolSeen_self, Option.some.injEq] at committed
        exact committed.symm

theorem remap_commit {txn : RemapTxn Body} {db after : School Body}
    (bodies : txn.bodies = db.latest) (ids : ∀ found, txn.ids = some found → found = db.latest)
    (seen : ∀ facts, txn.seen = some facts → facts = db.facts)
    (committed : txn.commit site settings db = some after) :
    after = (processSchoolRemap site.reader settings txn.accepts txn.now db).1 := by
  rw [processSchoolRemap_fst]
  unfold RemapTxn.commit at committed
  cases isIds : txn.ids with
  | none => simp [isIds] at committed
  | some found =>
    cases isSeen : txn.seen with
    | none => simp [isIds, isSeen] at committed
    | some facts =>
      have sameArgs : txn.args site settings found = remapArgs site.reader settings db := by
        unfold RemapTxn.args RemapTxn.pages
        rw [bodies, ids found isIds]
        rfl
      rw [isIds, isSeen] at committed
      dsimp only at committed
      rw [sameArgs, seen facts isSeen, writeSchoolSeen_self, Option.some.injEq] at committed
      exact committed.symm

theorem step_mapped (mapped : Mapped site settings shared.db) (ok : UpToDate site settings shared move)
    (stepped : step site settings shared move = some next) : Mapped site settings next.db := by
  cases move with
  | livePages pass =>
    unfold step at stepped
    dsimp only at stepped
    split at stepped <;> cases stepped
    exact mapped
  | liveYear =>
    obtain ⟨txn, _, rfl⟩ := Option.map_eq_some_iff.mp stepped
    exact mapped
  | liveSelect =>
    obtain ⟨txn, _, rfl⟩ := Option.map_eq_some_iff.mp stepped
    exact mapped
  | liveCommit =>
    obtain ⟨txn, isLive, committed⟩ := Option.bind_eq_some_iff.mp stepped
    obtain ⟨db, isDb, rfl⟩ := Option.map_eq_some_iff.mp committed
    obtain ⟨recorded, year, seen, smooth⟩ := ok txn isLive
    rw [live_commit recorded year seen isDb]
    exact mapped_live mapped smooth
  | liveAbort =>
    cases stepped
    exact mapped
  | remapBodies i accepts now =>
    unfold step at stepped
    dsimp only at stepped
    split at stepped <;> cases stepped
    exact mapped
  | remapIds i =>
    obtain ⟨txn, _, rfl⟩ := Option.map_eq_some_iff.mp stepped
    exact mapped
  | remapSelect i =>
    obtain ⟨txn, _, rfl⟩ := Option.map_eq_some_iff.mp stepped
    exact mapped
  | remapCommit i =>
    obtain ⟨txn, isRemap, committed⟩ := Option.bind_eq_some_iff.mp stepped
    obtain ⟨db, isDb, rfl⟩ := Option.map_eq_some_iff.mp committed
    obtain ⟨bodies, ids, seen⟩ := ok txn isRemap
    rw [remap_commit bodies ids seen isDb]
    obtain ⟨facts, pages⟩ := remap_idle mapped txn.accepts txn.now
    refine mapped.congr (fun tab => ?_) facts
    unfold School.latest
    rw [pages]
  | remapAbort i =>
    cases stepped
    exact mapped

/-- The open facts are the mapping of the latest stored snapshots: each key that a
stored page gives a value is open with it, read off that snapshot, and no other is. -/
structure FactsOfPages (site : Site Body Page) (settings : Settings) (db : School Body) : Prop where
  held : ∀ tab k new, given site settings db tab k = some new →
    ∃ old, db.facts.find k = some old ∧ Carries settings db new old
  only : ∀ k old, db.facts.find k = some old → ∃ tab new, given site settings db tab k = some new

def quiet (db : School Body) : Shared Body := ⟨db, none, fun _ => none⟩

def liveMoves (day now : Nat) : List (Move Nat) :=
  [.livePages (marchPass none day now), .liveYear, .liveSelect, .liveCommit]

/-- The remap reads the bodies of March 1, the crawl commits March 2, and then the remap
reads the facts and writes. -/
def staleRemap : List (Move Nat) :=
  liveMoves 1 5 ++ [.remapBodies 0 (fun _ => true) 6, .remapIds 0] ++ liveMoves 2 7 ++
    [.remapSelect 0, .remapCommit 0]

end Counselle.Facts

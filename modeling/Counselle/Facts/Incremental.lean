import Counselle.Facts.Stored
import Counselle.Transition

/-! Runs of live passes over a school. Hashes, snapshots and facts advance together as
long as a pass that stores a changed page also writes its facts, under the cycle year a
remap would take; then the open facts are what a remap of the stored pages would leave. -/
namespace Counselle.Facts
open PyText (PyError)
open Versions (Table)
open Transactions (Txn Failure commit)

variable {Body Page : Type}

structure LivePass (Body : Type) where
  fetched : TabName → Fetched Body
  accepts : Statement → Bool
  now : Nat

section Pass
variable (site : Site Body Page) (settings : Settings) (school : School Body) (pass : LivePass Body)

def LivePass.recorded : Recorded Body :=
  recordPages site.reader settings pass.now pass.fetched school

def LivePass.args : WriteArgs Page :=
  liveArgs site.reader settings pass.fetched (pass.recorded site settings school)

def LivePass.year : Int :=
  site.mapper.cycleYear (pass.args site settings school).pages
    (pass.args site settings school).fallbackCycleYear

/-- The block writes the facts, and the transaction is not rolled back. -/
def writesFacts (reader : Reader Body Page) (settings : Settings) (accepts : Statement → Bool)
    (now : Nat) (args : WriteArgs Page) (start : School Body) : Bool :=
  match reader.mapSnapshot args.pages args.fallbackCycleYear, start.profile with
  | .ok rows, some profile =>
    accepts .basicProfile && (ipedsFilterColumns profile).isOk && accepts .writeFacts &&
      (writeSchoolFacts start.facts (args.call settings now rows)).isSome &&
      match (writeSchool reader settings accepts now args start).2 with
      | .error .refused => false
      | _ => true
  | _, _ => false

def LivePass.writes : Bool :=
  writesFacts site.reader settings pass.accepts pass.now (pass.args site settings school)
    (pass.recorded site settings school).school

/-- What two rows of a page say of a key under two cycle years is the same. -/
def said (new : MappedRow) : NormalizedValue × String := (new.value, new.row.sourcePath)

/-- A pass with a changed tab that a remap would have nothing to add to. -/
structure Smooth : Prop where
  /-- A page with the hash of a stored one is that page. -/
  faithful : ∀ tab body sha page, pass.fetched tab = .page body →
    readPage site.reader tab body = some (sha, page) →
    ∀ snapshot, (snapshot ∈ school.snapshots tab ∨ school.latest tab = some snapshot) →
      snapshot.sha = sha → snapshot.body = body
  /-- Neither the mapper nor a statement fails. -/
  writes : pass.writes site settings school = true
  maps : ∀ tab page,
    storedPages site.reader (pass.recorded site settings school).school tab = some page →
    ∃ rows, site.mapper.tabRows tab page
      (remapYear site settings (pass.recorded site settings school).school) = .ok rows
  /-- No two stored pages give one key a value. -/
  alone : ∀ k tab other,
    given site settings (pass.recorded site settings school).school tab k ≠ none →
    given site settings (pass.recorded site settings school).school other k ≠ none → tab = other
  /-- The year that a page's facts were written under says of them what the year of a
  remap would. -/
  sameYear : ∀ tab page k,
    storedPages site.reader (pass.recorded site settings school).school tab = some page →
    (given site settings (pass.recorded site settings school).school tab k).map said =
      (site.mapper.gives tab page
        (if tab ∈ (pass.recorded site settings school).changedTabs then pass.year site settings school
          else remapYear site settings school) k).map said
  /-- A key whose value stays is not taken to another tab. -/
  stays : ∀ tab ∈ (pass.recorded site settings school).changedTabs, ∀ k new old,
    given site settings (pass.recorded site settings school).school tab k = some new →
    school.facts.find k = some old → valueChanged old new.value = false → old.tab = tab

end Pass

variable {site : Site Body Page} {settings : Settings} {school : School Body} {pass : LivePass Body}

theorem writesFacts_commit {reader : Reader Body Page} {accepts : Statement → Bool} {now : Nat}
    {args : WriteArgs Page} {began start : School Body}
    (writes : writesFacts reader settings accepts now args start = true) :
    ∃ rows written explore, reader.mapSnapshot args.pages args.fallbackCycleYear = .ok rows ∧
      writeSchoolFacts start.facts (args.call settings now rows) = some written ∧
      commit began (writeSchool reader settings accepts now args start) =
        { start with facts := written.1, explore := explore } := by
  unfold writesFacts at writes
  split at writes
  case h_1 rows profile mapped held =>
    simp only [Bool.and_eq_true] at writes
    obtain ⟨⟨⟨⟨readable, known⟩, accepted⟩, through⟩, unrefused⟩ := writes
    have isWritten : args.Writes reader settings accepts now start profile
        (args.call settings now rows) := by
      refine ⟨⟨rows, mapped, rfl⟩, readable, held, ?_⟩
      cases columns : ipedsFilterColumns profile with
      | ok found => exact ⟨found, rfl⟩
      | error e => simp [columns, Except.isOk, Except.toBool] at known
    generalize ran : writeSchool reader settings accepts now args start = ended at unrefused
    cases (ran ▸ writeSchool_course reader settings accepts now args start :
      Course reader settings accepts now args start ended) with
    | early error unwritten _ => exact absurd isWritten (unwritten _ _)
    | refused last _ => simp at unrefused
    | detached profile' call error written writes' _ through' _ =>
      obtain ⟨rows', mapped', rfl⟩ := writes'.mapped
      exact ⟨rows', written, _, mapped', through', rfl⟩
    | projected profile' call row written unmapped writes' _ through' _ =>
      obtain ⟨rows', mapped', rfl⟩ := writes'.mapped
      exact ⟨rows', written, _, mapped', through', rfl⟩
  case h_2 => cases writes

section Recorded

theorem recorded_spec (site : Site Body Page) (settings : Settings) (school : School Body)
    (pass : LivePass Body) : Recording site.reader pass.fetched school
      (pass.recorded site settings school) tabNames :=
  recordPages_spec site.reader settings pass.now pass.fetched school

theorem storedPages_congr {first second : School Body} {tab : TabName}
    (latest : first.latest tab = second.latest tab) :
    storedPages site.reader first tab = storedPages site.reader second tab := by
  unfold storedPages
  rw [latest]

theorem given_congr {first second : School Body} (latest : ∀ tab, first.latest tab = second.latest tab) :
    given site settings first = given site settings second := by
  have pages : storedPages site.reader first = storedPages site.reader second :=
    funext fun tab => storedPages_congr (latest tab)
  funext tab k
  unfold given remapYear
  rw [pages]

theorem Mapped.congr {other : School Body} (mapped : Mapped site settings school)
    (latest : ∀ tab, other.latest tab = school.latest tab)
    (facts : ∀ k, other.facts.find k = school.facts.find k) : Mapped site settings other := by
  have pages : storedPages site.reader other = storedPages site.reader school :=
    funext fun tab => storedPages_congr (latest tab)
  have same := @given_congr _ _ site settings _ _ latest
  have year : remapYear site settings other = remapYear site settings school := by
    unfold remapYear
    rw [pages]
  constructor
  · intro tab snapshot isLatest
    exact mapped.parses tab snapshot (latest tab ▸ isLatest)
  · intro tab page stored
    rw [pages] at stored
    rw [year]
    exact mapped.maps tab page stored
  · rw [same]
    exact mapped.alone
  · intro tab k new isGiven
    rw [same] at isGiven
    obtain ⟨old, found, carries⟩ := mapped.held tab k new isGiven
    refine ⟨old, (facts k).trans found, ?_⟩
    exact { carries with snapshot := fun snapshot isLatest => carries.snapshot snapshot (latest _ ▸ isLatest) }
  · intro k old found
    rw [same]
    exact mapped.only k old ((facts k).symm.trans found)

theorem unchanged_latest {tab : TabName} (out : tab ∉ (pass.recorded site settings school).changedTabs) :
    (pass.recorded site settings school).school.latest tab = school.latest tab := by
  cases (recorded_spec site settings school pass).ofTab tab with
  | changed body sha page snapshot fetch read differs isIn => exact absurd isIn out
  | unchanged _ latest _ => exact latest

theorem changed_page (smooth : Smooth site settings school pass) {tab : TabName}
    (isIn : tab ∈ (pass.recorded site settings school).changedTabs) :
    ∃ page snapshot, (pass.args site settings school).pages tab = some page ∧
      storedPages site.reader (pass.recorded site settings school).school tab = some page ∧
      (pass.recorded site settings school).school.latest tab = some snapshot ∧
      site.parsePage tab snapshot.body = some page ∧
      (pass.recorded site settings school).snapshotIds tab = snapshot.id := by
  cases (recorded_spec site settings school pass).ofTab tab with
  | changed body sha page snapshot fetch read differs _ latest isSha id source =>
    have isBody : snapshot.body = body := by
      rcases source with seen | same
      · exact smooth.faithful tab body sha page fetch read snapshot (.inl seen) isSha
      · exact same
    have parses : site.parsePage tab body = some page := by
      obtain ⟨sha', _, parsed⟩ := Option.bind_eq_some_iff.mp read
      obtain ⟨page', isPage, same⟩ := Option.map_eq_some_iff.mp parsed
      rw [Prod.mk.injEq] at same
      exact same.2 ▸ isPage
    refine ⟨page, snapshot, ?_, ?_, latest, isBody ▸ parses, id⟩
    · change parsedPages site.reader pass.fetched tab = some page
      simp [parsedPages, fetch, read]
    · unfold storedPages
      rw [latest, Option.bind_some, isBody]
      exact parses
  | unchanged out _ _ => exact absurd isIn out

end Recorded

section Step
variable {rows : List FactRow}

theorem pass_new (smooth : Smooth site settings school pass)
    (ran : site.mapper.mapSnapshot (pass.args site settings school).pages
      (pass.args site settings school).fallbackCycleYear = .ok rows) (k : String) :
    (∀ tab ∈ (pass.recorded site settings school).changedTabs, ∀ new,
      given site settings (pass.recorded site settings school).school tab k = some new →
      ∃ row, ((pass.args site settings school).call settings pass.now rows).new k = some row ∧
        said row = said new ∧ row.row.tab = tab) ∧
    ((∀ tab ∈ (pass.recorded site settings school).changedTabs,
      given site settings (pass.recorded site settings school).school tab k = none) →
      ((pass.args site settings school).call settings pass.now rows).new k = none) := by
  have agree : ∀ tab ∈ (pass.recorded site settings school).changedTabs,
      (lastValue (Mapper.ofTab tab rows) k).map said =
        (given site settings (pass.recorded site settings school).school tab k).map said := by
    intro tab isIn
    obtain ⟨page, _, parsed, stored, _⟩ := changed_page smooth isIn
    rw [lastValue_ofTab ran tab k, parsed, smooth.sameYear tab page k stored, if_pos isIn]
    rfl
  have unvalued : ∀ tab ∈ (pass.recorded site settings school).changedTabs,
      given site settings (pass.recorded site settings school).school tab k = none →
        lastValue (Mapper.ofTab tab rows) k = none := by
    intro tab isIn ungiven
    have same := agree tab isIn
    rw [ungiven, Option.map_none, Option.map_eq_none_iff] at same
    exact same
  constructor
  · intro tab isIn new isGiven
    have same := agree tab isIn
    rw [isGiven, Option.map_some, Option.map_eq_some_iff] at same
    obtain ⟨row, last, saidRow⟩ := same
    refine ⟨row, ?_, saidRow, ?_⟩
    · rw [@FactsWrite.new_eq_lastValue _ k tab isIn]
      · exact last
      · intro other otherIn differs
        refine unvalued other otherIn ?_
        by_contra valued
        exact differs (smooth.alone k other tab valued (by simp [isGiven]))
    · have isOfTab := lastValue_mem last
      simpa [Mapper.ofTab] using (List.mem_filter.mp isOfTab).2
  · intro ungiven
    exact FactsWrite.new_eq_none fun tab isIn => unvalued tab isIn (ungiven tab isIn)

theorem said_eq {row new : MappedRow} (same : said row = said new) :
    row.value = new.value ∧ row.row.sourcePath = new.row.sourcePath := by
  simpa [said] using same

theorem held_live (mapped : Mapped site settings school) (smooth : Smooth site settings school pass)
    (ran : site.mapper.mapSnapshot (pass.args site settings school).pages
      (pass.args site settings school).fallbackCycleYear = .ok rows)
    {tab : TabName} {k : String} {new : MappedRow}
    (isGiven : given site settings (pass.recorded site settings school).school tab k = some new) :
    ∃ old, ((pass.args site settings school).call settings pass.now rows).settled
        (school.facts.find k)
        (((pass.args site settings school).call settings pass.now rows).new k) = some old ∧
      Carries settings (pass.recorded site settings school).school new old := by
  obtain ⟨rowTab, rowKey⟩ := given_row isGiven
  by_cases isIn : tab ∈ (pass.recorded site settings school).changedTabs
  · obtain ⟨row, isNew, saidRow, isTab⟩ := (pass_new smooth ran k).1 tab isIn new isGiven
    obtain ⟨sameValue, samePath⟩ := said_eq saidRow
    obtain ⟨page, snapshot, _, _, latest, _, id⟩ := changed_page smooth isIn
    have newId : ∀ found, (pass.recorded site settings school).school.latest new.row.tab = some found →
        (pass.recorded site settings school).snapshotIds row.row.tab = found.id := by
      intro found isLatest
      rw [rowTab, latest, Option.some.injEq] at isLatest
      rw [isTab, id, isLatest]
    have inserted : Carries settings (pass.recorded site settings school).school new
        (((pass.args site settings school).call settings pass.now rows).insertRow row) := by
      refine ⟨?_, isTab.trans rowTab.symm, by rw [← sameValue]; rfl, by rw [← sameValue]; rfl,
        samePath, rfl, newId⟩
      rw [← sameValue]
      obtain ⟨kind, typed, value, _⟩ := FactsWrite.stores_insertRow
        ((pass.args site settings school).call settings pass.now rows) row
      exact FactsWrite.valueChanged_false.mpr ⟨kind, typed, value⟩
    rw [isNew]
    cases found : school.facts.find k with
    | none => exact ⟨_, rfl, inserted⟩
    | some old =>
      by_cases changed : valueChanged old row.value = true
      · exact ⟨_, by rw [FactsWrite.settled, if_pos changed], inserted⟩
      · rw [Bool.not_eq_true] at changed
        refine ⟨_, by rw [FactsWrite.settled, if_neg (by simp [changed])], ?_⟩
        have stays := smooth.stays tab isIn k new old isGiven found (sameValue ▸ changed)
        refine ⟨?_, stays.trans rowTab.symm, by rw [← sameValue]; rfl, by rw [← sameValue]; rfl,
          samePath, rfl, newId⟩
        rw [← sameValue]
        exact changed
  · have latest := unchanged_latest isIn
    obtain ⟨page, stored, _⟩ := Option.bind_eq_some_iff.mp isGiven
    have before : (given site settings school tab k).map said = some (said new) := by
      have same := smooth.sameYear tab page k stored
      rw [isGiven, if_neg isIn] at same
      rw [storedPages_congr latest] at stored
      rw [given, stored]
      exact same.symm
    obtain ⟨row, wasGiven, saidRow⟩ := Option.map_eq_some_iff.mp before
    obtain ⟨sameValue, samePath⟩ := said_eq saidRow
    obtain ⟨old, found, carries⟩ := mapped.held tab k row wasGiven
    have wasTab := (given_row wasGiven).1
    have unvalued : ((pass.args site settings school).call settings pass.now rows).new k = none := by
      refine (pass_new smooth ran k).2 fun other otherIn => ?_
      by_contra valued
      exact isIn (smooth.alone k other tab valued (by simp [isGiven]) ▸ otherIn)
    have kept : old.tab ∉ ((pass.args site settings school).call settings pass.now rows).changedTabs := by
      rw [carries.tab, wasTab]
      exact isIn
    rw [unvalued, found]
    refine ⟨old, if_neg kept, ?_⟩
    obtain ⟨unchanged, tabs, display, unit, path, version, snapshot⟩ := carries
    rw [sameValue] at unchanged display unit
    refine ⟨unchanged, tabs.trans (wasTab.trans rowTab.symm), display, unit, path.trans samePath, version, ?_⟩
    intro found isLatest
    refine snapshot found ?_
    rw [rowTab, latest] at isLatest
    rw [wasTab]
    exact isLatest

theorem only_live (mapped : Mapped site settings school) (smooth : Smooth site settings school pass)
    (ran : site.mapper.mapSnapshot (pass.args site settings school).pages
      (pass.args site settings school).fallbackCycleYear = .ok rows) {k : String} {old : SchoolFact}
    (found : ((pass.args site settings school).call settings pass.now rows).settled
      (school.facts.find k)
      (((pass.args site settings school).call settings pass.now rows).new k) = some old) :
    ∃ tab new, given site settings (pass.recorded site settings school).school tab k = some new := by
  by_contra ungiven
  push Not at ungiven
  have allNone : ∀ tab, given site settings (pass.recorded site settings school).school tab k = none :=
    fun tab => Option.eq_none_iff_forall_ne_some.mpr (ungiven tab)
  rw [(pass_new smooth ran k).2 fun tab _ => allNone tab] at found
  cases held : school.facts.find k with
  | none =>
    rw [held] at found
    cases found
  | some before =>
    rw [held, FactsWrite.settled] at found
    split at found
    case isTrue _ => cases found
    case isFalse kept =>
      obtain ⟨tab, new, wasGiven⟩ := mapped.only k before held
      obtain ⟨old', found', carries⟩ := mapped.held tab k new wasGiven
      rw [held, Option.some.injEq] at found'
      subst found'
      have isOut : tab ∉ (pass.recorded site settings school).changedTabs := by
        rw [carries.tab, (given_row wasGiven).1] at kept
        exact kept
      obtain ⟨page, stored, gives⟩ := Option.bind_eq_some_iff.mp wasGiven
      rw [← storedPages_congr (unchanged_latest isOut)] at stored
      have same := smooth.sameYear tab page k stored
      rw [allNone tab, if_neg isOut, gives] at same
      cases same

end Step

theorem mapped_live (mapped : Mapped site settings school)
    (ok : (pass.recorded site settings school).changedTabs = [] ∨ Smooth site settings school pass) :
    Mapped site settings
      (processSchoolLive site.reader settings pass.accepts pass.now pass.fetched school).1 := by
  have recording := recorded_spec site settings school pass
  rw [processSchoolLive_fst]
  by_cases unchanged : (pass.recorded site settings school).changedTabs = []
  · have same : (recordPages site.reader settings pass.now pass.fetched school).changedTabs = [] :=
      unchanged
    rw [if_pos same]
    refine mapped.congr (fun tab => unchanged_latest ?_) fun k => ?_
    · rw [unchanged]
      exact List.not_mem_nil
    · exact congrArg (fun facts : FactsTable => facts.find k) recording.facts
  · have changed : ¬ (recordPages site.reader settings pass.now pass.fetched school).changedTabs = [] :=
      unchanged
    have smooth := ok.resolve_left unchanged
    obtain ⟨rows, written, explore, ran, through, ended⟩ := @writesFacts_commit _ _ settings _ _ _ _ school _ smooth.writes
    have settles : ∀ k, written.1.find k =
        ((pass.args site settings school).call settings pass.now rows).settled (school.facts.find k)
          (((pass.args site settings school).call settings pass.now rows).new k) := by
      intro k
      rw [find_writeSchoolFacts through k, recording.facts]
    rw [if_neg changed]
    refine @Mapped.congr _ _ site settings { (pass.recorded site settings school).school with
      facts := written.1, explore := explore } _ ?_ (fun tab => ?_) fun k => ?_
    · constructor
      · intro tab snapshot isLatest
        by_cases isIn : tab ∈ (pass.recorded site settings school).changedTabs
        · obtain ⟨page, stored, _, _, latest, parses, _⟩ := changed_page smooth isIn
          have same : some snapshot = some stored := isLatest.symm.trans latest
          exact ⟨page, Option.some.inj same ▸ parses⟩
        · exact mapped.parses tab snapshot ((unchanged_latest isIn).symm.trans isLatest)
      · exact smooth.maps
      · exact smooth.alone
      · intro tab k new isGiven
        obtain ⟨old, found, carries⟩ := held_live mapped smooth ran isGiven
        exact ⟨old, (settles k).trans found, { carries with snapshot := carries.snapshot }⟩
      · intro k old found
        exact only_live mapped smooth ran ((settles k).symm.trans found)
    · exact congrArg (fun after : School Body => after.latest tab) ended
    · exact congrArg (fun after : School Body => after.facts.find k) ended

/-- The school, and for each tab the snapshot whose facts were last written. -/
structure Tracked (Body : Type) where
  school : School Body
  written : TabName → Option Nat

def crawl (site : Site Body Page) (settings : Settings) (tracked : Tracked Body)
    (pass : LivePass Body) : Option (Tracked Body) :=
  let recorded := pass.recorded site settings tracked.school
  some {
    school := (processSchoolLive site.reader settings pass.accepts pass.now pass.fetched
      tracked.school).1
    written tab :=
      if tab ∈ recorded.changedTabs ∧ pass.writes site settings tracked.school then
        some (recorded.snapshotIds tab)
      else tracked.written tab }

/-- A remap would leave the open facts as they are, and no snapshot is stored, to be
found unchanged, without its facts having been written. -/
structure EndsAsRemap (site : Site Body Page) (settings : Settings) (tracked : Tracked Body) : Prop where
  facts : ∀ accepts now k,
    (processSchoolRemap site.reader settings accepts now tracked.school).1.facts.find k =
      tracked.school.facts.find k
  written : ∀ tab snapshot, tracked.school.latest tab = some snapshot →
    tracked.written tab = some snapshot.id

structure Uncrawled (school : School Body) : Prop where
  pages : ∀ tab, school.latest tab = none
  facts : ∀ k, school.facts.find k = none

def SmoothStep (site : Site Body Page) (settings : Settings) (tracked : Tracked Body)
    (pass : LivePass Body) : Prop :=
  (pass.recorded site settings tracked.school).changedTabs = [] ∨
    Smooth site settings tracked.school pass

variable {tracked next : Tracked Body}

theorem Uncrawled.mapped (fresh : Uncrawled school) : Mapped site settings school := by
  have noPage : ∀ tab, storedPages site.reader school tab = none := by
    intro tab
    unfold storedPages
    rw [fresh.pages tab]
    rfl
  have nothing : ∀ tab k, given site settings school tab k = none := by
    intro tab k
    unfold given
    rw [noPage tab]
    rfl
  constructor
  · intro tab snapshot latest
    rw [fresh.pages tab] at latest
    cases latest
  · intro tab page stored
    rw [noPage tab] at stored
    cases stored
  · intro k tab other isGiven
    exact absurd (nothing tab k) isGiven
  · intro tab k new isGiven
    rw [nothing tab k] at isGiven
    cases isGiven
  · intro k old found
    rw [fresh.facts k] at found
    cases found

theorem latest_live (school : School Body) (pass : LivePass Body)
    (ok : (pass.recorded site settings school).changedTabs = [] ∨ Smooth site settings school pass)
    (tab : TabName) :
    (processSchoolLive site.reader settings pass.accepts pass.now pass.fetched school).1.latest tab =
      (pass.recorded site settings school).school.latest tab := by
  rw [processSchoolLive_fst]
  split
  case isTrue _ => rfl
  case isFalse changed =>
    obtain ⟨rows, written, explore, _, _, ended⟩ :=
      @writesFacts_commit _ _ settings _ _ _ _ school _ (ok.resolve_left changed).writes
    refine (congrArg (fun after : School Body => after.latest tab) ended).trans ?_
    rfl

structure Kept (site : Site Body Page) (settings : Settings) (tracked : Tracked Body) : Prop where
  mapped : Mapped site settings tracked.school
  written : ∀ tab snapshot, tracked.school.latest tab = some snapshot →
    tracked.written tab = some snapshot.id

theorem Kept.step (kept : Kept site settings tracked) (smooth : SmoothStep site settings tracked pass)
    (stepped : crawl site settings tracked pass = some next) : Kept site settings next := by
  cases stepped
  constructor
  · exact mapped_live kept.mapped smooth
  · intro tab snapshot latest
    have isLatest := (latest_live tracked.school pass smooth tab).symm.trans latest
    by_cases isIn : tab ∈ (pass.recorded site settings tracked.school).changedTabs
    · have isSmooth := smooth.resolve_left (List.ne_nil_of_mem isIn)
      obtain ⟨page, stored, _, _, held, _, id⟩ := changed_page isSmooth isIn
      have same : snapshot = stored := Option.some.inj (isLatest.symm.trans held)
      exact (if_pos ⟨isIn, isSmooth.writes⟩).trans (congrArg some (id.trans (same ▸ rfl)))
    · have notBoth : ¬ (tab ∈ (pass.recorded site settings tracked.school).changedTabs ∧
          pass.writes site settings tracked.school = true) := fun both => isIn both.1
      rw [unchanged_latest isIn] at isLatest
      exact (if_neg notBoth).trans (kept.written tab snapshot isLatest)

theorem Kept.endsAsRemap (kept : Kept site settings tracked) : EndsAsRemap site settings tracked :=
  ⟨fun accepts now => (remap_idle kept.mapped accepts now).1, kept.written⟩

/-- Every run of smooth passes from an uncrawled school ends where a remap would. -/
theorem crawl_ends_as_remap (site : Site Body Page) (settings : Settings) (began ended : Tracked Body)
    (passes : List (LivePass Body)) (fresh : Uncrawled began.school)
    (path : Transition.run (crawl site settings) began passes = some ended)
    (smooth : Transition.Meets (crawl site settings) (SmoothStep site settings) began passes) :
    EndsAsRemap site settings ended := by
  have begun : Kept site settings began := by
    refine ⟨fresh.mapped, fun tab snapshot latest => ?_⟩
    rw [fresh.pages tab] at latest
    cases latest
  exact (Transition.invariant_of_meets (fun kept ok stepped => Kept.step kept ok stepped) begun path
    smooth).endsAsRemap

theorem no_number : none ≠ some PyJson.PyFloat.nan := by simp

def dateValue (display : String) (day : Calendar.Date) (shown : display ≠ "") : NormalizedValue where
  kind := .date
  display := display
  typed := { date := some day }
  shown := shown
  finite := null_isFinite
  oneTyped := by simp [Typed.columns]
  number := no_number

def regularRow (day : Calendar.Date) : FactRow where
  factKey := "deadlines.regular"
  tab := .admission
  section_ := "applying"
  label := "Regular Admission Deadline"
  value := some (dateValue "January 2" day (by decide))
  sourcePath := "admission/@profile/admissionDeadline"
  yearHasPeriod := no_year

def financialAidRow (day : Calendar.Date) : FactRow where
  factKey := "deadlines.financial_aid"
  tab := .moneyMatters
  section_ := "applying"
  label := "Application Deadline"
  value := some (dateValue "March" day (by decide))
  sourcePath := "money-matters/TitleValue#0"
  yearHasPeriod := no_year

/-- A date, or the `ValueError` of its constructor. -/
def dated (year month day : Nat) (row : Calendar.Date → FactRow) : Except PyError (List FactRow) :=
  match Calendar.date year month day with
  | some found => .ok [row found]
  | none => .error .valueError

/-- The day of March that the money tab prints, on the cycle year. -/
def processMarch (tab : TabName) (day : Nat) (year : Int) : Except PyError (List FactRow) :=
  if tab = .moneyMatters then dated year.toNat 3 day financialAidRow else .ok []

theorem dated_tab {year month day : Nat} {row : Calendar.Date → FactRow} {rows : List FactRow}
    {tab : TabName} (own : ∀ found, (row found).tab = tab) (ok : dated year month day row = .ok rows) :
    ∀ made ∈ rows, made.tab = tab := by
  unfold dated at ok
  split at ok
  · cases ok
    intro made isIn
    rw [List.mem_singleton.mp isIn]
    exact own _
  · cases ok

/-- An admission page is the year of its January 2 deadline, a money page the day of its
deadline in March. -/
def marchMapper : Mapper Nat where
  headerYear year := some year
  process := processMarch
  website _ := []
  overviewExtras _ := .ok []
  admissionDeadlines year := dated year 1 2 regularRow
  processTab := by
    intro tab day year rows ok
    unfold processMarch at ok
    split at ok
    case isTrue money => exact money ▸ dated_tab (fun _ => rfl) ok
    case isFalse _ =>
      cases ok
      intro row isIn
      cases isIn
  websiteTab := by
    intro page row isIn
    cases isIn
  extrasTab := by
    intro page rows ok row isIn
    cases ok
    cases isIn
  deadlinesTab := fun page rows ok => dated_tab (fun _ => rfl) ok

def marchSite : Site Nat Nat where
  contentHash page := some (BitVec.ofNat 256 page)
  parsePage _ page := some page
  mapper := marchMapper
  str _ := .error .typeError

def marchSettings : Settings := ⟨2026, 3, "8a53c0d61f2b"⟩

def marchSchool : Tracked Nat where
  school := {
    pages := fun _ => none
    snapshots := fun _ => []
    nextSnapshotId := 1
    facts := Table.empty
    explore := none
    profile := some [("classification", .dict [("control", .str "Public")])] }
  written _ := none

/-- A pass that reaches the admission and the money tab, or the money tab alone. -/
def marchPass (admission : Option Nat) (money now : Nat) : LivePass Nat where
  fetched tab :=
    match tab, admission with
    | .moneyMatters, _ => .page money
    | .admission, some year => .page year
    | _, _ => .failed
  accepts _ := true
  now := now

theorem marchSchool_uncrawled : Uncrawled marchSchool.school := ⟨fun _ => rfl, fun _ => rfl⟩

theorem march_smooth : Smooth marchSite marchSettings marchSchool.school (marchPass none 1 5) := by
  have pages : ∀ tab, storedPages marchSite.reader
      ((marchPass none 1 5).recorded marchSite marchSettings marchSchool.school).school tab =
        if tab = .moneyMatters then some 1 else none := by
    intro tab
    cases tab <;> decide +kernel
  have isMoney : ∀ tab k, given marchSite marchSettings
      ((marchPass none 1 5).recorded marchSite marchSettings marchSchool.school).school tab k ≠ none →
        tab = .moneyMatters := by
    intro tab k isGiven
    by_contra other
    refine isGiven ?_
    unfold given
    rw [pages, if_neg other]
    rfl
  constructor
  · intro tab body sha page fetch read snapshot known
    rcases known with known | known <;> cases known
  · decide +kernel
  · intro tab page stored
    rw [pages] at stored
    split at stored
    case isTrue money =>
      cases stored
      subst money
      exact ⟨_, rfl⟩
    case isFalse _ => cases stored
  · intro k tab other one two
    rw [isMoney tab k one, isMoney other k two]
  · intro tab page k stored
    rw [given, stored, Option.bind_some]
    rw [pages] at stored
    split at stored
    case isTrue money =>
      subst money
      have changed : TabName.moneyMatters ∈ ((marchPass none 1 5).recorded marchSite marchSettings
          marchSchool.school).changedTabs := by decide +kernel
      rw [if_pos changed]
      rfl
    case isFalse _ => cases stored
  · intro tab _ k new old _ found
    cases found

/-- A first pass over the money tab. -/
theorem crawl_ends_as_remap_march : ∃ ended,
    Transition.run (crawl marchSite marchSettings) marchSchool [marchPass none 1 5] = some ended ∧
      EndsAsRemap marchSite marchSettings ended :=
  ⟨_, rfl, crawl_ends_as_remap marchSite marchSettings marchSchool _ [marchPass none 1 5]
    marchSchool_uncrawled rfl ⟨.inr march_smooth, fun _ _ => trivial⟩⟩

/-- A March 32 stores its page and writes no fact: the page will be found unchanged. When
the admission tab moves to the next year, the money tab keeps a deadline of the last. -/
theorem march_left_behind :
    (∃ ended, Transition.run (crawl marchSite marchSettings) marchSchool [marchPass none 32 5] =
      some ended ∧ ¬ EndsAsRemap marchSite marchSettings ended) ∧
    (∃ ended, Transition.run (crawl marchSite marchSettings) marchSchool
        [marchPass (some 2026) 1 5, marchPass (some 2027) 1 6] = some ended ∧
      ¬ EndsAsRemap marchSite marchSettings ended) := by
  constructor
  · refine ⟨_, rfl, fun ends => ?_⟩
    have stored : ((processSchoolLive marchSite.reader marchSettings (fun _ => true) 5
        (marchPass none 32 5).fetched marchSchool.school).1.latest .moneyMatters).map Snapshot.id =
          some 1 := by decide +kernel
    obtain ⟨snapshot, latest, _⟩ := Option.map_eq_some_iff.mp stored
    have written := ends.written .moneyMatters snapshot latest
    have unwritten : ¬ (TabName.moneyMatters ∈ ((marchPass none 32 5).recorded marchSite marchSettings
        marchSchool.school).changedTabs ∧
        (marchPass none 32 5).writes marchSite marchSettings marchSchool.school = true) := by
      decide +kernel
    dsimp only at written
    rw [if_neg unwritten] at written
    cases written
  · refine ⟨_, rfl, fun ends => ?_⟩
    have same := ends.facts (fun _ => true) 7 "deadlines.financial_aid"
    revert same
    generalize reached : (processSchoolLive marchSite.reader marchSettings
      (marchPass (some 2027) 1 6).accepts (marchPass (some 2027) 1 6).now
      (marchPass (some 2027) 1 6).fetched _).1 = school
    intro same
    have dates : ((processSchoolRemap marchSite.reader marchSettings (fun _ => true) 7 school).1.facts.find
        "deadlines.financial_aid").map SchoolFact.typed ≠
        (school.facts.find "deadlines.financial_aid").map SchoolFact.typed := by
      rw [← reached]
      decide +kernel
    exact dates (congrArg _ same)

end Counselle.Facts

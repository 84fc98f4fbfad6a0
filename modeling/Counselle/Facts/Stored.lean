import Counselle.Facts.Mapper
import Counselle.Facts.Mirror
import Counselle.Facts.Together
import Mathlib.Data.List.Find

/-! The open facts against the stored pages: `Mapped` says that they are what a remap of
the latest snapshots would write. A remap of such a school changes nothing. -/
namespace Counselle.Facts
open PyJson (JsonValue)
open PyText (PyError)
open Versions (Table)
open Transactions (Txn Failure commit)

/-- A reader whose mapper is composed of the parts that read one page. -/
structure Site (Body Page : Type) where
  contentHash : Body → Option Sha256
  parsePage : TabName → Body → Option Page
  mapper : Mapper Page
  str : JsonValue → Except PyError String

def Site.reader {Body Page : Type} (site : Site Body Page) : Reader Body Page :=
  ⟨site.contentHash, site.parsePage, site.mapper.mapSnapshot, site.str⟩

def valued (row : FactRow) : Option MappedRow := row.value.map fun value => ⟨row, value⟩

def lastValue (rows : List FactRow) (k : String) : Option MappedRow :=
  (rows.filterMap valued).reverse.find? fun new => new.factKey = k

theorem lastValue_eq_none {rows : List FactRow} {k : String} : lastValue rows k = none ↔
    ∀ new ∈ rows.filterMap valued, new.factKey ≠ k := by
  simp [lastValue, List.find?_eq_none]

theorem valued_row {row : FactRow} {new : MappedRow} (isValue : valued row = some new) :
    new.row = row := by
  obtain ⟨value, _, rfl⟩ := Option.map_eq_some_iff.mp isValue
  rfl

theorem lastValue_key {rows : List FactRow} {k : String} {new : MappedRow}
    (given : lastValue rows k = some new) : new.factKey = k := by
  simpa using List.find?_some given

theorem lastValue_mem {rows : List FactRow} {k : String} {new : MappedRow}
    (given : lastValue rows k = some new) : new.row ∈ rows := by
  have isIn := List.mem_reverse.mp (List.mem_of_find?_eq_some given)
  obtain ⟨row, isRow, isValue⟩ := List.mem_filterMap.mp isIn
  rwa [valued_row isValue]

theorem filterMap_valued_ofTab (tab : TabName) (rows : List FactRow) :
    (Mapper.ofTab tab rows).filterMap valued =
      (rows.filterMap valued).filter fun new => new.row.tab = tab := by
  unfold Mapper.ofTab
  rw [List.filterMap_filter, List.filter_filterMap]
  refine List.filterMap_congr fun row _ => ?_
  cases value : row.value with
  | none => simp [valued, value]
  | some _ => by_cases same : row.tab = tab <;> simp [valued, value, same, Option.filter]

namespace FactsWrite
variable {call : FactsWrite} {k : String}

theorem mem_mapped {new : MappedRow} : new ∈ call.rows.filterMap call.mapped ↔
    new ∈ call.rows.filterMap valued ∧ new.row.tab ∈ call.changedTabs := by
  rw [List.mem_filterMap, List.mem_filterMap]
  constructor
  · rintro ⟨row, isIn, mapped⟩
    unfold FactsWrite.mapped at mapped
    split at mapped
    case isTrue inside =>
      refine ⟨⟨row, isIn, mapped⟩, ?_⟩
      rwa [valued_row mapped]
    case isFalse _ => cases mapped
  · rintro ⟨⟨row, isIn, isValue⟩, inside⟩
    refine ⟨row, isIn, ?_⟩
    rw [valued_row isValue] at inside
    unfold FactsWrite.mapped
    rw [if_pos inside]
    exact isValue

theorem new_eq_none (unvalued : ∀ tab ∈ call.changedTabs,
    lastValue (Mapper.ofTab tab call.rows) k = none) : call.new k = none := by
  refine List.find?_eq_none.mpr fun new isIn => ?_
  obtain ⟨isValue, inside⟩ := mem_mapped.mp (List.mem_reverse.mp isIn)
  have absent := lastValue_eq_none.mp (unvalued new.row.tab inside) new (by
    rw [filterMap_valued_ofTab]
    exact List.mem_filter.mpr ⟨isValue, by simp⟩)
  simpa using absent

theorem new_eq_lastValue {tab : TabName} (inside : tab ∈ call.changedTabs)
    (alone : ∀ other ∈ call.changedTabs, other ≠ tab →
      lastValue (Mapper.ofTab other call.rows) k = none) :
    call.new k = lastValue (Mapper.ofTab tab call.rows) k := by
  have same : (Mapper.ofTab tab call.rows).filterMap valued =
      (call.rows.filterMap call.mapped).filter fun new => new.row.tab = tab := by
    rw [filterMap_valued_ofTab, List.filter_filterMap, List.filter_filterMap]
    refine List.filterMap_congr fun row _ => ?_
    unfold FactsWrite.mapped
    by_cases isTab : row.tab = tab
    · rw [if_pos (isTab ▸ inside)]
      rfl
    · cases value : row.value with
      | none => simp [valued, value]
      | some _ => split <;> simp [valued, value, isTab, Option.filter]
  unfold FactsWrite.new lastValue
  rw [same, ← List.filter_reverse, List.find?_filter]
  refine List.find?_congr fun new isIn => ?_
  by_cases isKey : new.factKey = k
  · obtain ⟨isValue, changed⟩ := mem_mapped.mp (List.mem_reverse.mp isIn)
    have isTab : new.row.tab = tab := by
      by_contra differs
      refine lastValue_eq_none.mp (alone _ changed differs) new ?_ isKey
      rw [filterMap_valued_ofTab]
      exact List.mem_filter.mpr ⟨isValue, by simp⟩
    simp [isTab]
  · simp [isKey]

end FactsWrite
/-- The value that one page gives a key under a cycle year. -/
def Mapper.gives {Page : Type} (mapper : Mapper Page) (tab : TabName) (page : Page) (year : Int)
    (k : String) : Option MappedRow :=
  match mapper.tabRows tab page year with
  | .ok rows => lastValue rows k
  | .error _ => none

variable {Body Page : Type} {site : Site Body Page} {settings : Settings}

theorem lastValue_ofTab {pages : TabName → Option Page} {fallback : Int} {rows : List FactRow}
    (mapped : site.mapper.mapSnapshot pages fallback = .ok rows) (tab : TabName) (k : String) :
    lastValue (Mapper.ofTab tab rows) k = (pages tab).bind fun page =>
      site.mapper.gives tab page (site.mapper.cycleYear pages fallback) k := by
  have own := Mapper.ofTab_mapSnapshot mapped tab
  cases page : pages tab with
  | none =>
    rw [page] at own
    have none : Mapper.ofTab tab rows = [] := (Except.ok.inj own).symm
    rw [none]
    rfl
  | some found =>
    rw [page] at own
    change site.mapper.tabRows tab found _ = _ at own
    simp [Mapper.gives, own]

section School
variable (site : Site Body Page) (settings : Settings) (school : School Body)

def remapYear : Int :=
  site.mapper.cycleYear (storedPages site.reader school) settings.currentAdmissionsCycleYear

def given (tab : TabName) (k : String) : Option MappedRow :=
  (storedPages site.reader school tab).bind fun page =>
    site.mapper.gives tab page (remapYear site settings school) k

/-- The open row says what the mapped row says, in every column that the writer keeps
up to date, and was read off the latest snapshot of its tab. -/
structure Carries (new : MappedRow) (old : SchoolFact) : Prop where
  unchanged : valueChanged old new.value = false
  tab : old.tab = new.row.tab
  display : old.display = new.value.display
  unit : old.unit = new.value.unit
  sourcePath : old.sourcePath = new.row.sourcePath
  mapperVersion : old.mapperVersion = settings.mapperVersion
  snapshot : ∀ snapshot, school.latest new.row.tab = some snapshot → old.snapshotId = snapshot.id

structure Mapped : Prop where
  parses : ∀ tab snapshot, school.latest tab = some snapshot →
    ∃ page, site.parsePage tab snapshot.body = some page
  maps : ∀ tab page, storedPages site.reader school tab = some page →
    ∃ rows, site.mapper.tabRows tab page (remapYear site settings school) = .ok rows
  alone : ∀ k tab other, given site settings school tab k ≠ none →
    given site settings school other k ≠ none → tab = other
  held : ∀ tab k new, given site settings school tab k = some new →
    ∃ old, school.facts.find k = some old ∧ Carries settings school new old
  only : ∀ k old, school.facts.find k = some old →
    ∃ tab new, given site settings school tab k = some new

end School

variable {school : School Body}

theorem given_row {tab : TabName} {k : String} {new : MappedRow}
    (isGiven : given site settings school tab k = some new) : new.row.tab = tab ∧ new.factKey = k := by
  obtain ⟨page, _, gives⟩ := Option.bind_eq_some_iff.mp isGiven
  unfold Mapper.gives at gives
  cases mapped : site.mapper.tabRows tab page (remapYear site settings school) with
  | error e =>
    rw [mapped] at gives
    cases gives
  | ok rows =>
    rw [mapped] at gives
    exact ⟨Mapper.tabRows_tab mapped _ (lastValue_mem gives), lastValue_key gives⟩

theorem storedPages_latest {tab : TabName} {page : Page}
    (stored : storedPages site.reader school tab = some page) :
    ∃ snapshot, school.latest tab = some snapshot ∧ site.parsePage tab snapshot.body = some page :=
  Option.bind_eq_some_iff.mp stored

theorem updateMeta_carried {call : FactsWrite} {new : MappedRow} {old : SchoolFact}
    (carries : Carries settings school new old) (version : call.mapperVersion = settings.mapperVersion)
    (id : old.snapshotId = call.snapshotIds new.row.tab) : call.updateMeta new old = old := by
  unfold FactsWrite.updateMeta
  rw [← carries.display, ← carries.unit, version, ← carries.mapperVersion, ← carries.sourcePath, ← id]

variable {accepts : Statement → Bool} {now : Nat} {args : WriteArgs Page}

theorem commit_cases (reader : Reader Body Page) (settings : Settings) (accepts : Statement → Bool)
    (now : Nat) (args : WriteArgs Page) (began start : School Body) :
    commit began (writeSchool reader settings accepts now args start) = start ∨
    commit began (writeSchool reader settings accepts now args start) = began ∨
    ∃ rows written explore, reader.mapSnapshot args.pages args.fallbackCycleYear = .ok rows ∧
      writeSchoolFacts start.facts (args.call settings now rows) = some written ∧
      commit began (writeSchool reader settings accepts now args start) =
        { start with facts := written.1, explore := explore } := by
  generalize ran : writeSchool reader settings accepts now args start = ended
  cases (ran ▸ writeSchool_course reader settings accepts now args start :
    Course reader settings accepts now args start ended) with
  | early error _ _ => exact .inl rfl
  | refused last _ => exact .inr (.inl rfl)
  | detached profile call error written writes accepted through _ =>
    obtain ⟨rows, mapped, rfl⟩ := writes.mapped
    exact .inr (.inr ⟨rows, written, _, mapped, through, rfl⟩)
  | projected profile call row written unmapped writes accepted through projection =>
    obtain ⟨rows, mapped, rfl⟩ := writes.mapped
    exact .inr (.inr ⟨rows, written, _, mapped, through, rfl⟩)

theorem mem_remapArgs {tab : TabName} :
    tab ∈ (remapArgs site.reader settings school).changedTabs ↔
      ∃ page, storedPages site.reader school tab = some page := by
  simp [remapArgs, mem_tabNames, Option.isSome_iff_exists]

theorem remap_new (mapped : Mapped site settings school) {rows : List FactRow}
    (ran : site.mapper.mapSnapshot (storedPages site.reader school)
      settings.currentAdmissionsCycleYear = .ok rows) (k : String) :
    (∀ tab new, given site settings school tab k = some new →
      ((remapArgs site.reader settings school).call settings now rows).new k = some new) ∧
    ((∀ tab, given site settings school tab k = none) →
      ((remapArgs site.reader settings school).call settings now rows).new k = none) := by
  constructor
  · intro tab new isGiven
    have inside : tab ∈ (remapArgs site.reader settings school).changedTabs := by
      obtain ⟨page, stored, _⟩ := Option.bind_eq_some_iff.mp isGiven
      exact mem_remapArgs.mpr ⟨page, stored⟩
    rw [FactsWrite.new_eq_lastValue inside fun other _ differs => ?_]
    · exact (lastValue_ofTab ran tab k).trans isGiven
    · refine (lastValue_ofTab ran other k).trans ?_
      by_contra valued
      exact differs (mapped.alone k other tab valued (by simp [isGiven]))
  · intro ungiven
    exact FactsWrite.new_eq_none fun tab _ => (lastValue_ofTab ran tab k).trans (ungiven tab)

theorem remap_settled (mapped : Mapped site settings school) {rows : List FactRow}
    (ran : site.mapper.mapSnapshot (storedPages site.reader school)
      settings.currentAdmissionsCycleYear = .ok rows) (k : String) :
    ((remapArgs site.reader settings school).call settings now rows).settled
      (school.facts.find k) (((remapArgs site.reader settings school).call settings now rows).new k) =
        school.facts.find k := by
  obtain ⟨valued, unvalued⟩ := @remap_new _ _ _ _ _ now mapped rows ran k
  cases found : school.facts.find k with
  | none =>
    rw [unvalued fun tab => ?_]
    · rfl
    · cases isGiven : given site settings school tab k with
      | none => rfl
      | some new =>
        obtain ⟨old, held, _⟩ := mapped.held tab k new isGiven
        rw [found] at held
        cases held
  | some old =>
    obtain ⟨tab, new, isGiven⟩ := mapped.only k old found
    rw [valued tab new isGiven]
    obtain ⟨old', held, carries⟩ := mapped.held tab k new isGiven
    rw [found, Option.some.injEq] at held
    subst held
    obtain ⟨page, stored, _⟩ := Option.bind_eq_some_iff.mp isGiven
    obtain ⟨snapshot, latest, _⟩ := storedPages_latest stored
    have rowTab := (given_row isGiven).1
    rw [FactsWrite.settled, if_neg (by simp [carries.unchanged])]
    refine congrArg some (updateMeta_carried carries rfl ?_)
    rw [carries.snapshot snapshot (rowTab ▸ latest)]
    simp [WriteArgs.call, remapArgs, rowTab, latest]

theorem remap_idle (mapped : Mapped site settings school) (accepts : Statement → Bool) (now : Nat) :
    (∀ k, (processSchoolRemap site.reader settings accepts now school).1.facts.find k =
      school.facts.find k) ∧
    (processSchoolRemap site.reader settings accepts now school).1.pages = school.pages := by
  rw [processSchoolRemap_fst]
  split
  · exact ⟨fun _ => rfl, rfl⟩
  · rcases commit_cases site.reader settings accepts now (remapArgs site.reader settings school)
      school school with same | same | ⟨rows, written, explore, ran, through, ended⟩
    · rw [same]
      exact ⟨fun _ => rfl, rfl⟩
    · rw [same]
      exact ⟨fun _ => rfl, rfl⟩
    · rw [ended]
      refine ⟨fun k => ?_, rfl⟩
      exact (find_writeSchoolFacts through k).trans (remap_settled mapped ran k)

end Counselle.Facts

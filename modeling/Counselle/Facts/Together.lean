import Counselle.Facts.Pages

/-! When the facts and the explore row of a school move together. A Python exception
after the facts were written commits them without their row; a statement that the server
refuses rolls the page statements back with the rest. -/
namespace Counselle.Facts
open PyText (PyError)
open Versions (Table)
open Transactions (Txn Failure commit)

variable {Body Page : Type} {reader : Reader Body Page} {settings : Settings}
  {accepts : Statement → Bool} {now : Nat}

/-- Either the explore row is the projection of the open facts, or both are as before. -/
def Together (str : PyJson.JsonValue → Except PyError String) (before after : School Body) : Prop :=
  (∃ profile row, after.profile = some profile ∧ after.explore = some row ∧
    projectExploreRow str profile after.facts.current = .ok row.values) ∨
  ((∀ key, after.facts.find key = before.facts.find key) ∧ after.explore = before.explore)

/-- The open fact of each key, once the call has gone through. -/
def FactsWrite.settledFacts (call : FactsWrite) (table : FactsTable) (key : String) :
    Option SchoolFact := call.settled (table.find key) (call.new key)

structure WriteArgs.Writes (args : WriteArgs Page) (reader : Reader Body Page)
    (settings : Settings) (accepts : Statement → Bool) (now : Nat) (school : School Body)
    (profile : BasicProfile) (call : FactsWrite) : Prop where
  mapped : ∃ rows, reader.mapSnapshot args.pages args.fallbackCycleYear = .ok rows ∧
    call = args.call settings now rows
  readable : accepts .basicProfile = true
  held : school.profile = some profile
  known : ∃ columns, ipedsFilterColumns profile = .ok columns

def WriteArgs.Refused (args : WriteArgs Page) (reader : Reader Body Page) (settings : Settings)
    (accepts : Statement → Bool) (now : Nat) (school : School Body) : Prop :=
  (∃ rows, reader.mapSnapshot args.pages args.fallbackCycleYear = .ok rows ∧
    accepts .basicProfile = false) ∨
  ∃ profile call, args.Writes reader settings accepts now school profile call ∧
    (accepts .writeFacts = false ∨ ¬ call.Placed school.facts ∨ accepts .currentFacts = false ∨
      Projectable reader.str profile (call.settledFacts school.facts) ∧
        accepts .upsertExplore = false)

/-- The facts change, and no row can be built of them that the columns take. -/
def WriteArgs.Detaches (args : WriteArgs Page) (reader : Reader Body Page) (settings : Settings)
    (accepts : Statement → Bool) (now : Nat) (school : School Body) : Prop :=
  ∃ profile call, args.Writes reader settings accepts now school profile call ∧
    accepts .writeFacts = true ∧ call.Placed school.facts ∧ accepts .currentFacts = true ∧
    ¬ Projectable reader.str profile (call.settledFacts school.facts) ∧
    ∃ key, call.settledFacts school.facts key ≠ school.facts.find key

variable {args : WriteArgs Page} {school : School Body} {profile : BasicProfile} {call : FactsWrite}

theorem WriteArgs.Writes.unique {profile' : BasicProfile} {call' : FactsWrite}
    (one : args.Writes reader settings accepts now school profile call)
    (two : args.Writes reader settings accepts now school profile' call') :
    profile = profile' ∧ call = call' := by
  obtain ⟨rows, mapped, rfl⟩ := one.mapped
  obtain ⟨rows', mapped', rfl⟩ := two.mapped
  have sameRows : rows = rows' := Except.ok.inj (mapped.symm.trans mapped')
  have sameProfile : profile = profile' := Option.some.inj (one.held.symm.trans two.held)
  exact ⟨sameProfile, by rw [sameRows]⟩

inductive Course (reader : Reader Body Page) (settings : Settings) (accepts : Statement → Bool)
    (now : Nat) (args : WriteArgs Page) (school : School Body) : School Body ×
    Except (Failure SchoolError) (FactsWriteResult × List (String × PyJson.JsonValue)) → Prop
  | early (error : SchoolError)
      (unwritten : ∀ profile call, ¬ args.Writes reader settings accepts now school profile call)
      (readable : ∀ rows, reader.mapSnapshot args.pages args.fallbackCycleYear = .ok rows →
        accepts .basicProfile = true) :
      Course reader settings accepts now args school (school, .error (.raised error))
  | refused (ended : School Body) (was : args.Refused reader settings accepts now school) :
      Course reader settings accepts now args school (ended, .error .refused)
  /-- An exception between the facts and the explore row. -/
  | detached (profile : BasicProfile) (call : FactsWrite) (error : SchoolError)
      (written : FactsTable × FactsWriteResult)
      (writes : args.Writes reader settings accepts now school profile call)
      (accepted : accepts .writeFacts = true ∧ accepts .currentFacts = true)
      (through : writeSchoolFacts school.facts call = some written)
      (unprojectable : ¬ Projectable reader.str profile written.1.find) :
      Course reader settings accepts now args school
        ({ school with facts := written.1 }, .error (.raised error))
  | projected (profile : BasicProfile) (call : FactsWrite) (row : ExploreRow)
      (written : FactsTable × FactsWriteResult) (unmapped : List (String × PyJson.JsonValue))
      (writes : args.Writes reader settings accepts now school profile call)
      (accepted : accepts .writeFacts = true ∧ accepts .currentFacts = true ∧
        accepts .upsertExplore = true)
      (through : writeSchoolFacts school.facts call = some written)
      (projection : projectExploreRow reader.str profile written.1.current = .ok row.values) :
      Course reader settings accepts now args school
        ({ school with facts := written.1, explore := some row }, .ok (written.2, unmapped))

theorem settledFacts_eq {written : FactsTable × FactsWriteResult} {table : FactsTable}
    (through : writeSchoolFacts table call = some written) :
    call.settledFacts table = written.1.find := by
  funext key
  exact (find_writeSchoolFacts through key).symm

theorem writeSchool_course (reader : Reader Body Page) (settings : Settings)
    (accepts : Statement → Bool) (now : Nat) (args : WriteArgs Page) (school : School Body) :
    Course reader settings accepts now args school
      (writeSchool reader settings accepts now args school) := by
  unfold writeSchool
  cases mapped : reader.mapSnapshot args.pages args.fallbackCycleYear with
  | error e =>
    rw [Txn.bind_compute_error rfl]
    refine .early _ ?_ fun rows given => by simp [mapped] at given
    intro profile call writes
    obtain ⟨rows, given, _⟩ := writes.mapped
    simp [mapped] at given
  | ok rows =>
    rw [Txn.bind_compute_ok rfl]
    cases readable : accepts .basicProfile with
    | false =>
      rw [Txn.bind_read_refused rfl]
      exact .refused _ (.inl ⟨rows, mapped, readable⟩)
    | true =>
      rw [Txn.bind_read rfl]
      cases held : school.profile with
      | none =>
        rw [Txn.bind_compute_error rfl]
        refine .early _ ?_ fun _ _ => readable
        intro profile call writes
        have found := writes.held
        simp [held] at found
      | some profile =>
        rw [Txn.bind_compute_ok rfl]
        cases known : ipedsFilterColumns profile with
        | error e =>
          rw [Txn.bind_compute_error rfl]
          refine .early _ ?_ fun _ _ => readable
          intro profile' call writes
          have found := writes.held
          obtain ⟨columns, isKnown⟩ := writes.known
          rw [held, Option.some.injEq] at found
          simp [← found, known] at isKnown
        | ok columns =>
          rw [Txn.bind_compute_ok rfl]
          have writes : args.Writes reader settings accepts now school profile
              (args.call settings now rows) :=
            ⟨⟨rows, mapped, rfl⟩, readable, held, columns, known⟩
          cases accepted : accepts .writeFacts with
          | false =>
            rw [Txn.bind_write_refused (.inl rfl)]
            exact .refused _ (.inr ⟨profile, _, writes, .inl accepted⟩)
          | true =>
            cases through : writeSchoolFacts school.facts (args.call settings now rows) with
            | none =>
              rw [Txn.bind_write_refused (.inr (by rw [through]; rfl))]
              refine .refused _ (.inr ⟨profile, _, writes, .inr (.inl fun placed => ?_)⟩)
              have isSome := writeSchoolFacts_isSome.mpr placed
              simp [through] at isSome
            | some written =>
              rw [Txn.bind_write rfl (by rw [through]; rfl)]
              cases current : accepts .currentFacts with
              | false =>
                rw [Txn.bind_read_refused rfl]
                exact .refused _ (.inr ⟨profile, _, writes, .inr (.inr (.inl current))⟩)
              | true =>
                rw [Txn.bind_read rfl]
                have settles := settledFacts_eq through
                cases projection : projectExploreRow reader.str profile written.1.current with
                | error e =>
                  rw [Txn.bind_compute_error rfl]
                  refine .detached profile _ _ written writes ⟨accepted, current⟩ through ?_
                  intro projectable
                  obtain ⟨values, projected, _⟩ := row_of_projectable known projectable
                  simp [projection] at projected
                | ok values =>
                  rw [Txn.bind_compute_ok rfl]
                  by_cases encodes : values.Encodes
                  · have upsert : upsertExploreRow settings accepts now values =
                        (Txn.write (accepts .upsertExplore) fun school : School Body =>
                          some ({ school with
                            explore := some ⟨values, encodes, now, settings.mapperVersion, none⟩ }, ())) :=
                      dif_pos encodes
                    rw [upsert]
                    cases upserted : accepts .upsertExplore with
                    | false =>
                      rw [Txn.bind_write_refused (.inl rfl)]
                      refine .refused _ (.inr ⟨profile, _, writes, .inr (.inr (.inr ⟨?_, upserted⟩))⟩)
                      rw [settles]
                      exact projectable_of_row known projection encodes
                    | true =>
                      rw [Txn.bind_write rfl rfl]
                      exact .projected profile _ ⟨values, encodes, now, settings.mapperVersion, none⟩ written
                        (unmappedLabels rows) writes ⟨accepted, current, upserted⟩ through projection
                  · have upsert : upsertExploreRow settings accepts now values =
                        (Txn.compute id (.error .encoding) : Txn SchoolError (School Body) Unit) :=
                      dif_neg encodes
                    rw [upsert, Txn.bind_compute_error rfl]
                    refine .detached profile _ _ written writes ⟨accepted, current⟩ through ?_
                    intro projectable
                    obtain ⟨values', projected, fits⟩ := row_of_projectable known projectable
                    rw [projection, Except.ok.injEq] at projected
                    exact encodes (projected ▸ fits)

inductive Pass (Body : Type) where
  | live (fetched : TabName → Fetched Body)
  | remap

namespace Pass
variable (reader : Reader Body Page) (settings : Settings) (accepts : Statement → Bool) (now : Nat)

def process : Pass Body → School Body → School Body
  | live fetched, school => (processSchoolLive reader settings accepts now fetched school).1
  | remap, school => (processSchoolRemap reader settings accepts now school).1

def paged : Pass Body → School Body → School Body
  | live fetched, school => (recordPages reader settings now fetched school).school
  | remap, school => school

def writeArgs : Pass Body → School Body → WriteArgs Page
  | live fetched, school =>
    liveArgs reader settings fetched (recordPages reader settings now fetched school)
  | remap, school => remapArgs reader settings school

/-- What the transaction leaves: facts and row together, and every page statement. -/
def MovesTogether (pass : Pass Body) (school : School Body) : Prop :=
  Together reader.str school (pass.process reader settings accepts now school) ∧
    (pass.process reader settings accepts now school).pages =
      (pass.paged reader settings now school).pages

end Pass

theorem detaches_not_refused (detaches : args.Detaches reader settings accepts now school) :
    ¬ args.Refused reader settings accepts now school := by
  obtain ⟨profile, call, writes, accepted, placed, current, unprojectable, _⟩ := detaches
  rintro (⟨rows, _, refused⟩ | ⟨profile', call', writes', refused⟩)
  · rw [writes.readable] at refused
    cases refused
  · obtain ⟨rfl, rfl⟩ := writes.unique writes'
    rcases refused with refused | refused | refused | refused
    · rw [accepted] at refused
      cases refused
    · exact refused placed
    · rw [current] at refused
      cases refused
    · exact unprojectable refused.1

theorem commit_together {began start : School Body} (facts : start.facts = began.facts)
    (explore : start.explore = began.explore) :
    (Together reader.str began (commit began (writeSchool reader settings accepts now args start)) ∧
      (commit began (writeSchool reader settings accepts now args start)).pages = start.pages) ↔
    ¬ args.Detaches reader settings accepts now start ∧
      (start.pages ≠ began.pages → ¬ args.Refused reader settings accepts now start) := by
  generalize ran : writeSchool reader settings accepts now args start = ended
  cases (ran ▸ writeSchool_course reader settings accepts now args start :
    Course reader settings accepts now args start ended) with
  | early error unwritten readable =>
    have together : Together reader.str began start :=
      .inr ⟨fun key => by rw [facts], explore⟩
    refine iff_of_true ⟨together, rfl⟩ ⟨?_, ?_⟩
    · rintro ⟨profile, call, writes, _⟩
      exact unwritten profile call writes
    · rintro _ (⟨rows, mapped, refused⟩ | ⟨profile, call, writes, _⟩)
      · rw [readable rows mapped] at refused
        cases refused
      · exact unwritten profile call writes
  | refused last was =>
    have together : Together reader.str began began := .inr ⟨fun _ => rfl, rfl⟩
    constructor
    · rintro ⟨_, samePages⟩
      exact ⟨fun detaches => detaches_not_refused detaches was, fun changed => absurd samePages.symm changed⟩
    · rintro ⟨_, spared⟩
      exact ⟨together, by_contra fun changed => spared (Ne.symm changed) was⟩
  | detached profile call error written writes accepted through unprojectable =>
    have settles := settledFacts_eq through
    have placed : call.Placed start.facts :=
      writeSchoolFacts_isSome.mp (Option.isSome_of_eq_some through)
    have unrefused : ¬ args.Refused reader settings accepts now start := by
      rintro (⟨rows, _, refused⟩ | ⟨profile', call', writes', refused⟩)
      · rw [writes.readable] at refused
        cases refused
      · obtain ⟨rfl, rfl⟩ := writes.unique writes'
        rw [accepted.1, accepted.2, settles] at refused
        simp [placed, unprojectable] at refused
    constructor
    · rintro ⟨together, _⟩
      refine ⟨?_, fun _ => unrefused⟩
      rintro ⟨profile', call', writes', _, _, _, _, key, differs⟩
      obtain ⟨rfl, rfl⟩ := writes.unique writes'
      rcases together with ⟨found, row, held, _, projected⟩ | ⟨same, _⟩
      · change start.profile = some found at held
        rw [writes.held, Option.some.injEq] at held
        subst held
        obtain ⟨columns, known⟩ := writes.known
        exact unprojectable (projectable_of_row known projected row.encodes)
      · exact differs ((congrFun settles key).trans ((same key).trans (by rw [facts])))
    · rintro ⟨attached, _⟩
      refine ⟨.inr ⟨fun key => ?_, explore⟩, rfl⟩
      by_contra differs
      refine attached ⟨profile, call, writes, accepted.1, placed, accepted.2, ?_, key, ?_⟩
      · rwa [settles]
      · rw [settles, facts]
        exact differs
  | projected profile call row written unmapped writes accepted through projection =>
    have settles := settledFacts_eq through
    have placed : call.Placed start.facts :=
      writeSchoolFacts_isSome.mp (Option.isSome_of_eq_some through)
    obtain ⟨columns, known⟩ := writes.known
    have projectable := projectable_of_row known projection row.encodes
    refine iff_of_true ⟨.inl ⟨profile, row, writes.held, rfl, projection⟩, rfl⟩ ⟨?_, fun _ => ?_⟩
    · rintro ⟨profile', call', writes', _, _, _, unprojectable, _⟩
      obtain ⟨rfl, rfl⟩ := writes.unique writes'
      exact unprojectable (settles ▸ projectable)
    · rintro (⟨rows, _, refused⟩ | ⟨profile', call', writes', refused⟩)
      · rw [writes.readable] at refused
        cases refused
      · obtain ⟨rfl, rfl⟩ := writes.unique writes'
        rw [accepted.1, accepted.2.1, accepted.2.2] at refused
        simp [placed] at refused

/-- The facts and the explore row of a school move together, with every page statement,
exactly when no tab changed, or no fact changes without a row that can be built of the
facts, and in a live pass no statement is refused. -/
theorem explore_row_moves_iff (reader : Reader Body Page) (settings : Settings)
    (accepts : Statement → Bool) (now : Nat) (pass : Pass Body) (school : School Body) :
    pass.MovesTogether reader settings accepts now school ↔
      (pass.writeArgs reader settings now school).changedTabs = [] ∨
      ¬ (pass.writeArgs reader settings now school).Detaches reader settings accepts now
          (pass.paged reader settings now school) ∧
        (pass ≠ .remap → ¬ (pass.writeArgs reader settings now school).Refused reader settings
          accepts now (pass.paged reader settings now school)) := by
  cases pass with
  | live fetched =>
    have recording := recordPages_spec reader settings now fetched school
    simp only [Pass.MovesTogether, Pass.process, Pass.paged, Pass.writeArgs]
    rw [processSchoolLive_fst]
    by_cases unchanged : (recordPages reader settings now fetched school).changedTabs = []
    · rw [if_pos unchanged]
      refine iff_of_true ⟨.inr ⟨fun key => ?_, recording.explore⟩, rfl⟩ (.inl unchanged)
      rw [recording.facts]
    · have changed : (recordPages reader settings now fetched school).school.pages ≠ school.pages := by
        intro same
        obtain ⟨tab, isIn⟩ := List.exists_mem_of_ne_nil _ unchanged
        refine (recording.ofTab tab).sha_ne isIn ?_
        unfold School.latest
        rw [same]
      rw [if_neg unchanged]
      refine (commit_together recording.facts recording.explore).trans ?_
      constructor
      · rintro ⟨attached, spared⟩
        exact .inr ⟨attached, fun _ => spared changed⟩
      · rintro (empty | ⟨attached, spared⟩)
        · exact absurd empty unchanged
        · exact ⟨attached, fun _ => spared (by simp)⟩
  | remap =>
    simp only [Pass.MovesTogether, Pass.process, Pass.paged, Pass.writeArgs]
    rw [processSchoolRemap_fst]
    by_cases unchanged : (remapArgs reader settings school).changedTabs = []
    · rw [if_pos unchanged]
      exact iff_of_true ⟨.inr ⟨fun _ => rfl, rfl⟩, rfl⟩ (.inl unchanged)
    · rw [if_neg unchanged]
      refine (commit_together rfl rfl).trans ?_
      constructor
      · rintro ⟨attached, _⟩
        exact .inr ⟨attached, fun notRemap => absurd rfl notRemap⟩
      · rintro (empty | ⟨attached, _⟩)
        · exact absurd empty unchanged
        · exact ⟨attached, fun changed => absurd rfl changed⟩

def receivedValue (text : String) (shown : text ≠ "") : NormalizedValue where
  kind := .text
  display := text
  typed := { text := some text }
  shown := shown
  finite := null_isFinite
  oneTyped := by simp [Typed.columns]
  number := by simp

def receivedRow (value : NormalizedValue) : FactRow where
  factKey := receivedKey
  tab := .moneyMatters
  section_ := "money"
  label := "Received Financial Aid"
  value := some value
  sourcePath := "money-matters/TitleValue#0"

/-- Pages of the money tab that print one text, after "Received Financial Aid". -/
def receivedReader : Reader String String where
  contentHash text := some (BitVec.ofNat 256 text.length)
  parsePage _ text := some text
  mapSnapshot pages _ :=
    match pages .moneyMatters with
    | some text =>
      if shown : text ≠ "" then .ok [receivedRow (receivedValue text shown)] else .error .valueError
    | none => .ok []
  str
    | .str text => .ok text
    | _ => .error .typeError

def publicSchool (facts : FactsTable) : School String where
  pages _ := none
  snapshots _ := []
  nextSnapshotId := 1
  facts := facts
  explore := none
  profile := some [("classification", .dict [("control", .str "Public")])]

def receivedSettings : Settings := ⟨2026, 3, "8a53c0d61f2b"⟩

def onlyMoney (text : String) (tab : TabName) : Fetched String :=
  if tab = .moneyMatters then .page text else .failed

/-- The fact as an earlier version of the page map had it, under another tab. -/
def receivedElsewhere : FactsTable where
  versions := [⟨{
    factKey := receivedKey, tab := .students, section_ := "money", label := "Received Financial Aid",
    value := .dict [("kind", .str "text"), ("value", .null)], display := "212", unit := none,
    valueType := .text, typed := { text := some "212" }, reportedPeriod := none,
    reportedPeriodYear := none, snapshotId := 0, snapshotSha256 := 0,
    sourcePath := "students/TitleValue#0", mapperVersion := "8a53c0d61f2b" }, 0, none⟩]
  unique := by decide

/-- The comma is stored, and no count can be read from it: the fact is committed and the
school has no explore row. Under a key that another tab holds, the page status goes too. -/
theorem comma_leaves_row_behind :
    ¬ (Pass.live (onlyMoney ",")).MovesTogether receivedReader receivedSettings (fun _ => true) 5
      (publicSchool Table.empty) ∧
    ¬ (Pass.live (onlyMoney "312")).MovesTogether receivedReader receivedSettings (fun _ => true) 5
      (publicSchool receivedElsewhere) := by
  constructor
  · rintro ⟨⟨profile, row, _, upserted, _⟩ | ⟨same, _⟩, _⟩
    · have absent : ((Pass.live (onlyMoney ",")).process receivedReader receivedSettings (fun _ => true)
          5 (publicSchool Table.empty)).explore.isNone = true := by decide +kernel
      rw [upserted] at absent
      cases absent
    · have stored : (((Pass.live (onlyMoney ",")).process receivedReader receivedSettings
          (fun _ => true) 5 (publicSchool Table.empty)).facts.find receivedKey).isSome = true := by
        decide +kernel
      rw [same] at stored
      cases stored
  · rintro ⟨_, same⟩
    have lost : (((Pass.live (onlyMoney "312")).process receivedReader receivedSettings (fun _ => true)
        5 (publicSchool receivedElsewhere)).pages .moneyMatters).isNone = true := by decide +kernel
    have kept : (((Pass.live (onlyMoney "312")).paged receivedReader receivedSettings 5
        (publicSchool receivedElsewhere)).pages .moneyMatters).isNone = false := by decide +kernel
    rw [same, kept] at lost
    cases lost

end Counselle.Facts

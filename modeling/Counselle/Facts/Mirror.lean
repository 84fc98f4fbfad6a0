import Counselle.Facts.Store

/-! When the open facts mirror the mapper's output. A call that replaces or inserts a
row writes every column; one that finds the value unchanged writes five of them, and a
key that another tab holds open is refused by the index. -/
namespace Counselle.Facts
open Versions (Table)

namespace FactsWrite

def mappedRows (call : FactsWrite) : List MappedRow := call.rows.filterMap call.mapped

def DistinctKeys (call : FactsWrite) : Prop := (call.mappedRows.map MappedRow.factKey).Nodup

instance (call : FactsWrite) : Decidable call.DistinctKeys := by
  unfold DistinctKeys
  infer_instance

/-- The stored row carries what the mapped row says, in every column. -/
structure Stores (call : FactsWrite) (new : MappedRow) (stored : SchoolFact) : Prop where
  valueType : stored.valueType = new.value.kind
  typed : stored.typed = new.value.typed
  value : (storedInner stored.value).eq new.value.value = true
  display : stored.display = new.value.display
  unit : stored.unit = new.value.unit
  section_ : stored.section_ = new.row.section_
  label : stored.label = new.row.label
  tab : stored.tab = new.row.tab
  reportedPeriod : stored.reportedPeriod = new.row.reportedPeriod
  reportedPeriodYear : stored.reportedPeriodYear = new.row.reportedPeriodYear
  sourcePath : stored.sourcePath = new.row.sourcePath
  snapshotId : stored.snapshotId = call.snapshotIds new.row.tab
  snapshotSha256 : stored.snapshotSha256 = call.snapshotSha256 new.row.tab

def SameUnwritten (call : FactsWrite) (new : MappedRow) (old : SchoolFact) : Prop :=
  old.section_ = new.row.section_ ∧ old.label = new.row.label ∧ old.tab = new.row.tab ∧
    old.reportedPeriod = new.row.reportedPeriod ∧
    old.reportedPeriodYear = new.row.reportedPeriodYear ∧
    old.snapshotSha256 = call.snapshotSha256 new.row.tab

instance (call : FactsWrite) (new : MappedRow) (old : SchoolFact) :
    Decidable (call.SameUnwritten new old) := by
  unfold SameUnwritten
  infer_instance

/-- What the open rows are after a call, next to what they were. -/
structure Mirrors (call : FactsWrite) (before after : FactsTable) : Prop where
  mapped : ∀ new ∈ call.mappedRows, ∃ stored,
    (after.current.filter fun row => row.factKey = new.factKey) = [stored] ∧ call.Stores new stored
  withdrawn : ∀ old ∈ before.current, old.tab ∈ call.changedTabs →
    (∀ new ∈ call.mappedRows, new.factKey ≠ old.factKey) →
      ∀ row ∈ after.current, row.factKey ≠ old.factKey
  untouched : ∀ row : SchoolFact, row.tab ∉ call.changedTabs →
    (row ∈ after.current ↔ row ∈ before.current)

/-- No mapped key is open under an unchanged tab, and one that is open with the value it
is given is open with the columns the update leaves alone. -/
def Mirrorable (call : FactsWrite) (before : FactsTable) : Prop :=
  ∀ new ∈ call.mappedRows, ∀ old ∈ before.current, old.factKey = new.factKey →
    old.tab ∈ call.changedTabs ∧
      (valueChanged old new.value = true ∨ call.SameUnwritten new old)

instance (call : FactsWrite) (before : FactsTable) : Decidable (call.Mirrorable before) := by
  unfold Mirrorable
  infer_instance

variable {call : FactsWrite} {before after : FactsTable} {result : FactsWriteResult}

theorem new_iff (distinct : call.DistinctKeys) {new : MappedRow} {k : String} :
    call.new k = some new ↔ new ∈ call.mappedRows ∧ new.factKey = k := by
  constructor
  · intro given
    exact ⟨List.mem_reverse.mp (List.mem_of_find?_eq_some given), new_factKey given⟩
  · rintro ⟨isIn, rfl⟩
    cases given : call.new new.factKey with
    | none =>
      have absent := List.find?_eq_none.mp given new (List.mem_reverse.mpr isIn)
      simp at absent
    | some other =>
      have isOther := List.mem_reverse.mp (List.mem_of_find?_eq_some given)
      rw [List.inj_on_of_nodup_map distinct isOther isIn (new_factKey given)]

theorem stores_insertRow (call : FactsWrite) (new : MappedRow) :
    call.Stores new (call.insertRow new) where
  valueType := rfl
  typed := rfl
  value := new.value.value.eq_refl new.value.finite
  display := rfl
  unit := rfl
  section_ := rfl
  label := rfl
  tab := rfl
  reportedPeriod := rfl
  reportedPeriodYear := rfl
  sourcePath := rfl
  snapshotId := rfl
  snapshotSha256 := rfl

theorem valueChanged_false {old : SchoolFact} {value : NormalizedValue} :
    valueChanged old value = false ↔ old.valueType = value.kind ∧ old.typed = value.typed ∧
      (PyJson.JsonValue.eq (storedInner old.value) value.value) = true := by
  simp [valueChanged, and_assoc]

theorem stores_updateMeta {new : MappedRow} {old : SchoolFact}
    (same : valueChanged old new.value = false) :
    call.Stores new (call.updateMeta new old) ↔ call.SameUnwritten new old := by
  constructor
  · intro stores
    exact ⟨stores.section_, stores.label, stores.tab, stores.reportedPeriod,
      stores.reportedPeriodYear, stores.snapshotSha256⟩
  · rintro ⟨section_, label, tab, period, year, sha⟩
    obtain ⟨valueType, typed, value⟩ := valueChanged_false.mp same
    exact ⟨valueType, typed, value, rfl, rfl, section_, label, tab, period, year, rfl, rfl, sha⟩

end FactsWrite

open FactsWrite

variable {call : FactsWrite} {before after : FactsTable} {result : FactsWriteResult}

theorem placed_iff (distinct : call.DistinctKeys) : call.Placed before ↔
    ∀ new ∈ call.mappedRows, ∀ old ∈ before.current, old.factKey = new.factKey →
      old.tab ∈ call.changedTabs := by
  constructor
  · intro placed new isIn old isOld same
    exact placed new.factKey new old ((new_iff distinct).mpr ⟨isIn, rfl⟩)
      (Table.find_eq_some.mpr ⟨isOld, same⟩)
  · intro inside k new old given found
    obtain ⟨isIn, rfl⟩ := (new_iff distinct).mp given
    obtain ⟨isOld, same⟩ := Table.find_eq_some.mp found
    exact inside new isIn old isOld same

theorem mirrors_withdrawn (distinct : call.DistinctKeys)
    (written : writeSchoolFacts before call = some (after, result)) {old : SchoolFact}
    (isOld : old ∈ before.current) (inside : old.tab ∈ call.changedTabs)
    (unmapped : ∀ new ∈ call.mappedRows, new.factKey ≠ old.factKey) :
    ∀ row ∈ after.current, row.factKey ≠ old.factKey := by
  have found : before.find old.factKey = some old := Table.find_eq_some.mpr ⟨isOld, rfl⟩
  have absent : call.new old.factKey = none := by
    cases given : call.new old.factKey with
    | none => rfl
    | some new =>
      obtain ⟨isIn, same⟩ := (new_iff distinct).mp given
      exact absurd same (unmapped new isIn)
  have gone : after.find old.factKey = none := by
    rw [find_writeSchoolFacts written, found, absent]
    simp [settled, inside]
  exact Table.find_eq_none.mp gone

theorem mirrors_untouched (written : writeSchoolFacts before call = some (after, result))
    {row : SchoolFact} (outside : row.tab ∉ call.changedTabs) :
    row ∈ after.current ↔ row ∈ before.current := by
  have placed := writeSchoolFacts_isSome.mp (Option.isSome_of_eq_some written)
  have settles := find_writeSchoolFacts written row.factKey
  constructor
  · intro isIn
    have found : after.find row.factKey = some row := Table.find_eq_some.mpr ⟨isIn, rfl⟩
    rw [found] at settles
    cases given : call.new row.factKey with
    | none =>
      cases held : before.find row.factKey with
      | none => simp [settled, given, held] at settles
      | some old =>
        rw [given, held, settled] at settles
        split at settles
        · cases settles
        · exact Option.some.inj settles ▸ (Table.find_eq_some.mp held).1
    | some new =>
      cases held : before.find row.factKey with
      | none =>
        rw [given, held, settled] at settles
        exact absurd (Option.some.inj settles ▸ new_tab given) outside
      | some old =>
        have inside := placed _ new old given held
        rw [given, held, settled] at settles
        refine absurd ?_ outside
        have isRow := Option.some.inj settles
        split at isRow
        · exact isRow ▸ new_tab given
        · exact isRow ▸ inside
  · intro isIn
    have held : before.find row.factKey = some row := Table.find_eq_some.mpr ⟨isIn, rfl⟩
    have unmapped : call.new row.factKey = none := by
      cases given : call.new row.factKey with
      | none => rfl
      | some new => exact absurd (placed _ new row given held) outside
    rw [unmapped, held, settled, if_neg outside] at settles
    exact (Table.find_eq_some.mp settles).1

theorem mirrors_mapped (distinct : call.DistinctKeys)
    (written : writeSchoolFacts before call = some (after, result)) {new : MappedRow}
    (isIn : new ∈ call.mappedRows) :
    (∃ stored, (after.current.filter fun row => row.factKey = new.factKey) = [stored] ∧
      call.Stores new stored) ↔
      ∀ old ∈ before.current, old.factKey = new.factKey →
        valueChanged old new.value = true ∨ call.SameUnwritten new old := by
  have given := (new_iff distinct).mpr ⟨isIn, rfl⟩
  have settles := find_writeSchoolFacts written new.factKey
  rw [given] at settles
  cases held : before.find new.factKey with
  | none =>
    rw [held] at settles
    refine iff_of_true ⟨_, Table.filter_key settles, stores_insertRow call new⟩ ?_
    exact fun old isOld same => absurd same (Table.find_eq_none.mp held old isOld)
  | some old =>
    rw [held] at settles
    obtain ⟨isOld, oldKey⟩ := Table.find_eq_some.mp held
    have only : ∀ other ∈ before.current, other.factKey = new.factKey → other = old :=
      fun other isOther same => before.eq_of_key isOther isOld (same.trans oldKey.symm)
    rw [Table.filter_key settles]
    cases changed : valueChanged old new.value with
    | true =>
      refine iff_of_true ⟨_, rfl, ?_⟩ fun other isOther same => ?_
      · exact stores_insertRow call new
      · exact Or.inl (only other isOther same ▸ changed)
    | false =>
      constructor
      · rintro ⟨stored, isStored, stores⟩ other isOther same
        rw [if_neg Bool.false_ne_true, List.singleton_inj] at isStored
        rw [← isStored] at stores
        rw [only other isOther same]
        exact Or.inr ((stores_updateMeta changed).mp stores)
      · intro unwritten
        refine ⟨_, rfl, ?_⟩
        rw [if_neg Bool.false_ne_true]
        refine (stores_updateMeta changed).mpr ?_
        exact (unwritten old isOld oldKey).resolve_left (by simp [changed])

/-- The table after a history of calls; one that raises is rolled back. -/
def replay (history : List FactsWrite) : FactsTable :=
  history.foldl (fun table call => (writeSchoolFacts table call).elim table Prod.fst) Table.empty

/-- No write removes a version of a fact, changes its key or start, or touches a closed one. -/
theorem superseded_facts_stay (history more : List FactsWrite) : (replay history).Keeps (replay (history ++ more)) := by
  unfold replay
  rw [List.foldl_append]
  generalize history.foldl _ Table.empty = table
  induction more generalizing table with
  | nil => exact Table.Keeps.refl table
  | cons call rest ih =>
    refine Table.Keeps.trans ?_ (ih _)
    dsimp only
    cases written : writeSchoolFacts table call with
    | none => exact Table.Keeps.refl table
    | some outcome => exact keeps_writeSchoolFacts written

/-- After any history, the next call goes through and leaves the open facts mirroring
the mapped rows exactly when it is mirrorable. -/
theorem open_facts_mirror_iff (history : List FactsWrite) (call : FactsWrite)
    (distinct : call.DistinctKeys) :
    (∃ after result, writeSchoolFacts (replay history) call = some (after, result) ∧
      call.Mirrors (replay history) after) ↔ call.Mirrorable (replay history) := by
  constructor
  · rintro ⟨after, result, written, mirrors⟩ new isIn old isOld same
    have placed := writeSchoolFacts_isSome.mp (Option.isSome_of_eq_some written)
    exact ⟨(placed_iff distinct).mp placed new isIn old isOld same,
      (mirrors_mapped distinct written isIn).mp (mirrors.mapped new isIn) old isOld same⟩
  · intro mirrorable
    have placed : call.Placed (replay history) :=
      (placed_iff distinct).mpr fun new isIn old isOld same => (mirrorable new isIn old isOld same).1
    obtain ⟨⟨after, result⟩, written⟩ := Option.isSome_iff_exists.mp (writeSchoolFacts_isSome.mpr placed)
    refine ⟨after, result, written, ?_, ?_, ?_⟩
    · intro new isIn
      exact (mirrors_mapped distinct written isIn).mpr fun old isOld same =>
        (mirrorable new isIn old isOld same).2
    · exact fun old isOld inside unmapped => mirrors_withdrawn distinct written isOld inside unmapped
    · exact fun row outside => mirrors_untouched written outside

def fortyThousand : NormalizedValue where
  kind := .money
  display := "$40,000"
  unit := some "USD"
  typed := { num := some (.finite 40000) }

def fortyOneThousand : NormalizedValue where
  kind := .money
  display := "$41,000"
  unit := some "USD"
  typed := { num := some (.finite 41000) }

def award (tab : TabName) (value : NormalizedValue) (period : String) (year : Int) : FactRow where
  factKey := "aid.avg_award_all_undergraduates"
  tab := tab
  section_ := "money"
  label := "Average Award"
  value := some value
  sourcePath := "money-matters/NestedTitleValue#0"
  reportedPeriod := some period
  reportedPeriodYear := some year
  yearHasPeriod := fun _ => rfl

def awardCall (row : FactRow) (sha : Sha256) : FactsWrite where
  changedTabs := [row.tab]
  rows := [row]
  snapshotIds := fun _ => sha.toNat
  snapshotSha256 := fun _ => sha
  mapperVersion := "8a53c0d61f2b"
  now := sha.toNat

def firstAward : FactsWrite := awardCall (award .moneyMatters fortyThousand "2024-25" 2024) 1

/-- A new amount closes the old row and opens one with the new period. -/
theorem open_facts_mirror_award : ∃ after result,
    writeSchoolFacts (replay [firstAward])
      (awardCall (award .moneyMatters fortyOneThousand "2025-26" 2025) 2) = some (after, result) ∧
    (awardCall (award .moneyMatters fortyOneThousand "2025-26" 2025) 2).Mirrors
      (replay [firstAward]) after :=
  (open_facts_mirror_iff [firstAward]
    (awardCall (award .moneyMatters fortyOneThousand "2025-26" 2025) 2) (by decide)).mpr
    (by decide +kernel)

/-- The same amount a year later leaves the period and the hash of the first page. Under
another tab, the key is refused. -/
theorem award_keeps_first_period :
    (¬ ∃ after result,
      writeSchoolFacts (replay [firstAward])
        (awardCall (award .moneyMatters fortyThousand "2025-26" 2025) 2) = some (after, result) ∧
      (awardCall (award .moneyMatters fortyThousand "2025-26" 2025) 2).Mirrors
        (replay [firstAward]) after) ∧
    (writeSchoolFacts (replay [firstAward])
      (awardCall (award .students fortyThousand "2024-25" 2024) 2)).isNone = true := by
  refine ⟨?_, by decide +kernel⟩
  rintro ⟨after, result, written, mirrors⟩
  have periods : ((writeSchoolFacts (replay [firstAward])
      (awardCall (award .moneyMatters fortyThousand "2025-26" 2025) 2)).map fun done =>
        done.1.current.map SchoolFact.reportedPeriod) = some [some "2024-25"] := by decide +kernel
  rw [written, Option.map_some, Option.some.injEq] at periods
  have isNew : MappedRow.mk (award .moneyMatters fortyThousand "2025-26" 2025) fortyThousand ∈
      (awardCall (award .moneyMatters fortyThousand "2025-26" 2025) 2).mappedRows :=
    List.mem_singleton.mpr rfl
  obtain ⟨stored, isStored, stores⟩ := mirrors.mapped _ isNew
  have isIn : stored ∈ after.current :=
    (List.mem_filter.mp (isStored ▸ List.mem_singleton.mpr rfl)).1
  have period : stored.reportedPeriod ∈ [some "2024-25"] := periods ▸ List.mem_map_of_mem isIn
  rw [stores.reportedPeriod, List.mem_singleton] at period
  simp [award] at period

end Counselle.Facts

import Counselle.Facts.Models
import Counselle.Upsert
import Counselle.Versions

/-! The writer of `school_facts`, for the rows of one school: close, then insert, then
update in place, over the changed tabs only. -/
namespace Counselle.Facts
open PyJson (JsonValue)
open Versions (Table)

abbrev Sha256 := BitVec 256

/-- One row of `school_facts`, without its id, its school and its time stamps. -/
structure SchoolFact where
  factKey : String
  tab : TabName
  section_ : String
  label : String
  value : JsonValue
  display : String
  unit : Option String
  valueType : ValueKind
  typed : Typed
  reportedPeriod : Option String
  reportedPeriodYear : Option Int
  snapshotId : Nat
  snapshotSha256 : Sha256
  sourcePath : String
  mapperVersion : String

/-- `school_facts_current_idx` is the unique index of the table. -/
abbrev FactsTable := Table SchoolFact String SchoolFact.factKey

/-- The arguments of one call, and the `now()` of its transaction. The callers give an
id and a hash for every changed tab, and no other is read. -/
structure FactsWrite where
  changedTabs : List TabName
  rows : List FactRow
  snapshotIds : TabName → Nat
  snapshotSha256 : TabName → Sha256
  mapperVersion : String
  now : Nat

structure MappedRow where
  row : FactRow
  value : NormalizedValue

abbrev MappedRow.factKey (new : MappedRow) : String := new.row.factKey

def normalizedValueJson (value : NormalizedValue) : JsonValue :=
  .dict [("kind", .str value.kind.name), ("value", value.value)]

/-- `stored.get("value")` of the column. -/
def storedInner : JsonValue → JsonValue
  | .dict members => (JsonValue.get members "value").getD .null
  | _ => .null

def valueChanged (current : SchoolFact) (value : NormalizedValue) : Bool :=
  current.valueType != value.kind || current.typed != value.typed ||
    !(storedInner current.value).eq value.value

structure FactsWriteResult where
  inserted : Nat
  closedWithdrawn : Nat
  updatedMetadata : Nat
  deriving DecidableEq

namespace FactsWrite

def mapped (call : FactsWrite) (row : FactRow) : Option MappedRow :=
  if row.tab ∈ call.changedTabs then row.value.map fun value => ⟨row, value⟩ else none

/-- The dict of the call: a later row takes the place of an earlier one of its key. -/
def newByKey (call : FactsWrite) : List MappedRow :=
  Upsert.dictOf MappedRow.factKey (call.rows.filterMap call.mapped)

inductive Fate where
  | withdrawn
  | replaced (new : MappedRow)
  | refreshed (new : MappedRow)

def Fate.ends : Fate → Bool
  | .refreshed _ => false
  | _ => true

def fate (call : FactsWrite) (current : SchoolFact) : Fate :=
  match call.newByKey.find? fun new => new.factKey = current.factKey with
  | none => .withdrawn
  | some new => if valueChanged current new.value then .replaced new else .refreshed new

def currentRows (call : FactsWrite) (table : FactsTable) : List SchoolFact :=
  table.current.filter fun row => row.tab ∈ call.changedTabs

def toClose (call : FactsWrite) (current : List SchoolFact) : List String :=
  (current.filter fun row => (call.fate row).ends).map SchoolFact.factKey

def toInsert (call : FactsWrite) (current : List SchoolFact) : List MappedRow :=
  current.filterMap (fun row => match call.fate row with
    | .replaced new => some new
    | _ => none) ++
  call.newByKey.filter fun new => !(current.map SchoolFact.factKey).contains new.factKey

def toUpdateMeta (call : FactsWrite) (current : List SchoolFact) : List MappedRow :=
  current.filterMap fun row => match call.fate row with
    | .refreshed new => some new
    | _ => none

def insertRow (call : FactsWrite) (new : MappedRow) : SchoolFact where
  factKey := new.row.factKey
  tab := new.row.tab
  section_ := new.row.section_
  label := new.row.label
  value := normalizedValueJson new.value
  display := new.value.display
  unit := new.value.unit
  valueType := new.value.kind
  typed := new.value.typed
  reportedPeriod := new.row.reportedPeriod
  reportedPeriodYear := new.row.reportedPeriodYear
  snapshotId := call.snapshotIds new.row.tab
  snapshotSha256 := call.snapshotSha256 new.row.tab
  sourcePath := new.row.sourcePath
  mapperVersion := call.mapperVersion

def updateMeta (call : FactsWrite) (new : MappedRow) (row : SchoolFact) : SchoolFact :=
  { row with
    display := new.value.display
    unit := new.value.unit
    mapperVersion := call.mapperVersion
    sourcePath := new.row.sourcePath
    snapshotId := call.snapshotIds new.row.tab }

def closeRows (call : FactsWrite) (table : FactsTable) (keys : List String) : FactsTable :=
  table.close (fun row => row.tab ∈ call.changedTabs && keys.contains row.factKey) call.now

def updateRows (call : FactsWrite) (table : FactsTable) (updates : List MappedRow) : FactsTable :=
  updates.foldl (fun table new => table.amend (fun row => row.factKey == new.factKey)
    (call.updateMeta new) fun _ => rfl) table

end FactsWrite

/-- `none` where the unique index refuses an insert: the call raises. -/
def writeSchoolFacts (table : FactsTable) (call : FactsWrite) :
    Option (FactsTable × FactsWriteResult) :=
  if call.changedTabs = [] then some (table, ⟨0, 0, 0⟩)
  else
    let current := call.currentRows table
    let toClose := call.toClose current
    let toInsert := call.toInsert current
    let toUpdateMeta := call.toUpdateMeta current
    let closed := call.closeRows table toClose
    (closed.insertAll call.now (toInsert.map call.insertRow)).map fun inserted =>
      let reinserted := toInsert.countP fun new =>
        (current.map SchoolFact.factKey).contains new.factKey
      (call.updateRows inserted toUpdateMeta,
        ⟨toInsert.length, toClose.length - reinserted, toUpdateMeta.length⟩)

namespace FactsWrite
variable {call : FactsWrite} {table : FactsTable} {current : List SchoolFact}

/-- The row the call gives the key, and its value: the last one of the mapper's. -/
def new (call : FactsWrite) (k : String) : Option MappedRow :=
  (call.rows.filterMap call.mapped).reverse.find? fun row => row.factKey = k

theorem find_newByKey (call : FactsWrite) (k : String) :
    (call.newByKey.find? fun row => row.factKey = k) = call.new k :=
  Upsert.find?_dictOf _ k

theorem new_factKey {k : String} {row : MappedRow} (found : call.new k = some row) :
    row.factKey = k := by
  simpa using List.find?_some found

theorem new_tab {k : String} {row : MappedRow} (found : call.new k = some row) :
    row.row.tab ∈ call.changedTabs := by
  have isIn := List.mem_reverse.mp (List.mem_of_find?_eq_some found)
  obtain ⟨given, _, mapped⟩ := List.mem_filterMap.mp isIn
  unfold FactsWrite.mapped at mapped
  split at mapped
  case isTrue inside =>
    obtain ⟨value, _, rfl⟩ := Option.map_eq_some_iff.mp mapped
    exact inside
  case isFalse _ => cases mapped

theorem mem_newByKey {row : MappedRow} : row ∈ call.newByKey ↔ call.new row.factKey = some row := by
  rw [← find_newByKey]
  constructor
  · intro isIn
    cases found : call.newByKey.find? fun other => other.factKey = row.factKey with
    | none =>
      have absent := List.find?_eq_none.mp found row isIn
      simp at absent
    | some other =>
      have same : other.factKey = row.factKey := by simpa using List.find?_some found
      exact congrArg some (List.inj_on_of_nodup_map (Upsert.nodup_dictOf _)
        (List.mem_of_find?_eq_some found) isIn same)
  · exact List.mem_of_find?_eq_some

theorem fate_withdrawn {old : SchoolFact} :
    call.fate old = .withdrawn ↔ call.new old.factKey = none := by
  rw [fate, find_newByKey]
  cases call.new old.factKey with
  | none => simp
  | some row =>
    dsimp only
    split <;> simp

theorem fate_replaced {old : SchoolFact} {row : MappedRow} : call.fate old = .replaced row ↔
    call.new old.factKey = some row ∧ valueChanged old row.value = true := by
  rw [fate, find_newByKey]
  cases call.new old.factKey with
  | none => simp
  | some other =>
    dsimp only
    split
    · simp only [Fate.replaced.injEq, Option.some.injEq]
      refine ⟨?_, And.left⟩
      rintro rfl
      exact ⟨rfl, by assumption⟩
    · simp only [reduceCtorEq, Option.some.injEq, false_iff, not_and]
      rintro rfl
      assumption

theorem fate_refreshed {old : SchoolFact} {row : MappedRow} : call.fate old = .refreshed row ↔
    call.new old.factKey = some row ∧ valueChanged old row.value = false := by
  rw [fate, find_newByKey]
  cases call.new old.factKey with
  | none => simp
  | some other =>
    dsimp only
    split
    case isTrue changed =>
      simp only [reduceCtorEq, Option.some.injEq, false_iff, not_and]
      rintro rfl
      simp [changed]
    case isFalse same =>
      simp only [Fate.refreshed.injEq, Option.some.injEq]
      refine ⟨?_, And.left⟩
      rintro rfl
      exact ⟨rfl, by simpa using same⟩

theorem mem_toClose {k : String} : k ∈ call.toClose current ↔
    ∃ old ∈ current, old.factKey = k ∧ (call.fate old).ends = true := by
  unfold toClose
  rw [List.mem_map]
  refine exists_congr fun old => ?_
  rw [List.mem_filter, and_assoc, and_congr_right fun _ => and_comm]

theorem mem_toUpdateMeta {row : MappedRow} : row ∈ call.toUpdateMeta current ↔
    ∃ old ∈ current, call.fate old = .refreshed row := by
  unfold toUpdateMeta
  rw [List.mem_filterMap]
  refine exists_congr fun old => and_congr_right fun _ => ?_
  cases call.fate old <;> simp

theorem mem_toInsert {row : MappedRow} : row ∈ call.toInsert current ↔
    (∃ old ∈ current, call.fate old = .replaced row) ∨
      call.new row.factKey = some row ∧ ∀ old ∈ current, old.factKey ≠ row.factKey := by
  unfold toInsert
  rw [List.mem_append, List.mem_filterMap, List.mem_filter, mem_newByKey]
  refine or_congr (exists_congr fun old => and_congr_right fun _ => ?_) (and_congr_right fun _ => ?_)
  · cases call.fate old <;> simp
  · simp

theorem new_of_toInsert {row : MappedRow} (isIn : row ∈ call.toInsert current) :
    call.new row.factKey = some row := by
  rcases mem_toInsert.mp isIn with ⟨old, _, replaced⟩ | fresh
  · have given := (fate_replaced.mp replaced).1
    rwa [← new_factKey given] at given
  · exact fresh.1

theorem map_filterMap_sublist {A B K : Type} {pick : A → Option B} {f : A → K} {g : B → K}
    (keeps : ∀ a b, pick a = some b → g b = f a) (items : List A) :
    ((items.filterMap pick).map g).Sublist (items.map f) := by
  induction items with
  | nil => exact List.Sublist.slnil
  | cons item rest ih =>
    cases picked : pick item with
    | none =>
      rw [List.filterMap_cons_none picked]
      exact ih.cons _
    | some b =>
      rw [List.filterMap_cons_some picked, List.map_cons, List.map_cons, keeps item b picked]
      exact ih.cons_cons _

theorem nodup_toInsert (distinct : (current.map SchoolFact.factKey).Nodup) :
    ((call.toInsert current).map MappedRow.factKey).Nodup := by
  have replacedKey : ∀ old row, (match call.fate old with
      | .replaced new => some new
      | _ => none) = some row → row.factKey = old.factKey := by
    intro old row picked
    cases fated : call.fate old with
    | replaced new =>
      rw [fated] at picked
      exact Option.some.inj picked ▸ new_factKey (fate_replaced.mp fated).1
    | withdrawn => simp [fated] at picked
    | refreshed new => simp [fated] at picked
  unfold toInsert
  rw [List.map_append]
  refine List.Nodup.append ?_ ?_ fun k replaced fresh => ?_
  · exact distinct.sublist (map_filterMap_sublist replacedKey current)
  · exact (Upsert.nodup_dictOf _).sublist (List.filter_sublist.map _)
  · obtain ⟨row, isIn, rfl⟩ := List.mem_map.mp fresh
    have old := (map_filterMap_sublist replacedKey current).subset replaced
    obtain ⟨holder, isHeld, same⟩ := List.mem_map.mp old
    exact (by simpa using (List.mem_filter.mp isIn).2 : ∀ x ∈ current, x.factKey ≠ row.factKey)
      holder isHeld same

theorem mem_currentRows {old : SchoolFact} : old ∈ call.currentRows table ↔
    table.find old.factKey = some old ∧ old.tab ∈ call.changedTabs := by
  simp [currentRows, Table.find_eq_some]

theorem find_closeRows {k : String} {old : SchoolFact} (found : table.find k = some old) :
    (call.closeRows table (call.toClose (call.currentRows table))).find k =
      if old.tab ∈ call.changedTabs ∧ (call.fate old).ends = true then none
      else some old := by
  have closes : old.factKey ∈ call.toClose (call.currentRows table) ↔
      old.tab ∈ call.changedTabs ∧ (call.fate old).ends = true := by
    have oldKey := (Table.find_eq_some.mp found).2
    rw [mem_toClose]
    constructor
    · rintro ⟨other, isIn, same, fated⟩
      have otherFound := (mem_currentRows.mp isIn).1
      rw [same, oldKey, found] at otherFound
      cases otherFound
      exact ⟨(mem_currentRows.mp isIn).2, fated⟩
    · rintro ⟨inside, fated⟩
      exact ⟨old, mem_currentRows.mpr ⟨oldKey ▸ found, inside⟩, rfl, fated⟩
  unfold closeRows
  rw [Table.find_close, found]
  by_cases ends : old.tab ∈ call.changedTabs ∧ (call.fate old).ends = true
  · rw [if_pos ends]
    simp [Option.filter, closes.mpr ends, ends.1]
  · rw [if_neg ends]
    have kept : old.factKey ∉ call.toClose (call.currentRows table) := fun isIn => ends (closes.mp isIn)
    simp [Option.filter, kept]

def updatedBy (call : FactsWrite) (updates : List MappedRow) (row : SchoolFact) : SchoolFact :=
  updates.foldl (fun row new => if row.factKey == new.factKey then call.updateMeta new row else row)
    row

theorem find_updateRows (updates : List MappedRow) (k : String) :
    (call.updateRows table updates).find k = (table.find k).map (call.updatedBy updates) := by
  unfold updateRows
  induction updates generalizing table with
  | nil => exact (Option.map_id' (x := table.find k)).symm
  | cons new rest ih =>
    have first := Table.find_amend table (fun row => row.factKey == new.factKey)
      (call.updateMeta new) (fun _ => rfl) k
    rw [List.foldl_cons, ih, first, Option.map_map]
    rfl

theorem updates_skip {updates : List MappedRow} {old : SchoolFact}
    (absent : ¬ ∃ row ∈ updates, row.factKey = old.factKey) :
    call.updatedBy updates old = old := by
  unfold updatedBy
  induction updates with
  | nil => rfl
  | cons first rest ih =>
    have apart : ¬ old.factKey = first.factKey :=
      fun same => absent ⟨first, List.mem_cons_self, same.symm⟩
    rw [List.foldl_cons, if_neg (by simpa using apart)]
    exact ih fun ⟨row, isIn, same⟩ => absent ⟨row, List.mem_cons_of_mem _ isIn, same⟩

theorem updates_eq {updates : List MappedRow} {old : SchoolFact} {new : MappedRow}
    (only : ∀ row ∈ updates, row.factKey = old.factKey → row = new) :
    call.updatedBy updates old =
      if ∃ row ∈ updates, row.factKey = old.factKey then call.updateMeta new old else old := by
  unfold updatedBy
  induction updates generalizing old with
  | nil => simp
  | cons first rest ih =>
    have later : ∀ row ∈ rest, row.factKey = old.factKey → row = new :=
      fun row isIn => only row (List.mem_cons_of_mem _ isIn)
    rw [List.foldl_cons]
    by_cases same : old.factKey = first.factKey
    · have isNew := only first List.mem_cons_self same.symm
      have here : ∃ row ∈ first :: rest, row.factKey = old.factKey :=
        ⟨first, List.mem_cons_self, same.symm⟩
      have again : ∀ row ∈ rest, row.factKey = (call.updateMeta first old).factKey → row = new :=
        later
      rw [if_pos here, if_pos (by simpa using same), ih again, isNew]
      split <;> rfl
    · have elsewhere : (∃ row ∈ first :: rest, row.factKey = old.factKey) ↔
          ∃ row ∈ rest, row.factKey = old.factKey := by simp [Ne.symm same]
      rw [if_neg (by simpa using same), ih later]
      simp only [elsewhere]

/-- No key the call gives a value is open under a tab that has not changed. -/
def Placed (call : FactsWrite) (table : FactsTable) : Prop :=
  ∀ k row old, call.new k = some row → table.find k = some old → old.tab ∈ call.changedTabs

theorem mem_closed_keys {k : String} :
    k ∈ (call.closeRows table (call.toClose (call.currentRows table))).current.map
        SchoolFact.factKey ↔
      ∃ old, table.find k = some old ∧
        ¬ (old.tab ∈ call.changedTabs ∧ (call.fate old).ends = true) := by
  have keyed : ∀ (next : FactsTable),
      k ∈ next.current.map SchoolFact.factKey ↔ next.find k ≠ none := by
    intro next
    rw [Ne, Table.find_eq_none]
    simp
  rw [keyed]
  cases found : table.find k with
  | none =>
    unfold closeRows
    simp [Table.find_close, found]
  | some old =>
    rw [find_closeRows found]
    by_cases ends : old.tab ∈ call.changedTabs ∧ (call.fate old).ends = true
    · rw [if_pos ends]
      simpa using ends
    · rw [if_neg ends]
      simpa using ends

/-- The key is not open under a changed tab with the value it is given. -/
def Inserts (call : FactsWrite) (table : FactsTable) (k : String) : Prop :=
  ∀ old, table.find k = some old → old.tab ∈ call.changedTabs →
    ∃ other, call.fate old = .replaced other

theorem mem_inserted_keys {k : String} :
    k ∈ ((call.toInsert (call.currentRows table)).map call.insertRow).map SchoolFact.factKey ↔
      ∃ row, call.new k = some row ∧ call.Inserts table k := by
  rw [List.map_map, List.mem_map]
  constructor
  · rintro ⟨row, isIn, rfl⟩
    refine ⟨row, new_of_toInsert isIn, fun old
      (found : table.find row.factKey = some old) inside => ?_⟩
    have oldKey : old.factKey = row.factKey := (Table.find_eq_some.mp found).2
    rcases mem_toInsert.mp isIn with ⟨other, isOther, replaced⟩ | ⟨_, fresh⟩
    · have otherKey := new_factKey (fate_replaced.mp replaced).1
      have otherFound := (mem_currentRows.mp isOther).1
      rw [← otherKey, found] at otherFound
      cases otherFound
      exact ⟨row, replaced⟩
    · exact absurd oldKey (fresh old (mem_currentRows.mpr ⟨oldKey ▸ found, inside⟩))
  · rintro ⟨row, given, replaced⟩
    have rowKey := new_factKey given
    refine ⟨row, mem_toInsert.mpr ?_, rowKey⟩
    by_cases held : ∃ old ∈ call.currentRows table, old.factKey = k
    · obtain ⟨old, isIn, rfl⟩ := held
      obtain ⟨found, inside⟩ := mem_currentRows.mp isIn
      obtain ⟨other, fated⟩ := replaced old found inside
      have same := (fate_replaced.mp fated).1
      rw [given] at same
      exact Or.inl ⟨old, isIn, Option.some.inj same ▸ fated⟩
    · exact Or.inr ⟨rowKey ▸ given, fun old isIn same => held ⟨old, isIn, same.trans rowKey⟩⟩

end FactsWrite

open FactsWrite

variable {call : FactsWrite} {table after : FactsTable} {result : FactsWriteResult}

theorem writeSchoolFacts_isSome :
    (writeSchoolFacts table call).isSome = true ↔ call.Placed table := by
  unfold writeSchoolFacts
  split
  case isTrue unchanged =>
    refine ⟨fun _ k row old given _ => ?_, fun _ => rfl⟩
    simpa [unchanged] using new_tab given
  case isFalse _ =>
    rw [Option.isSome_map, Table.insertAll_isSome, List.map_append]
    constructor
    · intro distinct k row old given found
      by_contra outside
      have held : ¬ (old.tab ∈ call.changedTabs ∧ (call.fate old).ends = true) :=
        fun both => outside both.1
      refine List.disjoint_of_nodup_append distinct (mem_closed_keys.mpr ⟨old, found, held⟩) ?_
      refine mem_inserted_keys.mpr ⟨row, given, fun other isOther inside => ?_⟩
      rw [found] at isOther
      exact absurd (Option.some.inj isOther ▸ inside) outside
    · intro placed
      refine List.Nodup.append (Table.unique _) ?_ fun k kept fresh => ?_
      · rw [List.map_map]
        exact nodup_toInsert (table.unique.sublist (List.filter_sublist.map _))
      · obtain ⟨old, found, held⟩ := mem_closed_keys.mp kept
        obtain ⟨row, given, replaced⟩ := mem_inserted_keys.mp fresh
        have inside := placed k row old given found
        obtain ⟨other, fated⟩ := replaced old found inside
        exact held ⟨inside, by rw [fated]; rfl⟩

/-- The open row of a key after a call that went through, from the one before it. -/
def FactsWrite.settled (call : FactsWrite) (old : Option SchoolFact) (new : Option MappedRow) :
    Option SchoolFact :=
  match new, old with
  | some new, none => some (call.insertRow new)
  | some new, some old =>
    some (if valueChanged old new.value then call.insertRow new else call.updateMeta new old)
  | none, some old => if old.tab ∈ call.changedTabs then none else some old
  | none, none => none

theorem find_toInsert {k : String} {row : MappedRow} (given : call.new k = some row)
    (inserts : call.Inserts table k) :
    (((call.toInsert (call.currentRows table)).map call.insertRow).find? fun row => row.factKey = k) =
      some (call.insertRow row) := by
  have present := mem_inserted_keys.mpr ⟨row, given, inserts⟩
  cases found : ((call.toInsert (call.currentRows table)).map call.insertRow).find? fun row =>
      row.factKey = k with
  | none =>
    obtain ⟨inserted, isIn, same⟩ := List.mem_map.mp present
    exact absurd same (by simpa using List.find?_eq_none.mp found inserted isIn)
  | some inserted =>
    have sameKey : inserted.factKey = k := by simpa using List.find?_some found
    obtain ⟨other, picked, rfl⟩ := List.mem_map.mp (List.mem_of_find?_eq_some found)
    have isOther : call.new k = some other := sameKey ▸ new_of_toInsert picked
    rw [given] at isOther
    rw [Option.some.inj isOther]

theorem find_toInsert_none {k : String}
    (absent : ¬ ∃ row, call.new k = some row ∧ call.Inserts table k) :
    (((call.toInsert (call.currentRows table)).map call.insertRow).find? fun row => row.factKey = k) =
      none := by
  rw [← mem_inserted_keys] at absent
  simpa [List.find?_eq_none] using absent

theorem find_inserted {inserted : FactsTable} {k : String} (placed : call.Placed table)
    (through : (call.closeRows table (call.toClose (call.currentRows table))).insertAll call.now
      ((call.toInsert (call.currentRows table)).map call.insertRow) = some inserted) :
    inserted.find k = match call.new k, table.find k with
      | some new, none => some (call.insertRow new)
      | some new, some old => some (if valueChanged old new.value then call.insertRow new else old)
      | none, some old => if old.tab ∈ call.changedTabs then none else some old
      | none, none => none := by
  rw [Table.find_insertAll through]
  cases found : table.find k with
  | none =>
    have gone : (call.closeRows table (call.toClose (call.currentRows table))).find k = none := by
      unfold closeRows
      simp [Table.find_close, found]
    rw [gone, Option.none_or]
    cases given : call.new k with
    | none => exact find_toInsert_none (by simp [given])
    | some row => exact find_toInsert given fun old bad => by simp [found] at bad
  | some old =>
    have oldKey : old.factKey = k := (Table.find_eq_some.mp found).2
    rw [find_closeRows found]
    cases given : call.new k with
    | none =>
      have withdrawn : call.fate old = .withdrawn := fate_withdrawn.mpr (oldKey ▸ given)
      have absent : ¬ ∃ row, call.new k = some row ∧ call.Inserts table k := by simp [given]
      rw [find_toInsert_none absent, Option.or_none]
      simp [withdrawn, Fate.ends]
    | some row =>
      have inside := placed k row old given found
      cases changed : valueChanged old row.value with
      | true =>
        have replaced : call.fate old = .replaced row := fate_replaced.mpr ⟨oldKey ▸ given, changed⟩
        have inserts : call.Inserts table k := by
          intro other isOther _
          rw [found] at isOther
          exact Option.some.inj isOther ▸ ⟨row, replaced⟩
        simp [replaced, Fate.ends, inside, find_toInsert given inserts, changed]
      | false =>
        have refreshed : call.fate old = .refreshed row :=
          fate_refreshed.mpr ⟨oldKey ▸ given, changed⟩
        simp [refreshed, Fate.ends, changed]

theorem updated_iff {k : String} :
    (∃ row ∈ call.toUpdateMeta (call.currentRows table), row.factKey = k) ↔
      ∃ old, table.find k = some old ∧ old.tab ∈ call.changedTabs ∧
        ∃ row, call.fate old = .refreshed row := by
  constructor
  · rintro ⟨row, isIn, same⟩
    obtain ⟨old, isOld, fated⟩ := mem_toUpdateMeta.mp isIn
    obtain ⟨found, inside⟩ := mem_currentRows.mp isOld
    rw [← new_factKey (fate_refreshed.mp fated).1, same] at found
    exact ⟨old, found, inside, row, fated⟩
  · rintro ⟨old, found, inside, row, fated⟩
    have oldKey : old.factKey = k := (Table.find_eq_some.mp found).2
    exact ⟨row, mem_toUpdateMeta.mpr ⟨old, mem_currentRows.mpr ⟨oldKey ▸ found, inside⟩, fated⟩,
      (new_factKey (fate_refreshed.mp fated).1).trans oldKey⟩

theorem new_of_toUpdateMeta {row : MappedRow}
    (isIn : row ∈ call.toUpdateMeta (call.currentRows table)) : call.new row.factKey = some row := by
  obtain ⟨old, _, fated⟩ := mem_toUpdateMeta.mp isIn
  have given := (fate_refreshed.mp fated).1
  rwa [← new_factKey given] at given

theorem find_writeSchoolFacts (written : writeSchoolFacts table call = some (after, result))
    (k : String) : after.find k = call.settled (table.find k) (call.new k) := by
  have placed := writeSchoolFacts_isSome.mp (Option.isSome_of_eq_some written)
  unfold writeSchoolFacts at written
  split at written
  case isTrue unchanged =>
    cases written
    cases given : call.new k with
    | none => cases found : table.find k <;> simp [FactsWrite.settled, unchanged]
    | some row => simpa [unchanged] using new_tab given
  case isFalse _ =>
    obtain ⟨inserted, through, settled⟩ := Option.map_eq_some_iff.mp written
    cases settled
    rw [find_updateRows, find_inserted placed through]
    have skips : ∀ row : SchoolFact, row.factKey = k →
        (¬ ∃ old, table.find k = some old ∧ old.tab ∈ call.changedTabs ∧
          ∃ row, call.fate old = .refreshed row) →
        call.updatedBy (call.toUpdateMeta (call.currentRows table)) row = row := by
      rintro row rfl none
      exact updates_skip (updated_iff.not.mpr none)
    cases found : table.find k with
    | none =>
      cases given : call.new k with
      | none => rfl
      | some row =>
        exact congrArg some (skips _ (new_factKey given) (by simp [found]))
    | some old =>
      have oldKey : old.factKey = k := (Table.find_eq_some.mp found).2
      cases given : call.new k with
      | none =>
        have withdrawn : call.fate old = .withdrawn := fate_withdrawn.mpr (oldKey ▸ given)
        have skip := skips old oldKey (by simp [found, withdrawn])
        by_cases inside : old.tab ∈ call.changedTabs
        · simp [FactsWrite.settled, inside]
        · simp [FactsWrite.settled, inside, skip]
      | some row =>
        have inside := placed k row old given found
        cases changed : valueChanged old row.value with
        | true =>
          have replaced : call.fate old = .replaced row :=
            fate_replaced.mpr ⟨oldKey ▸ given, changed⟩
          have skip := skips (call.insertRow row) (new_factKey given) (by simp [found, replaced])
          simp [FactsWrite.settled, changed, skip]
        | false =>
          have refreshed : call.fate old = .refreshed row :=
            fate_refreshed.mpr ⟨oldKey ▸ given, changed⟩
          have only : ∀ other ∈ call.toUpdateMeta (call.currentRows table),
              other.factKey = old.factKey → other = row := by
            intro other isIn same
            have isOther := new_of_toUpdateMeta isIn
            rw [same, oldKey, given] at isOther
            exact (Option.some.inj isOther).symm
          have takes : ∃ other ∈ call.toUpdateMeta (call.currentRows table),
              other.factKey = old.factKey :=
            oldKey ▸ updated_iff.mpr ⟨old, found, inside, row, refreshed⟩
          have update := @updates_eq call _ old row only
          rw [if_pos takes] at update
          simp [FactsWrite.settled, changed, update]

theorem FactsWrite.keeps_updateRows (updates : List MappedRow) :
    table.Keeps (call.updateRows table updates) := by
  unfold updateRows
  induction updates generalizing table with
  | nil => exact Table.Keeps.refl table
  | cons new rest ih => exact (Table.keeps_amend table _ _ _).trans ih

theorem keeps_writeSchoolFacts (written : writeSchoolFacts table call = some (after, result)) :
    table.Keeps after := by
  unfold writeSchoolFacts at written
  split at written
  · cases written
    exact Table.Keeps.refl table
  · obtain ⟨inserted, through, settled⟩ := Option.map_eq_some_iff.mp written
    cases settled
    refine ((Table.keeps_close table _ _).trans (Table.keeps_insertAll through)).trans ?_
    exact call.keeps_updateRows _

end Counselle.Facts

import Mathlib.Data.List.Nodup

/-! Tables that keep their history: a row is closed in place and never removed, and a
unique index over the open rows allows one open row for each key. -/
namespace Counselle.Versions
variable {R K : Type}

structure Version (R : Type) where
  row : R
  validFrom : Nat
  validTo : Option Nat

namespace Version

def openRow (version : Version R) : Option R :=
  if version.validTo.isNone then some version.row else none

/-- Rewrite the open rows that `here` picks. -/
def rewrite (here : R → Bool) (change : Version R → Version R) (version : Version R) : Version R :=
  if version.validTo.isNone && here version.row then change version else version

theorem openRow_close (here : R → Bool) (now : Nat) (version : Version R) :
    (version.rewrite here fun v => { v with validTo := some now }).openRow =
      version.openRow.filter fun row => !here row := by
  unfold rewrite openRow
  cases ended : version.validTo with
  | some _ => simp [ended]
  | none => cases picked : here version.row <;> simp [ended, picked, Option.filter]

theorem openRow_amend (here : R → Bool) (change : R → R) (version : Version R) :
    (version.rewrite here fun v => { v with row := change v.row }).openRow =
      version.openRow.map fun row => if here row then change row else row := by
  unfold rewrite openRow
  cases ended : version.validTo with
  | some _ => simp [ended]
  | none => cases picked : here version.row <;> simp [ended, picked]

end Version

def openRows (versions : List (Version R)) : List R := versions.filterMap Version.openRow

theorem openRows_close (here : R → Bool) (now : Nat) (versions : List (Version R)) :
    openRows (versions.map (Version.rewrite here fun v => { v with validTo := some now })) =
      (openRows versions).filter fun row => !here row := by
  unfold openRows
  rw [List.filterMap_map, List.filter_filterMap]
  exact List.filterMap_congr fun version _ => version.openRow_close here now

theorem openRows_amend (here : R → Bool) (change : R → R) (versions : List (Version R)) :
    openRows (versions.map (Version.rewrite here fun v => { v with row := change v.row })) =
      (openRows versions).map fun row => if here row then change row else row := by
  unfold openRows
  rw [List.filterMap_map, List.map_filterMap]
  exact List.filterMap_congr fun version _ => version.openRow_amend here change

/-- A table with the unique index over the keys of its open rows. -/
structure Table (R K : Type) (key : R → K) where
  versions : List (Version R)
  unique : ((openRows versions).map key).Nodup

variable {key : R → K}

namespace Table

def empty : Table R K key := ⟨[], List.nodup_nil⟩

def current (table : Table R K key) : List R := openRows table.versions

theorem eq_of_key (table : Table R K key) {first second : R} (one : first ∈ table.current)
    (two : second ∈ table.current) (same : key first = key second) : first = second :=
  List.inj_on_of_nodup_map table.unique one two same

def close (table : Table R K key) (here : R → Bool) (now : Nat) : Table R K key where
  versions := table.versions.map (Version.rewrite here fun v => { v with validTo := some now })
  unique := by
    rw [openRows_close]
    exact table.unique.sublist (List.filter_sublist.map key)

@[simp] theorem current_close (table : Table R K key) (here : R → Bool) (now : Nat) :
    (table.close here now).current = table.current.filter fun row => !here row :=
  openRows_close here now table.versions

def amend (table : Table R K key) (here : R → Bool) (change : R → R)
    (keeps : ∀ row, key (change row) = key row) : Table R K key where
  versions := table.versions.map (Version.rewrite here fun v => { v with row := change v.row })
  unique := by
    rw [openRows_amend, List.map_map]
    convert table.unique using 2
    funext row
    simp only [Function.comp_apply]
    split
    · exact keeps row
    · rfl

@[simp] theorem current_amend (table : Table R K key) (here : R → Bool) (change : R → R)
    (keeps : ∀ row, key (change row) = key row) :
    (table.amend here change keeps).current =
      table.current.map fun row => if here row then change row else row :=
  openRows_amend here change table.versions

variable [DecidableEq K]

def find (table : Table R K key) (k : K) : Option R := table.current.find? fun row => key row = k

theorem find_eq_some {table : Table R K key} {k : K} {row : R} :
    table.find k = some row ↔ row ∈ table.current ∧ key row = k := by
  constructor
  · intro found
    exact ⟨List.mem_of_find?_eq_some found, by simpa using List.find?_some found⟩
  · rintro ⟨isIn, same⟩
    cases found : table.find k with
    | none =>
      have absent := List.find?_eq_none.mp found row isIn
      exact absurd same (by simpa using absent)
    | some other =>
      have otherKey : key other = k := by simpa using List.find?_some found
      rw [table.eq_of_key (List.mem_of_find?_eq_some found) isIn (otherKey.trans same.symm)]

theorem find_eq_none {table : Table R K key} {k : K} :
    table.find k = none ↔ ∀ row ∈ table.current, key row ≠ k := by
  simp [find, List.find?_eq_none]

theorem filter_key {table : Table R K key} {k : K} {row : R} (found : table.find k = some row) :
    (table.current.filter fun other => key other = k) = [row] := by
  obtain ⟨isIn, rfl⟩ := find_eq_some.mp found
  have one : (table.current.map key).count (key row) = 1 :=
    List.count_eq_one_of_mem table.unique (List.mem_map_of_mem isIn)
  have size : (table.current.filter fun other => key other = key row).length = 1 := by
    rw [← one, List.count, List.countP_map, List.countP_eq_length_filter]
    rfl
  obtain ⟨only, alone⟩ := List.length_eq_one_iff.mp size
  have isOnly : row ∈ [only] := alone ▸ List.mem_filter.mpr ⟨isIn, by simp⟩
  rw [alone, List.mem_singleton.mp isOnly]

theorem find_close (table : Table R K key) (here : R → Bool) (now : Nat) (k : K) :
    (table.close here now).find k = (table.find k).filter fun row => !here row := by
  refine Option.ext fun row => ?_
  rw [find_eq_some, current_close, List.mem_filter, Option.filter_eq_some_iff, find_eq_some]
  exact ⟨fun all => ⟨⟨all.1.1, all.2⟩, all.1.2⟩, fun all => ⟨⟨all.1.1, all.2⟩, all.1.2⟩⟩

theorem find_amend (table : Table R K key) (here : R → Bool) (change : R → R)
    (keeps : ∀ row, key (change row) = key row) (k : K) :
    (table.amend here change keeps).find k =
      (table.find k).map fun row => if here row then change row else row := by
  unfold find
  rw [current_amend, List.find?_map]
  congr 2
  funext row
  simp only [Function.comp_apply]
  split
  · rw [keeps row]
  · rfl

/-- An insert; `none` where the index refuses it. -/
def insert (table : Table R K key) (now : Nat) (row : R) : Option (Table R K key) :=
  if fresh : key row ∈ table.current.map key then none
  else some {
    versions := table.versions ++ [⟨row, now, none⟩]
    unique := by
      have split : openRows (table.versions ++ [⟨row, now, none⟩]) = table.current ++ [row] := by
        simp [openRows, current, Version.openRow]
      rw [split, List.map_append]
      exact List.Nodup.append table.unique (by simp) (by simpa using fresh) }

theorem insert_eq_none {table : Table R K key} {now : Nat} {row : R} :
    table.insert now row = none ↔ key row ∈ table.current.map key := by
  unfold insert
  split <;> simp_all

theorem current_insert {table next : Table R K key} {now : Nat} {row : R}
    (inserted : table.insert now row = some next) : next.current = table.current ++ [row] := by
  unfold insert at inserted
  split at inserted
  · cases inserted
  · cases inserted
    simp [current, openRows, Version.openRow]

def insertAll (table : Table R K key) (now : Nat) : List R → Option (Table R K key)
  | [] => some table
  | row :: rest => (table.insert now row).bind fun next => next.insertAll now rest

theorem current_insertAll {rows : List R} {table next : Table R K key} {now : Nat}
    (inserted : table.insertAll now rows = some next) : next.current = table.current ++ rows := by
  induction rows generalizing table with
  | nil =>
    cases inserted
    simp
  | cons row rest ih =>
    obtain ⟨middle, first, later⟩ := Option.bind_eq_some_iff.mp inserted
    rw [ih later, current_insert first, List.append_assoc, List.singleton_append]

theorem insertAll_isSome {rows : List R} {table : Table R K key} {now : Nat} :
    (table.insertAll now rows).isSome = true ↔ ((table.current ++ rows).map key).Nodup := by
  induction rows generalizing table with
  | nil => simpa [insertAll, current] using table.unique
  | cons row rest ih =>
    rw [insertAll]
    cases inserted : table.insert now row with
    | none =>
      have taken := insert_eq_none.mp inserted
      simp only [Option.bind_none, Option.isSome_none, Bool.false_eq_true, false_iff]
      intro distinct
      rw [List.map_append] at distinct
      exact List.disjoint_of_nodup_append distinct taken (by simp)
    | some next =>
      rw [Option.bind_some, ih, current_insert inserted, List.append_assoc, List.singleton_append]

theorem find_insertAll {rows : List R} {table next : Table R K key} {now : Nat}
    (inserted : table.insertAll now rows = some next) (k : K) :
    next.find k = (table.find k).or (rows.find? fun row => key row = k) := by
  unfold find
  rw [current_insertAll inserted, List.find?_append]

/-- Every version keeps its place, its key and its start, and a closed one stays as it is. -/
def Keeps (table next : Table R K key) : Prop :=
  ∀ (place : Nat) (version : Version R), table.versions[place]? = some version → ∃ later : Version R,
    next.versions[place]? = some later ∧ key later.row = key version.row ∧ later.validFrom = version.validFrom ∧
      (version.validTo ≠ none → later = version)

omit [DecidableEq K] in
theorem Keeps.refl (table : Table R K key) : table.Keeps table := fun _ version here => ⟨version, here, rfl, rfl, fun _ => rfl⟩

omit [DecidableEq K] in
theorem Keeps.trans {first second third : Table R K key} (one : first.Keeps second)
    (two : second.Keeps third) : first.Keeps third := by
  intro place version here
  obtain ⟨middle, isMiddle, sameKey, sameStart, stays⟩ := one place version here
  obtain ⟨later, isLater, laterKey, laterStart, stays'⟩ := two place middle isMiddle
  refine ⟨later, isLater, laterKey.trans sameKey, laterStart.trans sameStart, fun closed => ?_⟩
  obtain rfl := stays closed
  exact stays' closed

omit [DecidableEq K] in
theorem keeps_rewrite {table next : Table R K key} {here : R → Bool} {change : Version R → Version R}
    (rewritten : next.versions = table.versions.map (Version.rewrite here change))
    (kept : ∀ version, key (change version).row = key version.row ∧ (change version).validFrom = version.validFrom) :
    table.Keeps next := by
  intro place version isIn
  refine ⟨version.rewrite here change, by rw [rewritten, List.getElem?_map, isIn]; rfl, ?_⟩
  unfold Version.rewrite
  split
  case isTrue picked =>
    refine ⟨(kept version).1, (kept version).2, fun closed => ?_⟩
    rw [Bool.and_eq_true, Option.isNone_iff_eq_none] at picked
    exact absurd picked.1 closed
  case isFalse => exact ⟨rfl, rfl, fun _ => rfl⟩

omit [DecidableEq K] in
theorem keeps_close (table : Table R K key) (here : R → Bool) (now : Nat) :
    table.Keeps (table.close here now) :=
  keeps_rewrite rfl fun _ => ⟨rfl, rfl⟩

omit [DecidableEq K] in
theorem keeps_amend (table : Table R K key) (here : R → Bool) (change : R → R)
    (keeps : ∀ row, key (change row) = key row) : table.Keeps (table.amend here change keeps) :=
  keeps_rewrite rfl fun version => ⟨keeps version.row, rfl⟩

theorem keeps_insertAll {rows : List R} {table next : Table R K key} {now : Nat}
    (inserted : table.insertAll now rows = some next) : table.Keeps next := by
  induction rows generalizing table with
  | nil =>
    cases inserted
    exact Keeps.refl _
  | cons row rest ih =>
    obtain ⟨middle, first, later⟩ := Option.bind_eq_some_iff.mp inserted
    refine Keeps.trans ?_ (ih later)
    unfold insert at first
    split at first
    · cases first
    · cases first
      intro place version isIn
      refine ⟨version, ?_, rfl, rfl, fun _ => rfl⟩
      exact (List.getElem?_append_left (List.getElem?_eq_some_iff.mp isIn).1).trans isIn

end Table
end Counselle.Versions

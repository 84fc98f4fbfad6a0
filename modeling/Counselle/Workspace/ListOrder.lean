import Counselle.Workspace.ActivityLists
import Counselle.Transition
import Mathlib.Data.List.Perm.Subperm

/-! The order of a student's lists over every run: what each transaction knows while it
holds the lock, and what its commit does to the list that is shown. -/
namespace Counselle.Activities
variable {Id Pair : Type}

theorem before_total (a b : Row Id Pair) : a.before b ∨ b.before a := by
  unfold Row.before
  omega

theorem before_trans {a b c : Row Id Pair} (first : a.before b) (second : b.before c) : a.before c := by
  unfold Row.before at *
  omega

instance : Std.Total (@Row.before Id Pair) := ⟨before_total⟩

instance : IsTrans (Row Id Pair) Row.before := ⟨fun _ _ _ => before_trans⟩

theorem listed_perm (rows : List (Row Id Pair)) : (listed rows).Perm (active rows) :=
  List.perm_insertionSort Row.before (active rows)

theorem mem_listed {rows : List (Row Id Pair)} {row : Row Id Pair} : row ∈ listed rows ↔ row ∈ active rows :=
  (listed_perm rows).mem_iff

theorem mem_active {rows : List (Row Id Pair)} {row : Row Id Pair} :
    row ∈ active rows ↔ row ∈ rows ∧ row.archived = false := by
  simp [active]

/-- The sort orders of active rows are pairwise distinct. -/
def Distinct (rows : List (Row Id Pair)) : Prop := ((active rows).map (·.sortOrder)).Nodup

theorem listed_ascending {rows : List (Row Id Pair)} (distinct : Distinct rows) :
    (listed rows).Pairwise fun a b => a.sortOrder < b.sortOrder := by
  have sorted : (listed rows).Pairwise Row.before := List.pairwise_insertionSort Row.before (active rows)
  have apart : ((listed rows).map (·.sortOrder)).Nodup := ((listed_perm rows).map _).nodup_iff.mpr distinct
  have differ : (listed rows).Pairwise fun a b => a.sortOrder ≠ b.sortOrder := List.pairwise_map.mp apart
  apply (sorted.and differ).imp
  rintro a b ⟨ordered, unequal⟩
  unfold Row.before at ordered
  omega

theorem listed_eq {rows sorted : List (Row Id Pair)} (perm : sorted.Perm (active rows))
    (ascending : sorted.Pairwise fun a b => a.sortOrder < b.sortOrder) : listed rows = sorted := by
  have distinct : Distinct rows := by
    apply ((perm.map (·.sortOrder)).nodup_iff).mp
    apply List.pairwise_map.mpr
    apply ascending.imp
    intro a b less same
    omega
  apply List.Perm.eq_of_pairwise _ (listed_ascending distinct) ascending ((listed_perm rows).trans perm.symm)
  intro a b _ _ less more
  omega

theorem listed_append {before after added : List (Row Id Pair)} (distinct : Distinct before)
    (perm : (active after).Perm (active before ++ added))
    (later : ∀ old ∈ active before, ∀ new ∈ added, old.sortOrder < new.sortOrder)
    (ascending : added.Pairwise fun a b => a.sortOrder < b.sortOrder) :
    listed after = listed before ++ added := by
  apply listed_eq
  · exact ((listed_perm before).append_right added).trans perm.symm
  · apply List.pairwise_append.mpr
    refine ⟨listed_ascending distinct, ascending, ?_⟩
    intro old isOld new isNew
    exact later old (mem_listed.mp isOld) new isNew

theorem distinct_of_listed {rows : List (Row Id Pair)}
    (ascending : (listed rows).Pairwise fun a b => a.sortOrder < b.sortOrder) : Distinct rows := by
  apply ((listed_perm rows).map (·.sortOrder)).nodup_iff.mp
  apply List.pairwise_map.mpr
  apply ascending.imp
  intro a b less same
  omega

theorem ranks_listed {rows : List (Row Id Pair)} (distinct : Distinct rows) :
    ranksOf rows = ((listed rows).map (·.id)).zipIdx 1 := by
  have same : listed rows = (active rows).insertionSort fun a b => a.sortOrder ≤ b.sortOrder := by
    have perm := List.perm_insertionSort (fun a b : Row Id Pair => a.sortOrder ≤ b.sortOrder) (active rows)
    apply listed_eq perm
    have sorted := List.pairwise_insertionSort (fun a b : Row Id Pair => a.sortOrder ≤ b.sortOrder) (active rows)
    have apart := (perm.map fun row : Row Id Pair => row.sortOrder).nodup_iff.mpr distinct
    apply (sorted.and (List.pairwise_map.mp apart)).imp
    rintro a b ⟨ordered, unequal⟩
    omega
  unfold ranksOf
  rw [same]

def Row.key (row : Row Id Pair) : Id × Int := (row.id, row.sortOrder)

theorem ranks_of_keys {a b : List (Row Id Pair)} (same : (active a).map Row.key = (active b).map Row.key) :
    ranksOf a = ranksOf b := by
  have sorted (rows : List (Row Id Pair)) :
      ((active rows).insertionSort fun a b => a.sortOrder ≤ b.sortOrder).map (·.id) =
        (((active rows).map Row.key).insertionSort fun a b => a.2 ≤ b.2).map (·.1) := by
    rw [← List.map_insertionSort (fun a b : Row Id Pair => a.sortOrder ≤ b.sortOrder)
      (fun a b : Id × Int => a.2 ≤ b.2) Row.key (active rows) fun a _ b _ => Iff.rfl]
    rw [List.map_map]
    rfl
  unfold ranksOf
  rw [sorted a, sorted b, same]

variable [DecidableEq Id]

structure Ordered (table : WorkspaceTable) (rows : List (Row Id Pair)) : Prop where
  ids : (rows.map (·.id)).Nodup
  distinct : Distinct rows
  capped : countActive rows ≤ table.cap

/-- Where a restore puts the row: after every row of `rows`, or where it was. -/
def Placed (table : WorkspaceTable) (rows : List (Row Id Pair)) : Option Int → Prop
  | some sortOrder => ∀ row ∈ rows, row.sortOrder < sortOrder
  | none => table = .honors

/-- What a batch has written, with `items` to come. -/
structure Batch (table : WorkspaceTable) (rows : List (Row Id Pair)) (sortOrder : Int) (items : List Pair)
    (written : List (Row Id Pair)) : Prop where
  room : countActive rows + written.length + items.length ≤ table.cap
  later : ∀ row ∈ rows, row.sortOrder < sortOrder
  orders : written.map (·.sortOrder) = (List.range written.length).map fun index : Nat => sortOrder + index
  shown : ∀ row ∈ written, row.archived = false
  ids : (rows.map (·.id) ++ written.map (·.id)).Nodup

/-- What a reorder has moved. Its ranks are those of the list while none of its rows is archived. -/
structure Moved (rows : List (Row Id Pair)) (oldRanks : List (Id × Nat)) (ids : List Id) (index : Nat) : Prop where
  unique : ids.Nodup
  kept : ∀ id ∈ ids.take index, isActive rows id = true
  ranks : (∀ id ∈ ids, isActive rows id = true) →
    ((active rows).map (·.id)).Perm ids ∧ oldRanks = ranksOf rows

/-- What the holder of the lock knows of the committed rows. -/
def Progress.Fits (table : WorkspaceTable) (rows : List (Row Id Pair)) : Progress Id Pair → Prop
  | .roomy items => countActive rows + items.length ≤ table.cap
  | .inserting sortOrder items written => Batch table rows sortOrder items written
  | .restorable _ => countActive rows < table.cap
  | .placing _ sortOrder => countActive rows < table.cap ∧ Placed table rows sortOrder
  | .restored id sortOrder =>
    countActive rows < table.cap ∧ Placed table rows sortOrder ∧ isArchived rows id = true
  | .reordering ids => ids.Nodup
  | .moving oldRanks ids index => Moved rows oldRanks ids index
  | _ => True

structure RowList.Ok (table : WorkspaceTable) (lists : RowList Id Pair) : Prop where
  ordered : Ordered table lists.rows
  fits : ∀ progress, lists.holder = some progress → progress.Fits table lists.rows
  apart : ∀ progress, lists.holder = some progress → ∀ entry ∈ lists.pending, progress.writes entry.1 = false

theorem isActive_iff {rows : List (Row Id Pair)} {id : Id} :
    isActive rows id = true ↔ ∃ row ∈ active rows, row.id = id := by
  simp [isActive]

theorem isArchived_iff {rows : List (Row Id Pair)} {id : Id} :
    isArchived rows id = true ↔ ∃ row ∈ rows, row.id = id ∧ row.archived = true := by
  simp [isArchived]

theorem apply_keys (change : Change Pair) (id : Id) (rows : List (Row Id Pair)) :
    (change.apply id rows).map Row.key = rows.map Row.key := by
  unfold Change.apply
  rw [List.map_map]
  apply List.map_congr_left
  intro row _
  simp only [Function.comp_apply]
  split
  · cases change <;> rfl
  · rfl

theorem active_archive (id : Id) (rows : List (Row Id Pair)) :
    active ((Change.archive : Change Pair).apply id rows) = (active rows).filter fun row => row.id ≠ id := by
  unfold active Change.apply
  induction rows with
  | nil => rfl
  | cons row rows ih =>
    rw [List.map_cons, List.filter_cons, List.filter_cons]
    by_cases same : row.id = id <;> cases shown : row.archived <;> simp_all

theorem active_edit (pair : Pair) (id : Id) (rows : List (Row Id Pair)) :
    (active ((Change.edit pair).apply id rows)).map Row.key = (active rows).map Row.key := by
  unfold active Change.apply
  induction rows with
  | nil => rfl
  | cons row rows ih =>
    rw [List.map_cons, List.filter_cons, List.filter_cons]
    by_cases same : row.id = id <;> cases shown : row.archived <;> simp_all [Row.key]

theorem apply_active (change : Change Pair) (id : Id) (rows : List (Row Id Pair)) :
    ((active (change.apply id rows)).map Row.key).Sublist ((active rows).map Row.key) := by
  cases change with
  | archive =>
    rw [active_archive]
    exact List.filter_sublist.map Row.key
  | edit pair =>
    rw [active_edit]

theorem active_of_apply {change : Change Pair} {id other : Id} {rows : List (Row Id Pair)}
    (still : isActive (change.apply id rows) other = true) : isActive rows other = true := by
  obtain ⟨row, isIn, rfl⟩ := isActive_iff.mp still
  obtain ⟨old, wasIn, same⟩ := List.mem_map.mp ((apply_active change id rows).subset (List.mem_map_of_mem isIn))
  exact isActive_iff.mpr ⟨old, wasIn, congrArg Prod.fst same⟩

theorem apply_active_of_ne {change : Change Pair} {id other : Id} {rows : List (Row Id Pair)}
    (unequal : id ≠ other) (before : isActive rows other = true) :
    isActive (change.apply id rows) other = true := by
  obtain ⟨row, isIn, rfl⟩ := isActive_iff.mp before
  apply isActive_iff.mpr
  refine ⟨row, mem_active.mpr ⟨?_, (mem_active.mp isIn).2⟩, rfl⟩
  apply List.mem_map.mpr
  exact ⟨row, (mem_active.mp isIn).1, if_neg fun same => unequal same.symm⟩

theorem apply_archived {change : Change Pair} {id other : Id} {rows : List (Row Id Pair)}
    (before : isArchived rows other = true) : isArchived (change.apply id rows) other = true := by
  obtain ⟨row, isIn, rfl, archived⟩ := isArchived_iff.mp before
  apply isArchived_iff.mpr
  refine ⟨_, List.mem_map_of_mem isIn, ?_⟩
  split
  · cases change
    · exact ⟨rfl, rfl⟩
    · exact ⟨rfl, archived⟩
  · exact ⟨rfl, archived⟩

theorem apply_ids (change : Change Pair) (id : Id) (rows : List (Row Id Pair)) :
    (change.apply id rows).map (·.id) = rows.map (·.id) := by
  have keys := congrArg (List.map Prod.fst) (apply_keys change id rows)
  simpa only [List.map_map, Function.comp_def, Row.key] using keys

theorem apply_later {change : Change Pair} {id : Id} {rows : List (Row Id Pair)} {sortOrder : Int}
    (later : ∀ row ∈ rows, row.sortOrder < sortOrder) : ∀ row ∈ change.apply id rows, row.sortOrder < sortOrder := by
  intro row isIn
  have known : row.key ∈ rows.map Row.key := apply_keys change id rows ▸ List.mem_map_of_mem isIn
  obtain ⟨old, wasIn, same⟩ := List.mem_map.mp known
  have order : old.sortOrder = row.sortOrder := congrArg Prod.snd same
  exact order ▸ later old wasIn

theorem apply_count (change : Change Pair) (id : Id) (rows : List (Row Id Pair)) :
    countActive (change.apply id rows) ≤ countActive rows := by
  simpa [countActive] using (apply_active change id rows).length_le

theorem Placed.apply {table : WorkspaceTable} {change : Change Pair} {id : Id} {rows : List (Row Id Pair)}
    {sortOrder : Option Int} (placed : Placed table rows sortOrder) :
    Placed table (change.apply id rows) sortOrder := by
  cases sortOrder with
  | none => exact placed
  | some sortOrder => exact apply_later placed

theorem Ordered.apply {table : WorkspaceTable} {rows : List (Row Id Pair)} (ordered : Ordered table rows)
    (change : Change Pair) (id : Id) : Ordered table (change.apply id rows) where
  ids := by
    rw [apply_ids]
    exact ordered.ids
  distinct := by
    have sub := (apply_active change id rows).map Prod.snd
    simp only [List.map_map, Function.comp_def, Row.key] at sub
    exact ordered.distinct.sublist sub
  capped := (apply_count change id rows).trans ordered.capped

theorem Moved.apply {rows : List (Row Id Pair)} {oldRanks : List (Id × Nat)} {ids : List Id} {index : Nat}
    (moved : Moved rows oldRanks ids index) {change : Change Pair} {id : Id} (apart : id ∉ ids.take index) :
    Moved (change.apply id rows) oldRanks ids index where
  unique := moved.unique
  kept := by
    intro other taken
    apply apply_active_of_ne _ (moved.kept other taken)
    rintro rfl
    exact apart taken
  ranks := by
    intro still
    obtain ⟨perm, ranks⟩ := moved.ranks fun other isIn => active_of_apply (still other isIn)
    have keys : (active (change.apply id rows)).map Row.key = (active rows).map Row.key := by
      cases change with
      | edit pair => exact active_edit pair id rows
      | archive =>
        rw [active_archive, List.filter_eq_self.mpr]
        intro row isIn
        have asked : row.id ∈ ids := perm.subset (List.mem_map_of_mem isIn)
        obtain ⟨other, remains, same⟩ := isActive_iff.mp (still row.id asked)
        rw [active_archive] at remains
        simpa [same] using (List.mem_filter.mp remains).2
    constructor
    · have ids := congrArg (List.map Prod.fst) keys
      simp only [List.map_map, Function.comp_def, Row.key] at ids
      rw [ids]
      exact perm
    · exact ranks.trans (ranks_of_keys keys).symm

theorem Progress.Fits.apply {table : WorkspaceTable} {rows : List (Row Id Pair)} {progress : Progress Id Pair}
    (fits : progress.Fits table rows) {change : Change Pair} {id : Id} (apart : progress.writes id = false) :
    progress.Fits table (change.apply id rows) := by
  have count := apply_count change id rows
  cases progress with
  | roomy items =>
    simp only [Progress.Fits] at *
    omega
  | inserting sortOrder items written =>
    have room := fits.room
    refine ⟨by omega, apply_later fits.later, fits.orders, fits.shown, ?_⟩
    rw [apply_ids]
    exact fits.ids
  | restorable id => exact count.trans_lt fits
  | placing id sortOrder => exact ⟨count.trans_lt fits.1, fits.2.apply⟩
  | restored id sortOrder => exact ⟨count.trans_lt fits.1, fits.2.1.apply, apply_archived fits.2.2⟩
  | reordering ids => exact fits
  | moving oldRanks ids index =>
    apply Moved.apply fits
    simpa [Progress.writes] using apart
  | creating => trivial
  | distinct => trivial
  | restoring => trivial
  | archivedFound => trivial
  | archiving => trivial
  | archivedRow => trivial

omit [DecidableEq Id] in
theorem nextSort_later (rows : List (Row Id Pair)) : ∀ row ∈ rows, row.sortOrder < nextSort rows := by
  intro row isIn
  have known : row.sortOrder ∈ rows.map (·.sortOrder) := List.mem_map_of_mem isIn
  unfold nextSort
  cases largest : (rows.map (·.sortOrder)).max? with
  | none =>
    rw [List.max?_eq_none_iff] at largest
    rw [largest] at known
    cases known
  | some highest =>
    have below := (List.max?_eq_some_iff.mp largest).2 row.sortOrder known
    simp only [Option.getD_some]
    omega

theorem reorder_fits {table : WorkspaceTable} {rows : List (Row Id Pair)} {ids : List Id} (ordered : Ordered table rows)
    (unique : ids.Nodup) (asked : ids.all ((active rows).map (·.id)).contains = true)
    (covered : ((active rows).map (·.id)).all ids.contains = true) : Moved rows (ranksOf rows) ids 0 where
  unique := unique
  kept := by
    intro id taken
    cases taken
  ranks := by
    intro _
    refine ⟨?_, rfl⟩
    have activeIds : ((active rows).map (·.id)).Nodup := ordered.ids.sublist (List.filter_sublist.map _)
    apply (List.perm_ext_iff_of_nodup activeIds unique).mpr
    intro id
    simp only [List.all_eq_true, List.contains_iff_mem] at asked covered
    exact ⟨covered id, asked id⟩

section
variable [DecidableEq Pair]

theorem advance_fits {table : WorkspaceTable} {rows : List (Row Id Pair)} {locked : Id → Bool}
    {progress next : Progress Id Pair} (ordered : Ordered table rows) (fits : progress.Fits table rows)
    (advanced : advance table rows locked progress = some (.ok next)) :
    next.Fits table rows ∧ ∀ id, next.writes id = true → progress.writes id = true ∨ locked id = false := by
  cases progress with
  | creating items reject =>
    obtain ⟨_, _, rfl⟩ := Fallible.map_ok_iff.mp (Option.some.inj advanced)
    exact ⟨trivial, nofun⟩
  | distinct items =>
    simp only [advance] at advanced
    split at advanced
    · cases advanced
    · rename_i room
      cases advanced
      exact ⟨Nat.le_of_not_lt room, nofun⟩
  | roomy items =>
    cases advanced
    refine ⟨⟨?_, nextSort_later rows, rfl, nofun, ?_⟩, nofun⟩
    · exact fits
    · simpa using ordered.ids
  | restoring id =>
    simp only [advance] at advanced
    split at advanced
    · cases advanced
      exact ⟨trivial, nofun⟩
    · cases advanced
  | archivedFound id =>
    simp only [advance] at advanced
    split at advanced
    · cases advanced
    · rename_i room
      cases advanced
      exact ⟨Nat.lt_of_not_le room, nofun⟩
  | restorable id =>
    cases table with
    | activities =>
      cases advanced
      exact ⟨⟨fits, nextSort_later rows⟩, nofun⟩
    | honors =>
      cases advanced
      exact ⟨⟨fits, rfl⟩, nofun⟩
  | placing id sortOrder =>
    simp only [advance] at advanced
    split at advanced
    · cases advanced
    · rename_i free
      split at advanced
      · rename_i archived
        cases advanced
        refine ⟨⟨fits.1, fits.2, archived⟩, ?_⟩
        intro other written
        simp only [Progress.writes, decide_eq_true_eq] at written
        exact Or.inr (by simpa [written] using free)
      · cases advanced
  | reordering ids =>
    simp only [advance, Option.some.injEq] at advanced
    split at advanced
    · rename_i same
      cases advanced
      rw [Bool.and_eq_true] at same
      exact ⟨reorder_fits ordered fits same.1 same.2, by simp [Progress.writes]⟩
    · cases advanced
  | moving oldRanks ids index =>
    simp only [advance] at advanced
    split at advanced
    · cases advanced
    · rename_i id this
      split at advanced
      · cases advanced
      · rename_i free
        split at advanced
        · rename_i isIn
          cases advanced
          have taken : ids.take (index + 1) = ids.take index ++ [id] := by
            rw [List.take_add_one, this, Option.toList_some]
          constructor
          · refine ⟨fits.unique, ?_, fits.ranks⟩
            intro other known
            rw [taken, List.mem_append, List.mem_singleton] at known
            obtain known | rfl := known
            · exact fits.kept other known
            · exact isIn
          · intro other written
            simp only [Progress.writes, List.contains_iff_mem] at written ⊢
            rw [taken, List.mem_append, List.mem_singleton] at written
            obtain known | rfl := written
            · exact Or.inl known
            · exact Or.inr (by simpa using free)
        · cases advanced
  | archiving id =>
    simp only [advance] at advanced
    split at advanced
    · cases advanced
    · rename_i free
      split at advanced
      · cases advanced
        refine ⟨trivial, ?_⟩
        intro other written
        simp only [Progress.writes, decide_eq_true_eq] at written
        exact Or.inr (by simpa [written] using free)
      · cases advanced
  | inserting => cases advanced
  | restored => cases advanced
  | archivedRow => cases advanced

end

theorem insertNext_fits {table : WorkspaceTable} {rows : List (Row Id Pair)} {id : Id} {createdAt : Nat}
    {progress next : Progress Id Pair} (fits : progress.Fits table rows)
    (inserted : insertNext rows id createdAt progress = some next) :
    next.Fits table rows ∧ ∀ other, next.writes other = false := by
  unfold insertNext at inserted
  split at inserted
  · rename_i sortOrder item items written
    split at inserted
    · cases inserted
    · rename_i fresh
      cases inserted
      refine ⟨⟨?_, fits.later, ?_, ?_, ?_⟩, fun _ => rfl⟩
      · have room := fits.room
        simp only [List.length_append, List.length_cons, List.length_nil] at room ⊢
        omega
      · rw [List.map_append, fits.orders, List.length_append, List.length_singleton, List.range_succ, List.map_append]
        rfl
      · intro row isIn
        rw [List.mem_append, List.mem_singleton] at isIn
        obtain known | rfl := isIn
        · exact fits.shown row known
        · rfl
      · rw [List.map_append, ← List.append_assoc, List.map_singleton]
        apply List.nodup_append.mpr
        refine ⟨fits.ids, List.nodup_singleton id, ?_⟩
        intro a known b isNew same
        rw [List.mem_singleton] at isNew
        subst isNew same
        simp only [List.mem_append, List.mem_map] at known
        simp [-not_or] at fresh
        grind
  · cases inserted

def Shown (before after : List (Row Id Pair)) : Progress Id Pair → Prop
  | .inserting _ _ written => listed after = listed before ++ written
  | .restored id _ => ∃ row, row.id = id ∧ listed after = listed before ++ [row]
  | .moving oldRanks ids _ =>
    (listed after).map (·.id) = ids ∧ oldRanks = ((listed before).map (·.id)).zipIdx 1
  | _ => True

omit [DecidableEq Id] in
theorem active_append (rows added : List (Row Id Pair)) : active (rows ++ added) = active rows ++ active added :=
  List.filter_append rows added

omit [DecidableEq Id] in
theorem active_subset {rows : List (Row Id Pair)} {row : Row Id Pair} (isIn : row ∈ active rows) : row ∈ rows :=
  (mem_active.mp isIn).1

omit [DecidableEq Id] in
theorem batch_commit {table : WorkspaceTable} {rows written : List (Row Id Pair)} {sortOrder : Int}
    (ordered : Ordered table rows) (batch : Batch table rows sortOrder [] written) :
    Ordered table (rows ++ written) ∧ listed (rows ++ written) = listed rows ++ written := by
  have shown : active (rows ++ written) = active rows ++ written := by
    rw [active_append]
    congr 1
    apply List.filter_eq_self.mpr
    intro row isIn
    simp [batch.shown row isIn]
  have ascending : written.Pairwise fun a b => a.sortOrder < b.sortOrder := by
    apply List.pairwise_map.mp
    rw [batch.orders]
    apply List.pairwise_map.mpr
    apply List.pairwise_lt_range.imp
    intro a b less
    omega
  have least : ∀ new ∈ written, sortOrder ≤ new.sortOrder := by
    intro new isNew
    have known : new.sortOrder ∈ written.map (·.sortOrder) := List.mem_map_of_mem isNew
    rw [batch.orders] at known
    obtain ⟨index, _, same⟩ := List.mem_map.mp known
    omega
  have appended : listed (rows ++ written) = listed rows ++ written := by
    apply listed_append ordered.distinct (shown ▸ List.Perm.refl _) _ ascending
    intro old isOld new isNew
    exact (batch.later old (active_subset isOld)).trans_le (least new isNew)
  refine ⟨⟨?_, ?_, ?_⟩, appended⟩
  · rw [List.map_append]
    exact batch.ids
  · apply distinct_of_listed
    rw [appended]
    apply List.pairwise_append.mpr
    refine ⟨listed_ascending ordered.distinct, ascending, ?_⟩
    intro old isOld new isNew
    exact (batch.later old (active_subset (mem_listed.mp isOld))).trans_le (least new isNew)
  · have room := batch.room
    simp only [countActive, shown, List.length_append, List.length_nil] at room ⊢
    omega

theorem update_one {rows : List (Row Id Pair)} {old : Row Id Pair} (ids : (rows.map (·.id)).Nodup) (isIn : old ∈ rows) :
    ∃ front back, rows = front ++ old :: back ∧ ∀ change : Row Id Pair → Row Id Pair,
      (rows.map fun row => if row.id = old.id then change row else row) = front ++ change old :: back := by
  obtain ⟨front, back, rfl⟩ := List.append_of_mem isIn
  refine ⟨front, back, rfl, ?_⟩
  intro change
  rw [List.map_append, List.map_cons, List.nodup_append, List.nodup_cons] at ids
  obtain ⟨_, ⟨notBack, _⟩, apart⟩ := ids
  rw [List.map_append, List.map_cons, if_pos rfl]
  congr 1
  · apply List.map_congr_left (g := id) _ |>.trans (List.map_id front)
    intro row isFront
    exact if_neg (apart row.id (List.mem_map_of_mem isFront) old.id List.mem_cons_self)
  · congr 1
    apply List.map_congr_left (g := id) _ |>.trans (List.map_id back)
    intro row isBack
    apply if_neg
    intro same
    exact notBack (same ▸ List.mem_map_of_mem isBack)

theorem restore_commit {table : WorkspaceTable} {rows : List (Row Id Pair)} {id : Id} {sortOrder : Option Int}
    (ordered : Ordered table rows) (room : countActive rows < table.cap) (archived : isArchived rows id = true)
    (last : ∀ old ∈ rows, old.id = id → ∀ row ∈ active rows, row.sortOrder < sortOrder.getD old.sortOrder)
    {after : List (Row Id Pair)} (ends : committed rows (.restored id sortOrder) = some after) :
    Ordered table after ∧ ∃ row, row.id = id ∧ listed after = listed rows ++ [row] := by
  obtain ⟨old, isIn, rfl, was⟩ := isArchived_iff.mp archived
  obtain ⟨front, back, split, updated⟩ := update_one ordered.ids isIn
  let row : Row Id Pair := { old with archived := false, sortOrder := sortOrder.getD old.sortOrder }
  have result : after = front ++ row :: back := by
    rw [← Option.some.inj ends]
    exact updated fun row => { row with archived := false, sortOrder := sortOrder.getD row.sortOrder }
  have shown : (active after).Perm (active rows ++ [row]) := by
    rw [result, split, active_append, active_append]
    have inactive : active (old :: back) = active back := by simp [active, was]
    have restored : active (row :: back) = row :: active back := by simp [active, row]
    rw [inactive, restored]
    exact List.perm_middle.trans (List.perm_append_singleton row _).symm
  have later : ∀ other ∈ active rows, ∀ new ∈ [row], other.sortOrder < new.sortOrder := by
    intro other isOther new isNew
    rw [List.mem_singleton.mp isNew]
    exact last old isIn rfl other isOther
  have appended := listed_append ordered.distinct shown later (List.pairwise_singleton _ row)
  refine ⟨⟨?_, ?_, ?_⟩, row, rfl, appended⟩
  · have same : after.map (·.id) = rows.map (·.id) := by
      rw [result, split, List.map_append, List.map_append]
      rfl
    rw [same]
    exact ordered.ids
  · apply distinct_of_listed
    rw [appended]
    apply List.pairwise_append.mpr
    refine ⟨listed_ascending ordered.distinct, List.pairwise_singleton _ row, ?_⟩
    intro other isOther
    exact later other (mem_listed.mp isOther)
  · have length := shown.length_eq
    simp only [countActive, List.length_append, List.length_singleton] at room length ⊢
    omega

theorem reorder_commit {table : WorkspaceTable} {rows : List (Row Id Pair)} {oldRanks : List (Id × Nat)}
    {ids : List Id} {index : Nat} (ordered : Ordered table rows) (moved : Moved rows oldRanks ids index)
    {after : List (Row Id Pair)} (ends : committed rows (.moving oldRanks ids index) = some after) :
    Ordered table after ∧ (listed after).map (·.id) = ids ∧ oldRanks = ((listed rows).map (·.id)).zipIdx 1 := by
  simp only [committed] at ends
  split at ends
  · rename_i complete
    obtain ⟨perm, ranks⟩ := moved.ranks (by simpa [complete] using moved.kept)
    let place (row : Row Id Pair) : Row Id Pair :=
      if ids.contains row.id then { row with sortOrder := ids.idxOf row.id } else row
    have result : after = rows.map place := (Option.some.inj ends).symm
    have placeId (row : Row Id Pair) : (place row).id = row.id := by
      dsimp only [place]
      split <;> rfl
    have placeArchived (row : Row Id Pair) : (place row).archived = row.archived := by
      dsimp only [place]
      split <;> rfl
    have shown : active after = (active rows).map place := by
      rw [result]
      unfold active
      rw [List.filter_map]
      congr 1
      apply List.filter_congr
      intro row _
      simp [placeArchived]
    have sameIds : (active after).map (·.id) = (active rows).map (·.id) := by
      rw [shown, List.map_map]
      exact List.map_congr_left fun row _ => placeId row
    have order : ∀ row ∈ active after, row.sortOrder = ids.idxOf row.id := by
      intro row isIn
      rw [shown] at isIn
      obtain ⟨old, wasIn, rfl⟩ := List.mem_map.mp isIn
      have asked : ids.contains old.id = true := by
        simpa using perm.subset (List.mem_map_of_mem wasIn)
      rw [placeId]
      dsimp only [place]
      rw [if_pos asked]
    have afterPerm : ((active after).map (·.id)).Perm ids := sameIds ▸ perm
    have distinct : Distinct after := by
      have same : (active after).map (·.sortOrder) = ((active after).map (·.id)).map fun id => (ids.idxOf id : Int) := by
        rw [List.map_map]
        exact List.map_congr_left order
      unfold Distinct
      rw [same]
      apply List.Nodup.map_on _ (afterPerm.nodup_iff.mpr moved.unique)
      intro a isA b _ equal
      exact (List.idxOf_inj (afterPerm.subset isA)).mp (Int.ofNat_inj.mp equal)
    refine ⟨⟨?_, distinct, ?_⟩, ?_, ranks.trans (ranks_listed ordered.distinct)⟩
    · have same : after.map (·.id) = rows.map (·.id) := by
        rw [result, List.map_map]
        exact List.map_congr_left fun row _ => placeId row
      rw [same]
      exact ordered.ids
    · have capped := ordered.capped
      simpa [countActive, shown] using capped
    · have listedPerm : ((listed after).map (·.id)).Perm ids := ((listed_perm after).map _).trans afterPerm
      have ascending : ((listed after).map (·.id)).Pairwise fun a b => ids.idxOf a < ids.idxOf b := by
        apply List.pairwise_map.mpr
        apply (listed_ascending distinct).imp_of_mem
        intro a b isA isB less
        rw [order a (mem_listed.mp isA), order b (mem_listed.mp isB)] at less
        exact Int.ofNat_lt.mp less
      have asked : ids.Pairwise fun a b => ids.idxOf a < ids.idxOf b := by
        apply List.pairwise_iff_getElem.mpr
        intro i j _ _ less
        rwa [List.Nodup.idxOf_getElem moved.unique, List.Nodup.idxOf_getElem moved.unique]
      apply List.Perm.eq_of_pairwise _ ascending asked listedPerm
      intro a b _ _ less more
      omega
  · cases ends

/-- The row of an honor that is being restored had a place after every active row. -/
def AtEnd (rows : List (Row Id Pair)) : Progress Id Pair → Prop
  | .restored id none => ∀ old ∈ rows, old.id = id → ∀ row ∈ active rows, row.sortOrder < old.sortOrder
  | _ => True

theorem commit_shown {table : WorkspaceTable} {rows after : List (Row Id Pair)} {progress : Progress Id Pair}
    (ordered : Ordered table rows) (fits : progress.Fits table rows) (atEnd : AtEnd rows progress)
    (ends : committed rows progress = some after) : Ordered table after ∧ Shown rows after progress := by
  cases progress with
  | inserting sortOrder items written =>
    cases items with
    | nil =>
      cases ends
      exact batch_commit ordered fits
    | cons => cases ends
  | restored id sortOrder =>
    obtain ⟨room, placed, archived⟩ := fits
    apply restore_commit ordered room archived _ ends
    intro old isIn same row isActive
    cases sortOrder with
    | some sortOrder => exact placed row (active_subset isActive)
    | none => exact atEnd old isIn same row isActive
  | moving oldRanks ids index => exact reorder_commit ordered fits ends
  | archivedRow id =>
    cases ends
    exact ⟨ordered.apply (.archive : Change Pair) id, trivial⟩
  | creating => cases ends
  | distinct => cases ends
  | roomy => cases ends
  | restoring => cases ends
  | archivedFound => cases ends
  | restorable => cases ends
  | placing => cases ends
  | reordering => cases ends
  | archiving => cases ends

end Counselle.Activities

import Counselle.Workspace.ListOrder

/-! Runs of a student's lists: every step keeps what `RowList.Ok` says, and so every commit
does to the list what its call promises. -/
namespace Counselle.Activities
variable {Id Pair : Type} [DecidableEq Id] [DecidableEq Pair]

/-- The honor that a transaction restores had its place after every active honor. -/
def RestoresAtEnd (lists : RowList Id Pair) : Label Id Pair → Prop
  | .commit =>
    match lists.holder with
    | some progress => AtEnd lists.rows progress
    | none => True
  | _ => True

omit [DecidableEq Pair] in
theorem empty_ok (table : WorkspaceTable) : ((empty : StudentLists Id Pair) table).Ok table where
  ordered := ⟨List.nodup_nil, List.nodup_nil, Nat.zero_le _⟩
  fits := nofun
  apart := nofun

omit [DecidableEq Pair] in
theorem released_ok {table : WorkspaceTable} {lists : RowList Id Pair} (ordered : Ordered table lists.rows) :
    { lists with holder := none }.Ok table where
  ordered := ordered
  fits := nofun
  apart := nofun

omit [DecidableEq Pair] in
theorem start_fits {table : WorkspaceTable} {rows : List (Row Id Pair)} {request : Request Id Pair}
    {progress : Progress Id Pair} (started : start table request = some (.ok progress)) :
    progress.Fits table rows ∧ ∀ id, progress.writes id = false := by
  cases request with
  | create items reject =>
    simp only [start] at started
    split at started
    · cases started
    · cases started
      exact ⟨trivial, fun _ => rfl⟩
  | createHonor item =>
    simp only [start] at started
    split at started
    · cases started
      exact ⟨trivial, fun _ => rfl⟩
    · cases started
  | restore id =>
    cases started
    exact ⟨trivial, fun _ => rfl⟩
  | reorder ids =>
    simp only [start] at started
    split at started
    · rename_i unique
      cases started
      exact ⟨unique, fun _ => rfl⟩
    · cases started
  | archive id =>
    simp only [start] at started
    split at started
    · cases started
      exact ⟨trivial, fun _ => rfl⟩
    · cases started

omit [DecidableEq Pair] in
theorem continue_ok {table : WorkspaceTable} {lists : RowList Id Pair} (ordered : Ordered table lists.rows)
    {outcome : Except (ListError Id) (Progress Id Pair)}
    (goes : ∀ next, outcome = .ok next →
      next.Fits table lists.rows ∧ ∀ entry ∈ lists.pending, next.writes entry.1 = false) :
    (lists.continue outcome).Ok table := by
  cases outcome with
  | error error => exact released_ok ordered
  | ok next =>
    obtain ⟨fits, apart⟩ := goes next rfl
    refine ⟨ordered, ?_, ?_⟩
    · rintro _ ⟨⟩
      exact fits
    · rintro _ ⟨⟩
      exact apart

omit [DecidableEq Pair] in
theorem pending_locked {lists : RowList Id Pair} {entry : Id × Change Pair} (isIn : entry ∈ lists.pending) :
    lists.isPending entry.1 = true :=
  List.any_eq_true.mpr ⟨entry, isIn, decide_eq_true rfl⟩

theorem step_ok {table : WorkspaceTable} {lists after : RowList Id Pair} {label : Label Id Pair}
    (ok : lists.Ok table) (atEnd : RestoresAtEnd lists label) (stepped : step table lists label = some after) :
    after.Ok table := by
  cases label with
  | begin request =>
    simp only [step] at stepped
    split at stepped
    · cases stepped
    · obtain ⟨outcome, started, rfl⟩ := Option.map_eq_some_iff.mp stepped
      apply continue_ok ok.ordered
      rintro next rfl
      have known : next.Fits table lists.rows ∧ ∀ id, next.writes id = false := start_fits started
      obtain ⟨fits, unwritten⟩ := known
      exact ⟨fits, fun entry _ => unwritten entry.1⟩
  | statement =>
    obtain ⟨progress, held, moved⟩ := Option.bind_eq_some_iff.mp stepped
    obtain ⟨outcome, advanced, rfl⟩ := Option.map_eq_some_iff.mp moved
    apply continue_ok ok.ordered
    rintro next rfl
    obtain ⟨fits, writes⟩ := advance_fits ok.ordered (ok.fits progress held) advanced
    refine ⟨fits, ?_⟩
    intro entry isIn
    by_contra written
    obtain already | free := writes entry.1 (by simpa using written)
    · simp [ok.apart progress held entry isIn] at already
    · simp [pending_locked isIn] at free
  | insert id createdAt =>
    obtain ⟨progress, held, moved⟩ := Option.bind_eq_some_iff.mp stepped
    obtain ⟨next, inserted, rfl⟩ := Option.map_eq_some_iff.mp moved
    obtain ⟨fits, unwritten⟩ := insertNext_fits (ok.fits progress held) inserted
    refine ⟨ok.ordered, ?_, ?_⟩
    · rintro _ ⟨⟩
      exact fits
    · rintro _ ⟨⟩ entry _
      exact unwritten entry.1
  | commit =>
    obtain ⟨progress, held, moved⟩ := Option.bind_eq_some_iff.mp stepped
    obtain ⟨rows, ends, rfl⟩ := Option.map_eq_some_iff.mp moved
    simp only [RestoresAtEnd, held] at atEnd
    obtain ⟨ordered, _⟩ := commit_shown ok.ordered (ok.fits progress held) atEnd ends
    exact @released_ok Id Pair _ table { lists with rows } ordered
  | rollback =>
    cases stepped
    exact released_ok ok.ordered
  | update id change =>
    simp only [step] at stepped
    split at stepped
    · rename_i free
      cases stepped
      refine ⟨ok.ordered, ok.fits, ?_⟩
      intro progress held entry isIn
      obtain rfl | isIn := List.mem_cons.mp isIn
      · change lists.holder = some progress at held
        simpa [held] using (Bool.and_eq_true_iff.mp free).2
      · exact ok.apart progress held entry isIn
    · cases stepped
  | settle id keep =>
    obtain ⟨entry, found, rfl⟩ := Option.map_eq_some_iff.mp stepped
    have same : entry.1 = id := by simpa using List.find?_some found
    have pending : entry ∈ lists.pending := List.mem_of_find?_eq_some found
    have apart (progress : Progress Id Pair) (held : lists.holder = some progress) : progress.writes id = false :=
      same ▸ ok.apart progress held entry pending
    refine ⟨?_, ?_, ?_⟩
    · cases keep with
      | false => exact ok.ordered
      | true => exact ok.ordered.apply entry.2 id
    · intro progress held
      cases keep with
      | false => exact ok.fits progress held
      | true => exact (ok.fits progress held).apply (apart progress held)
    · intro progress held other isIn
      exact ok.apart progress held other (List.mem_of_mem_filter isIn)

def HonorsAtEnd (lists : StudentLists Id Pair) (label : WorkspaceTable × Label Id Pair) : Prop :=
  RestoresAtEnd (lists label.1) label.2

theorem listsStep_ok {lists after : StudentLists Id Pair} {label : WorkspaceTable × Label Id Pair}
    (ok : ∀ table, (lists table).Ok table) (atEnd : HonorsAtEnd lists label)
    (stepped : listsStep lists label = some after) : ∀ table, (after table).Ok table := by
  obtain ⟨next, moved, rfl⟩ := Option.map_eq_some_iff.mp stepped
  have nextOk := step_ok (ok label.1) atEnd moved
  intro table
  by_cases same : table = label.1
  · subst same
    rw [Function.update_self]
    exact nextOk
  · rw [Function.update_of_ne same]
    exact ok table

/-- A step keeps both lists within their cap and their sort orders distinct, and a commit does
to the list what its call promises. -/
def Keeps (lists : StudentLists Id Pair) (label : WorkspaceTable × Label Id Pair) : Prop :=
  ∀ after, listsStep lists label = some after →
    (∀ table, countActive (after table).rows ≤ table.cap ∧ Distinct (after table).rows) ∧
      (label.2 = .commit → ∀ progress, (lists label.1).holder = some progress →
        Shown (lists label.1).rows (after label.1).rows progress)

theorem keeps_of_atEnd {lists : StudentLists Id Pair} {label : WorkspaceTable × Label Id Pair}
    (ok : ∀ table, (lists table).Ok table) (atEnd : HonorsAtEnd lists label) : Keeps lists label := by
  intro after stepped
  constructor
  · intro table
    have ordered := (listsStep_ok ok atEnd stepped table).ordered
    exact ⟨ordered.capped, ordered.distinct⟩
  · intro commits progress held
    obtain ⟨table, label⟩ := label
    subst commits
    obtain ⟨next, moved, rfl⟩ := Option.map_eq_some_iff.mp stepped
    simp only [step, held, Option.bind_some] at moved
    obtain ⟨rows, ends, rfl⟩ := Option.map_eq_some_iff.mp moved
    simp only [HonorsAtEnd, RestoresAtEnd, held] at atEnd
    rw [Function.update_self]
    exact (commit_shown (ok table).ordered ((ok table).fits progress held) atEnd ends).2

omit [DecidableEq Pair] in
theorem atEnd_of_shown {rows after : List (Row Id Pair)} {id : Id} (ids : (rows.map (·.id)).Nodup)
    (ends : committed rows (.restored id none) = some after) (distinct : Distinct after)
    (shown : Shown rows after (.restored id none)) : AtEnd rows (.restored id none) := by
  obtain ⟨last, rfl, appended⟩ := shown
  have isLast : last ∈ after := by
    apply active_subset
    apply mem_listed.mp
    rw [appended]
    exact List.mem_append_right _ (List.mem_singleton_self last)
  cases ends
  obtain ⟨found, isIn, same⟩ := List.mem_map.mp isLast
  have kept : found.id = last.id ∧ found.sortOrder = last.sortOrder := by
    rw [← same]
    split <;> exact ⟨rfl, rfl⟩
  have ascending := listed_ascending distinct
  rw [appended, List.pairwise_append] at ascending
  intro old wasIn sameId row isActive
  have one : old = found := List.inj_on_of_nodup_map ids wasIn isIn (sameId.trans kept.1.symm)
  rw [one, kept.2]
  exact ascending.2.2 row (mem_listed.mpr isActive) last (List.mem_singleton_self last)

theorem atEnd_of_keeps {lists : StudentLists Id Pair} {label : WorkspaceTable × Label Id Pair}
    (ok : ∀ table, (lists table).Ok table) (keeps : Keeps lists label) : HonorsAtEnd lists label := by
  obtain ⟨table, label⟩ := label
  cases label with
  | commit =>
    simp only [HonorsAtEnd, RestoresAtEnd]
    split
    · rename_i progress held
      unfold AtEnd
      split
      · rename_i id
        obtain ⟨rows, ends⟩ : ∃ rows, committed (lists table).rows (.restored id none) = some rows := ⟨_, rfl⟩
        have stepped : listsStep lists (table, .commit) =
            some (Function.update lists table { lists table with rows, holder := none }) := by
          simp only [listsStep, step, held, Option.bind_some, ends, Option.map_some]
        obtain ⟨within, shown⟩ := keeps _ stepped
        have distinct := (within table).2
        have placed := shown rfl _ held
        rw [Function.update_self] at distinct placed
        exact atEnd_of_shown (ok table).ordered.ids ends distinct placed
      · trivial
    · trivial
  | begin => trivial
  | statement => trivial
  | insert => trivial
  | rollback => trivial
  | update => trivial
  | settle => trivial

/-- The lists keep their order in exactly the runs whose honors are restored at the end. -/
theorem lists_keep_iff (labels : List (WorkspaceTable × Label Id Pair)) :
    Transition.Meets listsStep Keeps empty labels ↔ Transition.Meets listsStep HonorsAtEnd empty labels :=
  Transition.meets_congr (P := fun lists : StudentLists Id Pair => ∀ table, (lists table).Ok table)
    (fun ok => ⟨atEnd_of_keeps ok, keeps_of_atEnd ok⟩) listsStep_ok empty_ok

/-- Two honors: the first is archived, the second moved to the front, the first restored. -/
def restoredBehind : List (WorkspaceTable × Label Nat Nat) :=
  [.begin (.create [10, 11] false), .statement, .statement, .statement, .insert 0 0, .insert 1 0, .commit,
    .update 0 .archive, .settle 0 true,
    .begin (.reorder [1]), .statement, .statement, .commit,
    .begin (.restore 0), .statement, .statement, .statement, .statement].map (WorkspaceTable.honors, ·)

/-- Then both have the sort order 0. -/
theorem restored_honor_collides : ¬ ∀ labels : List (WorkspaceTable × Label Nat Nat),
    Transition.Meets listsStep Keeps empty labels := by
  intro always
  have collide : (Transition.run listsStep empty (restoredBehind ++ [(.honors, .commit)])).map
      (fun lists => (active (lists .honors).rows).map (·.sortOrder)) = some [0, 0] := by decide +kernel
  obtain ⟨after, path, orders⟩ := Option.map_eq_some_iff.mp collide
  obtain ⟨lists, before, stepped⟩ := Transition.run_snoc path
  have keeps := (Transition.Meets.snoc before (always (restoredBehind ++ [(.honors, .commit)]))).2
  have distinct := ((keeps after stepped).1 .honors).2
  rw [Distinct, orders] at distinct
  exact absurd distinct (by decide)

end Counselle.Activities

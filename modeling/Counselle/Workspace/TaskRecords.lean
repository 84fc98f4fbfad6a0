import Counselle.Transition
import Mathlib.Data.List.Sort

/-! A finished task has three records: the old `status` and `completed_at`, and the
`done_at` that replaces them. The writers bridge the two generations of fields, and the
readers use different ones. -/
namespace Counselle.Tasks

inductive TaskStatus where
  | todo
  | doing
  | waiting
  | done
  deriving DecidableEq

inductive TaskError where
  | notFound
  | validation (message : String)
  | titleBlank
  deriving DecidableEq

/-- A row of `tasks` of one student. -/
structure Task where
  id : Nat
  applicationId : Option Nat
  essayId : Option Nat
  requirementKind : Option String
  title : String
  status : TaskStatus
  completedAt : Option Int
  doneAt : Option Int
  archivedAt : Option Int
  createdAt : Int
  deriving DecidableEq

structure TaskCreate where
  title : String
  applicationId : Option Nat
  essayId : Option Nat
  requirementKind : Option String
  status : TaskStatus
  doneAt : Option Int

/-- The fields a patch mentions. Only the links and `done_at` may be set to null. -/
structure TaskPatch where
  title : Option String
  applicationId : Option (Option Nat)
  essayId : Option (Option Nat)
  requirementKind : Option (Option String)
  status : Option TaskStatus
  doneAt : Option (Option Int)

/-- The student's applications and essays as a request finds them: which applications are
active, and the application of each active essay. -/
structure Links where
  activeApplication : Nat → Bool
  activeEssay : Nat → Option (Option Nat)

def validateLinks (links : Links) (applicationId essayId : Option Nat) (requirementKind : Option String) :
    Except TaskError Unit :=
  if requirementKind.isSome && applicationId.isNone then
    .error (.validation "requirement_kind requires application_id")
  else if applicationId.any fun application => !links.activeApplication application then .error .notFound
  else match essayId with
    | none => .ok ()
    | some essay =>
      match links.activeEssay essay with
      | none => .error .notFound
      | some essayApplicationId =>
        if applicationId.isSome && essayApplicationId.isSome && essayApplicationId ≠ applicationId then
          .error (.validation "task application_id must match the linked essay application_id")
        else .ok ()

/-- `tasks_title_not_blank` -/
def titleIsBlank (title : String) : Bool := title.toList.all fun c => c = ' '

/-- The row that `create_task` inserts. -/
def insertTask (id : Nat) (now : Int) (data : TaskCreate) : Task where
  id := id
  applicationId := data.applicationId
  essayId := data.essayId
  requirementKind := data.requirementKind
  title := data.title
  status := if data.doneAt.isSome then .done else data.status
  completedAt :=
    match data.doneAt with
    | some time => some time
    | none => if data.status = .done then some now else none
  doneAt := data.doneAt
  archivedAt := none
  createdAt := now

def createTask (links : Links) (now : Int) (rows : List Task) (data : TaskCreate) : Except TaskError (List Task) :=
  match validateLinks links data.applicationId data.essayId data.requirementKind with
  | .error error => .error error
  | .ok () =>
    if titleIsBlank data.title then .error .titleBlank
    else .ok (rows ++ [insertTask rows.length now data])

def createTasksBatch (links : Links) (now : Int) (rows : List Task) (data : List TaskCreate) :
    Except TaskError (List Task) :=
  data.foldlM (createTask links now) rows

def updateTaskRow (now : Int) (values : TaskPatch) (row : Task) : Task :=
  { row with
    title := values.title.getD row.title
    applicationId := values.applicationId.getD row.applicationId
    essayId := values.essayId.getD row.essayId
    requirementKind := values.requirementKind.getD row.requirementKind
    status :=
      match values.doneAt with
      | some doneAt => if doneAt.isSome then .done else .todo
      | none => values.status.getD row.status
    doneAt := values.doneAt.getD row.doneAt
    completedAt :=
      match values.doneAt with
      | some doneAt => doneAt
      | none =>
        match values.status with
        | some status => if status = .done then some now else none
        | none => row.completedAt }

def updateTask (links : Links) (now : Int) (rows : List Task) (taskId : Nat) (values : TaskPatch) :
    Except TaskError (List Task) :=
  match rows.find? fun row => row.id = taskId && row.archivedAt.isNone with
  | none => .error .notFound
  | some current =>
    let updated := updateTaskRow now values current
    match validateLinks links updated.applicationId updated.essayId updated.requirementKind with
    | .error error => .error error
    | .ok () =>
      if titleIsBlank updated.title then .error .titleBlank
      else .ok (rows.map fun row =>
        if row.id = taskId ∧ row.archivedAt = none then updateTaskRow now values row else row)

def bulkArchive (now : Int) (rows : List Task) (ids : List Nat) : List Task :=
  rows.map fun row => if row.id ∈ ids ∧ row.archivedAt = none then { row with archivedAt := some now } else row

/-- `_require_restorable_task` -/
def isRestorable (links : Links) (row : Task) : Bool :=
  row.archivedAt.isSome && row.applicationId.all links.activeApplication &&
    row.essayId.all fun essay => (links.activeEssay essay).isSome

def restoreTask (links : Links) (rows : List Task) (taskId : Nat) : Except TaskError (List Task) :=
  if rows.any fun row => row.id = taskId && isRestorable links row then
    .ok (rows.map fun row => if row.id = taskId then { row with archivedAt := none } else row)
  else .error .notFound

inductive Action where
  | create (links : Links) (now : Int) (data : List TaskCreate)
  | update (links : Links) (now : Int) (taskId : Nat) (values : TaskPatch)
  | archive (now : Int) (ids : List Nat)
  | restore (links : Links) (taskId : Nat)

def request (rows : List Task) : Action → Except TaskError (List Task)
  | .create links now data => createTasksBatch links now rows data
  | .update links now taskId values => updateTask links now rows taskId values
  | .archive now ids => .ok (bulkArchive now rows ids)
  | .restore links taskId => restoreTask links rows taskId

def step (rows : List Task) (action : Action) : Option (List Task) :=
  match request rows action with
  | .ok next => some next
  | .error _ => some rows

structure ListFilters where
  statuses : Option (List TaskStatus)
  done : Option Bool
  applicationId : Option Nat
  essayId : Option Nat
  completedAfter : Option Int
  limit : Option Nat

/-- `list_tasks(done=…)`, of one application or of all tasks. -/
def ListFilters.ofDone (done : Bool) (applicationId : Option Nat) : ListFilters :=
  ⟨none, some done, applicationId, none, none, none⟩

/-- The conditions of `list_tasks`; a comparison with null is not true. -/
def ListFilters.keeps (filters : ListFilters) (row : Task) : Bool :=
  row.archivedAt.isNone &&
    filters.statuses.all (fun statuses => row.status ∈ statuses) &&
    filters.done.all (fun done => if done then row.doneAt.isSome else row.doneAt.isNone) &&
    filters.applicationId.all (fun application => row.applicationId = some application) &&
    filters.essayId.all (fun essay => row.essayId = some essay) &&
    filters.completedAfter.all (fun time => row.completedAt.any fun completed => time ≤ completed)

def listTasks (filters : ListFilters) (rows : List Task) : List Task :=
  let sorted := (rows.filter filters.keeps).insertionSort fun one other => one.createdAt ≤ other.createdAt
  match filters.limit with
  | some limit => sorted.take limit
  | none => sorted

inductive SearchState where
  | active
  | done
  | archived
  deriving DecidableEq

/-- The state of `_search_hit_from_row`. -/
def searchState (row : Task) : SearchState :=
  if row.archivedAt.isSome then .archived else if row.status = .done then .done else .active

structure TaskBoardCounts where
  done : Nat
  doneRecent : Nat
  archived : Nat

def taskBoardCounts (now window : Int) (rows : List Task) : TaskBoardCounts where
  done := rows.countP fun row => row.archivedAt.isNone && row.status = .done
  doneRecent := rows.countP fun row => row.archivedAt.isNone && row.status = .done &&
    row.completedAt.any fun completed => now - window ≤ completed
  archived := rows.countP fun row => row.archivedAt.isSome

structure Rollup where
  completed : Nat
  total : Nat

/-- `task_counts` of an application. -/
def taskCounts (rows : List Task) (application : Nat) : Rollup :=
  let counted := rows.filter fun row => row.archivedAt.isNone && row.applicationId = some application
  ⟨counted.countP fun row => row.status = .done, counted.length⟩

structure InSync (row : Task) : Prop where
  completed : row.status = .done ↔ row.completedAt.isSome
  done : row.status = .done ↔ row.doneAt.isSome
  same : row.completedAt = row.doneAt

theorem inSync_iff {row : Task} :
    InSync row ↔ row.completedAt = row.doneAt ∧ (row.status = .done ↔ row.doneAt.isSome) :=
  ⟨fun sync => ⟨sync.same, sync.done⟩, fun ⟨same, done⟩ => ⟨same ▸ done, done, same⟩⟩

/-- A draft that is finished in the old field is so in the new one. -/
def TaskCreate.Fits (data : TaskCreate) : Prop := data.status = .done → data.doneAt.isSome

/-- A patch of the old field alone says what `done_at` of the row says. -/
def TaskPatch.Fits (now : Int) (row : Task) (values : TaskPatch) : Prop :=
  values.doneAt = none → ∀ status ∈ values.status, row.doneAt = if status = .done then some now else none

instance (data : TaskCreate) : Decidable data.Fits := inferInstanceAs (Decidable (_ → _))

instance (now : Int) (row : Task) (values : TaskPatch) : Decidable (values.Fits now row) :=
  inferInstanceAs (Decidable (_ → _))

theorem insertTask_inSync_iff (id : Nat) (now : Int) (data : TaskCreate) :
    InSync (insertTask id now data) ↔ data.Fits := by
  rw [inSync_iff, TaskCreate.Fits, insertTask]
  cases data.doneAt with
  | some time => simp
  | none => by_cases finished : data.status = .done <;> simp [finished]

theorem updateTaskRow_inSync_iff (now : Int) (values : TaskPatch) {row : Task} (sync : InSync row) :
    InSync (updateTaskRow now values row) ↔ values.Fits now row := by
  rw [inSync_iff, TaskPatch.Fits, updateTaskRow]
  cases mentioned : values.doneAt with
  | some doneAt => cases doneAt <;> simp
  | none =>
    cases patched : values.status with
    | none => simpa using ⟨sync.same, sync.done⟩
    | some status =>
      by_cases finished : status = .done
      · subst finished
        simp only [Option.getD_some, Option.getD_none, if_true, true_iff, forall_const, Option.mem_some_iff,
          forall_eq']
        constructor
        · exact fun both => both.1.symm
        · intro same
          exact ⟨same.symm, by rw [same]; rfl⟩
      · simp only [Option.getD_some, Option.getD_none, finished, if_false, false_iff, forall_const,
          Option.mem_some_iff, forall_eq']
        constructor
        · exact fun both => both.1.symm
        · intro same
          exact ⟨same.symm, by rw [same]; simp⟩

/-- What a request must not do: finish a task in the old field without the new one, or
change the old field alone to what the new one does not say. -/
def Fits (rows : List Task) : Action → Prop
  | .create _ _ data => ∀ draft ∈ data, draft.Fits
  | .update _ now taskId values => ∀ row ∈ rows, row.id = taskId → row.archivedAt = none → values.Fits now row
  | _ => True

instance (rows : List Task) : ∀ action, Decidable (Fits rows action)
  | .create _ _ data => inferInstanceAs (Decidable (∀ draft ∈ data, draft.Fits))
  | .update _ now taskId values =>
    inferInstanceAs (Decidable (∀ row ∈ rows, row.id = taskId → row.archivedAt = none → values.Fits now row))
  | .archive _ _ | .restore _ _ => isTrue trivial

def AllInSync (rows : List Task) : Prop := ∀ row ∈ rows, InSync row

theorem createTask_inSync {links : Links} {now : Int} {rows next : List Task} {data : TaskCreate}
    (sync : AllInSync rows) (fits : data.Fits) (created : createTask links now rows data = .ok next) :
    AllInSync next := by
  unfold createTask at created
  split at created
  · cases created
  · split at created
    · cases created
    · cases created
      intro row isIn
      rcases List.mem_append.mp isIn with old | new
      · exact sync row old
      · rw [List.mem_singleton.mp new]
        exact (insertTask_inSync_iff _ now data).mpr fits

theorem createTasksBatch_inSync {links : Links} {now : Int} {data : List TaskCreate} :
    ∀ {rows next : List Task}, AllInSync rows → (∀ draft ∈ data, draft.Fits) →
      createTasksBatch links now rows data = .ok next → AllInSync next := by
  induction data with
  | nil =>
    intro rows next sync _ created
    cases created
    exact sync
  | cons draft rest ih =>
    intro rows next sync fits created
    unfold createTasksBatch at created
    rw [List.foldlM_cons] at created
    cases first : createTask links now rows draft with
    | error error =>
      rw [first] at created
      cases created
    | ok middle =>
      rw [first] at created
      exact ih (createTask_inSync sync (fits draft List.mem_cons_self) first)
        (fun later isIn => fits later (List.mem_cons_of_mem _ isIn)) created

theorem updateTask_inSync {links : Links} {now : Int} {rows next : List Task} {taskId : Nat} {values : TaskPatch}
    (sync : AllInSync rows)
    (fits : ∀ row ∈ rows, row.id = taskId → row.archivedAt = none → values.Fits now row)
    (updated : updateTask links now rows taskId values = .ok next) : AllInSync next := by
  unfold updateTask at updated
  split at updated
  · cases updated
  · simp only at updated
    split at updated
    · cases updated
    · split at updated
      · cases updated
      · cases updated
        intro row isIn
        obtain ⟨before, wasIn, rfl⟩ := List.mem_map.mp isIn
        split
        · next patched =>
          exact (updateTaskRow_inSync_iff now values (sync before wasIn)).mpr
            (fits before wasIn patched.1 patched.2)
        · exact sync before wasIn

theorem inSync_of_archivedAt {row : Task} (sync : InSync row) (archivedAt : Option Int) :
    InSync { row with archivedAt } := ⟨sync.completed, sync.done, sync.same⟩

theorem step_inSync {rows next : List Task} {action : Action} (sync : AllInSync rows) (fits : Fits rows action)
    (stepped : step rows action = some next) : AllInSync next := by
  unfold step at stepped
  cases done : request rows action with
  | error error =>
    rw [done] at stepped
    cases stepped
    exact sync
  | ok result =>
    rw [done] at stepped
    cases stepped
    cases action with
    | create links now data => exact createTasksBatch_inSync sync fits done
    | update links now taskId values => exact updateTask_inSync sync fits done
    | archive now ids =>
      cases done
      intro row isIn
      obtain ⟨before, wasIn, rfl⟩ := List.mem_map.mp isIn
      split
      · exact inSync_of_archivedAt (sync before wasIn) _
      · exact sync before wasIn
    | restore links taskId =>
      simp only [request, restoreTask] at done
      split at done
      · cases done
        intro row isIn
        obtain ⟨before, wasIn, rfl⟩ := List.mem_map.mp isIn
        split
        · exact inSync_of_archivedAt (sync before wasIn) _
        · exact sync before wasIn
      · cases done

theorem mem_listTasks {filters : ListFilters} (unlimited : filters.limit = none) {rows : List Task} {row : Task} :
    row ∈ listTasks filters rows ↔ row ∈ rows ∧ filters.keeps row = true := by
  simp only [listTasks, unlimited]
  rw [(List.perm_insertionSort _ _).mem_iff, List.mem_filter]

theorem length_listTasks {filters : ListFilters} (unlimited : filters.limit = none) (rows : List Task) :
    (listTasks filters rows).length = rows.countP filters.keeps := by
  simp only [listTasks, unlimited]
  rw [List.length_insertionSort, List.countP_eq_length_filter]

theorem keeps_done {row : Task} (sync : InSync row) (done : Bool) (application : Option Nat) :
    (ListFilters.ofDone done application).keeps row =
      (row.archivedAt.isNone && (decide (row.status = .done) == done) &&
        application.all fun application => row.applicationId = some application) := by
  have finished : row.doneAt.isSome = decide (row.status = .done) := by
    rw [Bool.eq_iff_iff, decide_eq_true_eq]
    exact sync.done.symm
  have unfinished : row.doneAt.isNone = !decide (row.status = .done) := by
    rw [← finished, Option.not_isSome]
  cases done <;> simp [ListFilters.keeps, ListFilters.ofDone, finished, unfinished]

section Readers

variable {rows : List Task} (sync : AllInSync rows)
include sync

theorem list_agrees_with_search {row : Task} (isIn : row ∈ rows) (done : Bool) :
    row ∈ listTasks (.ofDone done none) rows ↔
      searchState row = if done then .done else .active := by
  rw [mem_listTasks rfl, and_iff_right isIn, keeps_done (sync row isIn) done none]
  unfold searchState
  cases row.archivedAt <;> cases done <;> by_cases finished : row.status = .done <;> simp [finished]

theorem board_agrees_with_list (now window : Int) :
    (taskBoardCounts now window rows).done = (listTasks (.ofDone true none) rows).length := by
  rw [length_listTasks rfl]
  refine List.countP_congr fun row isIn => ?_
  rw [keeps_done (sync row isIn) true none]
  simp

theorem progress_agrees_with_list (application : Nat) :
    (taskCounts rows application).completed =
      (listTasks (.ofDone true (some application)) rows).length := by
  rw [length_listTasks rfl, taskCounts, List.countP_filter]
  refine List.countP_congr fun row isIn => ?_
  rw [keeps_done (sync row isIn) true (some application)]
  simp only [Option.all_some, Bool.and_eq_true, beq_true]
  exact and_comm.trans (and_right_comm)

end Readers

/-- **The records of a finished task.** In every run in which no request finishes or reopens
a task in the old field alone, against its `done_at`, the three records of every stored row
agree, and all readers count the same rows as done. -/
theorem finished_records_agree {actions : List Action} {rows : List Task}
    (path : Transition.run step [] actions = some rows) (meets : Transition.Meets step Fits [] actions) :
    AllInSync rows ∧
    (∀ row ∈ rows, ∀ done, row ∈ listTasks (.ofDone done none) rows ↔
      searchState row = if done then .done else .active) ∧
    (∀ now window, (taskBoardCounts now window rows).done =
      (listTasks (.ofDone true none) rows).length) ∧
    ∀ application, (taskCounts rows application).completed =
      (listTasks (.ofDone true (some application)) rows).length := by
  have sync : AllInSync rows := Transition.invariant_of_meets step_inSync (by simp [AllInSync]) path meets
  exact ⟨sync, fun row isIn done => list_agrees_with_search sync isIn done, board_agrees_with_list sync,
    progress_agrees_with_list sync⟩

def openLinks : Links := ⟨fun _ => true, fun _ => some none⟩

def draft (status : TaskStatus) (doneAt : Option Int) : TaskCreate := ⟨"Transcript", some 1, none, none, status, doneAt⟩

def oldPatch (status : TaskStatus) : TaskPatch := ⟨none, none, none, none, some status, none⟩

def newPatch (doneAt : Option Int) : TaskPatch := ⟨none, none, none, none, none, some doneAt⟩

/-- A task is begun in the old field, finished in the new one and reopened; another is
created finished. -/
def bridged : List Action :=
  [.create openLinks 10 [draft .todo none, draft .todo (some 9)], .update openLinks 20 0 (oldPatch .doing),
    .update openLinks 30 0 (newPatch (some 30)), .update openLinks 40 0 (newPatch none)]

theorem finished_records_agree_bridged :
    ∃ rows, Transition.run step [] bridged = some rows ∧ AllInSync rows ∧ rows.length = 2 := by
  have ends : (Transition.run step [] bridged).any (fun rows => rows.length = 2) = true := by decide +kernel
  obtain ⟨rows, path, two⟩ := (Option.any_eq_true _ _).mp ends
  have meets : Transition.Meets step Fits [] bridged := by decide +kernel
  exact ⟨rows, path, (finished_records_agree path meets).1, of_decide_eq_true two⟩

/-- A task that is finished in the old field alone has no `done_at`: the board counts it and
the list of finished tasks does not show it. -/
theorem finished_in_status_alone :
    ¬ ∀ (actions : List Action) (rows : List Task), Transition.run step [] actions = some rows → AllInSync rows ∧
      (taskBoardCounts 10 0 rows).done = (listTasks (.ofDone true none) rows).length := by
  intro claimed
  have alone := claimed [.create openLinks 10 [draft .done none]] [insertTask 0 10 (draft .done none)] (by decide +kernel)
  exact absurd alone.2 (by decide +kernel)

end Counselle.Tasks

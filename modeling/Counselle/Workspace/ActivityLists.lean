import Counselle.Fallible
import Mathlib.Data.List.Sort

/-! A student's activities and honors, `service_activities.py`. A transaction reads what is
committed, statement by statement, and its own writes show when it commits; the advisory
lock of a list is held by one at a time. -/
namespace Counselle.Activities

inductive WorkspaceTable where
  | activities
  | honors
  deriving DecidableEq

/-- `ACTIVITY_CAP` and `HONOR_CAP` -/
def WorkspaceTable.cap : WorkspaceTable → Nat
  | .activities => 10
  | .honors => 5

section
variable (Id Pair : Type)

/-- A row with the pair that duplicates are found by: position and organization, or title. -/
structure Row where
  id : Id
  sortOrder : Int
  createdAt : Nat
  pair : Pair
  archived : Bool
  deriving DecidableEq

inductive ListError where
  | duplicateActive (index : Nat) (id : Id)
  | duplicateInBatch (index earlier : Nat)
  | capReached
  | idsNotUnique
  | idsMismatch
  | notFound
  deriving DecidableEq

/-- What a call asks of the transaction that holds the lock. -/
inductive Request where
  | create (items : List Pair) (rejectDuplicatePairs : Bool)
  | createHonor (item : Pair)
  | restore (id : Id)
  | reorder (ids : List Id)
  | archive (id : Id)

inductive Progress where
  | creating (items : List Pair) (rejectDuplicatePairs : Bool)
  | distinct (items : List Pair)
  | roomy (items : List Pair)
  | inserting (sortOrder : Int) (items : List Pair) (written : List (Row Id Pair))
  | restoring (id : Id)
  | archivedFound (id : Id)
  | restorable (id : Id)
  | placing (id : Id) (sortOrder : Option Int)
  | restored (id : Id) (sortOrder : Option Int)
  | reordering (ids : List Id)
  | moving (oldRanks : List (Id × Nat)) (ids : List Id) (index : Nat)
  | archiving (id : Id)
  | archivedRow (id : Id)

inductive Change where
  | archive
  | edit (pair : Pair)

structure RowList where
  rows : List (Row Id Pair)
  holder : Option (Progress Id Pair)
  /-- The rows that transactions without the lock have updated and not yet committed. -/
  pending : List (Id × Change Pair)

inductive Label where
  | begin (request : Request Id Pair)
  | statement
  | insert (id : Id) (createdAt : Nat)
  | commit
  | rollback
  | update (id : Id) (change : Change Pair)
  | settle (id : Id) (committed : Bool)

end

variable {Id Pair : Type}

def active (rows : List (Row Id Pair)) : List (Row Id Pair) := rows.filter (!·.archived)

def Row.before (a b : Row Id Pair) : Prop :=
  a.sortOrder < b.sortOrder ∨ a.sortOrder = b.sortOrder ∧ a.createdAt ≤ b.createdAt

instance : DecidableRel (@Row.before Id Pair) := fun a b =>
  inferInstanceAs (Decidable (a.sortOrder < b.sortOrder ∨ a.sortOrder = b.sortOrder ∧ a.createdAt ≤ b.createdAt))

/-- `_LIST_SQL` -/
def listed (rows : List (Row Id Pair)) : List (Row Id Pair) := (active rows).insertionSort Row.before

/-- `_COUNT_ACTIVE_SQL` -/
def countActive (rows : List (Row Id Pair)) : Nat := (active rows).length

/-- `_NEXT_SORT_SQL`; archived rows count. -/
def nextSort (rows : List (Row Id Pair)) : Int := (rows.map (·.sortOrder)).max?.getD (-1) + 1

variable [DecidableEq Id] [DecidableEq Pair]

def isActive (rows : List (Row Id Pair)) (id : Id) : Bool := (active rows).any (·.id = id)

/-- `_REQUIRE_ARCHIVED_SQL` -/
def isArchived (rows : List (Row Id Pair)) (id : Id) : Bool := rows.any fun row => row.id = id && row.archived

/-- The old ranks of a reorder, from 1: the active rows sorted by `sort_order` alone. -/
def ranksOf (rows : List (Row Id Pair)) : List (Id × Nat) :=
  (((active rows).insertionSort fun a b => a.sortOrder ≤ b.sortOrder).map (·.id)).zipIdx 1

/-- The loop of `_require_distinct_activity_pairs` and `_require_distinct_honor_pairs`. -/
def requireDistinct (activePairs : List (Pair × Id)) :
    List Pair → Nat → List (Pair × Nat) → Except (ListError Id) Unit
  | [], _, _ => .ok ()
  | pair :: rest, index, batchPairs =>
    match activePairs.lookup pair, batchPairs.lookup pair with
    | some id, _ => .error (.duplicateActive index id)
    | none, some earlier => .error (.duplicateInBatch index earlier)
    | none, none => requireDistinct activePairs rest (index + 1) ((pair, index) :: batchPairs)

def activePairs (rows : List (Row Id Pair)) : List (Pair × Id) :=
  ((active rows).map fun row => (row.pair, row.id)).reverse

/-- Past the checks that are made before the lock is taken. -/
def start (table : WorkspaceTable) : Request Id Pair → Option (Except (ListError Id) (Progress Id Pair))
  | .create items reject => if items = [] then none else some (.ok (.creating items reject))
  | .createHonor item => if table = .honors then some (.ok (.distinct [item])) else none
  | .restore id => some (.ok (.restoring id))
  | .reorder ids => if ids.Nodup then some (.ok (.reordering ids)) else some (.error .idsNotUnique)
  | .archive id => if table = .activities then some (.ok (.archiving id)) else none

/-- The next statement but for an insert: `none` when it waits for another transaction, or
when there is none. -/
def advance (table : WorkspaceTable) (rows : List (Row Id Pair)) (locked : Id → Bool) :
    Progress Id Pair → Option (Except (ListError Id) (Progress Id Pair))
  | .creating items reject =>
    some ((requireDistinct (if reject then activePairs rows else []) items 0 []).map fun _ => .distinct items)
  | .distinct items =>
    some (if table.cap < countActive rows + items.length then .error .capReached else .ok (.roomy items))
  | .roomy items => some (.ok (.inserting (nextSort rows) items []))
  | .restoring id => some (if isArchived rows id then .ok (.archivedFound id) else .error .notFound)
  | .archivedFound id =>
    some (if table.cap ≤ countActive rows then .error .capReached else .ok (.restorable id))
  | .restorable id =>
    match table with
    | .activities => some (.ok (.placing id (some (nextSort rows))))
    | .honors => some (.ok (.placing id none))
  | .placing id sortOrder =>
    if locked id then none
    else some (if isArchived rows id then .ok (.restored id sortOrder) else .error .notFound)
  | .reordering ids =>
    let activeIds := (active rows).map (·.id)
    some (if ids.all activeIds.contains && activeIds.all ids.contains then .ok (.moving (ranksOf rows) ids 0)
      else .error .idsMismatch)
  | .moving oldRanks ids index =>
    match ids[index]? with
    | none => none
    | some id =>
      if locked id then none
      else some (if isActive rows id then .ok (.moving oldRanks ids (index + 1)) else .error .notFound)
  | .archiving id =>
    if locked id then none
    else some (if isActive rows id then .ok (.archivedRow id) else .error .notFound)
  | .inserting .. | .restored .. | .archivedRow .. => none

def Progress.writes : Progress Id Pair → Id → Bool
  | .restored id _, other | .archivedRow id, other => id = other
  | .moving _ ids index, other => (ids.take index).contains other
  | _, _ => false

/-- The insert of the next item, as the database answers it. -/
def insertNext (rows : List (Row Id Pair)) (id : Id) (createdAt : Nat) : Progress Id Pair → Option (Progress Id Pair)
  | .inserting sortOrder (item :: items) written =>
    if rows.any (·.id = id) || written.any (·.id = id) then none
    else some (.inserting sortOrder items (written ++ [⟨id, sortOrder + written.length, createdAt, item, false⟩]))
  | _ => none

def committed (rows : List (Row Id Pair)) : Progress Id Pair → Option (List (Row Id Pair))
  | .inserting _ [] written => some (rows ++ written)
  | .restored id sortOrder =>
    some (rows.map fun row =>
      if row.id = id then { row with archived := false, sortOrder := sortOrder.getD row.sortOrder } else row)
  | .moving _ ids index =>
    if index = ids.length then
      some (rows.map fun row => if ids.contains row.id then { row with sortOrder := ids.idxOf row.id } else row)
    else none
  | .archivedRow id => some (rows.map fun row => if row.id = id then { row with archived := true } else row)
  | _ => none

def Change.apply (change : Change Pair) (id : Id) (rows : List (Row Id Pair)) : List (Row Id Pair) :=
  rows.map fun row =>
    if row.id = id then
      match change with
      | .archive => { row with archived := true }
      | .edit pair => { row with pair }
    else row

def Change.allowed (table : WorkspaceTable) : Change Pair → Bool
  | .archive => table = .honors
  | .edit _ => true

def RowList.isPending (lists : RowList Id Pair) (id : Id) : Bool := lists.pending.any (·.1 = id)

/-- The holder goes on, or its transaction is rolled back. -/
def RowList.continue (lists : RowList Id Pair) : Except (ListError Id) (Progress Id Pair) → RowList Id Pair
  | .ok progress => { lists with holder := some progress }
  | .error _ => { lists with holder := none }

def step (table : WorkspaceTable) (lists : RowList Id Pair) : Label Id Pair → Option (RowList Id Pair)
  | .begin request =>
    match lists.holder with
    | some _ => none
    | none => (start table request).map lists.continue
  | .statement =>
    lists.holder.bind fun progress => (advance table lists.rows lists.isPending progress).map lists.continue
  | .insert id createdAt =>
    lists.holder.bind fun progress =>
      (insertNext lists.rows id createdAt progress).map fun progress => { lists with holder := some progress }
  | .commit =>
    lists.holder.bind fun progress =>
      (committed lists.rows progress).map fun rows => { lists with rows, holder := none }
  | .rollback => some { lists with holder := none }
  | .update id change =>
    if change.allowed table && isActive lists.rows id && !lists.isPending id && !lists.holder.any (·.writes id) then
      some { lists with pending := (id, change) :: lists.pending }
    else none
  | .settle id keep =>
    (lists.pending.find? (·.1 = id)).map fun entry =>
      { lists with
        rows := if keep then entry.2.apply id lists.rows else lists.rows
        pending := lists.pending.filter (·.1 ≠ id) }

/-- Both lists of a student: their rows and locks are apart. -/
abbrev StudentLists (Id Pair : Type) : Type := WorkspaceTable → RowList Id Pair

def empty : StudentLists Id Pair := fun _ => ⟨[], none, []⟩

def listsStep (lists : StudentLists Id Pair) (label : WorkspaceTable × Label Id Pair) :
    Option (StudentLists Id Pair) :=
  (step label.1 (lists label.1) label.2).map (Function.update lists label.1)

end Counselle.Activities

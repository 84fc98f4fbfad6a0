import Counselle.Facts.Exclusions
import Counselle.Paging
import Mathlib.Algebra.Order.Ring.Rat
import Mathlib.Data.List.Range

/-! The pages of a search of the schools: their order, the counts that come with each of them
and the hint at the filter that leaves the least. -/
namespace Counselle.Facts
open Calendar (Date)
open PyJson (PyFloat)
open Paging (TotalLe)
open Sql (Engine Value Condition Plain)

structure ExploreSettings where
  pageSize : Nat
  maxPageSize : Nat
  maxCount : Nat
  pageSize_pos : 0 < pageSize
  maxPageSize_pos : 0 < maxPageSize
  maxCount_pos : 0 < maxCount

/-- The fields of `ExploreQuery` that choose a page. -/
structure PageQuery where
  sort : String
  page : Nat
  pageSize : Option Nat
  page_pos : 1 ≤ page
  pageSize_pos : ∀ size ∈ pageSize, 1 ≤ size

/-- The rows of the view; `school_id` is an integer column and the primary key. -/
structure ExploreTable where
  rows : List ExploreSchool
  distinct : (rows.map ExploreSchool.schoolId).Nodup
  integers : ∀ row ∈ rows, row.schoolId < 2 ^ 31

inductive SortKey where
  | name | undergraduates | admits | cost | needMet | gradFour | gradSix | retention | deadline
  deriving DecidableEq

def SortKey.text : SortKey → String
  | .name => "name"
  | .undergraduates => "undergraduates"
  | .admits => "admit"
  | .cost => "cost"
  | .needMet => "needMet"
  | .gradFour => "gradFour"
  | .gradSix => "gradSix"
  | .retention => "retention"
  | .deadline => "deadline"

/-- `_SORT_KEYS` -/
def SortKey.column : SortKey → SchoolColumn
  | .name => .name
  | .undergraduates => .undergraduates
  | .admits => .admitRate
  | .cost => .costAttendanceInState
  | .needMet => .needMetPct
  | .gradFour => .gradRate4y
  | .gradSix => .gradRate6y
  | .retention => .retentionPct
  | .deadline => .deadlineRegular

def sortKeys : List SortKey :=
  [.name, .undergraduates, .admits, .cost, .needMet, .gradFour, .gradSix, .retention, .deadline]

/-- `METRIC_LABELS.get(sort_key, sort_key)` -/
def SortKey.label : SortKey → String
  | .admits => metricLabel (.range .admits)
  | .cost => metricLabel (.range .cost)
  | .needMet => metricLabel (.range .needMet)
  | .gradFour => metricLabel (.range .gradFour)
  | .gradSix => metricLabel (.range .gradSix)
  | .retention => metricLabel (.range .retention)
  | key => key.text

inductive Direction where
  | asc | desc
  deriving DecidableEq

/-- `_resolve_sort`: the text up to the first colon and the text behind it. -/
def resolveSort (sort : String) : SortKey × Direction :=
  let key := String.ofList (sort.toList.takeWhile (· ≠ ':'))
  let direction := String.ofList ((sort.toList.dropWhile (· ≠ ':')).drop 1)
  match sortKeys.find? fun sortKey => sortKey.text = key with
  | none => (.name, .asc)
  | some sortKey =>
    if direction = "asc" then (sortKey, .asc)
    else if direction = "desc" then (sortKey, .desc)
    else (.name, .asc)

structure Collation where
  le : String → String → Bool
  isTotal : TotalLe le

def inDirection {α : Type} (le : α → α → Bool) : Direction → α → α → Bool
  | .asc, x, y => le x y
  | .desc, x, y => le y x

/-- `ORDER BY column direction NULLS LAST` -/
def byColumn {α : Type} (le : α → α → Bool) (direction : Direction) (column : ExploreSchool → Option α)
    (a b : ExploreSchool) : Bool :=
  Paging.nullsLast (inDirection le direction) (column a) (column b)

def integerLe (m n : Int) : Bool := m ≤ n

section Order
variable (collation : Collation)

def sortLe (sortKey : SortKey) (direction : Direction) : ExploreSchool → ExploreSchool → Bool :=
  match sortKey with
  | .name => byColumn collation.le direction fun school => some school.name
  | .undergraduates => byColumn integerLe direction ExploreSchool.undergraduates
  | .admits => byColumn Sql.numericLe direction ExploreSchool.admitRate
  | .cost => byColumn integerLe direction ExploreSchool.costAttendanceInState
  | .needMet => byColumn Sql.numericLe direction ExploreSchool.needMetPct
  | .gradFour => byColumn Sql.numericLe direction ExploreSchool.gradRate4y
  | .gradSix => byColumn Sql.numericLe direction ExploreSchool.gradRate6y
  | .retention => byColumn Sql.numericLe direction ExploreSchool.retentionPct
  | .deadline => byColumn Sql.dateLe direction ExploreSchool.deadlineRegular

/-- The order of the main statement, which ends with `school_id ASC`. -/
def rowLe (sort : SortKey × Direction) : ExploreSchool → ExploreSchool → Bool :=
  Paging.thenBy (sortLe collation sort.1 sort.2) ExploreSchool.schoolId

end Order

structure NullTail where
  count : Nat
  metricLabel : String

structure ExploreResponse where
  schools : List ExploreSchool
  page : Nat
  pageSize : Nat
  total : Nat
  totalIsCapped : Bool
  exclusions : List Exclusion
  sortedNullTail : Option NullTail
  controlCounts : Control → Nat
  narrowest : Option Narrowest

/-- `int8`, in which the database counts `LIMIT` and `OFFSET`. -/
def maxBigint : Nat := 2 ^ 63 - 1

/-- The size of the pages; a size of zero does not come in. -/
def pageSizeOf (settings : ExploreSettings) (given : Option Nat) : Nat :=
  min (given.getD settings.pageSize) settings.maxPageSize

section Run
variable (engine : Engine) (collation : Collation) (settings : ExploreSettings) (query : ExploreQuery)
  (table : ExploreTable)

/-- The rows of the filters in the order of the main statement. -/
def ordered (sort : SortKey × Direction) : List ExploreSchool :=
  (matching engine query table.rows).mergeSort (rowLe collation sort)

/-- The filters and `AND column IS NULL`. -/
def tailWhere (sortKey : SortKey) : Where :=
  let body := combine (buildClauses query) none none
  ⟨body.parts ++ [.isNull (.column sortKey.column)], body.params⟩

def nullTail (sortKey : SortKey) : Option NullTail :=
  if sortKey = .name then none
  else
    let count := table.rows.countP ((tailWhere query sortKey).keeps engine)
    if 0 < count then some ⟨count, sortKey.label⟩ else none

/-- `run_explore`; `none` is the statement that the database refuses. -/
def runExplore (request : PageQuery) : Option ExploreResponse :=
  let sort := resolveSort request.sort
  let pageSize := pageSizeOf settings request.pageSize
  let offset := (request.page - 1) * pageSize
  if maxBigint < pageSize ∨ maxBigint < offset then none
  else
    let mainRows := ((ordered engine collation query table sort).drop offset).take pageSize
    -- Every row carries the number of all rows, and without a row it is not known.
    let counted := if mainRows = [] then 0 else (matching engine query table.rows).length
    let total := min counted settings.maxCount
    some {
      schools := mainRows
      page := request.page
      pageSize
      total
      totalIsCapped := decide (settings.maxCount < counted)
      exclusions := exclusions engine query table.rows
      sortedNullTail := nullTail engine query table sort.1
      controlCounts := controlCounts engine query table.rows
      narrowest := narrowest engine query table.rows total }

end Run

theorem integerLe_total : TotalLe integerLe where
  total m n := by
    simp only [integerLe, decide_eq_true_eq]
    exact Int.le_total m n
  trans m n k first second := by
    simp only [integerLe, decide_eq_true_eq] at first second ⊢
    exact Int.le_trans first second

theorem numericLe_total : TotalLe Sql.numericLe where
  total x y := by
    cases x with
    | nan => exact .inr (by cases y <;> rfl)
    | infinite negative =>
      cases y with
      | nan => exact .inl rfl
      | infinite other => cases negative <;> cases other <;> simp [Sql.numericLe]
      | finite y => cases negative <;> simp [Sql.numericLe]
    | finite x =>
      cases y with
      | nan => exact .inl rfl
      | infinite negative => cases negative <;> simp [Sql.numericLe]
      | finite y =>
        simp only [Sql.numericLe, decide_eq_true_eq]
        exact le_total x y
  trans x y z first second := by
    cases z with
    | nan => cases x <;> rfl
    | infinite negative =>
      cases negative with
      | false => cases x with
        | nan => cases y <;> simp_all [Sql.numericLe]
        | infinite other => cases other <;> rfl
        | finite x => rfl
      | true =>
        -- Below minus infinity there is only minus infinity.
        cases y with
        | nan => simp [Sql.numericLe] at second
        | finite y => simp [Sql.numericLe] at second
        | infinite other => cases other <;> simp_all [Sql.numericLe]
    | finite z =>
      cases y with
      | nan => simp [Sql.numericLe] at second
      | infinite negative =>
        cases negative with
        | false => simp [Sql.numericLe] at second
        | true => cases x with
          | nan => simp [Sql.numericLe] at first
          | finite x => simp [Sql.numericLe] at first
          | infinite other => cases other <;> simp_all [Sql.numericLe]
      | finite y =>
        cases x with
        | nan => simp [Sql.numericLe] at first
        | infinite negative => cases negative <;> simp_all [Sql.numericLe]
        | finite x =>
          simp only [Sql.numericLe, decide_eq_true_eq] at first second ⊢
          exact le_trans first second

theorem dateLe_iff {a b : Date} : Sql.dateLe a b = true ↔ a.year < b.year ∨ a.year = b.year ∧
    (a.month < b.month ∨ a.month = b.month ∧ a.day ≤ b.day) := by
  simp [Sql.dateLe]

theorem dateLe_total : TotalLe Sql.dateLe where
  total a b := by
    rw [dateLe_iff, dateLe_iff]
    omega
  trans a b c first second := by
    rw [dateLe_iff] at first second ⊢
    omega

theorem inDirection_total {α : Type} {le : α → α → Bool} (isTotal : TotalLe le) (direction : Direction) :
    TotalLe (inDirection le direction) := by
  cases direction with
  | asc => exact isTotal
  | desc => exact isTotal.flip

theorem byColumn_total {α : Type} {le : α → α → Bool} (isTotal : TotalLe le) (direction : Direction)
    (column : ExploreSchool → Option α) : TotalLe (byColumn le direction column) :=
  (inDirection_total isTotal direction).nullsLast.ofKey column

section Order
variable (collation : Collation)

theorem sortLe_total (sortKey : SortKey) (direction : Direction) :
    TotalLe (sortLe collation sortKey direction) := by
  cases sortKey with
  | name => exact byColumn_total collation.isTotal direction _
  | undergraduates | cost => exact byColumn_total integerLe_total direction _
  | admits | needMet | gradFour | gradSix | retention => exact byColumn_total numericLe_total direction _
  | deadline => exact byColumn_total dateLe_total direction _

theorem rowLe_total (sort : SortKey × Direction) : TotalLe (rowLe collation sort) :=
  (sortLe_total collation sort.1 sort.2).thenBy ExploreSchool.schoolId

def lacks (sortKey : SortKey) (school : ExploreSchool) : Bool := (school.get sortKey.column).isNone

theorem byColumn_lacks {α : Type} {le : α → α → Bool} {direction : Direction}
    {column : ExploreSchool → Option α} {a b : ExploreSchool} (isLe : byColumn le direction column a b = true)
    (isMissing : (column a).isNone = true) : (column b).isNone = true := by
  rw [Option.isNone_iff_eq_none] at isMissing ⊢
  exact Paging.missing_of_nullsLast isLe isMissing

theorem sortLe_lacks {sortKey : SortKey} {direction : Direction} {a b : ExploreSchool}
    (isLe : sortLe collation sortKey direction a b = true) (isMissing : lacks sortKey a = true) :
    lacks sortKey b = true := by
  cases sortKey with
  | name => simp [lacks, SortKey.column, ExploreSchool.get] at isMissing
  | _ =>
    simp only [lacks, SortKey.column, ExploreSchool.get, Option.isNone_map] at isMissing ⊢
    exact byColumn_lacks isLe isMissing

end Order

section Laws
variable (engine : Engine) (collation : Collation) (settings : ExploreSettings) (query : ExploreQuery)
  (table : ExploreTable) (sort : SortKey × Direction)

theorem ordered_perm : (ordered engine collation query table sort).Perm (matching engine query table.rows) :=
  List.mergeSort_perm _ _

theorem ordered_length : (ordered engine collation query table sort).length =
    (matching engine query table.rows).length := (ordered_perm engine collation query table sort).length_eq

theorem ordered_sorted : (ordered engine collation query table sort).Pairwise fun a b =>
    rowLe collation sort a b = true := by
  apply List.pairwise_mergeSort
  · exact (rowLe_total collation sort).trans
  · intro a b
    rw [Bool.or_eq_true]
    exact (rowLe_total collation sort).total a b

theorem matching_distinct : ((matching engine query table.rows).map ExploreSchool.schoolId).Nodup :=
  table.distinct.sublist (List.filter_sublist.map _)

theorem ordered_unique {rows : List ExploreSchool} (isPerm : rows.Perm (matching engine query table.rows))
    (sorted : rows.Pairwise fun a b => rowLe collation sort a b = true) :
    rows = ordered engine collation query table sort :=
  Paging.unique_order (matching_distinct engine query table) isPerm
    (ordered_perm engine collation query table sort) sorted (ordered_sorted engine collation query table sort)

theorem ordered_missing_last : ordered engine collation query table sort =
    (ordered engine collation query table sort).filter (fun school => !lacks sort.1 school) ++
      (ordered engine collation query table sort).filter (lacks sort.1) :=
  Paging.missing_last (Paging.pairwise_of_thenBy (ordered_sorted engine collation query table sort))
    fun _ _ => sortLe_lacks collation

theorem few_rows : (matching engine query table.rows).length ≤ maxBigint := by
  have inRange : table.rows.map ExploreSchool.schoolId ⊆ List.range (2 ^ 31) := by
    intro id isIn
    obtain ⟨row, isRow, rfl⟩ := List.mem_map.mp isIn
    exact List.mem_range.mpr (table.integers row isRow)
  have few := (List.subperm_of_subset table.distinct inRange).length_le
  rw [List.length_map, List.length_range] at few
  calc (matching engine query table.rows).length ≤ table.rows.length := List.length_filter_le _ _
    _ ≤ 2 ^ 31 := few
    _ ≤ maxBigint := by decide

end Laws

section Laws
variable (engine : Engine) (query : ExploreQuery) (table : ExploreTable) (sortKey : SortKey)

theorem isNull_eval (school : ExploreSchool) (arg : Nat → Option Value) :
    (Condition.isNull (.column sortKey.column)).eval engine school.get arg = some true ↔
      lacks sortKey school = true := by
  rw [lacks, Option.isNone_iff_eq_none]
  show some (decide (school.get sortKey.column = none)) = some true ↔ _
  simp

theorem tailWhere_keeps (school : ExploreSchool) : (tailWhere query sortKey).keeps engine school =
    ((combine (buildClauses query) none none).keeps engine school && lacks sortKey school) := by
  rw [Bool.eq_iff_iff, Bool.and_eq_true, Where.keeps, Where.keeps, decide_eq_true_iff, decide_eq_true_iff,
    Sql.conjunction_eq_true, Sql.conjunction_eq_true]
  simp only [tailWhere, List.forall_mem_append, List.forall_mem_singleton, isNull_eval]

theorem tail_count : table.rows.countP ((tailWhere query sortKey).keeps engine) =
    (matching engine query table.rows).countP (lacks sortKey) := by
  rw [matching, List.countP_filter]
  apply List.countP_congr
  intro school _
  rw [tailWhere_keeps, Bool.and_comm]

theorem nullTail_count : ((nullTail engine query table sortKey).map NullTail.count).getD 0 =
    (matching engine query table.rows).countP (lacks sortKey) := by
  unfold nullTail
  by_cases isName : sortKey = .name
  · subst isName
    rw [if_pos rfl, Option.map_none, Option.getD_none, eq_comm, List.countP_eq_zero]
    intro school _
    simp [lacks, SortKey.column, ExploreSchool.get]
  · rw [if_neg isName, ← tail_count]
    by_cases some : 0 < table.rows.countP ((tailWhere query sortKey).keeps engine)
    · simp only [some, if_true, Option.map_some, Option.getD_some]
    · simp only [some, if_false, Option.map_none, Option.getD_none]
      exact (Nat.eq_zero_of_not_pos some).symm

end Laws

def moreLeft (count : FilterKey → Nat) (best : Option (FilterKey × Nat)) (clause : Clause) :
    Option (FilterKey × Nat) :=
  let left := count clause.key
  match best with
  | some (_, most) => if most < left then some (clause.key, left) else best
  | none => some (clause.key, left)

/-- The key and the count that the loop holds are those of a clause, and no count that it has
seen is above it. -/
structure MostLeft (count : FilterKey → Nat) (seen : List Clause) (key : FilterKey) (most : Nat) : Prop where
  isClause : ∃ clause ∈ seen, clause.key = key
  isCount : most = count key
  isMost : ∀ clause ∈ seen, count clause.key ≤ most

theorem moreLeft_step {count : FilterKey → Nat} {seen : List Clause} {best : Option (FilterKey × Nat)}
    (known : ∀ key most, best = some (key, most) → MostLeft count seen key most)
    (unknown : best = none → seen = []) (clause : Clause) :
    ∃ key most, moreLeft count best clause = some (key, most) ∧
      MostLeft count (seen ++ [clause]) key most := by
  cases best with
  | none =>
    obtain rfl := unknown rfl
    exact ⟨clause.key, count clause.key, rfl, ⟨clause, by simp, rfl⟩, rfl, by simp⟩
  | some best =>
    obtain ⟨key, most⟩ := best
    have before := known key most rfl
    by_cases more : most < count clause.key
    · refine ⟨clause.key, count clause.key, by simp [moreLeft, more], ⟨clause, by simp, rfl⟩, rfl, ?_⟩
      intro other isIn
      rcases List.mem_append.mp isIn with isIn | isIn
      · exact Nat.le_of_lt (Nat.lt_of_le_of_lt (before.isMost other isIn) more)
      · rw [List.mem_singleton.mp isIn]
    · obtain ⟨holder, isSeen, isKey⟩ := before.isClause
      refine ⟨key, most, by simp [moreLeft, more], ⟨holder, by simp [isSeen], isKey⟩, before.isCount, ?_⟩
      intro other isIn
      rcases List.mem_append.mp isIn with isIn | isIn
      · exact before.isMost other isIn
      · rw [List.mem_singleton.mp isIn]
        exact Nat.le_of_not_lt more

theorem moreLeft_run {count : FilterKey → Nat} (clauses : List Clause) {seen : List Clause}
    {best : Option (FilterKey × Nat)}
    (known : ∀ key most, best = some (key, most) → MostLeft count seen key most)
    (unknown : best = none → seen = []) {key : FilterKey} {most : Nat}
    (isBest : clauses.foldl (moreLeft count) best = some (key, most)) :
    MostLeft count (seen ++ clauses) key most := by
  induction clauses generalizing seen best with
  | nil =>
    rw [List.append_nil]
    exact known key most isBest
  | cons clause clauses ih =>
    obtain ⟨nextKey, nextMost, isNext, next⟩ := moreLeft_step known unknown clause
    rw [List.foldl_cons, isNext] at isBest
    have whole := @ih (seen ++ [clause]) (some (nextKey, nextMost))
    rw [List.append_assoc, List.singleton_append] at whole
    apply whole
    · rintro _ _ ⟨⟩
      exact next
    · intro absent
      cases absent
    · exact isBest

section Hint
variable (engine : Engine) (query : ExploreQuery) (table : ExploreTable)

/-- How many schools are left when the filter does not count. -/
def leftWithout (key : FilterKey) : Nat :=
  table.rows.countP fun school => decide
    (∀ clause ∈ buildClauses query, clause.key ≠ key → clause.verdict engine school = some true)

theorem leftWithout_eq (key : FilterKey) : leftWithout engine query table key =
    table.rows.countP ((combine (buildClauses query) (some key) none).keeps engine) := by
  apply List.countP_congr
  intro school _
  rw [keeps_iff buildClauses_fit, decide_eq_true_iff]
  simp only [ne_eq, Option.some.injEq]

/-- The hint names a filter that is set and without which the most schools are left. -/
structure Narrows (hint : Narrowest) : Prop where
  isSet : ∃ clause ∈ buildClauses query, clause.key = hint.key
  isCount : hint.remainingWithoutIt = leftWithout engine query table hint.key
  isMost : ∀ clause ∈ buildClauses query, leftWithout engine query table clause.key ≤ hint.remainingWithoutIt

theorem narrowest_narrows {total : Nat} {hint : Narrowest}
    (isHint : narrowest engine query table.rows total = some hint) :
    total = 0 ∧ Narrows engine query table hint := by
  have run : narrowest engine query table.rows total = if total = 0 then
      ((buildClauses query).foldl (moreLeft fun key =>
        table.rows.countP ((combine (buildClauses query) (some key) none).keeps engine)) none).map
          fun best => ⟨best.1, (metricLabels best.1).getD best.1.text, best.2⟩ else none := rfl
  rw [run] at isHint
  split at isHint
  case isFalse => cases isHint
  case isTrue isZero =>
    obtain ⟨⟨key, most⟩, isBest, rfl⟩ := Option.map_eq_some_iff.mp isHint
    have best := @moreLeft_run _ (buildClauses query) [] none (by simp) (by simp) _ _ isBest
    rw [List.nil_append] at best
    refine ⟨isZero, best.isClause, ?_, fun clause isIn => ?_⟩
    · rw [leftWithout_eq]
      exact best.isCount
    · rw [leftWithout_eq]
      exact best.isMost clause isIn

end Hint

/-- The request for the page behind `i` others. -/
def PageQuery.at (request : PageQuery) (i : Nat) : PageQuery :=
  { request with page := i + 1, page_pos := Nat.succ_pos i }

section Pages
variable (engine : Engine) (collation : Collation) (settings : ExploreSettings) (query : ExploreQuery)
  (table : ExploreTable) (request : PageQuery)

/-- The schools that the request shows; a refused request shows none. -/
def shown : List ExploreSchool :=
  ((runExplore engine collation settings query table request).map ExploreResponse.schools).getD []

def listed (count : Nat) : List ExploreSchool :=
  (List.range count).flatMap fun i => shown engine collation settings query table (request.at i)

/-- The pages list every school that matches once, in the one order of the sort: the rows
without its value are behind the others in either direction. -/
structure ListedOnce : Prop where
  total : TotalLe (rowLe collation (resolveSort request.sort))
  unique : ∀ rows : List ExploreSchool, rows.Perm (matching engine query table.rows) →
    (rows.Pairwise fun a b => rowLe collation (resolveSort request.sort) a b = true) →
      rows = ordered engine collation query table (resolveSort request.sort)
  missingLast : ∃ present missing,
    ordered engine collation query table (resolveSort request.sort) = present ++ missing ∧
      (∀ school ∈ present, school.get (resolveSort request.sort).1.column ≠ none) ∧
        ∀ school ∈ missing, school.get (resolveSort request.sort).1.column = none
  sorted : pageSizeOf settings request.pageSize ≤ maxBigint → ∀ count,
    (listed engine collation settings query table request count).Pairwise fun a b =>
      rowLe collation (resolveSort request.sort) a b = true
  once : pageSizeOf settings request.pageSize ≤ maxBigint → ∀ count,
    (matching engine query table.rows).length ≤ count * pageSizeOf settings request.pageSize →
      (listed engine collation settings query table request count).Perm (matching engine query table.rows)

structure ExactResponse (response : ExploreResponse) : Prop where
  schools : response.schools = Paging.page (pageSizeOf settings request.pageSize)
    (ordered engine collation query table (resolveSort request.sort)) request.page
  total : response.total = min (matching engine query table.rows).length settings.maxCount
  capped : response.totalIsCapped = decide (settings.maxCount < (matching engine query table.rows).length)
  nullTail : (response.sortedNullTail.map NullTail.count).getD 0 =
    (matching engine query table.rows).countP fun school =>
      (school.get (resolveSort request.sort).1.column).isNone
  hint : ∀ hint, response.narrowest = some hint →
    matching engine query table.rows = [] ∧ Narrows engine query table hint

def ExactPage : Prop :=
  ∃ response, runExplore engine collation settings query table request = some response ∧
    ExactResponse engine collation settings query table request response

/-- The page is not behind the last one, and the database can count up to it. -/
def InReach : Prop :=
  pageSizeOf settings request.pageSize ≤ maxBigint ∧
    (request.page - 1) * pageSizeOf settings request.pageSize ≤ maxBigint ∧
    (matching engine query table.rows = [] ∨
      (request.page - 1) * pageSizeOf settings request.pageSize < (matching engine query table.rows).length)

theorem pageSizeOf_pos : 0 < pageSizeOf settings request.pageSize := by
  unfold pageSizeOf
  apply Nat.lt_min.mpr ⟨?_, settings.maxPageSize_pos⟩
  cases given : request.pageSize with
  | none => exact settings.pageSize_pos
  | some size => exact request.pageSize_pos size given

theorem mainRows_eq_nil_iff {sort : SortKey × Direction} :
    Paging.page (pageSizeOf settings request.pageSize) (ordered engine collation query table sort) request.page = [] ↔
      (matching engine query table.rows).length ≤ (request.page - 1) * pageSizeOf settings request.pageSize := by
  rw [Paging.page_eq_nil_iff (pageSizeOf_pos settings request), ordered_length]

theorem runExplore_eq_none_iff : runExplore engine collation settings query table request = none ↔
    maxBigint < pageSizeOf settings request.pageSize ∨
      maxBigint < (request.page - 1) * pageSizeOf settings request.pageSize := by
  dsimp only [runExplore]
  split <;> simp_all

theorem runExplore_eq {response : ExploreResponse}
    (isRun : runExplore engine collation settings query table request = some response) :
    let rows := Paging.page (pageSizeOf settings request.pageSize)
      (ordered engine collation query table (resolveSort request.sort)) request.page
    let counted := if rows = [] then 0 else (matching engine query table.rows).length
    response.schools = rows ∧ response.total = min counted settings.maxCount ∧
      response.totalIsCapped = decide (settings.maxCount < counted) ∧
      response.sortedNullTail = nullTail engine query table (resolveSort request.sort).1 ∧
      response.narrowest = narrowest engine query table.rows (min counted settings.maxCount) := by
  dsimp only [runExplore] at isRun
  split at isRun
  · cases isRun
  · obtain rfl := Option.some.inj isRun
    exact ⟨rfl, rfl, rfl, rfl, rfl⟩

theorem shown_at (fits : pageSizeOf settings request.pageSize ≤ maxBigint) (i : Nat) :
    shown engine collation settings query table (request.at i) =
      Paging.page (pageSizeOf settings request.pageSize)
        (ordered engine collation query table (resolveSort request.sort)) (i + 1) := by
  unfold shown
  cases isRun : runExplore engine collation settings query table (request.at i) with
  | some response => exact (runExplore_eq engine collation settings query table (request.at i) isRun).1
  | none =>
    -- A page that the database cannot count up to is behind the last one.
    have refused := (runExplore_eq_none_iff engine collation settings query table (request.at i)).mp isRun
    have behind : maxBigint < i * pageSizeOf settings request.pageSize :=
      refused.resolve_left (Nat.not_lt.mpr fits)
    have few := few_rows engine query table
    rw [Option.map_none, Option.getD_none, eq_comm, Paging.page_eq_nil_iff (pageSizeOf_pos settings request),
      ordered_length, Nat.add_sub_cancel]
    omega

theorem listed_eq (fits : pageSizeOf settings request.pageSize ≤ maxBigint) (count : Nat) :
    listed engine collation settings query table request count =
      (ordered engine collation query table (resolveSort request.sort)).take
        (count * pageSizeOf settings request.pageSize) := by
  rw [← Paging.pages_eq]
  unfold listed Paging.pages
  congr 1
  funext i
  exact shown_at engine collation settings query table request fits i

theorem listedOnce : ListedOnce engine collation settings query table request where
  total := rowLe_total collation (resolveSort request.sort)
  unique _ := ordered_unique engine collation query table (resolveSort request.sort)
  missingLast := by
    refine ⟨_, _, ordered_missing_last engine collation query table (resolveSort request.sort), ?_, ?_⟩
    · intro school isIn missing
      have present := (List.mem_filter.mp isIn).2
      simp [lacks, missing] at present
    · intro school isIn
      exact Option.isNone_iff_eq_none.mp (List.mem_filter.mp isIn).2
  sorted fits count := by
    rw [listed_eq engine collation settings query table request fits]
    exact (ordered_sorted engine collation query table _).sublist (List.take_sublist _ _)
  once fits count isEnough := by
    rw [listed_eq engine collation settings query table request fits, List.take_of_length_le
      (by rw [ordered_length]; exact isEnough)]
    exact ordered_perm engine collation query table _

theorem exactPage_of_inReach (inReach : InReach engine settings query table request) :
    ExactPage engine collation settings query table request := by
  obtain ⟨fits, counts, reaches⟩ := inReach
  cases isRun : runExplore engine collation settings query table request with
  | none =>
    have refused := (runExplore_eq_none_iff engine collation settings query table request).mp isRun
    omega
  | some response =>
    obtain ⟨schools, total, capped, tail, hint⟩ :=
      runExplore_eq engine collation settings query table request isRun
    -- The rows of the page know the number of all rows; no row at all is the number zero.
    have counted : (if Paging.page (pageSizeOf settings request.pageSize)
        (ordered engine collation query table (resolveSort request.sort)) request.page = [] then 0
        else (matching engine query table.rows).length) = (matching engine query table.rows).length := by
      split
      case isFalse => rfl
      case isTrue isEmpty =>
        have behind := (mainRows_eq_nil_iff engine collation settings query table request).mp isEmpty
        rcases reaches with none | before
        · rw [none, List.length_nil]
        · omega
    rw [counted] at total capped hint
    refine ⟨response, isRun, schools, total, capped, ?_, fun narrow isHint => ?_⟩
    · rw [tail]
      exact nullTail_count engine query table (resolveSort request.sort).1
    · obtain ⟨isZero, narrows⟩ := narrowest_narrows engine query table (hint.symm.trans isHint)
      have positive := settings.maxCount_pos
      exact ⟨List.length_eq_zero_iff.mp (by omega), narrows⟩

theorem inReach_of_exactPage (exact : ExactPage engine collation settings query table request) :
    InReach engine settings query table request := by
  obtain ⟨response, isRun, isExact⟩ := exact
  have served : ¬ (maxBigint < pageSizeOf settings request.pageSize ∨
      maxBigint < (request.page - 1) * pageSizeOf settings request.pageSize) := by
    rw [← runExplore_eq_none_iff engine collation settings query table request, isRun]
    simp
  refine ⟨by omega, by omega, ?_⟩
  by_contra behind
  rw [not_or, Nat.not_lt] at behind
  obtain ⟨schools, total, capped, tail, hint⟩ :=
    runExplore_eq engine collation settings query table request isRun
  have isEmpty := (@mainRows_eq_nil_iff engine collation settings query table request
    (resolveSort request.sort)).mpr behind.2
  rw [if_pos isEmpty, isExact.total] at total
  have some := List.length_pos_of_ne_nil behind.1
  have positive := settings.maxCount_pos
  omega

end Pages

/-- The pages of a search list every matching school once in one order, whatever the query and
the table. The counts and the hint of a page are those of the search as long as the page is not
behind the last one: a page without a row does not know how many there are, reports none and
blames a filter. -/
theorem explore_pages_exact_iff (engine : Engine) (collation : Collation) (settings : ExploreSettings)
    (query : ExploreQuery) (table : ExploreTable) (request : PageQuery) :
    ListedOnce engine collation settings query table request ∧
      (ExactPage engine collation settings query table request ↔ InReach engine settings query table request) :=
  ⟨listedOnce engine collation settings query table request,
    inReach_of_exactPage engine collation settings query table request,
    exactPage_of_inReach engine collation settings query table request⟩

section Behind
variable (engine : Engine) (collation : Collation) (settings : ExploreSettings) (query : ExploreQuery)
  (table : ExploreTable) (request : PageQuery)

theorem answer_behind_last (fits : pageSizeOf settings request.pageSize ≤ maxBigint)
    (counts : (request.page - 1) * pageSizeOf settings request.pageSize ≤ maxBigint)
    (behind : (matching engine query table.rows).length ≤
      (request.page - 1) * pageSizeOf settings request.pageSize) :
    ∃ response, runExplore engine collation settings query table request = some response ∧
      response.schools = [] ∧ response.total = 0 ∧ response.totalIsCapped = false ∧
        response.narrowest = narrowest engine query table.rows 0 := by
  cases isRun : runExplore engine collation settings query table request with
  | none =>
    have refused := (runExplore_eq_none_iff engine collation settings query table request).mp isRun
    omega
  | some response =>
    obtain ⟨schools, total, capped, tail, hint⟩ :=
      runExplore_eq engine collation settings query table request isRun
    have isEmpty := (@mainRows_eq_nil_iff engine collation settings query table request
      (resolveSort request.sort)).mpr behind
    rw [if_pos isEmpty] at total capped hint
    rw [Nat.zero_min] at total hint
    exact ⟨response, rfl, schools.trans isEmpty, total, by simpa using capped, hint⟩

end Behind

def byCharacters : Collation where
  le s t := decide (s ≤ t)
  isTotal := {
    total := fun s t => by simpa using String.le_total s t
    trans := fun s t u first second => by
      rw [decide_eq_true_iff] at first second ⊢
      exact String.le_trans first second }

def defaultSettings : ExploreSettings := ⟨24, 100, 3000, by decide, by decide, by decide⟩

def fullRange : ExploreSchool := { unreported with satMathP25 := some 600, satMathP75 := some 720 }

def oneSchool : ExploreTable := ⟨[fullRange], by decide, by decide⟩

def secondPage : PageQuery := ⟨"name:asc", 2, none, by decide, by simp⟩

/-- A search that finds one school: its second page says that there is none and blames the
filter of the score. -/
theorem page_behind_last_not_exact :
    matching sampleEngine satQuery oneSchool.rows = [fullRange] ∧
      ¬ ExactPage sampleEngine byCharacters defaultSettings satQuery oneSchool secondPage ∧
        ∃ response, runExplore sampleEngine byCharacters defaultSettings satQuery oneSchool secondPage = some response ∧
          response.total = 0 ∧ response.narrowest.map Narrowest.key = some .satMath := by
  have found : matching sampleEngine satQuery oneSchool.rows = [fullRange] := by decide +kernel
  have size : pageSizeOf defaultSettings secondPage.pageSize = 24 := rfl
  have offset : (secondPage.page - 1) * pageSizeOf defaultSettings secondPage.pageSize = 24 := rfl
  obtain ⟨response, isRun, schools, total, capped, hint⟩ := answer_behind_last sampleEngine byCharacters
    defaultSettings satQuery oneSchool secondPage (by rw [size]; decide) (by rw [offset]; decide)
    (by rw [offset, found]; decide)
  refine ⟨found, fun exact => ?_, response, isRun, total, ?_⟩
  · have reach := inReach_of_exactPage sampleEngine byCharacters defaultSettings satQuery oneSchool secondPage exact
    rcases reach.2.2 with none | before
    · rw [found] at none
      cases none
    · rw [offset, found] at before
      exact absurd before (by decide)
  · rw [hint]
    decide +kernel

end Counselle.Facts

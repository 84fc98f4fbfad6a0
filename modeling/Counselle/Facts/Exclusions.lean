import Counselle.Facts.FilterVerdicts
import Counselle.Upsert

/-! The exclusion counts beside the result: when they are the counts of the schools that a
filter leaves out because a column is missing. -/
namespace Counselle.Facts
open PyJson (PyFloat)
open Sql (Engine Value Truth Term Condition Template Plain)

variable {engine : Engine} {query : ExploreQuery} {school : ExploreSchool} {clause : Clause}

theorem find?_clause (isIn : clause ∈ buildClauses query) :
    (buildClauses query).find? (fun other => other.key = clause.key) = some clause :=
  (Upsert.find?_key_iff (nodup_keys query)).mpr ⟨isIn, rfl⟩

def MeetsOthers (engine : Engine) (query : ExploreQuery) (clause : Clause) (school : ExploreSchool) : Prop :=
  ∀ other ∈ buildClauses query, other.key ≠ clause.key → other.verdict engine school = some true

theorem mem_matching {table : List ExploreSchool} : school ∈ matching engine query table ↔
    school ∈ table ∧ ∀ clause ∈ buildClauses query, clause.verdict engine school = some true := by
  rw [matching, List.mem_filter, keeps_iff buildClauses_fit]
  simp

theorem countedFor_iff (isIn : clause ∈ buildClauses query) (eligible : clause.nullSql.isSome) :
    countedFor engine query clause.key school = true ↔
      MeetsOthers engine query clause school ∧ clause.nullTest engine school = true :=
  counts_iff buildClauses_fit (find?_clause isIn) eligible

theorem mem_exclusions {table : List ExploreSchool} {exclusion : Exclusion} :
    exclusion ∈ exclusions engine query table ↔ ∃ clause ∈ buildClauses query, clause.nullSql.isSome ∧
      exclusion = ⟨clause.key, clause.metricLabel, table.countP (countedFor engine query clause.key),
        clause.reason⟩ ∧ 0 < exclusion.count := by
  simp only [exclusions, exclusionEligible, List.mem_filter, List.mem_map, decide_eq_true_eq]
  constructor
  · rintro ⟨⟨clause, ⟨isIn, eligible⟩, rfl⟩, shown⟩
    exact ⟨clause, isIn, eligible, rfl, shown⟩
  · rintro ⟨clause, isIn, eligible, rfl, shown⟩
    exact ⟨⟨clause, ⟨isIn, eligible⟩, rfl⟩, shown⟩

theorem nodup_exclusions {table : List ExploreSchool} :
    ((exclusions engine query table).map Exclusion.key).Nodup := by
  have all : ((exclusionEligible query).map Clause.key).Nodup :=
    (List.filter_sublist.map Clause.key).nodup (nodup_keys query)
  refine (List.filter_sublist.map Exclusion.key).nodup ?_
  rwa [List.map_map]

theorem clause_eq {other : Clause} (isIn : clause ∈ buildClauses query) (isOther : other ∈ buildClauses query)
    (sameKey : other.key = clause.key) : other = clause :=
  List.inj_on_of_nodup_map (nodup_keys query) isOther isIn sameKey

section Counting
variable {A : Type} {p q : A → Prop} {items : List A}

open Classical in
noncomputable def howMany (items : List A) (p : A → Prop) : Nat := items.countP fun a => decide (p a)

open Classical in
theorem howMany_eq {b : A → Bool} (same : ∀ a ∈ items, b a = true ↔ p a) : items.countP b = howMany items p :=
  List.countP_congr fun a isIn => (same a isIn).trans decide_eq_true_iff.symm

open Classical in
theorem howMany_congr (same : ∀ a ∈ items, p a ↔ q a) : howMany items p = howMany items q :=
  howMany_eq fun a isIn => decide_eq_true_iff.trans (same a isIn)

theorem howMany_eq_zero : howMany items p = 0 ↔ ∀ a ∈ items, ¬ p a := by
  simp [howMany, List.countP_eq_zero]

theorem howMany_split (p q : A → Prop) (items : List A) :
    howMany items p = howMany items (fun a => p a ∧ q a) + howMany items fun a => p a ∧ ¬ q a := by
  unfold howMany
  induction items with
  | nil => rfl
  | cons a rest ih =>
    rw [List.countP_cons, List.countP_cons, List.countP_cons, ih]
    by_cases isP : p a <;> by_cases isQ : q a <;> simp [isP, isQ] <;> omega

end Counting

theorem reportedCount_eq {table : List ExploreSchool} (isIn : clause ∈ buildClauses query) :
    reportedCount engine query table clause.key = howMany table fun school =>
      MeetsOthers engine query clause school ∧ clause.nullTest engine school = true := by
  have sameCount : clause.nullSql.isSome → table.countP (countedFor engine query clause.key) =
      howMany table fun school => MeetsOthers engine query clause school ∧
        clause.nullTest engine school = true :=
    fun eligible => howMany_eq fun school _ => countedFor_iff isIn eligible
  rw [reportedCount]
  cases found : (exclusions engine query table).find? fun exclusion => exclusion.key = clause.key with
  | some exclusion =>
    obtain ⟨isExclusion, sameKey⟩ := (Upsert.find?_key_iff nodup_exclusions).mp found
    obtain ⟨other, isOther, eligible, rfl, -⟩ := mem_exclusions.mp isExclusion
    obtain rfl := clause_eq isIn isOther sameKey
    exact sameCount eligible
  | none =>
    rw [Option.map_none, Option.getD_none, eq_comm, howMany_eq_zero]
    intro school isSchool counted
    have eligible : clause.nullSql.isSome := by
      by_contra absent
      simp [Clause.nullTest, Option.not_isSome_iff_eq_none.mp absent] at counted
    have positive : 0 < table.countP (countedFor engine query clause.key) :=
      List.countP_pos_iff.mpr ⟨school, isSchool, (countedFor_iff isIn eligible).mpr counted⟩
    have shown := mem_exclusions.mpr ⟨clause, isIn, eligible, rfl, positive⟩
    have isFound := (Upsert.find?_key_iff (@nodup_exclusions engine query table)).mpr ⟨shown, rfl⟩
    rw [found] at isFound
    cases isFound

def rangeValue (engine : Engine) (query : ExploreQuery) (school : ExploreSchool) : RangeKey → Option Value
  | .cost => (costBasis query school).map .integer
  | key => (rangeColumn key : Term SchoolColumn Empty).eval engine school.get Empty.elim

/-- A filter is met by its condition, or by a missing value that is opted in. -/
def Meets (engine : Engine) (query : ExploreQuery) (school : ExploreSchool) (clause : Clause) : Prop :=
  clause.verdict engine school = some true ∨
    ∃ key ∈ query.includeMissing, .range key = clause.key ∧ rangeValue engine query school key = none

structure ExactAccounting (engine : Engine) (query : ExploreQuery) (table : List ExploreSchool) : Prop where
  counted : ∀ clause ∈ buildClauses query, reportedCount engine query table clause.key =
    howMany table fun school => (∀ other ∈ filters query, other.key ≠ clause.key →
      Meets engine query school other) ∧ clause.verdict engine school = none
  notInResult : ∀ clause ∈ buildClauses query, clause.nullSql.isSome → ∀ school ∈ table,
    countedFor engine query clause.key school = true → school ∉ matching engine query table
  notByValue : ∀ clause ∈ buildClauses query, clause.nullSql.isSome → ∀ school ∈ table,
    countedFor engine query clause.key school = true → clause.verdict engine school ≠ some false
  optedIn : ∀ school ∈ table, school ∈ matching engine query table ↔
    ∀ clause ∈ filters query, Meets engine query school clause

/-- A range filter whose missing values are opted in, and that the school fails by value. -/
def OutsideOpted (engine : Engine) (query : ExploreQuery) (school : ExploreSchool) : Prop :=
  ∃ clause ∈ filters query, opted query clause.key = true ∧ clause.verdict engine school = some false

structure Accountable (engine : Engine) (query : ExploreQuery) (table : List ExploreSchool) : Prop where
  decided : ∀ clause ∈ buildClauses query, ∀ school ∈ table, MeetsOthers engine query clause school →
    ¬ Overcounts query school clause.key
  balanced : ∀ clause ∈ buildClauses query,
    (howMany table fun school => MeetsOthers engine query clause school ∧
      clause.nullTest engine school = true ∧ OutsideOpted engine query school) =
    howMany table fun school => MeetsOthers engine query clause school ∧
      Misses query school clause.key ∧ ¬ OutsideOpted engine query school
  inRange : ∀ school ∈ table, (∀ clause ∈ buildClauses query, clause.verdict engine school = some true) →
    ¬ OutsideOpted engine query school

theorem mem_zip_of_forall₂ {keys : List FilterKey} {given : List (Option Clause)}
    (sound : List.Forall₂ (fun key place => ∀ clause ∈ place, clause.Sound engine query key) keys given) :
    ∀ clause ∈ given.filterMap id, (clause.key, some clause) ∈ keys.zip given := by
  induction sound with
  | nil => exact fun _ none => absurd none List.not_mem_nil
  | @cons key place keys given here _ ih =>
    intro clause isIn
    rw [List.zip_cons_cons, List.mem_cons]
    cases place with
    | none => exact Or.inr (ih clause isIn)
    | some first =>
      rw [show (some first :: given).filterMap id = first :: given.filterMap id from rfl, List.mem_cons] at isIn
      rcases isIn with rfl | isIn
      · exact Or.inl (by rw [(here clause rfl).isKey])
      · exact Or.inr (ih clause isIn)

theorem range_clause (isIn : clause ∈ filters query) {key : RangeKey} (isRange : clause.key = .range key) :
    key ≠ .cost ∧ clause ∈ rangeClause query key ∨ key = .cost ∧ clause ∈ costClause query := by
  let engine : Engine := default
  have placed := mem_zip_of_forall₂ (@places_sound engine query) clause isIn
  rw [isRange] at placed
  simp only [placeKeys, places, rangeKeys, List.map_cons, List.map_nil, List.cons_append, List.nil_append,
    List.zip_cons_cons, List.zip_nil_right, List.mem_cons, List.not_mem_nil, Prod.mk.injEq, reduceCtorEq,
    false_and, false_or, or_false, FilterKey.range.injEq] at placed
  rcases placed with ⟨rfl, placed⟩ | ⟨rfl, placed⟩ | ⟨rfl, placed⟩ | ⟨rfl, placed⟩ | ⟨rfl, placed⟩ |
    ⟨rfl, placed⟩ | ⟨rfl, placed⟩ | ⟨rfl, placed⟩ | ⟨rfl, placed⟩ | ⟨rfl, placed⟩ | ⟨rfl, placed⟩
  all_goals first
    | exact Or.inl ⟨by decide, placed.symm⟩
    | exact Or.inr ⟨rfl, placed.symm⟩

theorem range_verdict (isIn : clause ∈ filters query) {key : RangeKey} (isRange : clause.key = .range key) :
    clause.verdict engine school = none ↔ rangeValue engine query school key = none := by
  rcases range_clause isIn isRange with ⟨notCost, isClause⟩ | ⟨rfl, isClause⟩
  · obtain ⟨⟨sql, params⟩, isBound, rfl⟩ := Option.map_eq_some_iff.mp isClause
    have noHole : ([] : List Value).length = (rangeColumn key : Term SchoolColumn Unit).holes := by
      cases key <;> rfl
    have unknown := @withinBounds_unknown engine school _ _ _ _ _ _ isBound noHole
    rw [List.nil_append] at unknown
    rw [verdict_mk, unknown]
    cases key <;> first | exact absurd rfl notCost | rfl
  · obtain ⟨⟨sql, params⟩, isBound, rfl⟩ := Option.map_eq_some_iff.mp isClause
    exact (costBounds_unknown isBound).trans Option.map_eq_none_iff.symm

theorem forall_meets_iff {skip : Option FilterKey} (kept : ∀ key, skip = some key → opted query key = false) :
    (∀ clause ∈ filters query, some clause.key ≠ skip → Meets engine query school clause) ↔
      (∀ clause ∈ buildClauses query, some clause.key ≠ skip → clause.verdict engine school = some true) ∧
        ¬ OutsideOpted engine query school := by
  constructor
  · intro every
    constructor
    · intro clause isIn notSkipped
      obtain ⟨isFilter, unopted⟩ := List.mem_filter.mp isIn
      rcases every clause isFilter notSkipped with holds | ⟨key, isOpted, isKey, -⟩
      · exact holds
      · have isOpted : opted query clause.key = true :=
          List.any_eq_true.mpr ⟨key, isOpted, decide_eq_true isKey⟩
        simp [isOpted] at unopted
    · rintro ⟨clause, isFilter, isOpted, fails⟩
      have notSkipped : some clause.key ≠ skip := by
        intro skipped
        rw [kept clause.key skipped.symm] at isOpted
        cases isOpted
      rcases every clause isFilter notSkipped with holds | ⟨key, -, isKey, missing⟩
      · rw [holds] at fails
        cases fails
      · rw [(range_verdict isFilter isKey.symm).mpr missing] at fails
        cases fails
  · rintro ⟨every, inside⟩ clause isFilter notSkipped
    cases isOpted : opted query clause.key with
    | false => exact Or.inl (every clause (List.mem_filter.mpr ⟨isFilter, by simp [isOpted]⟩) notSkipped)
    | true =>
      obtain ⟨key, isIn, isKey⟩ := List.any_eq_true.mp isOpted
      rw [decide_eq_true_iff] at isKey
      rcases verdict : clause.verdict engine school with _ | _ | _
      · exact Or.inr ⟨key, isIn, isKey, (range_verdict isFilter isKey.symm).mp verdict⟩
      · exact absurd ⟨clause, isFilter, isOpted, verdict⟩ inside
      · exact Or.inl verdict

theorem clause_count_iff {table : List ExploreSchool} (isIn : clause ∈ buildClauses query)
    (decided : ∀ school ∈ table, MeetsOthers engine query clause school → ¬ Overcounts query school clause.key) :
    reportedCount engine query table clause.key = (howMany table fun school =>
        (∀ other ∈ filters query, other.key ≠ clause.key → Meets engine query school other) ∧
          clause.verdict engine school = none) ↔
      (howMany table fun school => MeetsOthers engine query clause school ∧
        clause.nullTest engine school = true ∧ OutsideOpted engine query school) =
      howMany table fun school => MeetsOthers engine query clause school ∧
        Misses query school clause.key ∧ ¬ OutsideOpted engine query school := by
  have sound := @buildClauses_sound engine query clause isIn
  have unopted : opted query clause.key = false := by simpa using (List.mem_filter.mp isIn).2
  have others : ∀ school, (∀ other ∈ filters query, other.key ≠ clause.key → Meets engine query school other) ↔
      MeetsOthers engine query clause school ∧ ¬ OutsideOpted engine query school := by
    intro school
    have all := @forall_meets_iff engine query school (some clause.key) fun key isKey => by
      rw [← Option.some.inj isKey, unopted]
    simp only [ne_eq, Option.some.injEq] at all
    exact all
  have isCounted : ∀ school ∈ table, MeetsOthers engine query clause school →
      (clause.nullTest engine school = true ↔
        clause.verdict engine school = none ∧ ¬ Misses query school clause.key) := by
    intro school isSchool met
    rw [sound.counts]
    simp [decided school isSchool met]
  have inside : (howMany table fun school => (MeetsOthers engine query clause school ∧
      clause.nullTest engine school = true) ∧ ¬ OutsideOpted engine query school) =
      howMany table fun school => ((∀ other ∈ filters query, other.key ≠ clause.key →
        Meets engine query school other) ∧ clause.verdict engine school = none) ∧
          ¬ Misses query school clause.key := by
    refine howMany_congr fun school isSchool => ?_
    rw [others]
    constructor
    · rintro ⟨⟨met, counted⟩, inRange⟩
      obtain ⟨undecided, unmissed⟩ := (isCounted school isSchool met).mp counted
      exact ⟨⟨⟨met, inRange⟩, undecided⟩, unmissed⟩
    · rintro ⟨⟨⟨met, inRange⟩, undecided⟩, unmissed⟩
      exact ⟨⟨met, (isCounted school isSchool met).mpr ⟨undecided, unmissed⟩⟩, inRange⟩
  have missed : (howMany table fun school => ((∀ other ∈ filters query, other.key ≠ clause.key →
        Meets engine query school other) ∧ clause.verdict engine school = none) ∧
          Misses query school clause.key) =
      howMany table fun school => MeetsOthers engine query clause school ∧
        Misses query school clause.key ∧ ¬ OutsideOpted engine query school := by
    refine howMany_congr fun school _ => ?_
    rw [others]
    constructor
    · rintro ⟨⟨⟨met, inRange⟩, -⟩, isMissed⟩
      exact ⟨met, isMissed, inRange⟩
    · rintro ⟨met, isMissed, inRange⟩
      exact ⟨⟨⟨met, inRange⟩, sound.missed school isMissed⟩, isMissed⟩
  rw [reportedCount_eq isIn, howMany_split _ (OutsideOpted engine query), inside,
    howMany_split (fun school => (∀ other ∈ filters query, other.key ≠ clause.key →
      Meets engine query school other) ∧ clause.verdict engine school = none)
      (fun school => Misses query school clause.key), missed]
  simp only [and_assoc]
  omega

theorem eligible_of_nullTest (counted : clause.nullTest engine school = true) : clause.nullSql.isSome := by
  by_contra absent
  simp [Clause.nullTest, Option.not_isSome_iff_eq_none.mp absent] at counted

/-- The accounting of a query is exact on the tables on which each filter decides the schools
that its null test counts, misses as many as it counts outside of the opted ranges, and on
which no school of the result is outside of these. -/
theorem accounting_exact_iff {table : List ExploreSchool} :
    ExactAccounting engine query table ↔ Accountable engine query table := by
  constructor
  · intro exact
    have decided : ∀ clause ∈ buildClauses query, ∀ school ∈ table, MeetsOthers engine query clause school →
        ¬ Overcounts query school clause.key := by
      intro clause isIn school isSchool met isOver
      have sound := @buildClauses_sound engine query clause isIn
      have counted := (sound.counts school).mpr (Or.inr isOver)
      have eligible := eligible_of_nullTest counted
      have isCounted := (countedFor_iff isIn eligible).mpr ⟨met, counted⟩
      rcases verdict : clause.verdict engine school with _ | _ | _
      · exact sound.overcounted school isOver verdict
      · exact exact.notByValue clause isIn eligible school isSchool isCounted verdict
      · refine exact.notInResult clause isIn eligible school isSchool isCounted (mem_matching.mpr ⟨isSchool, ?_⟩)
        intro other isOther
        by_cases same : other.key = clause.key
        · rw [clause_eq isIn isOther same, verdict]
        · exact met other isOther same
    refine ⟨decided, fun clause isIn => (clause_count_iff isIn (decided clause isIn)).mp (exact.counted clause isIn),
      fun school isSchool every => ?_⟩
    have met := (exact.optedIn school isSchool).mp (mem_matching.mpr ⟨isSchool, every⟩)
    exact ((@forall_meets_iff engine query school none (by simp)).mp fun clause isIn _ => met clause isIn).2
  · intro accountable
    have undecided : ∀ clause ∈ buildClauses query, clause.nullSql.isSome → ∀ school ∈ table,
        countedFor engine query clause.key school = true → clause.verdict engine school = none := by
      intro clause isIn eligible school isSchool counted
      obtain ⟨met, isCounted⟩ := (countedFor_iff isIn eligible).mp counted
      rcases ((@buildClauses_sound engine query clause isIn).counts school).mp isCounted with ⟨isNone, -⟩ | isOver
      · exact isNone
      · exact absurd isOver (accountable.decided clause isIn school isSchool met)
    refine ⟨fun clause isIn => (clause_count_iff isIn (accountable.decided clause isIn)).mpr
      (accountable.balanced clause isIn), ?_, ?_, ?_⟩
    · intro clause isIn eligible school isSchool counted isMatch
      have holds := (mem_matching.mp isMatch).2 clause isIn
      rw [undecided clause isIn eligible school isSchool counted] at holds
      cases holds
    · intro clause isIn eligible school isSchool counted
      rw [undecided clause isIn eligible school isSchool counted]
      exact nofun
    · intro school isSchool
      have all := @forall_meets_iff engine query school none (by simp)
      simp only [ne_eq, reduceCtorEq, not_false_eq_true, true_imp_iff] at all
      rw [all, mem_matching]
      exact ⟨fun ⟨_, every⟩ => ⟨every, accountable.inRange school isSchool every⟩, fun ⟨every, _⟩ => ⟨isSchool, every⟩⟩

def sampleEngine : Engine where
  toInteger
    | .finite q => q.num.tdiv q.den
    | _ => 0
  quotient m n := .finite (m / n)
  like text pattern := text = pattern
  ilike text pattern := text = pattern

def noFilters : ExploreQuery where
  q := none
  state := []
  region := []
  sizeBucket := []
  control := none
  testPolicy := none
  campusSetting := []
  religiousAffiliation := none
  gender := none
  hbcu := false
  hsi := false
  tribal := false
  landGrant := false
  entranceDifficulty := none
  calendar := none
  major := none
  noApplicationFee := false
  offersEarlyDecision := false
  offersEarlyAction := false
  rollingAdmission := false
  includeRolling := false
  deadlineBefore := none
  homeState := none
  scoreFit := .any
  satMath := none
  satEbrw := none
  act := none
  min _ := none
  max _ := none
  includeMissing := []

/-- A school of which only the required columns are known. -/
def unreported : ExploreSchool :=
  ⟨1, "Test University", none, "West", none, .publicSchool, none, none, false, none, false, false, none, none, none,
    none, none, none, none, none, none, none, none, none, none, none, none, none, none, none, none, none, none,
    none, none, none, none, none, none, none, none⟩

def satQuery : ExploreQuery := { noFilters with satMath := some 700, scoreFit := .atOrAboveP25 }

def halfRange : ExploreSchool := { unreported with satMathP25 := some 600 }

def admitQuery : ExploreQuery :=
  { noFilters with max := fun key => if key = .admits then some (.finite 20) else none, includeMissing := [.admits] }

def admitsMost : ExploreSchool := { unreported with admitRate := some (.finite 80) }

def costQuery : ExploreQuery :=
  { noFilters with max := fun key => if key = .cost then some (.finite 50000) else none }

def halfCost : ExploreSchool := { unreported with costAttendanceInState := some 30000 }

/-- A school without the upper end of its range is in the result of a search by the lower
end and among the exclusions of it; one outside a range is in the result when missing values
are opted in; one whose out-of-state cost is unknown is nowhere counted. -/
theorem exclusions_not_exact : ¬ ExactAccounting sampleEngine satQuery [halfRange] ∧
    ¬ ExactAccounting sampleEngine admitQuery [admitsMost] ∧
      ¬ ExactAccounting sampleEngine costQuery [halfCost] := by
  refine ⟨fun exact => ?_, fun exact => ?_, fun exact => ?_⟩
  · obtain ⟨clause, isIn, isClause⟩ := List.any_eq_true.mp
      (show (buildClauses satQuery).any (fun clause => clause.nullSql.isSome && clause.key = .satMath) = true by
        decide +kernel)
    simp only [Bool.and_eq_true, decide_eq_true_eq] at isClause
    have counted : countedFor sampleEngine satQuery clause.key halfRange = true := by
      rw [isClause.2]
      decide +kernel
    have shown : halfRange ∈ matching sampleEngine satQuery [halfRange] := by decide +kernel
    exact exact.notInResult clause isIn isClause.1 halfRange (List.mem_singleton_self _) counted shown
  · have shown : admitsMost ∈ matching sampleEngine admitQuery [admitsMost] := by decide +kernel
    obtain ⟨clause, isIn, isClause⟩ := List.any_eq_true.mp
      (show (filters admitQuery).any (fun clause => clause.key = .range .admits &&
        clause.verdict sampleEngine admitsMost = some false) = true by decide +kernel)
    simp only [Bool.and_eq_true, decide_eq_true_eq] at isClause
    rcases (exact.optedIn admitsMost (List.mem_singleton_self _)).mp shown clause isIn with holds | ⟨key, _, isKey, missing⟩
    · rw [isClause.2] at holds
      cases holds
    · rw [isClause.1, FilterKey.range.injEq] at isKey
      subst isKey
      revert missing
      decide +kernel
  · obtain ⟨clause, isIn, isClause⟩ := List.any_eq_true.mp
      (show (buildClauses costQuery).any (fun clause => clause.key = .range .cost &&
        clause.verdict sampleEngine halfCost = none) = true by decide +kernel)
    simp only [Bool.and_eq_true, decide_eq_true_eq] at isClause
    have only : (filters costQuery).all (fun other => other.key = .range .cost) = true := by decide +kernel
    have reported : reportedCount sampleEngine costQuery [halfCost] clause.key = 0 := by
      rw [isClause.1]
      decide +kernel
    have uncounted := exact.counted clause isIn
    rw [reported, eq_comm, howMany_eq_zero] at uncounted
    refine uncounted halfCost (List.mem_singleton_self _) ⟨fun other isOther apart => ?_, isClause.2⟩
    have isCost := List.all_eq_true.mp only other isOther
    rw [decide_eq_true_iff] at isCost
    exact absurd (isCost.trans isClause.1.symm) apart

end Counselle.Facts

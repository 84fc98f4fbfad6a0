import Counselle.Facts.ExploreQuery
import Mathlib.Data.List.Forall2

/-! What each filter says of one school: the conjunction of the clauses is their conjunction
on their own arguments, and the null test of each clause counts the schools that the clause
cannot decide, but for those named here. -/
namespace Counselle.Facts
open Calendar (Date)
open PyJson (PyFloat)
open Sql (Engine Value Truth Term Condition Template Plain)

section Verdicts
variable (engine : Engine) (clause : Clause) (school : ExploreSchool)

def Clause.verdict : Truth := Template.eval engine school.get clause.sql clause.params

def Clause.nullTest : Bool :=
  match clause.nullSql with
  | some nullSql => (nullSql.number 1).eval engine school.get (Sql.argument []) = some true
  | none => false

def Clause.Fits : Prop := clause.params.length = clause.sql.holes

end Verdicts

variable {engine : Engine} {query : ExploreQuery} {school : ExploreSchool} {clause : Clause}

theorem verdict_mk (key : FilterKey) (label : String) (reason : ExclusionReason)
    (sql : Template SchoolColumn) (params : List Value) (nullSql : Option (Plain SchoolColumn)) :
    (Clause.mk key label reason sql params nullSql).verdict engine school =
      Template.eval engine school.get sql params := rfl

theorem combine_body (skip : Option FilterKey) {clauses : List Clause} (fit : ∀ clause ∈ clauses, clause.Fits)
    (before : Where) :
    ∃ parts params, clauses.foldl (combineStep skip) (before, before.params.length + 1) =
        (⟨before.parts ++ parts, before.params ++ params⟩, (before.params ++ params).length + 1) ∧
      ∀ after, (∀ part ∈ parts, part.eval engine school.get
          (Sql.argument (before.params ++ params ++ after)) = some true) ↔
        ∀ clause ∈ clauses, some clause.key ≠ skip → clause.verdict engine school = some true := by
  induction clauses generalizing before with
  | nil => exact ⟨[], [], by simp, by simp⟩
  | cons first rest ih =>
    rw [List.forall_mem_cons] at fit
    by_cases skipped : some first.key = skip
    · obtain ⟨parts, params, folded, each⟩ := ih fit.2 before
      refine ⟨parts, params, ?_, fun after => ?_⟩
      · rw [List.foldl_cons, combineStep, if_pos skipped, folded]
      · rw [each, List.forall_mem_cons]
        exact ⟨fun every => ⟨fun apart => absurd skipped apart, every⟩, fun every => every.2⟩
    · obtain ⟨parts, params, folded, each⟩ := ih fit.2
        ⟨before.parts ++ [first.sql.number (before.params.length + 1)], before.params ++ first.params⟩
      refine ⟨first.sql.number (before.params.length + 1) :: parts, first.params ++ params, ?_,
        fun after => ?_⟩
      · have next : before.params.length + 1 + first.sql.holes =
            (before.params ++ first.params).length + 1 := by
          rw [List.length_append, fit.1]
          omega
        simp only [List.foldl_cons, combineStep, if_neg skipped, next, folded, List.append_assoc,
          List.singleton_append]
      · have rest := each after
        have here := Sql.Template.eval_number engine school.get fit.1 before.params (params ++ after)
        simp only [List.append_assoc] at rest here ⊢
        rw [List.forall_mem_cons, List.forall_mem_cons, rest, here]
        simp only [Clause.verdict, ne_eq, skipped, not_false_eq_true, true_imp_iff]

theorem keeps_iff {clauses : List Clause} (fit : ∀ clause ∈ clauses, clause.Fits) (skip : Option FilterKey) :
    (combine clauses skip none).keeps engine school = true ↔
      ∀ clause ∈ clauses, some clause.key ≠ skip → clause.verdict engine school = some true := by
  obtain ⟨parts, params, folded, each⟩ := @combine_body engine school skip _ fit ⟨[], []⟩
  simp only [List.length_nil, Nat.zero_add, List.nil_append] at folded each
  rw [← each [], Where.keeps, decide_eq_true_iff, Sql.conjunction_eq_true, combine, folded]
  simp

theorem counts_iff {clauses : List Clause} (fit : ∀ clause ∈ clauses, clause.Fits)
    (found : clauses.find? (fun other => other.key = clause.key) = some clause)
    (eligible : clause.nullSql.isSome) :
    (combine clauses (some clause.key) (some clause.key)).keeps engine school = true ↔
      (∀ other ∈ clauses, other.key ≠ clause.key → other.verdict engine school = some true) ∧
        clause.nullTest engine school = true := by
  obtain ⟨nullSql, isTest⟩ := Option.isSome_iff_exists.mp eligible
  obtain ⟨parts, params, folded, each⟩ := @combine_body engine school (some clause.key) _ fit ⟨[], []⟩
  simp only [List.length_nil, Nat.zero_add, List.nil_append] at folded each
  have plain : (nullSql.number 1).eval engine school.get (Sql.argument params) =
      (nullSql.number 1).eval engine school.get (Sql.argument []) :=
    Sql.Plain.eval_number engine school.get _ _ nullSql 1
  have others := each []
  simp only [List.append_nil, ne_eq, Option.some.injEq] at others
  rw [← others, Where.keeps, decide_eq_true_iff, Sql.conjunction_eq_true, combine, folded]
  simp only [Option.bind_some, found, isTest, List.forall_mem_append, List.forall_mem_singleton, plain,
    Clause.nullTest, decide_eq_true_eq]

def costBasis (query : ExploreQuery) (school : ExploreSchool) : Option Int :=
  match truthy query.homeState with
  | some home =>
    if school.state = some home then school.costAttendanceInState else school.costAttendanceOutOfState
  | none => school.costAttendanceOutOfState

/-- Schools that the filter cannot decide and whose count leaves them out. -/
def Misses (query : ExploreQuery) (school : ExploreSchool) : FilterKey → Prop
  | .state => school.state = none
  | .religiousAffiliation => school.religiousAffiliation = none ∧
    ∃ value, query.religiousAffiliation = some value ∧ value ≠ "any_affiliated" ∧ value ≠ "none_on_file"
  | .deadlineBefore => query.includeRolling = true ∧ school.isRolling = none ∧
    ∃ before deadline, query.deadlineBefore = some before ∧ school.deadlineRegular = some deadline ∧
      Sql.dateLe deadline before = false
  | .range .cost => costBasis query school = none ∧
    (school.costAttendanceInState.isSome ∨ school.costAttendanceOutOfState.isSome)
  | _ => False

/-- Ends of a score range of which the missing one does not decide. -/
def FitOvercounts (mode : ScoreFit) (score p25 p75 : Option Int) : Prop :=
  match mode with
  | .any => False
  | .atOrAboveP25 => p25.isSome ∧ p75 = none
  | .atOrAboveP75 => p25 = none ∧ p75.isSome
  | .insideBand => ∃ s, score = some s ∧
    (p25 = none ∧ (∃ high, p75 = some high ∧ high < s) ∨ p75 = none ∧ ∃ low, p25 = some low ∧ s < low)

/-- Schools that the filter decides and whose count takes them in. -/
def Overcounts (query : ExploreQuery) (school : ExploreSchool) : FilterKey → Prop
  | .satMath => FitOvercounts query.scoreFit query.satMath school.satMathP25 school.satMathP75
  | .satEbrw => FitOvercounts query.scoreFit query.satEbrw school.satEbrwP25 school.satEbrwP75
  | .act => FitOvercounts query.scoreFit query.act school.actCompositeP25 school.actCompositeP75
  | _ => False

/-- The null test counts the undecided schools but for those missed, and some decided ones. -/
structure Clause.Sound (engine : Engine) (query : ExploreQuery) (key : FilterKey) (clause : Clause) : Prop where
  isKey : clause.key = key
  fits : clause.Fits
  counts : ∀ school, clause.nullTest engine school = true ↔
    clause.verdict engine school = none ∧ ¬ Misses query school key ∨ Overcounts query school key
  missed : ∀ school, Misses query school key → clause.verdict engine school = none
  overcounted : ∀ school, Overcounts query school key → clause.verdict engine school ≠ none

def Exact (query : ExploreQuery) (key : FilterKey) : Prop :=
  ∀ school, ¬ Misses query school key ∧ ¬ Overcounts query school key

theorem sound_of_exact {key : FilterKey} (exact : Exact query key) (isKey : clause.key = key)
    (fits : clause.Fits) (counts : ∀ school, clause.nullTest engine school = true ↔
      clause.verdict engine school = none) : clause.Sound engine query key where
  isKey := isKey
  fits := fits
  counts school := by
    rw [counts]
    simp [exact school]
  missed school isMissed := absurd isMissed (exact school).1
  overcounted school isOver := absurd isOver (exact school).2

/-! Conditions on one column are unknown exactly when it is null. -/

section Columns
variable {key : FilterKey} {reason : ExclusionReason} {column : SchoolColumn} {label : String}

theorem nullTest_isNull {sql : Template SchoolColumn} {params : List Value} :
    (Clause.mk key label reason sql params (some (.isNull (.column column)))).nullTest engine school = true ↔
      school.get column = none := by
  simp only [Clause.nullTest, Condition.number, Condition.eval, Term.number, Term.eval,
    Option.some.injEq, decide_eq_true_eq]
  exact decide_eq_true_iff

theorem verdict_eq {value : Value} {nullSql : Option (Plain SchoolColumn)} :
    (Clause.mk key label reason (.eq (.column column) hole) [value] nullSql).verdict engine school =
      (school.get column).map fun stored => decide (stored = value) := by
  rw [verdict_mk, Sql.Template.eval, Condition.number, Condition.eval]
  cases stored : school.get column <;>
    simp [Term.number, Term.eval, Term.holes, hole, Sql.argument, stored]

theorem textClause_sound {text : Option String} (exact : Exact query key) :
    ∀ clause ∈ textClause key reason column text, clause.Sound engine query key := by
  rintro _ isClause
  obtain ⟨given, -, rfl⟩ := Option.map_eq_some_iff.mp isClause
  refine sound_of_exact exact rfl rfl fun school => ?_
  rw [nullTest_isNull, verdict_eq, Option.map_eq_none_iff]

theorem verdict_isTrue {nullSql : Option (Plain SchoolColumn)} :
    (Clause.mk key label reason (.isTrue (.column column)) [] nullSql).verdict engine school =
      (school.get column).map fun stored => decide (stored = .boolean true) := by
  rw [verdict_mk, Sql.Template.eval, Condition.number, Condition.eval]
  cases stored : school.get column <;> simp [Term.number, Term.eval, stored]

theorem boolClause_sound {active : Bool} (exact : Exact query key) :
    ∀ clause ∈ boolClause key column active, clause.Sound engine query key := by
  rintro _ isClause
  obtain ⟨-, isClause⟩ := Option.ite_none_right_eq_some.mp isClause
  obtain rfl := Option.some.inj isClause
  refine sound_of_exact exact rfl rfl fun school => ?_
  rw [nullTest_isNull, verdict_isTrue, Option.map_eq_none_iff]

theorem nullTest_none {sql : Template SchoolColumn} {params : List Value} :
    (Clause.mk key label reason sql params none).nullTest engine school = false := rfl

theorem flagClause_sound {active : Bool} (exact : Exact query key)
    (full : ∀ school : ExploreSchool, school.get column ≠ none) :
    ∀ clause ∈ flagClause key column active, clause.Sound engine query key := by
  rintro _ isClause
  obtain ⟨-, isClause⟩ := Option.ite_none_right_eq_some.mp isClause
  obtain rfl := Option.some.inj isClause
  refine sound_of_exact exact rfl rfl fun school => ?_
  rw [nullTest_none, verdict_isTrue, Option.map_eq_none_iff]
  simp [full school]

theorem compare_eq_none {x y : Option Value} : engine.compare x y = none ↔ x = none ∨ y = none := by
  cases x <;> cases y <;> simp [Engine.compare]

theorem eval_before {term : Term SchoolColumn Unit} {before : List Value} (extra : before.length = term.holes)
    (after : List Value) :
    (term.number 1).eval engine school.get (Sql.argument (before ++ after)) =
      (term.number 1).eval engine school.get (Sql.argument before) := by
  apply Term.eval_number
  intro i inside
  rw [Sql.argument, Sql.argument, List.getElem?_append_left (by omega)]

theorem argument_after {before after : List Value} {k : Nat} (isNext : k = 1 + before.length) (i : Nat) :
    Sql.argument (before ++ after) (k + i) = after[i]? := by
  rw [Sql.argument, List.getElem?_append_right (by omega)]
  congr 1
  omega

section Bounds
variable {term : Term SchoolColumn Unit} {low high : Option PyFloat} {sql : Template SchoolColumn}
  {params before : List Value}

theorem withinBounds_fits (isBound : withinBounds term low high = some (sql, params))
    (extra : before.length = term.holes) : (before ++ params).length = sql.holes := by
  unfold withinBounds at isBound
  split at isBound
  case h_1 => cases isBound
  all_goals
    obtain ⟨rfl, rfl⟩ := Prod.mk.inj (Option.some.inj isBound)
    simp [Condition.holes, Term.holes, hole, extra]

theorem withinBounds_unknown (isBound : withinBounds term low high = some (sql, params))
    (extra : before.length = term.holes) :
    Template.eval engine school.get sql (before ++ params) = none ↔
      (term.number 1).eval engine school.get (Sql.argument before) = none := by
  have subject := @eval_before engine school _ _ extra params
  have first := @argument_after before params (1 + term.holes) (by omega) 0
  have second := @argument_after before params (1 + term.holes) (by omega) 1
  rw [Nat.add_zero] at first
  unfold withinBounds at isBound
  split at isBound
  case h_1 => cases isBound
  case h_2 low high =>
    obtain ⟨rfl, rfl⟩ := Prod.mk.inj (Option.some.inj isBound)
    rw [Sql.Template.eval, Condition.number, Condition.eval, subject]
    simp only [hole, Term.number, Term.eval, Term.holes, first, second, List.getElem?_cons_zero,
      List.getElem?_cons_succ]
    rw [Truth.and_eq_none, compare_eq_none, compare_eq_none]
    cases (term.number 1).eval engine school.get (Sql.argument before) <;> simp [Engine.compare]
  case h_3 low =>
    obtain ⟨rfl, rfl⟩ := Prod.mk.inj (Option.some.inj isBound)
    rw [Sql.Template.eval, Condition.number, Condition.eval, subject]
    simp [hole, Term.number, Term.eval, first, compare_eq_none]
  case h_4 high =>
    obtain ⟨rfl, rfl⟩ := Prod.mk.inj (Option.some.inj isBound)
    rw [Sql.Template.eval, Condition.number, Condition.eval, subject]
    simp [hole, Term.number, Term.eval, first, compare_eq_none]

end Bounds

theorem hsiClause_sound : ∀ clause ∈ hsiClause query, clause.Sound engine query .hsi := by
  rintro _ isClause
  obtain ⟨-, isClause⟩ := Option.ite_none_right_eq_some.mp isClause
  obtain rfl := Option.some.inj isClause
  refine sound_of_exact (fun school => ⟨id, id⟩) rfl rfl fun school => ?_
  rw [nullTest_isNull, verdict_isTrue, Option.map_eq_none_iff]

theorem qClause_sound : ∀ clause ∈ qClause query, clause.Sound engine query .q := by
  rintro _ isClause
  obtain ⟨text, -, rfl⟩ := Option.map_eq_some_iff.mp isClause
  refine sound_of_exact (fun school => ⟨id, id⟩) rfl rfl fun school => ?_
  rw [nullTest_none, verdict_mk]
  simp [Sql.Template.eval, Condition.number, Condition.eval, Term.number, Term.eval, Term.holes,
    hole, Sql.argument, ExploreSchool.get, Condition.onTexts]

theorem controlClause_sound : ∀ clause ∈ controlClause query, clause.Sound engine query .control := by
  rintro _ isClause
  obtain ⟨control, -, rfl⟩ := Option.map_eq_some_iff.mp isClause
  refine sound_of_exact (fun school => ⟨id, id⟩) rfl rfl fun school => ?_
  rw [nullTest_none, verdict_eq]
  simp [ExploreSchool.get]

theorem noApplicationFeeClause_sound :
    ∀ clause ∈ noApplicationFeeClause query, clause.Sound engine query .noApplicationFee := by
  rintro _ isClause
  obtain ⟨-, isClause⟩ := Option.ite_none_right_eq_some.mp isClause
  obtain rfl := Option.some.inj isClause
  refine sound_of_exact (fun school => ⟨id, id⟩) rfl rfl fun school => ?_
  rw [nullTest_isNull, verdict_mk, Sql.Template.eval, Condition.number, Condition.eval]
  cases stored : school.get .applicationFee <;> simp [Term.number, Term.eval, stored]

theorem majorClause_sound : ∀ clause ∈ majorClause query, clause.Sound engine query .major := by
  rintro _ isClause
  obtain ⟨major, -, rfl⟩ := Option.map_eq_some_iff.mp isClause
  refine sound_of_exact (fun school => ⟨id, id⟩) rfl rfl fun school => ?_
  rw [nullTest_isNull, verdict_mk, Sql.Template.eval, Condition.number, Condition.eval]
  cases stored : school.majors <;>
    simp [Term.number, Term.eval, Term.holes, hole, Sql.argument, ExploreSchool.get, stored]

theorem verdict_any {texts : List String} {nullSql : Option (Plain SchoolColumn)}
    (onTexts : ∀ value, school.get column = some value → ∃ s, value = .text s) :
    (Clause.mk key label reason (.any (.column column) hole) [.texts texts] nullSql).verdict engine school =
        none ↔ school.get column = none := by
  rw [verdict_mk, Sql.Template.eval, Condition.number, Condition.eval]
  cases stored : school.get column with
  | none => simp [Term.number, Term.eval, Term.holes, hole, Sql.argument, stored]
  | some value =>
    obtain ⟨s, rfl⟩ := onTexts value stored
    simp [Term.number, Term.eval, Term.holes, hole, Sql.argument, stored]

theorem regionClause_sound :
    ∀ clause ∈ anyClause .region .region query.region, clause.Sound engine query .region := by
  rintro _ isClause
  obtain ⟨-, isClause⟩ := Option.ite_none_left_eq_some.mp isClause
  obtain rfl := Option.some.inj isClause
  refine sound_of_exact (fun school => ⟨id, id⟩) rfl rfl fun school => ?_
  rw [nullTest_none, verdict_any (by simp [ExploreSchool.get])]
  simp [ExploreSchool.get]

theorem stateClause_sound :
    ∀ clause ∈ anyClause .state .state query.state, clause.Sound engine query .state := by
  rintro _ isClause
  obtain ⟨-, isClause⟩ := Option.ite_none_left_eq_some.mp isClause
  obtain rfl := Option.some.inj isClause
  have unknown : ∀ school : ExploreSchool, (Clause.mk .state (metricLabel .state) .missing
      (.any (.column .state) hole) [.texts query.state] none).verdict engine school = none ↔
        school.state = none := by
    intro school
    rw [verdict_any (by simp [ExploreSchool.get])]
    simp [ExploreSchool.get]
  refine ⟨rfl, rfl, fun school => ?_, fun school => (unknown school).mpr, fun school => False.elim⟩
  rw [nullTest_none, unknown]
  simp [Misses, Overcounts]

theorem religiousAffiliationClause_sound : ∀ clause ∈ religiousAffiliationClause query.religiousAffiliation,
    clause.Sound engine query .religiousAffiliation := by
  rintro _ isClause
  obtain ⟨value, isValue, rfl⟩ := Option.map_eq_some_iff.mp isClause
  by_cases affiliated : value = "any_affiliated"
  · subst affiliated
    have exact : Exact query .religiousAffiliation := by
      intro school
      simp [Misses, Overcounts, isValue]
    refine sound_of_exact exact rfl rfl fun school => ?_
    simp [Clause.nullTest, Clause.verdict, Sql.Template.eval, Condition.number, Condition.eval]
  · by_cases unfiled : value = "none_on_file"
    · subst unfiled
      have exact : Exact query .religiousAffiliation := by
        intro school
        simp [Misses, Overcounts, isValue]
      refine sound_of_exact exact rfl rfl fun school => ?_
      simp [Clause.nullTest, Clause.verdict, Sql.Template.eval, Condition.number, Condition.eval]
    · simp only [if_neg affiliated, if_neg unfiled]
      have unknown : ∀ school : ExploreSchool, (Clause.mk .religiousAffiliation "" .missing
          (.eq (.column .religiousAffiliation) hole) [.text value] none).verdict engine school = none ↔
            school.religiousAffiliation = none := by
        intro school
        rw [verdict_eq]
        simp [ExploreSchool.get]
      refine ⟨rfl, rfl, fun school => ?_, fun school missed => (unknown school).mpr missed.1,
        fun school => False.elim⟩
      rw [nullTest_none, unknown]
      simp [Misses, Overcounts, isValue, affiliated, unfiled]

theorem rangeClause_sound {key : RangeKey} (notCost : key ≠ .cost) :
    ∀ clause ∈ rangeClause query key, clause.Sound engine query (.range key) := by
  rintro _ isClause
  obtain ⟨⟨sql, params⟩, isBound, rfl⟩ := Option.map_eq_some_iff.mp isClause
  have exact : Exact query (.range key) := by
    intro school
    cases key <;> first | exact absurd rfl notCost | exact ⟨id, id⟩
  have noHole : ([] : List Value).length = (rangeColumn key : Term SchoolColumn Unit).holes := by
    cases key <;> rfl
  refine sound_of_exact exact rfl (withinBounds_fits isBound noHole) fun school => ?_
  have sameColumn : ((rangeColumn key : Term SchoolColumn Empty).number 1).eval engine school.get
      (Sql.argument []) = ((rangeColumn key : Term SchoolColumn Unit).number 1).eval engine school.get
        (Sql.argument []) := by
    cases key <;> rfl
  have unknown := @withinBounds_unknown engine school _ _ _ _ _ _ isBound noHole
  rw [List.nil_append] at unknown
  rw [verdict_mk, unknown, ← sameColumn]
  simp only [Clause.nullTest, Condition.number, Condition.eval, Option.some.injEq, decide_eq_true_eq]

theorem eval_basis (home : String) :
    ((Term.choose (.column .state) hole (.column .costAttendanceInState)
        (.column .costAttendanceOutOfState)).number 1).eval engine school.get (Sql.argument [.text home]) =
      (if school.state = some home then school.costAttendanceInState
        else school.costAttendanceOutOfState).map Value.integer := by
  simp only [Term.number, Term.eval, Term.holes, hole, Sql.argument, ExploreSchool.get]
  cases school.state with
  | none => simp
  | some state =>
    by_cases same : state = home <;> simp [same]

/-- The amounts that the cost filter compares, with the argument of the home state. -/
def costColumn (query : ExploreQuery) : Term SchoolColumn Unit :=
  if (truthy query.homeState).isSome then
    .choose (.column .state) hole (.column .costAttendanceInState) (.column .costAttendanceOutOfState)
  else .column .costAttendanceOutOfState

section CostBounds
variable {low high : Option PyFloat} {sql : Template SchoolColumn} {params : List Value}

theorem costBounds_fits (isBound : withinBounds (costColumn query) low high = some (sql, params)) :
    (((truthy query.homeState).map Value.text).toList ++ params).length = sql.holes := by
  rw [costColumn] at isBound
  cases home : truthy query.homeState with
  | none =>
    rw [home] at isBound
    exact withinBounds_fits isBound rfl
  | some state =>
    rw [home] at isBound
    exact withinBounds_fits isBound rfl

theorem costBounds_unknown (isBound : withinBounds (costColumn query) low high = some (sql, params)) :
    Template.eval engine school.get sql (((truthy query.homeState).map .text).toList ++ params) = none ↔
      costBasis query school = none := by
  rw [costColumn] at isBound
  cases home : truthy query.homeState with
  | none =>
    rw [home] at isBound
    refine (withinBounds_unknown isBound rfl).trans ?_
    simp [Term.number, Term.eval, ExploreSchool.get, costBasis, home]
  | some state =>
    rw [home] at isBound
    refine (withinBounds_unknown isBound rfl).trans ?_
    rw [costBasis, home]
    exact (congrArg (· = none) (eval_basis state)).to_iff.trans Option.map_eq_none_iff

end CostBounds

theorem costClause_sound : ∀ clause ∈ costClause query, clause.Sound engine query (.range .cost) := by
  rintro _ isClause
  obtain ⟨⟨sql, params⟩, isBound, rfl⟩ := Option.map_eq_some_iff.mp isClause
  have isBound : withinBounds (costColumn query) (query.min .cost) (query.max .cost) = some (sql, params) := isBound
  have unknown := fun school => @costBounds_unknown engine query school _ _ _ _ isBound
  have counts : ∀ school : ExploreSchool, (Clause.mk (.range .cost) (metricLabel (.range .cost)) .missing sql
      (((truthy query.homeState).map .text).toList ++ params) (some (.and
        (.isNull (.column .costAttendanceInState)) (.isNull (.column .costAttendanceOutOfState))))).nullTest
          engine school = true ↔ school.costAttendanceInState = none ∧ school.costAttendanceOutOfState = none := by
    intro school
    simp [Clause.nullTest, Condition.number, Condition.eval, Term.number, Term.eval, ExploreSchool.get]
  refine ⟨rfl, costBounds_fits isBound, fun school => ?_, fun school missed => ?_, fun school => False.elim⟩
  · rw [counts, verdict_mk, unknown]
    simp only [Misses, Overcounts, or_false]
    have oneBasis : costBasis query school = school.costAttendanceInState ∨
        costBasis query school = school.costAttendanceOutOfState := by
      unfold costBasis
      split
      · split
        · exact Or.inl rfl
        · exact Or.inr rfl
      · exact Or.inr rfl
    cases inState : school.costAttendanceInState <;> cases outOfState : school.costAttendanceOutOfState <;>
      simp_all
  · rw [verdict_mk, unknown]
    exact missed.1

section Disjunction
variable {part : Template SchoolColumn × List Value} {parts : List (Template SchoolColumn × List Value)}

theorem disjunction_fits (fits : part.2.length = part.1.holes)
    (fit : ∀ other ∈ parts, other.2.length = other.1.holes) :
    (part.2 ++ parts.flatMap Prod.snd).length = (disjunction part.1 (parts.map Prod.fst)).holes := by
  induction parts generalizing part with
  | nil => simp [disjunction, fits]
  | cons next rest ih =>
    rw [List.forall_mem_cons] at fit
    have joined : (part.2 ++ next.2).length = (Condition.or part.1 next.1).holes := by
      rw [List.length_append, fits, fit.1, Condition.holes]
    have all := @ih (.or part.1 next.1, part.2 ++ next.2) joined fit.2
    simp only [List.append_assoc] at all
    exact all

theorem eval_disjunction (fits : part.2.length = part.1.holes)
    (fit : ∀ other ∈ parts, other.2.length = other.1.holes) :
    Template.eval engine school.get (disjunction part.1 (parts.map Prod.fst))
        (part.2 ++ parts.flatMap Prod.snd) =
      parts.foldl (fun truth other => truth.or (Template.eval engine school.get other.1 other.2))
        (Template.eval engine school.get part.1 part.2) := by
  induction parts generalizing part with
  | nil => simp [disjunction]
  | cons next rest ih =>
    rw [List.forall_mem_cons] at fit
    have joined : (part.2 ++ next.2).length = (Condition.or part.1 next.1).holes := by
      rw [List.length_append, fits, fit.1, Condition.holes]
    have all := @ih (.or part.1 next.1, part.2 ++ next.2) joined fit.2
    simp only [List.append_assoc] at all
    refine all.trans ?_
    have left := Sql.Template.eval_number engine school.get fits [] next.2
    have right := Sql.Template.eval_number engine school.get fit.1 part.2 []
    rw [List.foldl_cons]
    congr 1
    rw [Sql.Template.eval, Condition.number, Condition.eval, Nat.add_comm 1, ← fits]
    simpa using congrArg₂ Truth.or left right

theorem foldl_or_eq_none {truths : List Truth} {unknown : Prop} :
    ∀ {truth : Truth}, (truth = none ↔ unknown) → (∀ other ∈ truths, other = none ↔ unknown) →
      (truths.foldl Truth.or truth = none ↔ unknown) := by
  induction truths with
  | nil => exact fun first _ => first
  | cons next rest ih =>
    intro truth first each
    rw [List.forall_mem_cons] at each
    refine ih ?_ each.2
    rw [Truth.or_eq_none]
    cases truth <;> cases next <;> simp_all

theorem disjunction_unknown {unknown : Prop} (each : ∀ other ∈ part :: parts,
      other.2.length = other.1.holes ∧ (Template.eval engine school.get other.1 other.2 = none ↔ unknown)) :
    Template.eval engine school.get (disjunction part.1 (parts.map Prod.fst))
      (part.2 ++ parts.flatMap Prod.snd) = none ↔ unknown := by
  rw [List.forall_mem_cons] at each
  rw [eval_disjunction each.1.1 fun other isIn => (each.2 other isIn).1]
  have folded := @foldl_or_eq_none (parts.map fun other => Template.eval engine school.get other.1 other.2)
    unknown _ each.1.2 (List.forall_mem_map.mpr fun other isIn => (each.2 other isIn).2)
  rwa [List.foldl_map] at folded

end Disjunction

theorem sizeBuckets_fits (bucket : SizeBucket) : (sizeBuckets bucket).2.length = (sizeBuckets bucket).1.holes := by
  cases bucket <;> rfl

theorem sizeBuckets_unknown (bucket : SizeBucket) :
    Template.eval engine school.get (sizeBuckets bucket).1 (sizeBuckets bucket).2 = none ↔
      school.get .undergraduates = none := by
  cases bucket <;>
    simp [sizeBuckets, Sql.Template.eval, Condition.number, Condition.eval, Term.number, Term.eval,
      Term.holes, hole, Sql.argument, compare_eq_none, Truth.and_eq_none] <;>
    cases school.get .undergraduates <;> simp [Engine.compare]

theorem sizeBucketClause_sound :
    ∀ clause ∈ sizeBucketClause query.sizeBucket, clause.Sound engine query .sizeBucket := by
  rintro clause isClause
  unfold sizeBucketClause at isClause
  split at isClause
  case h_1 => cases isClause
  case h_2 part parts listed =>
    obtain rfl := Option.some.inj isClause
    have listed : ∀ other ∈ part :: parts, ∃ bucket, sizeBuckets bucket = other := by
      intro other isIn
      rw [← listed] at isIn
      obtain ⟨bucket, -, isBucket⟩ := List.mem_map.mp isIn
      exact ⟨bucket, isBucket⟩
    have fit : ∀ other ∈ part :: parts, other.2.length = other.1.holes := by
      intro other isIn
      obtain ⟨bucket, rfl⟩ := listed other isIn
      exact sizeBuckets_fits bucket
    refine sound_of_exact (fun school => ⟨id, id⟩) rfl ?_ fun school => ?_
    · rw [List.forall_mem_cons] at fit
      exact disjunction_fits fit.1 fit.2
    · rw [nullTest_isNull, verdict_mk, disjunction_unknown]
      intro other isIn
      obtain ⟨bucket, rfl⟩ := listed other isIn
      exact ⟨sizeBuckets_fits bucket, sizeBuckets_unknown bucket⟩

def familyPart (family : CampusSettingFamily) : Template SchoolColumn × List Value :=
  (.like (.column .locale) (.append hole ": %"), [.text family.text])

theorem familyPart_unknown (family : CampusSettingFamily) :
    Template.eval engine school.get (familyPart family).1 (familyPart family).2 = none ↔
      school.get .locale = none := by
  simp only [familyPart, Sql.Template.eval, Condition.number, Condition.eval, Term.number, Term.eval,
    Term.holes, hole, Sql.argument, ExploreSchool.get]
  cases school.locale <;> simp [Condition.onTexts]

theorem familyPart_params (families : List CampusSettingFamily) :
    families.map (fun other => Value.text other.text) = (families.map familyPart).flatMap Prod.snd := by
  induction families with
  | nil => rfl
  | cons other rest ih => rw [List.map_cons, ih, List.map_cons, List.flatMap_cons]; rfl

theorem campusSettingClause_sound : ∀ clause ∈ campusSettingClause query.campusSetting,
    clause.Sound engine query .campusSetting := by
  rintro clause isClause
  unfold campusSettingClause at isClause
  split at isClause
  case h_1 => cases isClause
  case h_2 family others _ =>
    obtain rfl := Option.some.inj isClause
    have parts : others.map (fun _ => (familyPart family).1) = (others.map familyPart).map Prod.fst := by
      simp [familyPart, Function.comp_def]
    have params := familyPart_params others
    have fit : ∀ other ∈ others.map familyPart, other.2.length = other.1.holes :=
      List.forall_mem_map.mpr fun _ _ => rfl
    refine sound_of_exact (fun school => ⟨id, id⟩) rfl ?_ fun school => ?_
    · have fits := @disjunction_fits (familyPart family) _ rfl fit
      rw [← parts, ← params] at fits
      exact fits
    · have unknown := @disjunction_unknown engine school (familyPart family) (others.map familyPart)
        (school.get .locale = none) (List.forall_mem_cons.mpr ⟨⟨rfl, familyPart_unknown family⟩,
          List.forall_mem_map.mpr fun other _ => ⟨rfl, familyPart_unknown other⟩⟩)
      rw [← parts, ← params] at unknown
      rw [nullTest_isNull, verdict_mk]
      exact unknown.symm

theorem deadlineBeforeClause_sound : ∀ clause ∈ deadlineBeforeClause query.deadlineBefore query.includeRolling,
    clause.Sound engine query .deadlineBefore := by
  rintro _ isClause
  obtain ⟨before, isBefore, rfl⟩ := Option.map_eq_some_iff.mp isClause
  cases rolling : query.includeRolling with
  | false =>
    have exact : Exact query .deadlineBefore := by
      intro school
      simp [Misses, Overcounts, rolling]
    refine sound_of_exact exact rfl rfl fun school => ?_
    simp only [Bool.false_eq_true, if_false]
    rw [nullTest_isNull, verdict_mk, Sql.Template.eval, Condition.number, Condition.eval, compare_eq_none]
    simp [Term.number, Term.eval, hole, Sql.argument, Term.holes]
  | true =>
    simp only [if_true]
    have unknown : ∀ school : ExploreSchool, (Clause.mk .deadlineBefore (metricLabel .deadlineBefore) .missing
        (.or (.le (.column .deadlineRegular) hole) (.isTrue (.column .isRolling))) [.date before]
        (some (.and (.isNull (.column .deadlineRegular)) (.isNotTrue (.column .isRolling))))).verdict
          engine school = Truth.or (school.deadlineRegular.map fun deadline => Sql.dateLe deadline before)
            school.isRolling := by
      intro school
      simp only [verdict_mk, Sql.Template.eval, Condition.number, Condition.eval, Term.number, Term.eval,
        Term.holes, hole, Sql.argument, ExploreSchool.get]
      cases school.deadlineRegular <;> cases school.isRolling <;> simp [Engine.compare, Engine.le]
    have counts : ∀ school : ExploreSchool, (Clause.mk .deadlineBefore (metricLabel .deadlineBefore) .missing
        (.or (.le (.column .deadlineRegular) hole) (.isTrue (.column .isRolling))) [.date before]
        (some (.and (.isNull (.column .deadlineRegular)) (.isNotTrue (.column .isRolling))))).nullTest
          engine school = true ↔ school.deadlineRegular = none ∧ school.isRolling ≠ some true := by
      intro school
      simp [Clause.nullTest, Condition.number, Condition.eval, Term.number, Term.eval, ExploreSchool.get]
    have missed : ∀ school : ExploreSchool, Misses query school .deadlineBefore ↔ school.isRolling = none ∧
        ∃ deadline, school.deadlineRegular = some deadline ∧ Sql.dateLe deadline before = false := by
      intro school
      simp [Misses, rolling, isBefore]
    refine ⟨rfl, rfl, fun school => ?_, fun school isMissed => ?_, fun school => False.elim⟩
    · rw [counts, unknown, missed, Truth.or_eq_none]
      cases school.deadlineRegular <;> rcases school.isRolling with _ | _ | _ <;> simp [Overcounts]
    · obtain ⟨isRolling, deadline, isDeadline, isLate⟩ := (missed school).mp isMissed
      rw [unknown, isRolling, isDeadline, Option.map_some, isLate]
      rfl

section Scores
variable {p25 p75 : SchoolColumn} {low high : ExploreSchool → Option Int} {score : Option Int}

/-- The verdict of a score filter, on the ends of the range. -/
def fitVerdict (mode : ScoreFit) (score : Int) (low high : Option Int) : Truth :=
  match mode with
  | .any => none
  | .atOrAboveP25 => low.map fun low => decide (low ≤ score)
  | .atOrAboveP75 => high.map fun high => decide (high ≤ score)
  | .insideBand => Truth.and (low.map fun low => decide (low ≤ score)) (high.map fun high => decide (score ≤ high))

theorem scoreFitClause_verdict (isLow : ∀ school : ExploreSchool, school.get p25 = (low school).map .integer)
    (isHigh : ∀ school : ExploreSchool, school.get p75 = (high school).map .integer) :
    ∀ clause ∈ scoreFitClause key p25 p75 score query.scoreFit, clause.key = key ∧ clause.Fits ∧
      ∃ s, score = some s ∧ query.scoreFit ≠ .any ∧ ∀ school,
        (clause.nullTest engine school = true ↔ low school = none ∨ high school = none) ∧
          clause.verdict engine school = fitVerdict query.scoreFit s (low school) (high school) := by
  rintro clause isClause
  unfold scoreFitClause at isClause
  have nullTest : ∀ label reason sql params school, (Clause.mk key label reason sql params
      (some (.or (.isNull (.column p25)) (.isNull (.column p75))))).nullTest engine school = true ↔
        low school = none ∨ high school = none := by
    intro label reason sql params school
    simp [Clause.nullTest, Condition.number, Condition.eval, Term.number, Term.eval, isLow, isHigh]
  cases isScore : score with
  | none => simp [isScore] at isClause
  | some s =>
    cases mode : query.scoreFit with
    | any => simp [isScore, mode] at isClause
    | atOrAboveP25 =>
      simp only [isScore, mode, Option.mem_def, Option.some.injEq] at isClause
      subst isClause
      refine ⟨rfl, rfl, s, rfl, by simp, fun school => ⟨nullTest _ _ _ _ school, ?_⟩⟩
      simp only [verdict_mk, Sql.Template.eval, Condition.number, Condition.eval, Term.number, Term.eval,
        Term.holes, hole, Sql.argument, isLow, fitVerdict]
      cases low school <;> simp [Engine.compare, Engine.le]
    | atOrAboveP75 =>
      simp only [isScore, mode, Option.mem_def, Option.some.injEq] at isClause
      subst isClause
      refine ⟨rfl, rfl, s, rfl, by simp, fun school => ⟨nullTest _ _ _ _ school, ?_⟩⟩
      simp only [verdict_mk, Sql.Template.eval, Condition.number, Condition.eval, Term.number, Term.eval,
        Term.holes, hole, Sql.argument, isHigh, fitVerdict]
      cases high school <;> simp [Engine.compare, Engine.le]
    | insideBand =>
      simp only [isScore, mode, Option.mem_def, Option.some.injEq] at isClause
      subst isClause
      refine ⟨rfl, rfl, s, rfl, by simp, fun school => ⟨nullTest _ _ _ _ school, ?_⟩⟩
      simp only [verdict_mk, Sql.Template.eval, Condition.number, Condition.eval, Term.number, Term.eval,
        hole, Sql.argument, isLow, isHigh, fitVerdict]
      cases low school <;> cases high school <;> simp [Engine.compare, Engine.le]

theorem fitVerdict_counts {mode : ScoreFit} (active : mode ≠ .any) (s : Int) {low high : Option Int} :
    (low = none ∨ high = none ↔ fitVerdict mode s low high = none ∨ FitOvercounts mode (some s) low high) ∧
      (FitOvercounts mode (some s) low high → fitVerdict mode s low high ≠ none) := by
  cases mode with
  | any => exact absurd rfl active
  | atOrAboveP25 => cases low <;> cases high <;> simp [fitVerdict, FitOvercounts]
  | atOrAboveP75 => cases low <;> cases high <;> simp [fitVerdict, FitOvercounts]
  | insideBand =>
    rw [fitVerdict, FitOvercounts, ne_eq, Truth.and_eq_none]
    cases low with
    | none =>
      cases high with
      | none => simp
      | some high =>
        rcases Int.lt_or_le high s with outside | inside
        · simp [outside]
        · simp [inside]
    | some low =>
      cases high with
      | none =>
        rcases Int.lt_or_le s low with outside | inside
        · simp [outside]
        · simp [inside]
      | some high => simp

theorem scoreFitClause_sound {p25 p75 : SchoolColumn} {low high : ExploreSchool → Option Int}
    {score : Option Int} (isLow : ∀ school : ExploreSchool, school.get p25 = (low school).map .integer)
    (isHigh : ∀ school : ExploreSchool, school.get p75 = (high school).map .integer)
    (unmissed : ∀ school, ¬ Misses query school key)
    (overIs : ∀ school, Overcounts query school key ↔
      FitOvercounts query.scoreFit score (low school) (high school)) :
    ∀ clause ∈ scoreFitClause key p25 p75 score query.scoreFit, clause.Sound engine query key := by
  intro clause isClause
  obtain ⟨isKey, fits, s, rfl, active, onSchool⟩ := @scoreFitClause_verdict engine query key p25 p75 low high
    score isLow isHigh clause isClause
  refine ⟨isKey, fits, fun school => ?_, fun school missed => absurd missed (unmissed school), fun school isOver => ?_⟩
  · obtain ⟨nullTest, verdict⟩ := onSchool school
    rw [nullTest, verdict, overIs, (fitVerdict_counts active s).1]
    simp [unmissed school]
  · rw [overIs] at isOver
    rw [(onSchool school).2]
    exact (fitVerdict_counts active s).2 isOver

end Scores

end Columns

def placeKeys : List FilterKey :=
  [.q, .state, .region, .sizeBucket, .control, .testPolicy, .campusSetting, .religiousAffiliation, .gender,
    .hbcu, .hsi, .tribal, .landGrant, .entranceDifficulty, .calendar, .major, .noApplicationFee,
    .offersEarlyDecision, .offersEarlyAction, .rollingAdmission, .deadlineBefore, .satMath, .satEbrw, .act] ++
  rangeKeys.map .range ++ [.range .cost]

theorem places_sound : List.Forall₂ (fun key place => ∀ clause ∈ place, clause.Sound engine query key)
    placeKeys (places query) := by
  refine List.rel_append (List.rel_append ?_ ?_) ?_
  · refine .cons qClause_sound (.cons stateClause_sound (.cons regionClause_sound (.cons sizeBucketClause_sound
      (.cons controlClause_sound (.cons (textClause_sound fun _ => ⟨id, id⟩) (.cons campusSettingClause_sound
      (.cons religiousAffiliationClause_sound (.cons (textClause_sound fun _ => ⟨id, id⟩)
      (.cons (flagClause_sound (fun _ => ⟨id, id⟩) (by simp [ExploreSchool.get])) (.cons hsiClause_sound
      (.cons (flagClause_sound (fun _ => ⟨id, id⟩) (by simp [ExploreSchool.get]))
      (.cons (flagClause_sound (fun _ => ⟨id, id⟩) (by simp [ExploreSchool.get]))
      (.cons (textClause_sound fun _ => ⟨id, id⟩) (.cons (textClause_sound fun _ => ⟨id, id⟩)
      (.cons majorClause_sound (.cons noApplicationFeeClause_sound (.cons (boolClause_sound fun _ => ⟨id, id⟩)
      (.cons (boolClause_sound fun _ => ⟨id, id⟩) (.cons (boolClause_sound fun _ => ⟨id, id⟩)
      (.cons deadlineBeforeClause_sound ?_))))))))))))))))))))
    refine .cons ?_ (.cons ?_ (.cons ?_ .nil))
    · exact scoreFitClause_sound (fun _ => rfl) (fun _ => rfl) (fun _ => id) fun _ => Iff.rfl
    · exact scoreFitClause_sound (fun _ => rfl) (fun _ => rfl) (fun _ => id) fun _ => Iff.rfl
    · exact scoreFitClause_sound (fun _ => rfl) (fun _ => rfl) (fun _ => id) fun _ => Iff.rfl
  · rw [List.forall₂_map_left_iff, List.forall₂_map_right_iff, List.forall₂_same]
    intro key isIn
    apply rangeClause_sound
    rintro rfl
    simp [rangeKeys] at isIn
  · exact .cons costClause_sound .nil

theorem keys_sublist {keys : List FilterKey} {given : List (Option Clause)}
    (sound : List.Forall₂ (fun key place => ∀ clause ∈ place, clause.Sound engine query key) keys given) :
    ((given.filterMap id).map Clause.key).Sublist keys := by
  induction sound with
  | nil => exact List.Sublist.refl []
  | @cons key place keys given here _ ih =>
    cases place with
    | none => exact ih.cons key
    | some clause =>
      rw [show (some clause :: given).filterMap id = clause :: given.filterMap id from rfl, List.map_cons,
        (here clause rfl).isKey]
      exact ih.cons_cons key

theorem sound_of_forall₂ {keys : List FilterKey} {given : List (Option Clause)}
    (sound : List.Forall₂ (fun key place => ∀ clause ∈ place, clause.Sound engine query key) keys given) :
    ∀ clause ∈ given.filterMap id, clause.Sound engine query clause.key := by
  induction sound with
  | nil => exact fun _ none => absurd none List.not_mem_nil
  | @cons key place keys given here _ ih =>
    intro clause isIn
    cases place with
    | none => exact ih clause isIn
    | some first =>
      rw [show (some first :: given).filterMap id = first :: given.filterMap id from rfl, List.mem_cons] at isIn
      rcases isIn with rfl | isIn
      · have sound := here clause rfl
        exact sound.isKey.symm ▸ sound
      · exact ih clause isIn

variable (query) in
theorem nodup_keys : ((buildClauses query).map Clause.key).Nodup := by
  let engine : Engine := default
  have all : ((filters query).map Clause.key).Nodup := (keys_sublist (@places_sound engine query)).nodup (by decide)
  exact (List.filter_sublist.map Clause.key).nodup all

variable (engine) in
theorem filters_sound (isIn : clause ∈ filters query) : clause.Sound engine query clause.key :=
  sound_of_forall₂ places_sound clause isIn

theorem buildClauses_sound (isIn : clause ∈ buildClauses query) : clause.Sound engine query clause.key :=
  filters_sound engine (List.mem_of_mem_filter isIn)

theorem buildClauses_fit : ∀ clause ∈ buildClauses query, clause.Fits :=
  let engine : Engine := default
  fun clause isIn => (@buildClauses_sound engine query clause isIn).fits

end Counselle.Facts

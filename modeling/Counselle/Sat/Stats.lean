import Counselle.Binary64
import Counselle.Calendar
import Counselle.Sat.Types
import Counselle.Upsert
import Mathlib

/-! The statistics of a student's attempts. A dict is the list of its entries in the order
of insertion. -/
namespace Counselle.Sat
open Calendar (Date)

/-- A row of `sat_attempts`. Times are microseconds, and a UUID is its number. -/
structure Attempt where
  id : Option Int
  userId : Nat
  clientAttemptId : Nat
  questionId : List Char
  module : List Char
  domainCd : List Char
  skillCd : List Char
  scoreBand : Int
  userAnswer : List Char
  isCorrect : Bool
  timeSpentSeconds : Int
  solvedAt : Int
  localDate : Date
  deriving DecidableEq

structure SkillDef where
  code : List Char
  name : List Char

structure DomainDef where
  code : List Char
  name : List Char
  skills : List SkillDef

structure ModuleDef where
  code : Module
  domains : List DomainDef

structure Taxonomy where
  modules : List ModuleDef

def Taxonomy.findSkill (taxonomy : Taxonomy) (skillCd : List Char) : Option SkillDef :=
  (taxonomy.modules.flatMap fun mod => mod.domains.flatMap fun dom => dom.skills).find?
    fun skill => skill.code == skillCd

def Module.code : Module → List Char
  | .reading => "reading".toList
  | .math => "math".toList

def mathCode : List Char := "math".toList

def bandRange : List Int := [1, 2, 3, 4, 5, 6, 7]

/-- `math.floor(x + 0.5)` on a double. -/
def jsRound (x : ℚ) : Int := ⌊Binary64.rounded (x + 1 / 2)⌋

def pct (numerator denominator : Int) : Int :=
  if denominator = 0 then 0 else jsRound (Binary64.rounded ((100 * numerator : ℚ) / denominator))

def avg (total denominator : Int) : Int :=
  if denominator = 0 then 0 else jsRound (Binary64.rounded ((total : ℚ) / denominator))

section
variable {K V : Type} [DecidableEq K]

/-- `d.setdefault(key, fresh)`, then a change of what is there. -/
def setdefault (key : K) (fresh : V) (change : V → V) (dict : List (K × V)) : List (K × V) :=
  Upsert.upsert (fun entry => entry.1 == key) (fun entry => (entry.1, change entry.2))
    (key, change fresh) dict

def adjust (key : K) (change : V → V) (dict : List (K × V)) : List (K × V) :=
  dict.map fun entry => if entry.1 = key then (entry.1, change entry.2) else entry

end

structure BandAgg where
  attempted : Int
  correct : Int
  totalTime : Int

def emptyBands : List (Int × BandAgg) := bandRange.map fun band => (band, ⟨0, 0, 0⟩)

structure ModuleAgg where
  uniqueAttempted : Int
  uniqueCorrect : Int
  uniqueIncorrect : Int
  upsolvedCount : Int
  firstTryCorrect : Int
  totalTime : Int
  attemptsTotal : Int
  correctTotal : Int
  bands : List (Int × BandAgg)

def ModuleAgg.empty : ModuleAgg := ⟨0, 0, 0, 0, 0, 0, 0, 0, emptyBands⟩

structure DomainAgg where
  module : List Char
  totalAttempts : Int
  uniqueCount : Int
  firstTryCorrect : Int
  totalCorrect : Int
  totalTime : Int

structure SkillAgg where
  name : List Char
  domainCode : List Char
  module : List Char
  attempts : Int
  uniqueCount : Int
  firstTryCorrect : Int
  correct : Int
  totalTime : Int

structure QuestionTotals where
  uniqueCorrect : Int
  uniqueIncorrect : Int
  upsolved : Int
  firstTryCorrect : Int

structure TaxonomyLookup where
  domainModule : List (List Char × List Char)
  domainName : List (List Char × List Char)
  taxonomy : Taxonomy

def TaxonomyLookup.skillName (lookup : TaxonomyLookup) (code : List Char) : List Char :=
  match lookup.taxonomy.findSkill code with
  | some found => found.name
  | none => code

/-- The entries of all domains; a later one of a code takes the place of an earlier. -/
def domainEntries (taxonomy : Taxonomy) (entry : ModuleDef → DomainDef → List Char × List Char) :
    List (List Char × List Char) :=
  Upsert.dictOf Prod.fst (taxonomy.modules.flatMap fun mod => mod.domains.map (entry mod))

def buildLookup (taxonomy : Taxonomy) : TaxonomyLookup where
  domainModule := domainEntries taxonomy fun mod dom => (dom.code, mod.code.code)
  domainName := domainEntries taxonomy fun _ dom => (dom.code, dom.name)
  taxonomy := taxonomy

def sortId (a : Attempt) : Int := a.id.getD (-1)

/-- The order by `(solved_at, id)`. -/
def notAfter (a b : Attempt) : Bool :=
  a.solvedAt < b.solvedAt || a.solvedAt == b.solvedAt && sortId a ≤ sortId b

def orderAttempts (attempts : List Attempt) : List Attempt := attempts.mergeSort notAfter

def groupByQuestion (sortedAttempts : List Attempt) : List (List Char × List Attempt) :=
  sortedAttempts.foldl (fun groups a => setdefault a.questionId [] (· ++ [a]) groups) []

structure Aggregates where
  totals : QuestionTotals
  ebrw : ModuleAgg
  math : ModuleAgg
  domains : List (List Char × DomainAgg)
  skills : List (List Char × SkillAgg)
  globalBands : List (Int × BandAgg)
  globalTotalTime : Int
  globalCorrect : Int

def one (condition : Bool) : Int := if condition then 1 else 0

def Aggregates.onModule (all : Aggregates) (isMath : Bool) (change : ModuleAgg → ModuleAgg) : Aggregates :=
  if isMath then { all with math := change all.math } else { all with ebrw := change all.ebrw }

def isUpsolved (group : List Attempt) (latest : Attempt) : Bool :=
  (group.any fun a => !a.isCorrect) && latest.isCorrect

/-- A question's group; the groups of the dict are not empty. -/
def applyQuestion (lookup : TaxonomyLookup) (all : Aggregates) (group : List Attempt) : Aggregates :=
  match group.head?, group.getLast? with
  | some first, some latest =>
    let isNowCorrect := latest.isCorrect
    let upsolved := isUpsolved group latest
    let totals : QuestionTotals :=
      { uniqueCorrect := all.totals.uniqueCorrect + one isNowCorrect
        uniqueIncorrect := all.totals.uniqueIncorrect + one !isNowCorrect
        upsolved := all.totals.upsolved + one upsolved
        firstTryCorrect := all.totals.firstTryCorrect + one first.isCorrect }
    let domains := adjust first.domainCd
      (fun dom => { dom with
        uniqueCount := dom.uniqueCount + 1
        firstTryCorrect := dom.firstTryCorrect + one first.isCorrect }) all.domains
    let skills :=
      if first.skillCd = [] then all.skills
      else setdefault first.skillCd
        ⟨lookup.skillName first.skillCd, first.domainCd, first.module, 0, 0, 0, 0, 0⟩
        (fun sk => { sk with
          uniqueCount := sk.uniqueCount + 1
          firstTryCorrect := sk.firstTryCorrect + one first.isCorrect }) all.skills
    { all with totals, domains, skills }.onModule (first.module == mathCode) fun mod => { mod with
      uniqueAttempted := mod.uniqueAttempted + 1
      uniqueCorrect := mod.uniqueCorrect + one isNowCorrect
      uniqueIncorrect := mod.uniqueIncorrect + one !isNowCorrect
      upsolvedCount := mod.upsolvedCount + one upsolved
      firstTryCorrect := mod.firstTryCorrect + one first.isCorrect }
  | _, _ => all

def emptyAggregates (lookup : TaxonomyLookup) : Aggregates where
  totals := ⟨0, 0, 0, 0⟩
  ebrw := .empty
  math := .empty
  domains := lookup.domainModule.map fun (code, mod) => (code, ⟨mod, 0, 0, 0, 0, 0⟩)
  skills := []
  globalBands := emptyBands
  globalTotalTime := 0
  globalCorrect := 0

def perQuestionPass (lookup : TaxonomyLookup) (groups : List (List Char × List Attempt)) : Aggregates :=
  (groups.map Prod.snd).foldl (applyQuestion lookup) (emptyAggregates lookup)

def applyBand (a : Attempt) (bands : List (Int × BandAgg)) : List (Int × BandAgg) :=
  adjust a.scoreBand (fun agg =>
    { attempted := agg.attempted + 1
      totalTime := agg.totalTime + a.timeSpentSeconds
      correct := agg.correct + one a.isCorrect }) bands

def applyAttempt (all : Aggregates) (a : Attempt) : Aggregates :=
  let t := a.timeSpentSeconds
  let domains := adjust a.domainCd
    (fun dom => { dom with
      totalAttempts := dom.totalAttempts + 1
      totalTime := dom.totalTime + t
      totalCorrect := dom.totalCorrect + one a.isCorrect }) all.domains
  -- the name of a skill that is first seen here is filled in after the pass
  let skills :=
    if a.skillCd = [] then all.skills
    else setdefault a.skillCd ⟨[], a.domainCd, a.module, 0, 0, 0, 0, 0⟩
      (fun sk => { sk with
        attempts := sk.attempts + 1
        totalTime := sk.totalTime + t
        correct := sk.correct + one a.isCorrect }) all.skills
  { all with
    domains, skills
    globalBands := applyBand a all.globalBands
    globalTotalTime := all.globalTotalTime + t
    globalCorrect := all.globalCorrect + one a.isCorrect }.onModule (a.module == mathCode)
    fun mod => { mod with
      totalTime := mod.totalTime + t
      attemptsTotal := mod.attemptsTotal + 1
      correctTotal := mod.correctTotal + one a.isCorrect
      bands := applyBand a mod.bands }

def perAttemptPass (sortedAttempts : List Attempt) (all : Aggregates) : Aggregates :=
  sortedAttempts.foldl applyAttempt all

structure DifficultyBandStat where
  attempted : Int
  correct : Int
  accuracyPct : Int
  avgTimeSeconds : Int
  deriving DecidableEq

structure SkillPerformance where
  code : List Char
  name : List Char
  domainCode : List Char
  module : List Char
  totalAttempts : Int
  uniqueQuestions : Int
  firstTryCorrect : Int
  firstTryAccuracyPct : Int
  overallAccuracyPct : Int
  avgTimeSeconds : Int
  deriving DecidableEq

structure DomainPerformance where
  code : List Char
  name : List Char
  module : List Char
  totalAttempts : Int
  uniqueQuestions : Int
  firstTryCorrect : Int
  firstTryAccuracyPct : Int
  overallAccuracyPct : Int
  avgTimeSeconds : Int
  deriving DecidableEq

structure ModuleSectionStats where
  uniqueAttempted : Int
  uniqueCorrect : Int
  uniqueIncorrect : Int
  upsolvedCount : Int
  firstTryAccuracyPct : Int
  overallAccuracyPct : Int
  avgTimeSeconds : Int
  totalTimeSeconds : Int
  domains : List (List Char × DomainPerformance)
  difficultyStats : List (Int × DifficultyBandStat)
  deriving DecidableEq

structure TodayStats where
  ebrwSolved : Int
  mathSolved : Int
  totalTimeSeconds : Int
  deriving DecidableEq

structure SkillRanking where
  code : List Char
  name : List Char
  module : List Char
  accuracyPct : Int
  attempted : Int
  avgTime : Int
  deriving DecidableEq

structure UserStats where
  totalAttemptsCount : Int
  uniqueQuestionsAttempted : Int
  uniqueCorrect : Int
  uniqueIncorrect : Int
  totalUpsolvedCount : Int
  firstTryOverallAccuracyPct : Int
  overallAccuracyPct : Int
  avgTimeSeconds : Int
  currentStreakDays : Int
  today : TodayStats
  ebrw : ModuleSectionStats
  math : ModuleSectionStats
  difficultyStats : List (Int × DifficultyBandStat)
  domainStats : List (List Char × DomainPerformance)
  skillStats : List (List Char × SkillPerformance)
  weakestSkills : List SkillRanking
  strongestSkills : List SkillRanking
  deriving DecidableEq

def finalizeBands (bands : List (Int × BandAgg)) : List (Int × DifficultyBandStat) :=
  bands.map fun (band, agg) => (band,
    { attempted := agg.attempted
      correct := agg.correct
      accuracyPct := pct agg.correct agg.attempted
      avgTimeSeconds := avg agg.totalTime agg.attempted })

def finalizeSkillStats (skills : List (List Char × SkillAgg)) : List (List Char × SkillPerformance) :=
  skills.map fun (code, sk) => (code,
    { code
      name := sk.name
      domainCode := sk.domainCode
      module := sk.module
      totalAttempts := sk.attempts
      uniqueQuestions := sk.uniqueCount
      firstTryCorrect := sk.firstTryCorrect
      firstTryAccuracyPct := pct sk.firstTryCorrect sk.uniqueCount
      overallAccuracyPct := pct sk.correct sk.attempts
      avgTimeSeconds := avg sk.totalTime sk.attempts })

def finalizeDomainStats (lookup : TaxonomyLookup) (domains : List (List Char × DomainAgg)) :
    List (List Char × DomainPerformance) :=
  domains.map fun (code, dom) => (code,
    { code
      name := (lookup.domainName.lookup code).getD code
      module := dom.module
      totalAttempts := dom.totalAttempts
      uniqueQuestions := dom.uniqueCount
      firstTryCorrect := dom.firstTryCorrect
      firstTryAccuracyPct := pct dom.firstTryCorrect dom.uniqueCount
      overallAccuracyPct := pct dom.totalCorrect dom.totalAttempts
      avgTimeSeconds := avg dom.totalTime dom.totalAttempts })

def finalizeModuleStats (lookup : TaxonomyLookup) (mod : ModuleAgg) (moduleCode : List Char)
    (domainStats : List (List Char × DomainPerformance)) : ModuleSectionStats where
  uniqueAttempted := mod.uniqueAttempted
  uniqueCorrect := mod.uniqueCorrect
  uniqueIncorrect := mod.uniqueIncorrect
  upsolvedCount := mod.upsolvedCount
  firstTryAccuracyPct := pct mod.firstTryCorrect mod.uniqueAttempted
  overallAccuracyPct := pct mod.correctTotal mod.attemptsTotal
  avgTimeSeconds := avg mod.totalTime mod.attemptsTotal
  totalTimeSeconds := mod.totalTime
  domains := domainStats.filter fun entry => lookup.domainModule.lookup entry.1 == some moduleCode
  difficultyStats := finalizeBands mod.bands

/-- The skills with an attempt, by their accuracy; the sort is stable. -/
def rankSkills (skillStats : List (List Char × SkillPerformance)) : List SkillRanking :=
  let ranked := (skillStats.filter fun entry => 1 ≤ entry.2.totalAttempts).map fun (_, sk) =>
    { code := sk.code
      name := sk.name
      module := sk.module
      accuracyPct := sk.firstTryAccuracyPct
      attempted := sk.totalAttempts
      avgTime := sk.avgTimeSeconds : SkillRanking }
  ranked.mergeSort fun r s => r.accuracyPct ≤ s.accuracyPct

def todayStats (attempts : List Attempt) (today : Date) : TodayStats :=
  let here := attempts.filter fun a => a.localDate = today
  { ebrwSolved := here.countP fun a => a.module != mathCode
    mathSolved := here.countP fun a => a.module == mathCode
    totalTimeSeconds := (here.map (·.timeSpentSeconds)).sum }

/-- The walk back over days with an attempt. `left` bounds the steps: a day that was passed
does not come again. -/
def walkBack (dates : List Date) : Nat → Date → Int → Except PyText.PyError Int
  | 0, _, streak => .ok streak
  | left + 1, check, streak =>
    if check ∈ dates then
      match check.previous with
      | some before => walkBack dates left before (streak + 1)
      | none => .error .overflowError
    else .ok streak

/-- The `OverflowError` is the day before the first of January of the year 1. -/
def currentStreak (attempts : List Attempt) (today : Date) : Except PyText.PyError Int :=
  let dates := attempts.map (·.localDate)
  match today.previous with
  | none => .error .overflowError
  | some yesterday =>
    if today ∉ dates ∧ yesterday ∉ dates then .ok 0
    else walkBack dates (dates.length + 1) (if today ∈ dates then today else yesterday) 0

def computeHeatmap (attempts : List Attempt) : List (Date × Int) :=
  attempts.foldl (fun heatmap a => setdefault a.localDate 0 (· + 1) heatmap) []

/-- The names of the skills that the second pass created. -/
def nameSkills (lookup : TaxonomyLookup) (skills : List (List Char × SkillAgg)) :
    List (List Char × SkillAgg) :=
  skills.map fun (code, sk) => (code, if sk.name = [] then { sk with name := lookup.skillName code } else sk)

def statsInOrder (sortedAttempts : List Attempt) (today : Date) (taxonomy : Taxonomy) :
    Except PyText.PyError UserStats := do
  let lookup := buildLookup taxonomy
  let questionGroups := groupByQuestion sortedAttempts
  let all := perAttemptPass sortedAttempts (perQuestionPass lookup questionGroups)
  let skillAggs := nameSkills lookup all.skills
  let totalAttemptsCount : Int := sortedAttempts.length
  let uniqueQuestionsAttempted : Int := questionGroups.length
  let domainStats := finalizeDomainStats lookup all.domains
  let skillStats := finalizeSkillStats skillAggs
  let ranked := rankSkills skillStats
  let streak ← currentStreak sortedAttempts today
  return {
    totalAttemptsCount
    uniqueQuestionsAttempted
    uniqueCorrect := all.totals.uniqueCorrect
    uniqueIncorrect := all.totals.uniqueIncorrect
    totalUpsolvedCount := all.totals.upsolved
    firstTryOverallAccuracyPct := pct all.totals.firstTryCorrect uniqueQuestionsAttempted
    overallAccuracyPct := pct all.globalCorrect totalAttemptsCount
    avgTimeSeconds := avg all.globalTotalTime totalAttemptsCount
    currentStreakDays := streak
    today := todayStats sortedAttempts today
    ebrw := finalizeModuleStats lookup all.ebrw Module.reading.code domainStats
    math := finalizeModuleStats lookup all.math mathCode domainStats
    difficultyStats := finalizeBands all.globalBands
    domainStats
    skillStats
    weakestSkills := ranked.take 4
    strongestSkills := ranked.reverse.take 4 }

def computeUserStats (attempts : List Attempt) (today : Date) (taxonomy : Taxonomy) :
    Except PyText.PyError UserStats :=
  statsInOrder (orderAttempts attempts) today taxonomy

/-- An attempt without its ids and its time, which only order the attempts. -/
def Attempt.core (a : Attempt) : Attempt :=
  { a with id := none, userId := 0, clientAttemptId := 0, solvedAt := 0 }

section
variable {K V W : Type} [DecidableEq K]

theorem setdefault_map {f : V → W} {key : K} {fresh : V} {change : V → V} {change' : W → W}
    (commutes : ∀ value, f (change value) = change' (f value)) (dict : List (K × V)) :
    (setdefault key fresh change dict).map (fun entry => (entry.1, f entry.2)) =
      setdefault key (f fresh) change' (dict.map fun entry => (entry.1, f entry.2)) := by
  unfold setdefault
  induction dict with
  | nil => simp [Upsert.upsert, commutes]
  | cons entry rest ih =>
    rw [Upsert.upsert, List.map_cons, Upsert.upsert]
    by_cases here : entry.1 = key
    · simp [here, commutes]
    · simp only [beq_iff_eq, here, if_false, List.map_cons, ih]

theorem lookup_setdefault (key other : K) (fresh : V) (change : V → V) (dict : List (K × V)) :
    (setdefault key fresh change dict).lookup other =
      if other = key then some (change ((dict.lookup key).getD fresh)) else dict.lookup other := by
  unfold setdefault
  induction dict with
  | nil =>
    by_cases here : other = key
    · simp [Upsert.upsert, here]
    · simp [Upsert.upsert, List.lookup, beq_false_of_ne here, here]
  | cons entry rest ih =>
    obtain ⟨name, value⟩ := entry
    rw [Upsert.upsert]
    by_cases found : name = key
    · subst found
      by_cases here : other = name
      · simp [here]
      · simp [List.lookup_cons, beq_false_of_ne here, here]
    · simp only [beq_iff_eq, found, if_false, List.lookup_cons, ih]
      by_cases same : other = name
      · subst same
        simp [found]
      · simp [beq_false_of_ne same, beq_false_of_ne (Ne.symm found)]

end

theorem groupByQuestion_snoc (attempts : List Attempt) (a : Attempt) :
    groupByQuestion (attempts ++ [a]) =
      setdefault a.questionId [] (· ++ [a]) (groupByQuestion attempts) := by
  simp [groupByQuestion]

theorem groupByQuestion_core (attempts : List Attempt) :
    groupByQuestion (attempts.map Attempt.core) =
      (groupByQuestion attempts).map fun entry => (entry.1, entry.2.map Attempt.core) := by
  induction attempts using List.reverseRecOn with
  | nil => rfl
  | append_singleton attempts a ih =>
    have grows : ∀ group : List Attempt, (group ++ [a]).map Attempt.core = group.map Attempt.core ++ [a.core] :=
      fun group => by simp
    have step := @setdefault_map _ _ _ _ (List.map Attempt.core) a.questionId [] (· ++ [a]) (· ++ [a.core])
      grows (groupByQuestion attempts)
    rw [List.map_append, List.map_singleton, groupByQuestion_snoc, groupByQuestion_snoc, ih]
    exact step.symm

theorem applyQuestion_core (lookup : TaxonomyLookup) (all : Aggregates) (group : List Attempt) :
    applyQuestion lookup all (group.map Attempt.core) = applyQuestion lookup all group := by
  unfold applyQuestion
  rw [List.head?_map, List.getLast?_map]
  cases group.head? with
  | none => rfl
  | some first =>
    cases group.getLast? with
    | none => rfl
    | some latest =>
      have upsolved : isUpsolved (group.map Attempt.core) latest.core = isUpsolved group latest := by
        simp only [isUpsolved, List.any_map]
        rfl
      simp only [Option.map_some, upsolved]
      rfl

theorem perQuestionPass_core (lookup : TaxonomyLookup) (groups : List (List Char × List Attempt)) :
    perQuestionPass lookup (groups.map fun entry => (entry.1, entry.2.map Attempt.core)) =
      perQuestionPass lookup groups := by
  simp only [perQuestionPass, List.map_map, List.foldl_map, Function.comp_apply, applyQuestion_core]

theorem perAttemptPass_core (attempts : List Attempt) (all : Aggregates) :
    perAttemptPass (attempts.map Attempt.core) all = perAttemptPass attempts all := by
  rw [perAttemptPass, List.foldl_map]
  rfl

theorem todayStats_core (attempts : List Attempt) (today : Date) :
    todayStats (attempts.map Attempt.core) today = todayStats attempts today := by
  simp only [todayStats, List.filter_map, List.countP_map, List.map_map]
  rfl

theorem currentStreak_core (attempts : List Attempt) (today : Date) :
    currentStreak (attempts.map Attempt.core) today = currentStreak attempts today := by
  have dates : (attempts.map Attempt.core).map (·.localDate) = attempts.map (·.localDate) := by
    rw [List.map_map]
    rfl
  rw [currentStreak, dates]
  rfl

theorem statsInOrder_core (attempts : List Attempt) (today : Date) (taxonomy : Taxonomy) :
    statsInOrder (attempts.map Attempt.core) today taxonomy = statsInOrder attempts today taxonomy := by
  simp only [statsInOrder, groupByQuestion_core, perQuestionPass_core, perAttemptPass_core,
    todayStats_core, currentStreak_core, List.length_map]

theorem statsInOrder_congr {attempts others : List Attempt}
    (same : attempts.map Attempt.core = others.map Attempt.core) (today : Date) (taxonomy : Taxonomy) :
    statsInOrder attempts today taxonomy = statsInOrder others today taxonomy := by
  rw [← statsInOrder_core, same, statsInOrder_core]

theorem lookup_computeHeatmap (attempts : List Attempt) (day : Date) :
    (computeHeatmap attempts).lookup day =
      if day ∈ attempts.map (·.localDate) then some ((attempts.map (·.localDate)).count day : Int)
      else none := by
  induction attempts using List.reverseRecOn with
  | nil => rfl
  | append_singleton attempts a ih =>
    have step : computeHeatmap (attempts ++ [a]) =
        setdefault a.localDate 0 (· + 1) (computeHeatmap attempts) := by
      simp [computeHeatmap]
    rw [step, lookup_setdefault]
    by_cases here : day = a.localDate
    · subst here
      rw [if_pos rfl, ih]
      by_cases before : a.localDate ∈ attempts.map (·.localDate)
      · simp [before]
      · simp [before, List.count_eq_zero.mpr before]
    · simp [here, ih, Ne.symm here]

theorem lookup_computeHeatmap_perm {attempts others : List Attempt}
    (perm : (attempts.map (·.localDate)).Perm (others.map (·.localDate))) (day : Date) :
    (computeHeatmap attempts).lookup day = (computeHeatmap others).lookup day := by
  rw [lookup_computeHeatmap, lookup_computeHeatmap, perm.count_eq]
  exact if_congr perm.mem_iff rfl rfl

theorem notAfter_iff {a b : Attempt} : notAfter a b = true ↔
    a.solvedAt < b.solvedAt ∨ a.solvedAt = b.solvedAt ∧ sortId a ≤ sortId b := by
  simp [notAfter]

theorem pairwise_orderAttempts (attempts : List Attempt) :
    (orderAttempts attempts).Pairwise fun a b => notAfter a b = true := by
  apply List.pairwise_mergeSort
  · intro a b c first second
    rw [notAfter_iff] at first second ⊢
    omega
  · intro a b
    rw [Bool.or_eq_true, notAfter_iff, notAfter_iff]
    omega

end Counselle.Sat

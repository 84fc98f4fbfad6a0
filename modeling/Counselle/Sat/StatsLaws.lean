import Counselle.Sat.Stats

/-! What the statistics of a student promise: they do not see the order of the attempts, the
scopes add up, and the streak is the longest run of days. -/
namespace Counselle.Sat
open Calendar (Date)

theorem jsRound_bounds {x : ℚ} (low : 0 ≤ x) (high : x ≤ 100) : 0 ≤ jsRound x ∧ jsRound x ≤ 100 := by
  have size : |x + 1 / 2| < 2 ^ (7 : Int) := by
    rw [abs_of_nonneg (by linarith)]
    norm_num
    linarith
  have fine : Binary64.lastPlace (x + 1 / 2) ≤ -1 := by
    have := Binary64.lastPlace_le (by linarith : x + 1 / 2 ≠ 0) size (by decide)
    omega
  have below : Binary64.rounded (x + 1 / 2) ≤ (201 : Int) * 2 ^ (-1 : Int) := by
    apply Binary64.rounded_le fine
    norm_num
    linarith
  have above : 0 ≤ Binary64.rounded (x + 1 / 2) := Binary64.rounded_nonneg (by linarith)
  constructor
  · exact Int.floor_nonneg.mpr above
  · apply Int.lt_add_one_iff.mp
    apply Int.floor_lt.mpr
    norm_num at below ⊢
    linarith

theorem pct_bounds {numerator denominator : Int} (low : 0 ≤ numerator) (part : numerator ≤ denominator) :
    0 ≤ pct numerator denominator ∧ pct numerator denominator ≤ 100 := by
  unfold pct
  split_ifs with zero
  · decide
  · have positive : (0 : ℚ) < denominator := by
      have : 0 < denominator := by omega
      exact_mod_cast this
    have share : (100 * numerator : ℚ) / denominator ≤ 100 := by
      rw [div_le_iff₀ positive]
      have : (numerator : ℚ) ≤ denominator := by exact_mod_cast part
      linarith
    have hundred : Binary64.rounded 100 = 100 := by
      exact_mod_cast @Binary64.rounded_intCast 100 (by decide)
    have nonneg : (0 : ℚ) ≤ 100 * numerator / denominator := by
      have : (0 : ℚ) ≤ numerator := by exact_mod_cast low
      positivity
    apply jsRound_bounds
    · exact Binary64.rounded_nonneg nonneg
    · exact (Binary64.rounded_mono share).trans_eq hundred

theorem orderAttempts_perm {attempts others : List Attempt} (distinct : (attempts.map sortId).Nodup)
    (perm : others.Perm attempts) : orderAttempts others = orderAttempts attempts := by
  have sorted (items : List Attempt) : (orderAttempts items).Perm items := List.mergeSort_perm items notAfter
  apply @List.Perm.eq_of_pairwise _ (fun a b => notAfter a b = true) _ _ _ (pairwise_orderAttempts others)
    (pairwise_orderAttempts attempts)
  · exact ((sorted others).trans perm).trans (sorted attempts).symm
  · intro a b left right before after
    have here : a ∈ attempts := perm.mem_iff.mp ((sorted others).mem_iff.mp left)
    have there : b ∈ attempts := (sorted attempts).mem_iff.mp right
    rw [notAfter_iff] at before after
    exact List.inj_on_of_nodup_map distinct here there (by omega)

def daysBack (day : Date) : Nat → Option Date
  | 0 => some day
  | n + 1 => day.previous.bind fun before => daysBack before n

/-- So many consecutive days with attempts, of which `last` is the last. -/
def RunEnding (dates : List Date) (last : Date) (length : Nat) : Prop :=
  ∀ n < length, ∃ day, daysBack last n = some day ∧ day ∈ dates

/-- The run that ends with `last` begins with the first day of the calendar. -/
def ReachesFirstDay (dates : List Date) (last : Date) : Prop :=
  ∃ n, RunEnding dates last (n + 1) ∧ daysBack last (n + 1) = none

def lastDay (dates : List Date) (today yesterday : Date) : Date := if today ∈ dates then today else yesterday

theorem runEnding_succ {dates : List Date} {day before : Date} (here : day ∈ dates)
    (earlier : day.previous = some before) (n : Nat) :
    RunEnding dates day (n + 1) ↔ RunEnding dates before n := by
  constructor
  · intro run k lt
    have := run (k + 1) (by omega)
    rwa [daysBack, earlier] at this
  · intro run k lt
    cases k with
    | zero => exact ⟨day, rfl, here⟩
    | succ k =>
      rw [daysBack, earlier]
      exact run k (by omega)

theorem daysBack_mono {day : Date} {n : Nat} (gone : daysBack day n = none) :
    ∀ {m}, n ≤ m → daysBack day m = none := by
  induction n generalizing day with
  | zero => cases gone
  | succ n ih =>
    intro m le
    obtain ⟨m, rfl⟩ : ∃ k, m = k + 1 := ⟨m - 1, by omega⟩
    rw [daysBack] at gone ⊢
    cases earlier : day.previous with
    | none => rfl
    | some before =>
      rw [earlier] at gone
      exact ih gone (by omega)

theorem RunEnding.le_of_gap {dates : List Date} {last gap : Date} {n length : Nat}
    (run : RunEnding dates last length) (behind : daysBack last n = some gap) (free : gap ∉ dates) :
    length ≤ n := by
  by_contra longer
  obtain ⟨day, same, mem⟩ := run n (by omega)
  rw [behind] at same
  cases same
  exact free mem

/-- The days up to a date that have attempts; what is left for the walk back. -/
def daysLeft (dates : List Date) (day : Date) : Nat :=
  dates.countP fun d => d.toordinal ≤ day.toordinal

theorem daysLeft_previous {dates : List Date} {day before : Date} (here : day ∈ dates)
    (earlier : day.previous = some before) : daysLeft dates before < daysLeft dates day := by
  have less := Calendar.toordinal_previous earlier
  obtain ⟨front, back, rfl⟩ := List.append_of_mem here
  have counted : ∀ rest : List Date, daysLeft rest before ≤ daysLeft rest day := fun rest =>
    List.countP_mono_left fun d _ le => by
      simp only [decide_eq_true_eq] at le ⊢
      omega
  have one := counted front
  have two := counted back
  unfold daysLeft at one two ⊢
  rw [List.countP_append, List.countP_append, List.countP_cons_of_neg (by simp; omega),
    List.countP_cons_of_pos (by simp)]
  omega

theorem walkBack_cases (dates : List Date) (left : Nat) (day : Date) (streak : Int)
    (enough : daysLeft dates day < left) :
    (∃ (n : Nat) (gap : Date), walkBack dates left day streak = .ok (streak + n) ∧ RunEnding dates day n ∧
      daysBack day n = some gap ∧ gap ∉ dates) ∨
    walkBack dates left day streak = .error .overflowError ∧ ReachesFirstDay dates day := by
  induction left generalizing day streak with
  | zero => omega
  | succ left ih =>
    rw [walkBack]
    by_cases here : day ∈ dates
    · rw [if_pos here]
      cases earlier : day.previous with
      | none =>
        have alone : RunEnding dates day 1 := fun n lt => by
          obtain rfl : n = 0 := by omega
          exact ⟨day, rfl, here⟩
        exact .inr ⟨rfl, 0, alone, by rw [daysBack, earlier]; rfl⟩
      | some before =>
        have less := daysLeft_previous here earlier
        obtain ⟨n, gap, walked, run, behind, free⟩ | ⟨failed, n, run, gone⟩ :=
          ih before (streak + 1) (by omega)
        · refine .inl ⟨n + 1, gap, ?_, (runEnding_succ here earlier n).mpr run, ?_, free⟩
          · simp only [walked]
            congr 1
            push_cast
            omega
          · rw [daysBack, earlier]
            exact behind
        · refine .inr ⟨by simp only [failed], n + 1, (runEnding_succ here earlier (n + 1)).mpr run, ?_⟩
          rw [daysBack, earlier]
          exact gone
    · exact .inl ⟨0, day, by rw [if_neg here]; simp, fun n lt => by omega, rfl, here⟩

theorem currentStreak_cases (attempts : List Attempt) (today : Date) :
    (∃ yesterday length, today.previous = some yesterday ∧
      currentStreak attempts today = .ok (length : Nat) ∧
      ¬ ReachesFirstDay (attempts.map (·.localDate)) (lastDay (attempts.map (·.localDate)) today yesterday) ∧
      IsGreatest (fun n => RunEnding (attempts.map (·.localDate))
        (lastDay (attempts.map (·.localDate)) today yesterday) n) length) ∨
    currentStreak attempts today = .error .overflowError ∧
      (today.previous = none ∨ ∃ yesterday, today.previous = some yesterday ∧
        ReachesFirstDay (attempts.map (·.localDate)) (lastDay (attempts.map (·.localDate)) today yesterday)) := by
  unfold currentStreak
  generalize attempts.map (·.localDate) = dates
  cases earlier : today.previous with
  | none => exact .inr ⟨rfl, .inl rfl⟩
  | some yesterday =>
    have enough : daysLeft dates (lastDay dates today yesterday) < dates.length + 1 :=
      Nat.lt_succ_of_le List.countP_le_length
    obtain ⟨n, gap, walked, run, behind, free⟩ | ⟨failed, reaches⟩ :=
      walkBack_cases dates (dates.length + 1) (lastDay dates today yesterday) 0 enough
    · have bounded : ¬ ReachesFirstDay dates (lastDay dates today yesterday) := by
        rintro ⟨m, long, gone⟩
        have := long.le_of_gap behind free
        rw [daysBack_mono gone this] at behind
        cases behind
      refine .inl ⟨yesterday, n, rfl, ?_, bounded, run, fun m longer => longer.le_of_gap behind free⟩
      by_cases neither : today ∉ dates ∧ yesterday ∉ dates
      · have zero : n ≤ 0 := by
          apply @RunEnding.le_of_gap _ _ yesterday _ _ run _ neither.2
          rw [lastDay, if_neg neither.1]
          rfl
        obtain rfl : n = 0 := by omega
        simp only [if_pos neither]
        rfl
      · simp only [if_neg neither]
        rw [lastDay] at walked
        rw [walked]
        simp
    · have someDay : ¬ (today ∉ dates ∧ yesterday ∉ dates) := by
        rintro ⟨noToday, noYesterday⟩
        obtain ⟨m, run, -⟩ := reaches
        obtain ⟨day, same, mem⟩ := run 0 (by omega)
        rw [lastDay, if_neg noToday] at same
        cases same
        exact noYesterday mem
      refine .inr ⟨?_, .inr ⟨yesterday, rfl, reaches⟩⟩
      simp only [if_neg someDay]
      exact failed

def firstAttempts (groups : List (List Attempt)) : List Attempt := groups.filterMap List.head?

theorem grouped_snoc {groups : List (List Char × List Attempt)} (a : Attempt)
    (filled : ∀ entry ∈ groups, entry.2 ≠ []) :
    (∀ entry ∈ setdefault a.questionId [] (· ++ [a]) groups, entry.2 ≠ []) ∧
    (firstAttempts ((setdefault a.questionId [] (· ++ [a]) groups).map Prod.snd) =
        firstAttempts (groups.map Prod.snd) ∨
      firstAttempts ((setdefault a.questionId [] (· ++ [a]) groups).map Prod.snd) =
        firstAttempts (groups.map Prod.snd) ++ [a]) := by
  unfold setdefault
  induction groups with
  | nil => simp [Upsert.upsert, firstAttempts]
  | cons entry rest ih =>
    obtain ⟨name, group⟩ := entry
    obtain ⟨first, others, rfl⟩ := List.exists_cons_of_ne_nil (filled (name, group) List.mem_cons_self)
    have restFilled : ∀ entry ∈ rest, entry.2 ≠ [] := fun entry mem => filled entry (List.mem_cons_of_mem _ mem)
    rw [Upsert.upsert]
    split_ifs with here
    · refine ⟨?_, .inl rfl⟩
      intro entry mem
      obtain rfl | mem := List.mem_cons.mp mem
      · simp
      · exact restFilled entry mem
    · obtain ⟨still, same | grown⟩ := ih restFilled
      · refine ⟨?_, .inl ?_⟩
        · intro entry mem
          obtain rfl | mem := List.mem_cons.mp mem
          · simp
          · exact still entry mem
        · simp only [firstAttempts, List.map_cons, List.filterMap_cons, List.head?_cons] at same ⊢
          rw [same]
      · refine ⟨?_, .inr ?_⟩
        · intro entry mem
          obtain rfl | mem := List.mem_cons.mp mem
          · simp
          · exact still entry mem
        · simp only [firstAttempts, List.map_cons, List.filterMap_cons, List.head?_cons] at grown ⊢
          rw [grown, List.cons_append]

theorem groupByQuestion_firsts (attempts : List Attempt) :
    (∀ entry ∈ groupByQuestion attempts, entry.2 ≠ []) ∧
    (firstAttempts ((groupByQuestion attempts).map Prod.snd)).Sublist attempts := by
  induction attempts using List.reverseRecOn with
  | nil => exact ⟨fun entry mem => by simp [groupByQuestion] at mem, List.Sublist.refl []⟩
  | append_singleton attempts a ih =>
    obtain ⟨filled, sub⟩ := ih
    rw [groupByQuestion_snoc]
    obtain ⟨still, same | grown⟩ := grouped_snoc a filled
    · exact ⟨still, same ▸ sub.trans (List.sublist_append_left attempts [a])⟩
    · exact ⟨still, grown ▸ sub.append_right [a]⟩

theorem length_firstAttempts {groups : List (List Attempt)} (filled : ∀ group ∈ groups, group ≠ []) :
    (firstAttempts groups).length = groups.length := by
  induction groups with
  | nil => rfl
  | cons group rest ih =>
    obtain ⟨first, others, rfl⟩ := List.exists_cons_of_ne_nil (filled group List.mem_cons_self)
    have := ih fun group mem => filled group (List.mem_cons_of_mem _ mem)
    simp only [firstAttempts, List.filterMap_cons, List.head?_cons, List.length_cons] at this ⊢
    rw [this]

theorem one_bounds (condition : Bool) : 0 ≤ one condition ∧ one condition ≤ 1 := by
  cases condition <;> decide

theorem one_not (condition : Bool) : one condition + one (!condition) = 1 := by
  cases condition <;> decide

/-- The numbers of a skill or a domain: its questions among the first attempts, its attempts among
those counted so far. -/
structure ScopeTally (read : Attempt → List Char) (firsts attempts : List Attempt) (code : List Char)
    (asked firstTries answered right : Int) : Prop where
  unique : asked = firsts.countP fun a => read a = code
  firstTry : 0 ≤ firstTries ∧ firstTries ≤ asked
  total : answered = attempts.countP fun a => read a = code
  correct : 0 ≤ right ∧ right ≤ answered

section
variable {read : Attempt → List Char} {firsts attempts : List Attempt} {code : List Char}
variable {asked firstTries answered right : Int}

theorem ScopeTally.question (tally : ScopeTally read firsts attempts code asked firstTries answered right)
    {first : Attempt} (here : read first = code) :
    ScopeTally read (firsts ++ [first]) attempts code (asked + 1)
      (firstTries + one first.isCorrect) answered right := by
  have := one_bounds first.isCorrect
  obtain ⟨unique, firstTry, total, correct⟩ := tally
  refine ⟨?_, by omega, total, correct⟩
  rw [List.countP_append, List.countP_singleton, unique]
  simp [here]

theorem ScopeTally.otherQuestion
    (tally : ScopeTally read firsts attempts code asked firstTries answered right)
    {first : Attempt} (apart : read first ≠ code) :
    ScopeTally read (firsts ++ [first]) attempts code asked firstTries answered right := by
  obtain ⟨unique, firstTry, total, correct⟩ := tally
  refine ⟨?_, firstTry, total, correct⟩
  rw [List.countP_append, List.countP_singleton, unique]
  simp [apart]

theorem ScopeTally.attempt (tally : ScopeTally read firsts attempts code asked firstTries answered right)
    {a : Attempt} (here : read a = code) :
    ScopeTally read firsts (attempts ++ [a]) code asked firstTries (answered + 1)
      (right + one a.isCorrect) := by
  have := one_bounds a.isCorrect
  obtain ⟨unique, firstTry, total, correct⟩ := tally
  refine ⟨unique, firstTry, ?_, by omega⟩
  rw [List.countP_append, List.countP_singleton, total]
  simp [here]

theorem ScopeTally.otherAttempt
    (tally : ScopeTally read firsts attempts code asked firstTries answered right)
    {a : Attempt} (apart : read a ≠ code) :
    ScopeTally read firsts (attempts ++ [a]) code asked firstTries answered right := by
  obtain ⟨unique, firstTry, total, correct⟩ := tally
  refine ⟨unique, firstTry, ?_, correct⟩
  rw [List.countP_append, List.countP_singleton, total]
  simp [apart]

theorem ScopeTally.bounds (tally : ScopeTally read firsts attempts code asked firstTries answered right)
    (sub : firsts.Sublist attempts) :
    0 ≤ firstTries ∧ firstTries ≤ asked ∧ asked ≤ answered ∧ 0 ≤ right ∧ right ≤ answered := by
  have := sub.countP_le (p := fun a => decide (read a = code))
  obtain ⟨unique, firstTry, total, correct⟩ := tally
  omega

end

section
variable {K V : Type} [DecidableEq K]

/-- `d.get(key)` -/
def valueAt (dict : List (K × V)) (key : K) : Option V := dict.lookup key

theorem valueAt_setdefault (key other : K) (fresh : V) (change : V → V) (dict : List (K × V)) :
    valueAt (setdefault key fresh change dict) other =
      if other = key then some (change ((valueAt dict key).getD fresh)) else valueAt dict other :=
  lookup_setdefault key other fresh change dict

theorem valueAt_of_mem {dict : List (K × V)} (distinct : (dict.map Prod.fst).Nodup) {key : K} {value : V}
    (mem : (key, value) ∈ dict) : valueAt dict key = some value :=
  Upsert.lookup_of_mem distinct mem

theorem setdefault_keys {key absent : K} {fresh : V} {change : V → V} {dict : List (K × V)} (apart : key ≠ absent)
    (keys : (dict.map Prod.fst).Nodup ∧ absent ∉ dict.map Prod.fst) :
    ((setdefault key fresh change dict).map Prod.fst).Nodup ∧
      absent ∉ (setdefault key fresh change dict).map Prod.fst := by
  have kept : ∀ entry : K × V, (entry.1 == key) = true → (entry.1, change entry.2).1 = entry.1 :=
    fun _ _ => rfl
  unfold setdefault
  rw [Upsert.map_upsert (f := Prod.fst) kept]
  split_ifs with there
  · exact keys
  · have unused : key ∉ dict.map Prod.fst := by
      intro mem
      obtain ⟨entry, present, same⟩ := List.mem_map.mp mem
      exact there (List.any_eq_true.mpr ⟨entry, present, beq_iff_eq.mpr same⟩)
    refine ⟨List.nodup_append.mpr ⟨keys.1, List.nodup_singleton key, ?_⟩, ?_⟩
    · intro code mem other one
      rw [List.mem_singleton.mp one]
      rintro rfl
      exact unused mem
    · rw [List.mem_append, List.mem_singleton]
      rintro (mem | same)
      · exact keys.2 mem
      · exact apart same.symm

theorem mem_adjust {key : K} {change : V → V} {dict : List (K × V)} {entry : K × V}
    (mem : entry ∈ adjust key change dict) :
    (entry ∈ dict ∧ entry.1 ≠ key) ∨ ∃ value, (key, value) ∈ dict ∧ entry = (key, change value) := by
  obtain ⟨old, there, rfl⟩ := List.mem_map.mp mem
  split_ifs with here
  · exact .inr ⟨old.2, here ▸ there, by rw [here]⟩
  · exact .inl ⟨there, here⟩

end

def SkillTally (firsts attempts : List Attempt) (code : List Char) (sk : SkillAgg) : Prop :=
  ScopeTally (·.skillCd) firsts attempts code sk.uniqueCount sk.firstTryCorrect sk.attempts sk.correct

def DomainTally (firsts attempts : List Attempt) (code : List Char) (dom : DomainAgg) : Prop :=
  ScopeTally (·.domainCd) firsts attempts code dom.uniqueCount dom.firstTryCorrect dom.totalAttempts
    dom.totalCorrect

def bandsOf (attempts : List Attempt) : List (Int × BandAgg) :=
  bandRange.map fun band => (band,
    { attempted := attempts.countP fun a => a.scoreBand = band
      correct := attempts.countP fun a => a.scoreBand = band && a.isCorrect
      totalTime := ((attempts.filter fun a => a.scoreBand = band).map (·.timeSpentSeconds)).sum })

theorem applyBand_bandsOf (attempts : List Attempt) (a : Attempt) :
    applyBand a (bandsOf attempts) = bandsOf (attempts ++ [a]) := by
  unfold applyBand adjust bandsOf
  rw [List.map_map]
  apply List.map_congr_left
  intro band _
  by_cases here : band = a.scoreBand
  · subst here
    cases correct : a.isCorrect <;> simp [one, correct]
  · simp [here, Ne.symm here]

structure ModuleTally (mod : ModuleAgg) : Prop where
  firstTry : 0 ≤ mod.firstTryCorrect ∧ mod.firstTryCorrect ≤ mod.uniqueAttempted
  upsolved : mod.upsolvedCount ≤ mod.uniqueCorrect
  correct : 0 ≤ mod.correctTotal ∧ mod.correctTotal ≤ mod.attemptsTotal

/-- What holds of the aggregates when the questions of these first attempts and these attempts
are counted. -/
structure Tally (firsts attempts : List Attempt) (all : Aggregates) : Prop where
  unique : all.totals.uniqueCorrect + all.totals.uniqueIncorrect = firsts.length
  modules : all.ebrw.uniqueAttempted + all.math.uniqueAttempted = firsts.length
  upsolved : all.totals.upsolved ≤ all.totals.uniqueCorrect
  firstTry : 0 ≤ all.totals.firstTryCorrect ∧ all.totals.firstTryCorrect ≤ firsts.length
  correct : 0 ≤ all.globalCorrect ∧ all.globalCorrect ≤ attempts.length
  ebrw : ModuleTally all.ebrw
  math : ModuleTally all.math
  domains : ∀ entry ∈ all.domains, DomainTally firsts attempts entry.1 entry.2
  skills : ∀ code ≠ [], ∀ name domainCode mod, SkillTally firsts attempts code
    ((valueAt all.skills code).getD ⟨name, domainCode, mod, 0, 0, 0, 0, 0⟩)
  skillCodes : (all.skills.map Prod.fst).Nodup ∧ [] ∉ all.skills.map Prod.fst
  globalBands : all.globalBands = bandsOf attempts
  ebrwBands : all.ebrw.bands = bandsOf (attempts.filter fun a => a.module != mathCode)
  mathBands : all.math.bands = bandsOf (attempts.filter fun a => a.module == mathCode)

section
variable (all : Aggregates) (isMath : Bool) (change : ModuleAgg → ModuleAgg)

@[simp] theorem onModule_totals : (all.onModule isMath change).totals = all.totals := by cases isMath <;> rfl

@[simp] theorem onModule_domains : (all.onModule isMath change).domains = all.domains := by cases isMath <;> rfl

@[simp] theorem onModule_skills : (all.onModule isMath change).skills = all.skills := by cases isMath <;> rfl

@[simp] theorem onModule_globalBands : (all.onModule isMath change).globalBands = all.globalBands := by
  cases isMath <;> rfl

@[simp] theorem onModule_globalCorrect : (all.onModule isMath change).globalCorrect = all.globalCorrect := by
  cases isMath <;> rfl

@[simp] theorem onModule_ebrw :
    (all.onModule isMath change).ebrw = if isMath then all.ebrw else change all.ebrw := by cases isMath <;> rfl

@[simp] theorem onModule_math :
    (all.onModule isMath change).math = if isMath then change all.math else all.math := by cases isMath <;> rfl

end

theorem SkillTally.relabel {firsts attempts : List Attempt} {code : List Char} {sk other : SkillAgg}
    (tally : SkillTally firsts attempts code sk) (unique : other.uniqueCount = sk.uniqueCount)
    (firstTry : other.firstTryCorrect = sk.firstTryCorrect) (total : other.attempts = sk.attempts)
    (correct : other.correct = sk.correct) : SkillTally firsts attempts code other := by
  unfold SkillTally at tally ⊢
  rwa [unique, firstTry, total, correct]

theorem SkillTally.fresh {firsts attempts : List Attempt} {code name domainCode mod : List Char}
    {skills : List (List Char × SkillAgg)} {other : SkillAgg}
    (tally : SkillTally firsts attempts code
      ((valueAt skills code).getD ⟨name, domainCode, mod, 0, 0, 0, 0, 0⟩))
    (zero : other.uniqueCount = 0 ∧ other.firstTryCorrect = 0 ∧ other.attempts = 0 ∧ other.correct = 0) :
    SkillTally firsts attempts code ((valueAt skills code).getD other) := by
  obtain ⟨unique, firstTry, total, correct⟩ := zero
  cases found : valueAt skills code with
  | some sk =>
    rw [found] at tally
    exact tally
  | none =>
    rw [found] at tally
    exact tally.relabel unique firstTry total correct

section
variable {firsts attempts : List Attempt} {all : Aggregates}

theorem ModuleTally.question {mod : ModuleAgg} (tally : ModuleTally mod) {right corrected tried : Bool}
    (known : corrected = true → right = true) :
    ModuleTally { mod with
      uniqueAttempted := mod.uniqueAttempted + 1
      uniqueCorrect := mod.uniqueCorrect + one right
      uniqueIncorrect := mod.uniqueIncorrect + one !right
      upsolvedCount := mod.upsolvedCount + one corrected
      firstTryCorrect := mod.firstTryCorrect + one tried } := by
  have first := one_bounds tried
  have solved : one corrected ≤ one right := by
    cases corrected with
    | false => exact (one_bounds right).1
    | true => rw [known rfl]
  obtain ⟨firstTry, upsolved, correct⟩ := tally
  exact ⟨by simp only; omega, by simp only; omega, correct⟩

theorem Tally.question (lookup : TaxonomyLookup) (tally : Tally firsts attempts all) {group : List Attempt}
    {first latest : Attempt} (starts : group.head? = some first) (ends : group.getLast? = some latest) :
    Tally (firsts ++ [first]) attempts (applyQuestion lookup all group) := by
  have known : isUpsolved group latest = true → latest.isCorrect = true := fun solved =>
    (Bool.and_eq_true_iff.mp solved).2
  have solved : one (isUpsolved group latest) ≤ one latest.isCorrect := by
    cases corrected : isUpsolved group latest with
    | false => exact (one_bounds _).1
    | true => rw [known corrected]
  have now := one_not latest.isCorrect
  have tried := one_bounds first.isCorrect
  unfold applyQuestion
  rw [starts, ends]
  constructor
  case unique =>
    have := tally.unique
    simp
    omega
  case modules =>
    have := tally.modules
    by_cases isMath : first.module = mathCode <;> simp [isMath] <;> omega
  case upsolved =>
    have := tally.upsolved
    simp
    omega
  case firstTry =>
    have := tally.firstTry
    simp
    omega
  case correct => simpa using tally.correct
  case ebrw =>
    by_cases isMath : first.module = mathCode
    · simpa [isMath] using tally.ebrw
    · simpa [isMath] using tally.ebrw.question known
  case math =>
    by_cases isMath : first.module = mathCode
    · simpa [isMath] using tally.math.question known
    · simpa [isMath] using tally.math
  case domains =>
    intro entry mem
    rw [onModule_domains] at mem
    dsimp only at mem
    obtain ⟨there, apart⟩ | ⟨dom, there, rfl⟩ := mem_adjust mem
    · exact ScopeTally.otherQuestion (tally.domains entry there) (Ne.symm apart)
    · exact ScopeTally.question (tally.domains (first.domainCd, dom) there) rfl
  case skills =>
    intro code named name domainCode mod
    rw [onModule_skills]
    have before := tally.skills code named name domainCode mod
    by_cases blank : first.skillCd = []
    · simp only [if_pos blank]
      exact ScopeTally.otherQuestion before (by rw [blank]; exact Ne.symm named)
    · simp only [if_neg blank]
      rw [valueAt_setdefault]
      by_cases here : code = first.skillCd
      · subst here
        rw [if_pos rfl]
        exact ScopeTally.question (before.fresh ⟨rfl, rfl, rfl, rfl⟩) rfl
      · rw [if_neg here]
        exact ScopeTally.otherQuestion before (Ne.symm here)
  case skillCodes =>
    rw [onModule_skills]
    by_cases blank : first.skillCd = []
    · simpa only [if_pos blank] using tally.skillCodes
    · simp only [if_neg blank]
      exact setdefault_keys blank tally.skillCodes
  case globalBands => simpa using tally.globalBands
  case ebrwBands =>
    by_cases isMath : first.module = mathCode <;> simpa [isMath] using tally.ebrwBands
  case mathBands =>
    by_cases isMath : first.module = mathCode <;> simpa [isMath] using tally.mathBands

theorem Tally.attempt (tally : Tally firsts attempts all) (a : Attempt) :
    Tally firsts (attempts ++ [a]) (applyAttempt all a) := by
  have right := one_bounds a.isCorrect
  unfold applyAttempt
  constructor
  case unique => simpa using tally.unique
  case modules =>
    by_cases isMath : a.module = mathCode <;> simpa [isMath] using tally.modules
  case upsolved => simpa using tally.upsolved
  case firstTry => simpa using tally.firstTry
  case correct =>
    have := tally.correct
    simp
    omega
  case ebrw =>
    obtain ⟨firstTry, upsolved, correct⟩ := tally.ebrw
    by_cases isMath : a.module = mathCode
    · simpa [isMath] using tally.ebrw
    · simp only [onModule_ebrw, beq_false_of_ne isMath, Bool.false_eq_true, if_false]
      exact ⟨firstTry, upsolved, by simp only; omega⟩
  case math =>
    obtain ⟨firstTry, upsolved, correct⟩ := tally.math
    by_cases isMath : a.module = mathCode
    · simp only [onModule_math, isMath, BEq.rfl, if_true]
      exact ⟨firstTry, upsolved, by simp only; omega⟩
    · simpa [isMath] using tally.math
  case domains =>
    intro entry mem
    rw [onModule_domains] at mem
    dsimp only at mem
    obtain ⟨there, apart⟩ | ⟨dom, there, rfl⟩ := mem_adjust mem
    · exact ScopeTally.otherAttempt (tally.domains entry there) (Ne.symm apart)
    · exact ScopeTally.attempt (tally.domains (a.domainCd, dom) there) rfl
  case skills =>
    intro code named name domainCode mod
    rw [onModule_skills]
    have before := tally.skills code named name domainCode mod
    by_cases blank : a.skillCd = []
    · simp only [if_pos blank]
      exact ScopeTally.otherAttempt before (by rw [blank]; exact Ne.symm named)
    · simp only [if_neg blank]
      rw [valueAt_setdefault]
      by_cases here : code = a.skillCd
      · subst here
        rw [if_pos rfl]
        exact ScopeTally.attempt (before.fresh ⟨rfl, rfl, rfl, rfl⟩) rfl
      · rw [if_neg here]
        exact ScopeTally.otherAttempt before (Ne.symm here)
  case skillCodes =>
    rw [onModule_skills]
    by_cases blank : a.skillCd = []
    · simpa only [if_pos blank] using tally.skillCodes
    · simp only [if_neg blank]
      exact setdefault_keys blank tally.skillCodes
  case globalBands =>
    rw [onModule_globalBands, tally.globalBands]
    exact applyBand_bandsOf attempts a
  case ebrwBands =>
    have bands := tally.ebrwBands
    by_cases isMath : a.module = mathCode
    · simpa [isMath] using bands
    · have kept : (attempts ++ [a]).filter (fun a => a.module != mathCode) =
          attempts.filter (fun a => a.module != mathCode) ++ [a] := by simp [isMath]
      rw [kept, ← applyBand_bandsOf, ← bands]
      simp [isMath]
  case mathBands =>
    have bands := tally.mathBands
    by_cases isMath : a.module = mathCode
    · have kept : (attempts ++ [a]).filter (fun a => a.module == mathCode) =
          attempts.filter (fun a => a.module == mathCode) ++ [a] := by simp [isMath]
      rw [kept, ← applyBand_bandsOf, ← bands]
      simp [isMath]
    · simpa [isMath] using bands

end

theorem Tally.empty (lookup : TaxonomyLookup) : Tally [] [] (emptyAggregates lookup) := by
  have none : ∀ read code, ScopeTally read [] [] code 0 0 0 0 := fun _ _ => ⟨rfl, by decide, rfl, by decide⟩
  have module : ModuleTally .empty := ⟨by decide, by decide, by decide⟩
  constructor
  case domains =>
    intro entry mem
    obtain ⟨⟨code, mod⟩, _, rfl⟩ := List.mem_map.mp mem
    exact none _ code
  case skills => exact fun code _ name domainCode mod => none _ code
  case skillCodes => exact ⟨List.nodup_nil, List.not_mem_nil⟩
  case ebrw => exact module
  case math => exact module
  case upsolved => exact le_rfl
  case firstTry => exact ⟨le_rfl, le_rfl⟩
  case correct => exact ⟨le_rfl, le_rfl⟩
  all_goals rfl

theorem Tally.questions (lookup : TaxonomyLookup) {groups : List (List Attempt)}
    (filled : ∀ group ∈ groups, group ≠ []) :
    Tally (firstAttempts groups) [] (groups.foldl (applyQuestion lookup) (emptyAggregates lookup)) := by
  induction groups using List.reverseRecOn with
  | nil => exact Tally.empty lookup
  | append_singleton groups group ih =>
    have before := ih fun other mem => filled other (List.mem_append_left _ mem)
    obtain ⟨first, others, rfl⟩ := List.exists_cons_of_ne_nil (filled group (by simp))
    have ends : (first :: others).getLast? = some ((first :: others).getLast (by simp)) :=
      List.getLast?_eq_some_getLast _
    have firsts : firstAttempts (groups ++ [first :: others]) = firstAttempts groups ++ [first] := by
      simp [firstAttempts]
    rw [List.foldl_append, firsts]
    exact before.question lookup rfl ends

theorem Tally.attempts {firsts : List Attempt} {all : Aggregates} (tally : Tally firsts [] all)
    (attempts : List Attempt) : Tally firsts attempts (perAttemptPass attempts all) := by
  induction attempts using List.reverseRecOn with
  | nil => exact tally
  | append_singleton attempts a ih =>
    rw [perAttemptPass, List.foldl_append]
    exact ih.attempt a

def ModuleSectionStats.percentages (stats : ModuleSectionStats) : List Int :=
  [stats.firstTryAccuracyPct, stats.overallAccuracyPct] ++
    (stats.domains.flatMap fun entry => [entry.2.firstTryAccuracyPct, entry.2.overallAccuracyPct]) ++
    stats.difficultyStats.map fun entry => entry.2.accuracyPct

def UserStats.percentages (stats : UserStats) : List Int :=
  [stats.firstTryOverallAccuracyPct, stats.overallAccuracyPct] ++ stats.ebrw.percentages ++ stats.math.percentages ++
    (stats.difficultyStats.map fun entry => entry.2.accuracyPct) ++
    (stats.domainStats.flatMap fun entry => [entry.2.firstTryAccuracyPct, entry.2.overallAccuracyPct]) ++
    (stats.skillStats.flatMap fun entry => [entry.2.firstTryAccuracyPct, entry.2.overallAccuracyPct]) ++
    (stats.weakestSkills ++ stats.strongestSkills).map (·.accuracyPct)

def IsPercentage (p : Int) : Prop := 0 ≤ p ∧ p ≤ 100

section
variable {firsts attempts : List Attempt} {all : Aggregates}

theorem Tally.skillStats (tally : Tally firsts attempts all) (sub : firsts.Sublist attempts)
    (lookup : TaxonomyLookup) :
    ∀ entry ∈ finalizeSkillStats (nameSkills lookup all.skills),
      (entry.2.firstTryCorrect ≤ entry.2.uniqueQuestions ∧ entry.2.uniqueQuestions ≤ entry.2.totalAttempts) ∧
      IsPercentage entry.2.firstTryAccuracyPct ∧ IsPercentage entry.2.overallAccuracyPct := by
  intro entry mem
  obtain ⟨named, there, rfl⟩ := List.mem_map.mp mem
  obtain ⟨⟨code, sk⟩, present, rfl⟩ := List.mem_map.mp there
  have some : code ≠ [] := by
    rintro rfl
    exact tally.skillCodes.2 (List.mem_map_of_mem (f := Prod.fst) present)
  have counted := tally.skills code some [] [] []
  rw [valueAt_of_mem tally.skillCodes.1 present] at counted
  obtain ⟨low, tried, asked, nonneg, right⟩ := ScopeTally.bounds counted sub
  have bounds := And.intro (And.intro tried asked) (And.intro (pct_bounds low tried) (pct_bounds nonneg right))
  by_cases unnamed : sk.name = []
  · simp only [if_pos unnamed]
    exact bounds
  · simp only [if_neg unnamed]
    exact bounds

theorem Tally.domainStats (tally : Tally firsts attempts all) (sub : firsts.Sublist attempts)
    (lookup : TaxonomyLookup) :
    ∀ entry ∈ finalizeDomainStats lookup all.domains,
      (entry.2.firstTryCorrect ≤ entry.2.uniqueQuestions ∧ entry.2.uniqueQuestions ≤ entry.2.totalAttempts) ∧
      IsPercentage entry.2.firstTryAccuracyPct ∧ IsPercentage entry.2.overallAccuracyPct := by
  intro entry mem
  obtain ⟨⟨code, dom⟩, present, rfl⟩ := List.mem_map.mp mem
  obtain ⟨low, tried, asked, nonneg, right⟩ := ScopeTally.bounds (tally.domains (code, dom) present) sub
  exact ⟨⟨tried, asked⟩, pct_bounds low tried, pct_bounds nonneg right⟩

theorem finalizeBands_percentage (attempts : List Attempt) :
    ∀ entry ∈ finalizeBands (bandsOf attempts), IsPercentage entry.2.accuracyPct := by
  intro entry mem
  obtain ⟨bucket, there, rfl⟩ := List.mem_map.mp mem
  obtain ⟨band, _, rfl⟩ := List.mem_map.mp there
  have fewer : (attempts.countP fun a => a.scoreBand = band && a.isCorrect) ≤
      attempts.countP fun a => a.scoreBand = band :=
    List.countP_mono_left fun a _ both => by
      rw [Bool.and_eq_true] at both
      exact both.1
  exact pct_bounds (by simp only; omega) (by simp only; omega)

theorem lookup_finalizeBands (attempts : List Attempt) {band : Int} (known : band ∈ bandRange) :
    ∃ stat, (finalizeBands (bandsOf attempts)).lookup band = some stat ∧
      stat.attempted = attempts.countP (fun a => a.scoreBand = band) ∧
      stat.correct = attempts.countP (fun a => a.scoreBand = band && a.isCorrect) := by
  have keys : (finalizeBands (bandsOf attempts)).map Prod.fst = bandRange := by
    simp [finalizeBands, bandsOf, Function.comp_def]
  have distinct : ((finalizeBands (bandsOf attempts)).map Prod.fst).Nodup := by
    rw [keys]
    decide
  refine ⟨_, Upsert.lookup_of_mem distinct (List.mem_map.mpr ⟨_, List.mem_map.mpr ⟨band, known, rfl⟩, rfl⟩), ?_, ?_⟩
  · rfl
  · rfl

theorem percentages_module (lookup : TaxonomyLookup) (moduleCode : List Char) {mod : ModuleAgg}
    {domainStats : List (List Char × DomainPerformance)} {own : List Attempt} (tally : ModuleTally mod)
    (bands : mod.bands = bandsOf own)
    (domains : ∀ entry ∈ domainStats,
      IsPercentage entry.2.firstTryAccuracyPct ∧ IsPercentage entry.2.overallAccuracyPct) :
    ∀ p ∈ (finalizeModuleStats lookup mod moduleCode domainStats).percentages, IsPercentage p := by
  intro p mem
  simp only [ModuleSectionStats.percentages, List.mem_append, List.mem_flatMap, List.mem_map] at mem
  obtain (mem | ⟨entry, there, mem⟩) | ⟨entry, there, rfl⟩ := mem
  · obtain rfl | mem := List.mem_cons.mp mem
    · exact pct_bounds tally.firstTry.1 tally.firstTry.2
    · rw [List.mem_singleton.mp mem]
      exact pct_bounds tally.correct.1 tally.correct.2
  · obtain ⟨tried, overall⟩ := domains entry (List.mem_of_mem_filter there)
    obtain rfl | mem := List.mem_cons.mp mem
    · exact tried
    · rw [List.mem_singleton.mp mem]
      exact overall
  · rw [finalizeModuleStats, bands] at there
    exact finalizeBands_percentage own entry there

theorem rankSkills_percentage {skillStats : List (List Char × SkillPerformance)}
    (skills : ∀ entry ∈ skillStats, IsPercentage entry.2.firstTryAccuracyPct) :
    ∀ ranking ∈ rankSkills skillStats, IsPercentage ranking.accuracyPct := by
  intro ranking mem
  rw [rankSkills, List.mem_mergeSort] at mem
  obtain ⟨entry, there, rfl⟩ := List.mem_map.mp mem
  exact skills entry (List.mem_of_mem_filter there)

end

/-- The relations between the numbers of one student's statistics. -/
structure Consistent (stats : UserStats) : Prop where
  questions : stats.uniqueCorrect + stats.uniqueIncorrect = stats.uniqueQuestionsAttempted
  modules : stats.uniqueQuestionsAttempted = stats.ebrw.uniqueAttempted + stats.math.uniqueAttempted
  upsolved : stats.totalUpsolvedCount ≤ stats.uniqueCorrect ∧ stats.ebrw.upsolvedCount ≤ stats.ebrw.uniqueCorrect ∧
    stats.math.upsolvedCount ≤ stats.math.uniqueCorrect
  bandKeys : stats.difficultyStats.map Prod.fst = bandRange
  bands : ∀ band ∈ bandRange, ∃ whole ebrw math,
    stats.difficultyStats.lookup band = some whole ∧ stats.ebrw.difficultyStats.lookup band = some ebrw ∧
    stats.math.difficultyStats.lookup band = some math ∧
    whole.attempted = ebrw.attempted + math.attempted ∧ whole.correct = ebrw.correct + math.correct
  skills : ∀ entry ∈ stats.skillStats, entry.2.firstTryCorrect ≤ entry.2.uniqueQuestions ∧
    entry.2.uniqueQuestions ≤ entry.2.totalAttempts
  domains : ∀ entry ∈ stats.domainStats, entry.2.firstTryCorrect ≤ entry.2.uniqueQuestions ∧
    entry.2.uniqueQuestions ≤ entry.2.totalAttempts
  percentages : ∀ p ∈ stats.percentages, 0 ≤ p ∧ p ≤ 100

theorem countP_modules (attempts : List Attempt) (p : Attempt → Bool) :
    attempts.countP p = (attempts.filter fun a => a.module != mathCode).countP p +
      (attempts.filter fun a => a.module == mathCode).countP p := by
  induction attempts with
  | nil => rfl
  | cons a rest ih =>
    by_cases isMath : a.module = mathCode
    · have counted := List.countP_cons (p := p) (a := a) (l := rest.filter fun a => a.module == mathCode)
      simp only [List.filter_cons, isMath, List.countP_cons, ih, bne_self_eq_false, BEq.rfl, if_true,
        Bool.false_eq_true, if_false]
      omega
    · simp only [List.filter_cons, bne_iff_ne.mpr isMath, beq_false_of_ne isMath, List.countP_cons, ih, if_true,
        Bool.false_eq_true, if_false]
      omega

theorem statsInOrder_laws {attempts : List Attempt} {today : Date} {taxonomy : Taxonomy} {stats : UserStats}
    (made : statsInOrder attempts today taxonomy = .ok stats) :
    Consistent stats ∧ currentStreak attempts today = .ok stats.currentStreakDays := by
  obtain ⟨filled, sub⟩ := groupByQuestion_firsts attempts
  have nonempty : ∀ group ∈ (groupByQuestion attempts).map Prod.snd, group ≠ [] := by
    intro group mem
    obtain ⟨entry, there, rfl⟩ := List.mem_map.mp mem
    exact filled entry there
  have counted := length_firstAttempts nonempty
  rw [List.length_map] at counted
  have tally := (Tally.questions (buildLookup taxonomy) nonempty).attempts attempts
  change Tally _ attempts (perAttemptPass attempts (perQuestionPass (buildLookup taxonomy)
    (groupByQuestion attempts))) at tally
  unfold statsInOrder at made
  cases streak : currentStreak attempts today with
  | error failure =>
    rw [streak] at made
    cases made
  | ok days =>
    rw [streak] at made
    cases made
    generalize perAttemptPass attempts (perQuestionPass (buildLookup taxonomy) (groupByQuestion attempts)) = all
      at tally ⊢
    have skills := tally.skillStats sub (buildLookup taxonomy)
    have domains := tally.domainStats sub (buildLookup taxonomy)
    refine ⟨?_, rfl⟩
    constructor
    case questions =>
      dsimp only
      rw [tally.unique, counted]
    case modules =>
      have sum := tally.modules.symm
      rwa [counted] at sum
    case upsolved => exact ⟨tally.upsolved, tally.ebrw.upsolved, tally.math.upsolved⟩
    case bandKeys =>
      rw [tally.globalBands]
      simp [finalizeBands, bandsOf, Function.comp_def]
    case bands =>
      intro band known
      obtain ⟨whole, found, attempted, correct⟩ := lookup_finalizeBands attempts known
      obtain ⟨ebrw, foundEbrw, attemptedEbrw, correctEbrw⟩ :=
        lookup_finalizeBands (attempts.filter fun a => a.module != mathCode) known
      obtain ⟨math, foundMath, attemptedMath, correctMath⟩ :=
        lookup_finalizeBands (attempts.filter fun a => a.module == mathCode) known
      rw [← tally.globalBands] at found
      rw [← tally.ebrwBands] at foundEbrw
      rw [← tally.mathBands] at foundMath
      refine ⟨whole, ebrw, math, found, foundEbrw, foundMath, ?_, ?_⟩
      · rw [attempted, attemptedEbrw, attemptedMath, countP_modules]
        push_cast
        rfl
      · rw [correct, correctEbrw, correctMath, countP_modules]
        push_cast
        rfl
    case skills => exact fun entry mem => (skills entry mem).1
    case domains => exact fun entry mem => (domains entry mem).1
    case percentages =>
      have ranked := rankSkills_percentage fun entry mem => (skills entry mem).2.1
      have ebrw := percentages_module (buildLookup taxonomy) Module.reading.code
        tally.ebrw tally.ebrwBands fun entry mem => (domains entry mem).2
      have math := percentages_module (buildLookup taxonomy) mathCode
        tally.math tally.mathBands fun entry mem => (domains entry mem).2
      intro p mem
      simp only [UserStats.percentages, List.mem_append, List.mem_flatMap, List.mem_map] at mem
      obtain (((((mem | mem) | mem) | ⟨bucket, there, rfl⟩) | ⟨entry, there, mem⟩) | ⟨entry, there, mem⟩) |
        ⟨ranking, there, rfl⟩ := mem
      · obtain rfl | mem := List.mem_cons.mp mem
        · exact pct_bounds tally.firstTry.1 (counted ▸ tally.firstTry.2)
        · rw [List.mem_singleton.mp mem]
          exact pct_bounds tally.correct.1 tally.correct.2
      · exact ebrw p mem
      · exact math p mem
      · rw [tally.globalBands] at there
        exact finalizeBands_percentage attempts bucket there
      · obtain rfl | mem := List.mem_cons.mp mem
        · exact (domains entry there).2.1
        · rw [List.mem_singleton.mp mem]
          exact (domains entry there).2.2
      · obtain rfl | mem := List.mem_cons.mp mem
        · exact (skills entry there).2.1
        · rw [List.mem_singleton.mp mem]
          exact (skills entry there).2.2
      · obtain weakest | strongest := there
        · exact ranked ranking (List.mem_of_mem_take weakest)
        · exact ranked ranking (List.mem_reverse.mp (List.mem_of_mem_take strongest))

theorem walkBack_congr {dates others : List Date} (same : ∀ day, day ∈ dates ↔ day ∈ others) (left : Nat)
    (day : Date) (streak : Int) : walkBack dates left day streak = walkBack others left day streak := by
  induction left generalizing day streak with
  | zero => rfl
  | succ left ih =>
    rw [walkBack, walkBack]
    apply if_congr (same day) _ rfl
    cases day.previous with
    | none => rfl
    | some before => exact ih before (streak + 1)

theorem currentStreak_perm {attempts others : List Attempt} (perm : attempts.Perm others) (today : Date) :
    currentStreak attempts today = currentStreak others today := by
  have dates := perm.map (·.localDate)
  have same : ∀ day, day ∈ attempts.map (·.localDate) ↔ day ∈ others.map (·.localDate) :=
    fun day => dates.mem_iff
  unfold currentStreak
  simp only [same, dates.length_eq, walkBack_congr same]

theorem isDate_first : Calendar.isDate 1 1 1 := by decide

def firstDay : Date := ⟨1, 1, 1, isDate_first⟩

theorem computeUserStats_of_ordered {attempts : List Attempt}
    (ordered : attempts.Pairwise fun a b => notAfter a b = true) (today : Date) (taxonomy : Taxonomy) :
    computeUserStats attempts today taxonomy = statsInOrder attempts today taxonomy := by
  rw [computeUserStats, orderAttempts, List.mergeSort_of_pairwise ordered]

def mayAttempt (id : Option Int) (day : Nat) (valid : Calendar.isDate 2024 5 day) (isCorrect : Bool) : Attempt where
  id := id
  userId := 1
  clientAttemptId := 1
  questionId := ['q']
  module := mathCode
  domainCd := []
  skillCd := ['s']
  scoreBand := 3
  userAnswer := ['A']
  isCorrect := isCorrect
  timeSpentSeconds := 20
  solvedAt := 0
  localDate := ⟨2024, 5, day, valid⟩

end Counselle.Sat

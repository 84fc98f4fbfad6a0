import Counselle.Cds.ClaimOrder

/-! What the outcome of a metric depends on: findings in another order, further findings,
the findings about other metrics, and the packet that a correction starts from. -/
namespace Counselle.Cds
open PyJson (JsonValue PyFloat)
open PyText (PyError)

def Agrees (outcomes : List OutcomeKey) : Prop :=
  ∃ key ∈ outcomes, (∀ outcome ∈ outcomes, outcome = key) ∧ (key.2 = .nan → outcomes.length = 1)

theorem Agrees.perm {outcomes others : List OutcomeKey} (agrees : Agrees outcomes) (perm : outcomes.Perm others) :
    Agrees others := by
  obtain ⟨key, isIn, every, single⟩ := agrees
  refine ⟨key, perm.mem_iff.mp isIn, fun outcome isIn => every outcome (perm.mem_iff.mpr isIn), fun isNan => ?_⟩
  rw [← perm.length_eq]
  exact single isNan

theorem Agrees.of_subperm {outcomes others : List OutcomeKey} (agrees : Agrees others)
    (fewer : outcomes.Subperm others) (some : outcomes ≠ []) : Agrees outcomes := by
  obtain ⟨key, isIn, every, single⟩ := agrees
  obtain ⟨first, isFirst⟩ := List.exists_mem_of_ne_nil outcomes some
  obtain rfl := every first (fewer.subset isFirst)
  refine ⟨first, isFirst, fun outcome isIn => every outcome (fewer.subset isIn), fun isNan => ?_⟩
  have most := fewer.length_le.trans_eq (single isNan)
  have least := List.length_pos_of_mem isFirst
  omega

theorem length_foldl_distinct (seen outcomes : List OutcomeKey) : seen.length ≤
    (outcomes.foldl (fun seen outcome => if seen.any (sameOutcome outcome) then seen else seen ++ [outcome]) seen).length := by
  induction outcomes generalizing seen with
  | nil => exact le_rfl
  | cons outcome rest ih =>
    rw [List.foldl_cons]
    split
    · exact ih seen
    · refine le_trans ?_ (ih _)
      simp

theorem length_foldl_single (key : OutcomeKey) (outcomes : List OutcomeKey) :
    (outcomes.foldl (fun seen outcome => if seen.any (sameOutcome outcome) then seen else seen ++ [outcome])
      [key]).length = 1 ↔ ∀ outcome ∈ outcomes, sameOutcome outcome key = true := by
  induction outcomes with
  | nil => simp
  | cons outcome rest ih =>
    rw [List.foldl_cons, List.forall_mem_cons]
    by_cases same : sameOutcome outcome key = true
    · simp only [List.any_cons, List.any_nil, Bool.or_false, same, if_true, true_and]
      exact ih
    · have more := length_foldl_distinct [key, outcome] rest
      simp only [List.any_cons, List.any_nil, Bool.or_false, same, Bool.false_eq_true, if_false, false_and,
        iff_false, List.cons_append, List.nil_append]
      intro one
      rw [one] at more
      simp at more

theorem length_distinctOutcomes_eq_zero (outcomes : List OutcomeKey) :
    (distinctOutcomes outcomes).length = 0 ↔ outcomes = [] := by
  cases outcomes with
  | nil => simp [distinctOutcomes]
  | cons key rest =>
    have more := length_foldl_distinct [key] rest
    simp only [distinctOutcomes, List.foldl_cons, List.any_nil, Bool.false_eq_true, if_false, List.nil_append,
      reduceCtorEq, iff_false]
    intro zero
    rw [zero] at more
    simp at more

theorem length_distinctOutcomes_eq_one (outcomes : List OutcomeKey) :
    (distinctOutcomes outcomes).length = 1 ↔ Agrees outcomes := by
  cases outcomes with
  | nil => simp [distinctOutcomes, Agrees]
  | cons key rest =>
    rw [distinctOutcomes, List.foldl_cons, List.any_nil, if_neg Bool.false_ne_true, List.nil_append,
      length_foldl_single]
    simp only [sameOutcome, Bool.and_eq_true, decide_eq_true_eq]
    constructor
    · intro every
      refine ⟨key, List.mem_cons_self, List.forall_mem_cons.mpr ⟨rfl, fun outcome isIn => (every outcome isIn).1⟩, ?_⟩
      intro isNan
      cases rest with
      | nil => rfl
      | cons outcome rest =>
        obtain ⟨same, comparable⟩ := every outcome List.mem_cons_self
        exact absurd (same ▸ isNan) comparable
    · rintro ⟨other, -, every, single⟩ outcome isIn
      obtain rfl := every key List.mem_cons_self
      obtain rfl := every outcome (List.mem_cons_of_mem _ isIn)
      refine ⟨rfl, fun isNan => ?_⟩
      have one := single isNan
      have some := List.length_pos_of_mem isIn
      rw [List.length_cons] at one
      omega

def rejected : List String → PacketMetric
  | [] => unclaimed .notExtracted none
  | code :: _ => unclaimed .invalid (some code)

inductive Resolves (claims : List Claim) (errors : List String) (outcomes : List OutcomeKey) :
    PacketMetric → Prop where
  | none : claims = [] → Resolves claims errors outcomes (rejected errors)
  | agreed {claim : Claim} : Agrees outcomes → (∀ claim ∈ claims, ∃ key, claim.key = .ok key) →
      leading claims = some claim → Resolves claims errors outcomes claim.metric
  | conflict : claims ≠ [] → ¬ Agrees outcomes → Resolves claims errors outcomes (unclaimed .conflict .none)

theorem earliest_keyed {claims : List Claim} {keyed : List (ClaimKey × Claim)}
    (isKeyed : (claims.mapM fun claim => claim.key.map fun key => (key, claim)) = .ok keyed) :
    earliest keyed = leading claims := by
  obtain ⟨rfl, -⟩ := keyed_ok isKeyed
  rw [earliest, pyMin_map, Option.map_map, leading]
  exact Option.map_id'

theorem keyed_iff {claims : List Claim} :
    (∃ keyed, (claims.mapM fun claim => claim.key.map fun key => (key, claim)) = .ok keyed) ↔
      ∀ claim ∈ claims, ∃ key, claim.key = .ok key := by
  rw [Fallible.mapM_isOk_iff]
  apply forall₂_congr
  intro claim _
  simp [Fallible.map_ok_iff]

theorem claims_eq_nil {claims : List Claim} {outcomes : List OutcomeKey}
    (areOutcomes : claims.mapM Claim.outcome = .ok outcomes) : outcomes = [] ↔ claims = [] := by
  have lengths := (Fallible.mapM_ok_iff.mp areOutcomes).length_eq
  rw [← List.length_eq_zero_iff, ← List.length_eq_zero_iff, lengths]

theorem metricOutcome_ok_iff {claims : List Claim} {errors : List String} {metric : PacketMetric} :
    metricOutcome claims errors = .ok metric ↔
      ∃ outcomes, claims.mapM Claim.outcome = .ok outcomes ∧ Resolves claims errors outcomes metric := by
  unfold metricOutcome
  rw [Fallible.bind_ok_iff]
  apply exists_congr
  intro outcomes
  apply and_congr_right
  intro areOutcomes
  split
  case h_1 zero =>
    have none := (claims_eq_nil areOutcomes).mp ((length_distinctOutcomes_eq_zero outcomes).mp zero)
    constructor
    · intro resolved
      obtain rfl := Except.ok.inj resolved
      cases errors <;> exact .none none
    · rintro (_ | ⟨agrees, -, -⟩ | ⟨some, -⟩)
      · cases errors <;> rfl
      · rw [← length_distinctOutcomes_eq_one, zero] at agrees
        cases agrees
      · exact absurd none some
  case h_2 one =>
    have agrees := (length_distinctOutcomes_eq_one outcomes).mp one
    have some : claims ≠ [] := by
      rw [ne_eq, ← claims_eq_nil areOutcomes, ← length_distinctOutcomes_eq_zero, one]
      exact one_ne_zero
    obtain ⟨least, isLeast⟩ : ∃ least, leading claims = .some least := pyMin_isSome some
    rw [Fallible.bind_ok_iff]
    constructor
    · rintro ⟨keyed, isKeyed, resolved⟩
      rw [earliest_keyed isKeyed, isLeast] at resolved
      obtain rfl := Except.ok.inj resolved
      exact .agreed agrees (keyed_iff.mp ⟨keyed, isKeyed⟩) isLeast
    · rintro (none | ⟨-, written, isLeading⟩ | ⟨-, disagree⟩)
      · exact absurd none some
      · obtain ⟨keyed, isKeyed⟩ := keyed_iff.mpr written
        refine ⟨keyed, isKeyed, ?_⟩
        rw [earliest_keyed isKeyed, isLeading]
      · exact absurd agrees disagree
  case h_3 zero one =>
    have disagree : ¬ Agrees outcomes := fun agrees => one ((length_distinctOutcomes_eq_one outcomes).mpr agrees)
    have some : claims ≠ [] := fun none =>
      zero ((length_distinctOutcomes_eq_zero outcomes).mpr ((claims_eq_nil areOutcomes).mpr none))
    constructor
    · intro resolved
      obtain rfl := Except.ok.inj resolved
      exact .conflict some disagree
    · rintro (none | ⟨agrees, -, -⟩ | -)
      · exact absurd none some
      · exact absurd agrees disagree
      · rfl

/-- One outcome, or two rejections under the codes of different findings. -/
def SameButCode (metric other : PacketMetric) : Prop :=
  metric = other ∨ ∃ code otherCode, metric = unclaimed .invalid (some code) ∧
    other = unclaimed .invalid (some otherCode)

theorem rejected_perm {errors others : List String} (perm : others.Perm errors) :
    SameButCode (rejected errors) (rejected others) := by
  cases errors with
  | nil =>
    rw [List.perm_nil.mp perm]
    exact Or.inl rfl
  | cons code rest =>
    cases others with
    | nil => exact absurd (List.nil_perm.mp perm) (List.cons_ne_nil _ _)
    | cons otherCode others => exact Or.inr ⟨code, otherCode, rfl, rfl⟩

theorem agreed_inj {claims : List Claim} {outcomes : List OutcomeKey} (agrees : Agrees outcomes)
    (areOutcomes : claims.mapM Claim.outcome = .ok outcomes) (scalars : ∀ claim ∈ claims, Scalar claim.value)
    {claim other : Claim} (isIn : claim ∈ claims) (otherIn : other ∈ claims)
    (same : claim.position = other.position) : claim = other := by
  obtain ⟨key, -, every, single⟩ := agrees
  by_cases isNan : key.2 = .nan
  · have one := (Fallible.mapM_ok_iff.mp areOutcomes).length_eq.trans (single isNan)
    obtain ⟨only, rfl⟩ := List.length_eq_one_iff.mp one
    rw [List.mem_singleton.mp isIn, List.mem_singleton.mp otherIn]
  · obtain ⟨outcome, isOutcome, resolved⟩ := Fallible.mapM_mem areOutcomes claim isIn
    obtain ⟨otherOutcome, otherIsOutcome, otherResolved⟩ := Fallible.mapM_mem areOutcomes other otherIn
    obtain rfl := every outcome isOutcome
    obtain rfl := every otherOutcome otherIsOutcome
    exact position_inj (scalars claim isIn) (scalars other otherIn) resolved otherResolved isNan same

theorem metricOutcome_perm {claims others : List Claim} {errors otherErrors : List String}
    (perm : others.Perm claims) (codes : otherErrors.Perm errors) (scalars : ∀ claim ∈ claims, Scalar claim.value)
    {metric : PacketMetric} (resolved : metricOutcome claims errors = .ok metric) :
    ∃ other, metricOutcome others otherErrors = .ok other ∧ SameButCode metric other := by
  obtain ⟨outcomes, areOutcomes, resolves⟩ := metricOutcome_ok_iff.mp resolved
  obtain ⟨permuted, arePermuted, same⟩ := Fallible.mapM_perm perm areOutcomes
  cases resolves with
  | none none =>
    subst none
    obtain rfl := List.perm_nil.mp perm
    exact ⟨_, metricOutcome_ok_iff.mpr ⟨permuted, arePermuted, .none rfl⟩, rejected_perm codes⟩
  | conflict some disagree =>
    refine ⟨_, metricOutcome_ok_iff.mpr ⟨permuted, arePermuted, .conflict ?_ ?_⟩, Or.inl rfl⟩
    · rintro rfl
      exact some (List.nil_perm.mp perm)
    · exact fun agrees => disagree (agrees.perm same)
  | @agreed claim agrees written isLeading =>
    obtain ⟨other, isOther⟩ : ∃ other, leading others = some other := by
      apply pyMin_isSome
      rintro rfl
      rw [List.nil_perm.mp perm] at isLeading
      cases isLeading
    refine ⟨_, metricOutcome_ok_iff.mpr ⟨permuted, arePermuted, .agreed (agrees.perm same.symm)
      (fun claim isIn => written claim (perm.mem_iff.mp isIn)) isOther⟩, Or.inl (congrArg Claim.metric ?_)⟩
    exact agreed_inj agrees areOutcomes scalars (pyMin_mem isLeading) (perm.mem_iff.mp (pyMin_mem isOther))
      (position_leading perm.symm isLeading isOther)

theorem metricOutcome_conflict {claims others : List Claim} {errors otherErrors : List String}
    (fewer : claims.Subperm others) {metric other : PacketMetric} (resolved : metricOutcome claims errors = .ok metric)
    (conflict : metric.extractionStatus = .conflict) (further : metricOutcome others otherErrors = .ok other) :
    other = metric := by
  obtain ⟨outcomes, areOutcomes, resolves⟩ := metricOutcome_ok_iff.mp resolved
  obtain ⟨more, areMore, resolvesMore⟩ := metricOutcome_ok_iff.mp further
  cases resolves with
  | none => cases errors <;> cases conflict
  | agreed => cases conflict
  | conflict some disagree =>
    cases resolvesMore with
    | none none =>
      subst none
      exact absurd (List.subperm_nil.mp fewer) some
    | agreed agrees =>
      apply absurd _ disagree
      exact agrees.of_subperm (Fallible.mapM_subperm fewer areOutcomes areMore) (by rwa [ne_eq, claims_eq_nil areOutcomes])
    | conflict => rfl

def verdictOf (metric : List (String × JsonValue)) (pages : Int) (finding : Finding) : Option (String ⊕ Claim) :=
  match collectClaim finding metric pages with
  | .ok verdict => verdict
  | .error _ => none

theorem claimOf_eq (metric : List (String × JsonValue)) (pages : Int) (finding : Finding) :
    claimOf metric pages finding = (verdictOf metric pages finding).bind Sum.getRight? := by
  unfold claimOf verdictOf
  rcases collectClaim finding metric pages with _ | _ | _ | _ <;> rfl

/-- The codes under which the findings about a metric are rejected, in their order. -/
def codesAbout (findings : List Finding) (allowed : List String) (pages : Int)
    (entry : String × List (String × JsonValue)) : List String :=
  (findingsAbout findings allowed entry.1).filterMap fun finding =>
    (verdictOf entry.2 pages finding).bind Sum.getLeft?

theorem findingsAbout_cons (finding : Finding) (findings : List Finding) (allowed : List String) (id : String) :
    findingsAbout (finding :: findings) allowed id =
      if finding.metricId = id ∧ allowed.contains id = true then finding :: findingsAbout findings allowed id
      else findingsAbout findings allowed id := by
  rw [findingsAbout, List.filter_cons]
  simp only [Bool.and_eq_true, decide_eq_true_eq, findingsAbout]

theorem collectClaims_codes {findings : List Finding}
    {entries : List (String × List (String × JsonValue))} {allowed : List String} {pages : Int}
    {verdicts : List (String × (String ⊕ Claim))} (distinct : (entries.map Prod.fst).Nodup)
    (collected : collectClaims findings entries allowed pages = .ok verdicts)
    {entry : String × List (String × JsonValue)} (isIn : entry ∈ entries) :
    errorsOf verdicts entry.1 = codesAbout findings allowed pages entry := by
  induction findings generalizing verdicts with
  | nil =>
    obtain rfl := Except.ok.inj collected
    rfl
  | cons finding findings ih =>
    obtain ⟨verdict, isVerdict, collected⟩ := Fallible.bind_ok_iff.mp collected
    obtain ⟨later, areLater, collected⟩ := Fallible.bind_ok_iff.mp collected
    have rest := ih areLater
    rw [codesAbout, findingsAbout_cons]
    rw [collectFinding] at isVerdict
    by_cases here : finding.metricId = entry.1
    · rw [here, Upsert.lookup_of_mem distinct isIn] at isVerdict
      by_cases isAllowed : allowed.contains entry.1 = true
      · simp only [isAllowed, if_true] at isVerdict
        have same : verdictOf entry.2 pages finding = verdict := by rw [verdictOf, isVerdict]
        rw [if_pos ⟨here, isAllowed⟩, List.filterMap_cons, same, ← codesAbout, ← rest]
        cases verdict with
        | none =>
          obtain rfl := Except.ok.inj collected
          rfl
        | some verdict =>
          obtain rfl := Except.ok.inj collected
          cases verdict <;> simp [errorsOf, here]
      · rw [if_neg (fun both => isAllowed both.2), ← codesAbout, ← rest]
        simp only [isAllowed, Bool.false_eq_true, if_false] at isVerdict
        obtain rfl := Except.ok.inj isVerdict
        obtain rfl := Except.ok.inj collected
        rfl
    · rw [if_neg (fun both => here both.1), ← codesAbout, ← rest]
      cases verdict with
      | none =>
        obtain rfl := Except.ok.inj collected
        rfl
      | some verdict =>
        obtain rfl := Except.ok.inj collected
        simp [errorsOf, here]

theorem collectClaims_isOk {findings : List Finding}
    {entries : List (String × List (String × JsonValue))} {allowed : List String} {pages : Int} :
    (∃ verdicts, collectClaims findings entries allowed pages = .ok verdicts) ↔
      ∀ finding ∈ findings, ∃ verdict, collectFinding finding entries allowed pages = .ok verdict := by
  induction findings with
  | nil => simp [collectClaims]
  | cons finding findings ih =>
    rw [List.forall_mem_cons, ← ih]
    simp only [collectClaims, Fallible.bind_ok_iff]
    constructor
    · rintro ⟨_, verdict, isVerdict, later, areLater, -⟩
      exact ⟨⟨verdict, isVerdict⟩, ⟨later, areLater⟩⟩
    · rintro ⟨⟨verdict, isVerdict⟩, ⟨later, areLater⟩⟩
      exact ⟨_, verdict, isVerdict, later, areLater, rfl⟩

/-- `_collect_claims` and `_resolve_domain_metrics`: the outcome of every metric of the
domain. -/
def BuildArgs.outcomes (args : BuildArgs) : Except PyError (List (String × PacketMetric)) := do
  let domainMetrics ← domainMetricDefinitions args.manifestContent args.domainId
  let allowed := args.allowedMetricIds.getD (domainMetrics.map Prod.fst)
  let verdicts ← collectClaims args.findings domainMetrics allowed args.documentPageCount
  domainMetrics.mapM fun metric =>
    (resolveMetric verdicts args.baseMetrics metric.1).map fun outcome => (metric.1, outcome)

theorem buildPacket_outcomes {args : BuildArgs} {packet : Packet} (built : buildPacket args = .ok packet) :
    args.outcomes = .ok packet.metrics := by
  obtain ⟨entries, verdicts, _, defined, collected, resolved, -⟩ := buildPacket_ok built
  apply Fallible.bind_ok_iff.mpr
  refine ⟨entries, defined, Fallible.bind_ok_iff.mpr ⟨verdicts, collected, Fallible.mapM_ok_iff.mpr ?_⟩⟩
  apply resolved.imp
  rintro entry metric ⟨named, resolved⟩
  exact Fallible.map_ok_iff.mpr ⟨metric.2, resolved, Prod.ext named.symm rfl⟩

def BuildArgs.outcomeOf (args : BuildArgs) (allowed : List String) (entry : String × List (String × JsonValue)) :
    Except PyError PacketMetric :=
  match untouched args.findings allowed entry.1, args.baseMetrics.bind (·.lookup entry.1) with
  | true, some inherited => .ok inherited
  | _, _ => metricOutcome (claimsAbout args.findings allowed args.documentPageCount entry)
      (codesAbout args.findings allowed args.documentPageCount entry)

/-- The ids that a finding may be about, of a domain with these metrics. -/
def BuildArgs.allowed (args : BuildArgs) (entries : List (String × List (String × JsonValue))) : List String :=
  args.allowedMetricIds.getD (entries.map Prod.fst)

theorem nodup_definitions {content : JsonValue} {domainId : String}
    {entries : List (String × List (String × JsonValue))}
    (defined : domainMetricDefinitions content domainId = .ok entries) : (entries.map Prod.fst).Nodup := by
  simp only [domainMetricDefinitions, Fallible.bind_ok_iff] at defined
  obtain ⟨_, -, _, -, _, -, _, -, _, -, _, -, _, -, definitions, -, same⟩ := defined
  obtain rfl := Except.ok.inj same
  exact Upsert.nodup_dictOf definitions

theorem resolveMetric_eq {args : BuildArgs} {entries : List (String × List (String × JsonValue))}
    {verdicts : List (String × (String ⊕ Claim))}
    (defined : domainMetricDefinitions args.manifestContent args.domainId = .ok entries)
    (collected : collectClaims args.findings entries (args.allowed entries) args.documentPageCount = .ok verdicts)
    {entry : String × List (String × JsonValue)} (isIn : entry ∈ entries) :
    resolveMetric verdicts args.baseMetrics entry.1 = args.outcomeOf (args.allowed entries) entry := by
  have distinct := nodup_definitions defined
  have sorted := collectClaims_sorted distinct collected isIn
  have codes := collectClaims_codes distinct collected isIn
  rw [resolveMetric, BuildArgs.outcomeOf, sorted.touched, sorted.claims]
  cases untouched args.findings (args.allowed entries) entry.1 <;>
    cases args.baseMetrics.bind (·.lookup entry.1) <;> simp only [codes]

theorem outcomes_ok_iff {args : BuildArgs} {metrics : List (String × PacketMetric)} :
    args.outcomes = .ok metrics ↔
      ∃ entries, domainMetricDefinitions args.manifestContent args.domainId = .ok entries ∧
        (∀ finding ∈ args.findings, ∃ verdict,
          collectFinding finding entries (args.allowed entries) args.documentPageCount = .ok verdict) ∧
        List.Forall₂ (fun entry metric => metric.1 = entry.1 ∧
          args.outcomeOf (args.allowed entries) entry = .ok metric.2) entries metrics := by
  unfold BuildArgs.outcomes
  rw [Fallible.bind_ok_iff]
  apply exists_congr
  intro entries
  apply and_congr_right
  intro defined
  rw [Fallible.bind_ok_iff, ← collectClaims_isOk]
  have pairs : ∀ {verdicts}, collectClaims args.findings entries (args.allowed entries) args.documentPageCount =
      .ok verdicts → ((entries.mapM fun entry => (resolveMetric verdicts args.baseMetrics entry.1).map
        fun outcome => (entry.1, outcome)) = .ok metrics ↔
      List.Forall₂ (fun entry metric => metric.1 = entry.1 ∧
        args.outcomeOf (args.allowed entries) entry = .ok metric.2) entries metrics) := by
    intro verdicts collected
    rw [Fallible.mapM_ok_iff]
    constructor
    · intro resolved
      apply ((List.forall₂_and_left _ _).mpr ⟨fun entry isIn => isIn, resolved⟩).imp
      rintro entry metric ⟨isIn, resolved⟩
      rw [resolveMetric_eq defined collected isIn] at resolved
      obtain ⟨outcome, isOutcome, rfl⟩ := Fallible.map_ok_iff.mp resolved
      exact ⟨rfl, isOutcome⟩
    · intro resolved
      apply ((List.forall₂_and_left _ _).mpr ⟨fun entry isIn => isIn, resolved⟩).imp
      rintro entry metric ⟨isIn, named, isOutcome⟩
      rw [resolveMetric_eq defined collected isIn]
      exact Fallible.map_ok_iff.mpr ⟨metric.2, isOutcome, Prod.ext named.symm rfl⟩
  constructor
  · rintro ⟨verdicts, collected, resolved⟩
    exact ⟨⟨verdicts, collected⟩, (pairs collected).mp resolved⟩
  · rintro ⟨⟨verdicts, collected⟩, resolved⟩
    exact ⟨verdicts, collected, (pairs collected).mpr resolved⟩

theorem lookup_forall₂ {A B : Type} (R : String × A → B → Prop) {entries : List (String × A)}
    {metrics : List (String × B)} (pairs : List.Forall₂ (fun entry metric => metric.1 = entry.1 ∧ R entry metric.2)
      entries metrics) {id : String} {metric : B} (found : metrics.lookup id = some metric) :
    ∃ entry ∈ entries, entry.1 = id ∧ R entry metric := by
  induction pairs with
  | nil => cases found
  | @cons entry other entries metrics here _ ih =>
    rw [List.lookup_cons] at found
    split at found
    case h_1 same =>
      obtain rfl := Option.some.inj found
      exact ⟨entry, List.mem_cons_self, here.1.symm.trans (beq_iff_eq.mp same).symm, here.2⟩
    case h_2 =>
      obtain ⟨entry, isIn, named, resolved⟩ := ih found
      exact ⟨entry, List.mem_cons_of_mem _ isIn, named, resolved⟩

theorem isSome_lookup_forall₂ {A B : Type} (R : String × A → B → Prop) {entries : List (String × A)}
    {metrics : List (String × B)} (pairs : List.Forall₂ (fun entry metric => metric.1 = entry.1 ∧ R entry metric.2)
      entries metrics) {entry : String × A} (isIn : entry ∈ entries) : (metrics.lookup entry.1).isSome := by
  induction pairs with
  | nil => cases isIn
  | @cons other metric entries metrics here _ ih =>
    rw [List.lookup_cons]
    split
    · rfl
    case h_2 apart =>
      rcases List.mem_cons.mp isIn with rfl | isIn
      · rw [here.1, beq_self_eq_true] at apart
        cases apart
      · exact ih isIn

theorem entry_unique {A : Type} {entries : List (String × A)} (distinct : (entries.map Prod.fst).Nodup)
    {entry other : String × A} (isIn : entry ∈ entries) (otherIn : other ∈ entries) (named : other.1 = entry.1) :
    other = entry := by
  have found := Upsert.lookup_of_mem distinct otherIn
  rw [named, Upsert.lookup_of_mem distinct isIn] at found
  exact Prod.ext named (Option.some.inj found).symm

theorem subperm_filterMap {A B : Type} {f : A → Option B} {items others : List A} (fewer : items.Subperm others) :
    (items.filterMap f).Subperm (others.filterMap f) := by
  obtain ⟨middle, perm, sublist⟩ := fewer
  exact ⟨middle.filterMap f, perm.filterMap f, sublist.filterMap f⟩

theorem findingsAbout_eq (findings : List Finding) (allowed : List String) (id : String) :
    findingsAbout findings allowed id =
      (findings.filter fun finding => finding.metricId = id).filter fun _ => allowed.contains id := by
  rw [findingsAbout, List.filter_filter]
  simp only [Bool.and_comm]

/-- The metric is one that the findings say something of. -/
def BuildArgs.touches (args : BuildArgs) (id : String) : Bool :=
  args.findings.any fun finding => finding.metricId = id && finding.availabilityStatus ≠ .notReported &&
    args.allowedMetricIds.all (·.contains id)

theorem contains_allowed {args : BuildArgs} {entries : List (String × List (String × JsonValue))}
    {entry : String × List (String × JsonValue)} (isIn : entry ∈ entries) :
    (args.allowed entries).contains entry.1 = args.allowedMetricIds.all (·.contains entry.1) := by
  rw [BuildArgs.allowed]
  cases args.allowedMetricIds with
  | some ids => rfl
  | none =>
    rw [Option.getD_none, Option.all_none, List.contains_iff_mem]
    exact List.mem_map_of_mem isIn

theorem untouched_eq {args : BuildArgs} {entries : List (String × List (String × JsonValue))}
    {entry : String × List (String × JsonValue)} (isIn : entry ∈ entries) :
    untouched args.findings (args.allowed entries) entry.1 = !args.touches entry.1 := by
  rw [untouched, BuildArgs.touches, ← contains_allowed isIn, findingsAbout, List.all_filter, List.not_any_eq_all_not]
  apply congrArg (args.findings.all ·)
  funext finding
  by_cases about : finding.metricId = entry.1 <;> cases (args.allowed entries).contains entry.1 <;>
    by_cases status : finding.availabilityStatus = .notReported <;> simp [about, status]

structure FromFinding (args : BuildArgs) (definition : List (String × JsonValue)) (id : String)
    (metric : PacketMetric) (finding : Finding) : Prop where
  isIn : finding ∈ args.findings
  about : finding.metricId = id
  claims : finding.availabilityStatus ≠ .notReported
  page : 1 ≤ finding.pageNumber ∧ finding.pageNumber ≤ args.documentPageCount
  whole : ∃ value, typedValue finding definition = .ok (.ok value) ∧
    metric = (claimFromFinding finding value).metric

theorem claim_within {finding : Finding} {metric : List (String × JsonValue)} {pages : Int} {claim : Claim}
    (isClaim : claimOf metric pages finding = some claim) :
    finding.availabilityStatus ≠ .notReported ∧ finding.pageNumber ≤ pages := by
  unfold claimOf collectClaim at isClaim
  split at isClaim
  case h_2 => cases isClaim
  case h_1 collected =>
    split at collected
    case h_1 => cases Except.ok.inj collected
    case h_2 status =>
      split at collected
      · cases Except.ok.inj collected
      · split at collected
        · cases Except.ok.inj collected
        case isFalse within => exact ⟨status, not_lt.mp within⟩

theorem scalar_of_isTyped {type : ValueType} {value : JsonValue} (other : type ≠ .number)
    (typed : isTyped type value = true) : Scalar value := by
  unfold isTyped at typed
  split at typed <;> trivial

theorem typedNumber_scalar {value after : JsonValue} (scalar : Scalar value)
    (typed : typedNumber value = some after) : Scalar after := by
  unfold typedNumber at typed
  split at typed
  case h_1 => exact Option.some.inj typed ▸ trivial
  case h_2 => exact Option.some.inj typed ▸ scalar
  case h_3 => cases typed

theorem typedAs_scalar {type : JsonValue} {metric : List (String × JsonValue)} {value after : JsonValue}
    (scalar : Scalar value) (typed : typedAs type metric value = .ok (some after)) : Scalar after := by
  unfold typedAs at typed
  split_ifs at typed
  · exact scalar_of_isTyped (by decide) (typedInteger_typed (Except.ok.inj typed))
  · exact typedNumber_scalar scalar (Except.ok.inj typed)
  · exact scalar_of_isTyped (by decide) (typedString_typed (Except.ok.inj typed))
  · exact scalar_of_isTyped (by decide) (typedBoolean_typed (Except.ok.inj typed))
  · exact scalar_of_isTyped (by decide) (typedEnum_typed typed)
  · cases Except.ok.inj typed

theorem typedValue_scalar {finding : Finding} {metric : List (String × JsonValue)} {value : JsonValue}
    (scalar : Scalar finding.value) (typed : typedValue finding metric = .ok (.ok value)) : Scalar value := by
  unfold typedValue at typed
  split at typed
  case isTrue => exact Except.ok.inj (Except.ok.inj typed) ▸ trivial
  case isFalse =>
    obtain ⟨_, -, typed⟩ := Fallible.bind_ok_iff.mp typed
    obtain ⟨result, isResult, typed⟩ := Fallible.bind_ok_iff.mp typed
    cases result with
    | none => cases typed
    | some after =>
      obtain rfl : after = value := Except.ok.inj (Except.ok.inj typed)
      exact typedAs_scalar scalar isResult

theorem claimsAbout_scalar {findings : List Finding} {allowed : List String} {pages : Int}
    {entry : String × List (String × JsonValue)} (scalars : ∀ finding ∈ findings, Scalar finding.value) :
    ∀ claim ∈ claimsAbout findings allowed pages entry, Scalar claim.value := by
  intro claim isIn
  obtain ⟨finding, isAbout, isClaim⟩ := List.mem_filterMap.mp isIn
  obtain ⟨value, typed, rfl⟩ := claim_of_finding isClaim
  rw [claimFromFinding]
  split
  · exact typedValue_scalar (scalars finding (List.mem_of_mem_filter isAbout)) typed
  · trivial

theorem metricOutcome_verified {claims : List Claim} {errors : List String} {metric : PacketMetric}
    (resolved : metricOutcome claims errors = .ok metric) (verified : metric.extractionStatus = .verified) :
    ∃ claim ∈ claims, metric = claim.metric := by
  obtain ⟨outcomes, -, resolves⟩ := metricOutcome_ok_iff.mp resolved
  cases resolves with
  | none => cases errors <;> cases verified
  | @agreed claim _ _ isLeading => exact ⟨claim, pyMin_mem isLeading, rfl⟩
  | conflict => cases verified

/-- The findings of `_run_call`: those of its retry, unless they are fewer. -/
def runCall (attempt : List Finding) : Option (List Finding) → List Finding
  | some retry => if attempt.length ≤ retry.length then retry else attempt
  | none => attempt

/-- A batch of a domain, with the findings of its call and of the call's retry, or the
error that took them. -/
structure BatchOutcome where
  domainId : String
  calls : Except String (List Finding × Option (List Finding))

def BatchOutcome.findings (outcome : BatchOutcome) : List Finding :=
  match outcome.calls with
  | .ok (attempt, retry) => runCall attempt retry
  | .error _ => []

/-- The findings that `collect_batch_results` gathers for a domain. -/
def collectBatchResults (results : List BatchOutcome) (domainId : String) : List Finding :=
  results.flatMap fun outcome => if outcome.domainId = domainId then outcome.findings else []

/-- The findings of the packet of a domain: `retry_starved_domains` adds its own. -/
def mergedFindings (results : List BatchOutcome) (domainId : String) (starved : List Finding) : List Finding :=
  collectBatchResults results domainId ++ starved

def BuildArgs.withFindings (args : BuildArgs) (findings : List Finding) : BuildArgs :=
  { args with findings := findings }

theorem subperm_collectBatchResults {results others : List BatchOutcome} (fewer : results.Subperm others)
    (domainId : String) : (collectBatchResults results domainId).Subperm (collectBatchResults others domainId) := by
  obtain ⟨middle, perm, sublist⟩ := fewer
  exact ⟨_, perm.flatMap_right _, List.Sublist.flatMap sublist _⟩

theorem outcomeOf_touched {args : BuildArgs} {entries : List (String × List (String × JsonValue))}
    {entry : String × List (String × JsonValue)} (isIn : entry ∈ entries) (touched : args.touches entry.1 = true) :
    args.outcomeOf (args.allowed entries) entry =
      metricOutcome (claimsAbout args.findings (args.allowed entries) args.documentPageCount entry)
        (codesAbout args.findings (args.allowed entries) args.documentPageCount entry) := by
  rw [BuildArgs.outcomeOf, untouched_eq isIn, touched]
  rfl

theorem outcome_of_lookup {args : BuildArgs} {metrics : List (String × PacketMetric)}
    (resolved : args.outcomes = .ok metrics) {id : String} {metric : PacketMetric}
    (found : metrics.lookup id = some metric) :
    ∃ entries, domainMetricDefinitions args.manifestContent args.domainId = .ok entries ∧
      ∃ entry ∈ entries, entry.1 = id ∧ args.outcomeOf (args.allowed entries) entry = .ok metric := by
  obtain ⟨entries, defined, -, pairs⟩ := outcomes_ok_iff.mp resolved
  exact ⟨entries, defined,
    lookup_forall₂ (fun entry metric => args.outcomeOf (args.allowed entries) entry = .ok metric) pairs found⟩

theorem outcome_of_entry {args : BuildArgs} {metrics : List (String × PacketMetric)}
    (resolved : args.outcomes = .ok metrics) {entries : List (String × List (String × JsonValue))}
    (defined : domainMetricDefinitions args.manifestContent args.domainId = .ok entries)
    {entry : String × List (String × JsonValue)} (isIn : entry ∈ entries) :
    ∃ metric, metrics.lookup entry.1 = some metric ∧ args.outcomeOf (args.allowed entries) entry = .ok metric := by
  obtain ⟨more, definedAgain, -, pairs⟩ := outcomes_ok_iff.mp resolved
  obtain rfl := Except.ok.inj (defined.symm.trans definedAgain)
  obtain ⟨metric, found⟩ := Option.isSome_iff_exists.mp (isSome_lookup_forall₂
    (fun entry metric => args.outcomeOf (args.allowed entries) entry = .ok metric) pairs isIn)
  obtain ⟨other, otherIn, named, isMetric⟩ := lookup_forall₂
    (fun entry metric => args.outcomeOf (args.allowed entries) entry = .ok metric) pairs found
  obtain rfl := entry_unique (nodup_definitions defined) isIn otherIn named
  exact ⟨metric, found, isMetric⟩

theorem outcomeOf_perm {args : BuildArgs} {findings : List Finding} (perm : findings.Perm args.findings)
    (scalars : ∀ finding ∈ args.findings, Scalar finding.value) {allowed : List String}
    {entry : String × List (String × JsonValue)} {metric : PacketMetric}
    (resolved : args.outcomeOf allowed entry = .ok metric) :
    ∃ other, (args.withFindings findings).outcomeOf allowed entry = .ok other ∧ SameButCode metric other := by
  have about : (findingsAbout findings allowed entry.1).Perm (findingsAbout args.findings allowed entry.1) :=
    perm.filter _
  have same : untouched findings allowed entry.1 = untouched args.findings allowed entry.1 := by
    rw [untouched, untouched, about.all_eq]
  unfold BuildArgs.outcomeOf at resolved ⊢
  simp only [BuildArgs.withFindings, same]
  split at resolved
  case h_1 inherited isUntouched isInherited =>
    exact ⟨inherited, rfl, Or.inl (Except.ok.inj resolved).symm⟩
  case h_2 fresh =>
    obtain ⟨other, isOther, similar⟩ := metricOutcome_perm (about.filterMap _) (about.filterMap _)
      (claimsAbout_scalar scalars) resolved
    exact ⟨other, isOther, similar⟩

/-- By induction on the pairs. -/
theorem forall₂_carry {A B C : Type} {R : A → B → Prop} {Q : A → C → Prop} {S : B → C → Prop}
    (carry : ∀ a b, R a b → ∃ c, Q a c ∧ S b c) {as : List A} {bs : List B} (pairs : List.Forall₂ R as bs) :
    ∃ cs, List.Forall₂ Q as cs ∧ List.Forall₂ S bs cs := by
  induction pairs with
  | nil => exact ⟨[], .nil, .nil⟩
  | @cons a b as bs here _ ih =>
    obtain ⟨c, first, second⟩ := carry a b here
    obtain ⟨cs, firsts, seconds⟩ := ih
    exact ⟨c :: cs, .cons first firsts, .cons second seconds⟩

theorem outcomes_perm {args : BuildArgs} {findings : List Finding} (perm : findings.Perm args.findings)
    (scalars : ∀ finding ∈ args.findings, Scalar finding.value) {metrics : List (String × PacketMetric)}
    (resolved : args.outcomes = .ok metrics) :
    ∃ others, (args.withFindings findings).outcomes = .ok others ∧
      List.Forall₂ (fun metric other => metric.1 = other.1 ∧ SameButCode metric.2 other.2) metrics others := by
  obtain ⟨entries, defined, judged, pairs⟩ := outcomes_ok_iff.mp resolved
  have carry : ∀ (entry : String × List (String × JsonValue)) (metric : String × PacketMetric), metric.1 = entry.1 ∧ args.outcomeOf (args.allowed entries) entry = .ok metric.2 →
      ∃ other : String × PacketMetric, (other.1 = entry.1 ∧
        (args.withFindings findings).outcomeOf (args.allowed entries) entry = .ok other.2) ∧
          metric.1 = other.1 ∧ SameButCode metric.2 other.2 := by
    rintro entry metric ⟨named, resolved⟩
    obtain ⟨other, isOther, similar⟩ := outcomeOf_perm perm scalars resolved
    exact ⟨(entry.1, other), ⟨rfl, isOther⟩, named, similar⟩
  obtain ⟨others, resolves, similar⟩ := forall₂_carry carry pairs
  exact ⟨others, outcomes_ok_iff.mpr ⟨entries, defined, fun finding isIn => judged finding (perm.mem_iff.mp isIn),
    resolves⟩, similar⟩

theorem outcome_conflict {args : BuildArgs} {findings : List Finding} (fewer : args.findings.Subperm findings)
    {metrics others : List (String × PacketMetric)} (resolved : args.outcomes = .ok metrics)
    (further : (args.withFindings findings).outcomes = .ok others) {id : String} {metric other : PacketMetric}
    (touched : args.touches id = true) (found : metrics.lookup id = some metric)
    (conflict : metric.extractionStatus = .conflict) (otherFound : others.lookup id = some other) :
    other = metric := by
  obtain ⟨entries, defined, entry, isIn, rfl, isMetric⟩ := outcome_of_lookup resolved found
  obtain ⟨more, definedAgain, entry', isIn', named, isOther⟩ := outcome_of_lookup further otherFound
  obtain rfl := Except.ok.inj (defined.symm.trans definedAgain)
  obtain rfl := entry_unique (nodup_definitions defined) isIn isIn' named
  have touchedAgain : (args.withFindings findings).touches entry'.1 = true := by
    obtain ⟨finding, isFinding, touching⟩ := List.any_eq_true.mp touched
    exact List.any_eq_true.mpr ⟨finding, fewer.subset isFinding, touching⟩
  rw [outcomeOf_touched isIn touched] at isMetric
  rw [outcomeOf_touched isIn touchedAgain] at isOther
  apply metricOutcome_conflict _ isMetric conflict isOther
  exact subperm_filterMap (fewer.filter _)

theorem outcome_verified {args : BuildArgs} {metrics : List (String × PacketMetric)}
    (resolved : args.outcomes = .ok metrics) {id : String} {metric : PacketMetric} (touched : args.touches id = true)
    (found : metrics.lookup id = some metric) (verified : metric.extractionStatus = .verified) :
    ∃ entries definition finding, domainMetricDefinitions args.manifestContent args.domainId = .ok entries ∧
      (id, definition) ∈ entries ∧ FromFinding args definition id metric finding := by
  obtain ⟨entries, defined, entry, isIn, rfl, isMetric⟩ := outcome_of_lookup resolved found
  rw [outcomeOf_touched isIn touched] at isMetric
  obtain ⟨claim, isClaim, rfl⟩ := metricOutcome_verified isMetric verified
  obtain ⟨finding, isAbout, claimed⟩ := List.mem_filterMap.mp isClaim
  obtain ⟨isFinding, about⟩ := List.mem_filter.mp isAbout
  obtain ⟨value, typed, rfl⟩ := claim_of_finding claimed
  obtain ⟨status, within⟩ := claim_within claimed
  rw [Bool.and_eq_true, decide_eq_true_eq] at about
  exact ⟨entries, entry.2, finding, defined, isIn, isFinding, about.1, status, ⟨finding.onPage, within⟩,
    value, typed, rfl⟩

theorem outcomeOf_alone {args : BuildArgs} {findings : List Finding}
    {baseMetrics : Option (List (String × PacketMetric))} {allowed : List String}
    {entry : String × List (String × JsonValue)}
    (same : (findings.filter fun finding => finding.metricId = entry.1) =
      args.findings.filter fun finding => finding.metricId = entry.1)
    (inherited : baseMetrics.bind (·.lookup entry.1) = args.baseMetrics.bind (·.lookup entry.1)) :
    { args with findings := findings, baseMetrics := baseMetrics }.outcomeOf allowed entry =
      args.outcomeOf allowed entry := by
  have about : findingsAbout findings allowed entry.1 = findingsAbout args.findings allowed entry.1 := by
    rw [findingsAbout_eq, findingsAbout_eq, same]
  simp only [BuildArgs.outcomeOf, inherited, untouched, claimsAbout, codesAbout, about]

theorem outcome_alone {args : BuildArgs} {findings : List Finding}
    {baseMetrics : Option (List (String × PacketMetric))} {metrics others : List (String × PacketMetric)}
    (resolved : args.outcomes = .ok metrics) {id : String}
    (further : { args with findings := findings, baseMetrics := baseMetrics }.outcomes = .ok others)
    (same : (findings.filter fun finding => finding.metricId = id) =
      args.findings.filter fun finding => finding.metricId = id)
    (inherited : baseMetrics.bind (·.lookup id) = args.baseMetrics.bind (·.lookup id)) {metric : PacketMetric}
    (found : metrics.lookup id = some metric) : others.lookup id = some metric := by
  obtain ⟨entries, defined, entry, isIn, rfl, isMetric⟩ := outcome_of_lookup resolved found
  obtain ⟨other, otherFound, isOther⟩ := outcome_of_entry further defined isIn
  have alone := @outcomeOf_alone args findings baseMetrics (args.allowed entries) entry same inherited
  rw [otherFound, Except.ok.inj (isOther.symm.trans (alone.trans isMetric))]

theorem outcome_inherited {args : BuildArgs} {metrics : List (String × PacketMetric)}
    (resolved : args.outcomes = .ok metrics) {id : String} {metric inherited : PacketMetric}
    (untouched : args.touches id = false) (isInherited : args.baseMetrics.bind (·.lookup id) = some inherited)
    (found : metrics.lookup id = some metric) : metric = inherited := by
  obtain ⟨entries, defined, entry, isIn, rfl, isMetric⟩ := outcome_of_lookup resolved found
  rw [BuildArgs.outcomeOf, untouched_eq isIn, untouched, isInherited] at isMetric
  exact (Except.ok.inj isMetric).symm

/-- Verified only in agreement: the outcomes of a domain under other orders of the findings,
further findings, and other metrics' findings; where a verified outcome comes from; and
what a metric without findings keeps. Batches and the starved retry add findings. -/
theorem verified_in_agreement (args : BuildArgs) (scalars : ∀ finding ∈ args.findings, Scalar finding.value)
    (metrics : List (String × PacketMetric)) (resolved : args.outcomes = .ok metrics) :
    (∀ findings, findings.Perm args.findings → ∃ others, (args.withFindings findings).outcomes = .ok others ∧
      List.Forall₂ (fun metric other => metric.1 = other.1 ∧ SameButCode metric.2 other.2) metrics others) ∧
    (∀ findings others id metric other, args.findings.Subperm findings →
      (args.withFindings findings).outcomes = .ok others → args.touches id = true →
      metrics.lookup id = some metric → metric.extractionStatus = .conflict →
      others.lookup id = some other → other = metric) ∧
    (∀ id metric, args.touches id = true → metrics.lookup id = some metric → metric.extractionStatus = .verified →
      ∃ entries definition finding, domainMetricDefinitions args.manifestContent args.domainId = .ok entries ∧
        (id, definition) ∈ entries ∧ FromFinding args definition id metric finding) ∧
    (∀ findings baseMetrics others id metric,
      { args with findings := findings, baseMetrics := baseMetrics }.outcomes = .ok others →
      (findings.filter fun finding => finding.metricId = id) =
        (args.findings.filter fun finding => finding.metricId = id) →
      baseMetrics.bind (·.lookup id) = args.baseMetrics.bind (·.lookup id) →
      metrics.lookup id = some metric → others.lookup id = some metric) ∧
    (∀ id metric inherited, args.touches id = false → args.baseMetrics.bind (·.lookup id) = some inherited →
      metrics.lookup id = some metric → metric = inherited) ∧
    ∀ results others domainId starved,
      (others.Perm results → (mergedFindings others domainId starved).Perm (mergedFindings results domainId starved)) ∧
      (results.Subperm others →
        (collectBatchResults results domainId).Subperm (mergedFindings others domainId starved)) := by
  refine ⟨fun findings perm => outcomes_perm perm scalars resolved, ?_, ?_, ?_, ?_, ?_⟩
  · intro findings others id metric other fewer further touched found conflict otherFound
    exact outcome_conflict fewer resolved further touched found conflict otherFound
  · intro id metric touched found verified
    exact outcome_verified resolved touched found verified
  · intro findings baseMetrics others id metric further same inherited found
    exact outcome_alone resolved further same inherited found
  · intro id metric inherited untouched isInherited found
    exact outcome_inherited resolved untouched isInherited found
  · intro results others domainId starved
    refine ⟨fun perm => (perm.flatMap_right _).append_right starved, fun fewer => ?_⟩
    exact (subperm_collectBatchResults fewer domainId).trans (List.sublist_append_left _ starved).subperm

theorem reportedBoth_scalar : ∀ finding ∈ reportedBoth, Scalar finding.value := by
  simp [reportedBoth, finding, Scalar]

/-- Two reported numbers. -/
theorem verified_in_agreement_reported : ∃ metrics, (sampleArgs reportedBoth).outcomes = .ok metrics ∧
    ∀ findings, findings.Perm reportedBoth →
      ∃ others, ((sampleArgs reportedBoth).withFindings findings).outcomes = .ok others ∧
        List.Forall₂ (fun metric other => metric.1 = other.1 ∧ SameButCode metric.2 other.2) metrics others := by
  obtain ⟨metrics, resolved⟩ := @exists_of_isOk _ _ (sampleArgs reportedBoth).outcomes (by decide +kernel)
  exact ⟨metrics, resolved, (verified_in_agreement (sampleArgs reportedBoth) reportedBoth_scalar metrics resolved).1⟩

def BuildArgs.average (args : BuildArgs) : Option (ExtractionStatus × Option String) :=
  match args.outcomes with
  | .ok metrics => (metrics.lookup "aid.average").map fun metric => (metric.extractionStatus, metric.diagnosticCode)
  | .error _ => none

def strayPage : Finding :=
  { finding "aid.average" .reported (.int 90) none with pageNumber := 5, onPage := by decide }

def textForNumber : Finding := finding "aid.average" .reported (.str "many") none

/-- The packet that a correction starts from, with a conflict. -/
def correctionArgs (findings : List Finding) : BuildArgs :=
  { sampleArgs findings with baseMetrics := some [("aid.average", unclaimed .conflict none)] }

def averageOf (value : Int) : Finding := finding "aid.average" .reported (.int value) none

def batchOf (retry : Option (List Finding)) : BatchOutcome := ⟨"aid", .ok ([averageOf 90, averageOf 91], retry)⟩

/-- The code of a rejected metric is that of the first rejected finding; a finding turns an
inherited conflict into a verified outcome; the retry of a call takes the place of two
findings in conflict. -/
theorem outcome_changes :
    ((sampleArgs [strayPage, textForNumber]).average = some (.invalid, some "page_not_in_document") ∧
      (sampleArgs [textForNumber, strayPage]).average = some (.invalid, some "type_mismatch")) ∧
    ((correctionArgs []).average = some (.conflict, none) ∧
      (correctionArgs [averageOf 90]).average = some (.verified, none)) ∧
    (sampleArgs (collectBatchResults [batchOf none] "aid")).average = some (.conflict, none) ∧
      (sampleArgs (collectBatchResults [batchOf (some [averageOf 90, averageOf 90])] "aid")).average =
        some (.verified, none) := by
  refine ⟨⟨?_, ?_⟩, ⟨?_, ?_⟩, ?_, ?_⟩ <;> decide +kernel

end Counselle.Cds

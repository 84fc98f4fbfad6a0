import Counselle.Cds.Readable

/-! When a packet that the builder returns can be stored: the outcome of every metric, from
the findings about it, against the rules of the reader. -/
namespace Counselle.Cds
open PyJson (JsonValue PyFloat)
open PyJson.JsonValue (get)
open PyText (PyError strip)

theorem typedInteger_typed {value after : JsonValue} (typed : typedInteger value = some after) :
    isTyped .integer after = true := by
  unfold typedInteger at typed
  split at typed
  case h_1 n => exact Option.some.inj typed ▸ rfl
  case h_2 q =>
    split at typed
    · exact Option.some.inj typed ▸ rfl
    · cases typed
  case h_3 => cases typed

theorem typedNumber_typed {value after : JsonValue} (typed : typedNumber value = some after) :
    isTyped .number after = true := by
  unfold typedNumber at typed
  split at typed
  case h_3 => cases typed
  all_goals exact Option.some.inj typed ▸ rfl

theorem typedString_typed {value after : JsonValue} (typed : typedString value = some after) :
    isTyped .string after = true := by
  unfold typedString at typed
  split at typed
  case h_1 text =>
    split at typed
    case isTrue => cases typed
    case isFalse solid => simpa [← Option.some.inj typed, isTyped] using solid
  case h_2 => cases typed

theorem typedBoolean_typed {value after : JsonValue} (typed : typedBoolean value = some after) :
    isTyped .boolean after = true := by
  unfold typedBoolean at typed
  split at typed
  case h_1 b => exact Option.some.inj typed ▸ rfl
  case h_2 => cases typed

theorem typedEnum_typed {value enums after : JsonValue} (typed : typedEnum enums value = .ok (some after)) :
    isTyped .enum after = true := by
  unfold typedEnum at typed
  split at typed
  case h_1 text =>
    obtain ⟨isIn, -, same⟩ := Fallible.map_ok_iff.mp typed
    split at same
    · exact Option.some.inj same ▸ rfl
    · cases same
  case h_2 => cases typed

theorem typedAs_typed {metric : List (String × JsonValue)} {type : ValueType} {value after : JsonValue}
    (typed : typedAs (.str type.name) metric value = .ok (some after)) : isTyped type after = true := by
  cases type with
  | integer => exact typedInteger_typed (Except.ok.inj typed)
  | number => exact typedNumber_typed (Except.ok.inj typed)
  | string => exact typedString_typed (Except.ok.inj typed)
  | boolean => exact typedBoolean_typed (Except.ok.inj typed)
  | enum => exact typedEnum_typed typed

theorem typedValue_typed {finding : Finding} {metric : List (String × JsonValue)} {type : ValueType}
    {value : JsonValue} (reported : finding.availabilityStatus = .reported)
    (named : item metric "type" = .ok (.str type.name))
    (typed : typedValue finding metric = .ok (.ok value)) : isTyped type value = true := by
  rw [typedValue, if_neg (by simpa using reported), named] at typed
  obtain ⟨_, isType, typed⟩ := Fallible.bind_ok_iff.mp typed
  obtain rfl := Except.ok.inj isType
  obtain ⟨result, isResult, typed⟩ := Fallible.bind_ok_iff.mp typed
  cases result with
  | none => cases typed
  | some after =>
    obtain rfl : after = value := Except.ok.inj (Except.ok.inj typed)
    exact typedAs_typed isResult

theorem typedValue_code {finding : Finding} {metric : List (String × JsonValue)} {code : String}
    (typed : typedValue finding metric = .ok (.error code)) : code = "type_mismatch" := by
  unfold typedValue at typed
  split at typed
  case isTrue => cases Except.ok.inj typed
  case isFalse =>
    obtain ⟨_, -, typed⟩ := Fallible.bind_ok_iff.mp typed
    obtain ⟨result, -, typed⟩ := Fallible.bind_ok_iff.mp typed
    cases result with
    | some => cases Except.ok.inj typed
    | none => exact (Except.error.inj (Except.ok.inj typed)).symm

theorem typedValue_absent {finding : Finding} {metric : List (String × JsonValue)} {value : JsonValue}
    (unreported : finding.availabilityStatus ≠ .reported)
    (typed : typedValue finding metric = .ok (.ok value)) : value = .null := by
  rw [typedValue, if_pos unreported] at typed
  exact (Except.ok.inj (Except.ok.inj typed)).symm

def errorCodes : List String := ["template_absence_has_value", "page_not_in_document", "type_mismatch"]

theorem collectClaim_cases {finding : Finding} {metric : List (String × JsonValue)} {pages : Int}
    {verdict : Option (String ⊕ Claim)} (collected : collectClaim finding metric pages = .ok verdict) :
    (finding.availabilityStatus = .notReported ∧ verdict = none) ∨
      finding.availabilityStatus ≠ .notReported ∧
        ((∃ code ∈ errorCodes, verdict = some (.inl code)) ∨
          ∃ value, typedValue finding metric = .ok (.ok value) ∧
            verdict = some (.inr (claimFromFinding finding value))) := by
  unfold collectClaim at collected
  split at collected
  case h_1 status => exact Or.inl ⟨status, (Except.ok.inj collected).symm⟩
  case h_2 status =>
    refine Or.inr ⟨status, ?_⟩
    split at collected
    · exact Or.inl ⟨_, by simp [errorCodes], (Except.ok.inj collected).symm⟩
    · split at collected
      · exact Or.inl ⟨_, by simp [errorCodes], (Except.ok.inj collected).symm⟩
      · obtain ⟨typed, isTyped, collected⟩ := Fallible.bind_ok_iff.mp collected
        cases typed with
        | error code =>
          exact Or.inl ⟨code, by simp [errorCodes, typedValue_code isTyped], (Except.ok.inj collected).symm⟩
        | ok value => exact Or.inr ⟨value, isTyped, (Except.ok.inj collected).symm⟩

theorem claim_verified {finding : Finding} {metric : List (String × JsonValue)} {type : ValueType}
    {value : JsonValue} (named : item metric "type" = .ok (.str type.name))
    (typed : typedValue finding metric = .ok (.ok value)) : (claimFromFinding finding value).Verified type where
  typed := by
    intro reported
    change finding.availabilityStatus = .reported at reported
    simpa [claimFromFinding, reported] using typedValue_typed reported named typed
  absent := fun unreported => if_neg unreported
  evidence := by simp [validEvidence, claimFromFinding, finding.onPage, finding.solid]

section Least
variable {A B : Type}

theorem foldl_min_map (g : A → B) (less : B → B → Bool) (first : A) (rest : List A) :
    (rest.map g).foldl (fun best next => if less next best then next else best) (g first) =
      g (rest.foldl (fun best next => if less (g next) (g best) then next else best) first) := by
  induction rest generalizing first with
  | nil => rfl
  | cons next rest ih =>
    rw [List.map_cons, List.foldl_cons, List.foldl_cons, ← ih]
    split <;> rfl

theorem pyMin_map (g : A → B) (less : B → B → Bool) (items : List A) :
    pyMin less (items.map g) = (pyMin (fun a b => less (g a) (g b)) items).map g := by
  cases items with
  | nil => rfl
  | cons first rest => exact congrArg some (foldl_min_map g less first rest)

theorem pyMin_mem {less : A → A → Bool} {items : List A} {least : A} (isLeast : pyMin less items = some least) :
    least ∈ items := by
  cases items with
  | nil => cases isLeast
  | cons first rest =>
    obtain rfl := Option.some.inj isLeast
    clear isLeast
    induction rest generalizing first with
    | nil => exact List.mem_singleton_self first
    | cons next rest ih =>
      rw [List.foldl_cons]
      split
      · exact List.mem_cons_of_mem _ (ih next)
      · rcases List.mem_cons.mp (ih first) with same | later
        · rw [same]
          exact List.mem_cons_self
        · exact List.mem_cons_of_mem _ (List.mem_cons_of_mem _ later)

end Least

def Claim.position (claim : Claim) : ClaimKey :=
  (claim.evidence.pageNumber, compact claim.evidence.json, compact claim.json)

/-- The claim of a metric that comes first by page, evidence and text. -/
def leading (claims : List Claim) : Option Claim := pyMin (fun a b => a.position.less b.position) claims

def agreed (claims : List Claim) : Bool :=
  match claims.mapM Claim.outcome with
  | .ok outcomes => (distinctOutcomes outcomes).length = 1
  | .error _ => false

theorem Claim.key_ok {claim : Claim} {key : ClaimKey} (keyed : claim.key = .ok key) :
    key = claim.position ∧ hasLongInt claim.value = false := by
  obtain ⟨evidence, isEvidence, keyed⟩ := Fallible.bind_ok_iff.mp keyed
  obtain ⟨text, isText, keyed⟩ := Fallible.bind_ok_iff.mp keyed
  unfold dumpsSorted at isEvidence isText
  split at isEvidence
  case isTrue => cases isEvidence
  case isFalse =>
    split at isText
    case isTrue => cases isText
    case isFalse short =>
      obtain rfl := Except.ok.inj isEvidence
      obtain rfl := Except.ok.inj isText
      refine ⟨(Except.ok.inj keyed).symm, ?_⟩
      simp only [Claim.json, hasLongInt, anyLongMember, Bool.or_eq_true, not_or] at short
      simpa using short.2.2.1

theorem keyed_ok {claims : List Claim} {keyed : List (ClaimKey × Claim)}
    (isKeyed : (claims.mapM fun claim => claim.key.map fun key => (key, claim)) = .ok keyed) :
    keyed = claims.map (fun claim => (claim.position, claim)) ∧
      ∀ claim ∈ claims, hasLongInt claim.value = false := by
  induction claims generalizing keyed with
  | nil =>
    obtain rfl := Except.ok.inj isKeyed
    simp
  | cons claim claims ih =>
    rw [List.mapM_cons] at isKeyed
    obtain ⟨entry, isEntry, isKeyed⟩ := Fallible.bind_ok_iff.mp isKeyed
    obtain ⟨others, areOthers, isKeyed⟩ := Fallible.bind_ok_iff.mp isKeyed
    obtain rfl := Except.ok.inj isKeyed
    obtain ⟨key, isKey, rfl⟩ := Fallible.map_ok_iff.mp isEntry
    obtain ⟨rfl, short⟩ := Claim.key_ok isKey
    obtain ⟨rfl, shorter⟩ := ih areOthers
    exact ⟨rfl, List.forall_mem_cons.mpr ⟨short, shorter⟩⟩

theorem validDiagnostic_errorCodes : ∀ code ∈ errorCodes, validDiagnostic code = true := by decide

theorem metricOutcome_readable {claims : List Claim} {errors : List String} {type : ValueType}
    {outcome : PacketMetric} (verified : ∀ claim ∈ claims, claim.Verified type)
    (codes : ∀ code ∈ errors, code ∈ errorCodes) (resolved : metricOutcome claims errors = .ok outcome) :
    (outcome.evidence.all validEvidence = true ∧ ReadableMetric type outcome) ↔
      (agreed claims = true → ∀ claim, leading claims = some claim → storable type claim = true) := by
  obtain ⟨outcomes, areOutcomes, resolved⟩ := Fallible.bind_ok_iff.mp resolved
  have isAgreed : agreed claims = true ↔ (distinctOutcomes outcomes).length = 1 := by
    rw [agreed, areOutcomes, decide_eq_true_eq]
  rw [isAgreed]
  split at resolved
  case h_1 none =>
    refine iff_of_true ?_ fun bad => absurd (none.symm.trans bad) (by decide)
    obtain rfl := Except.ok.inj resolved
    cases errors with
    | nil => exact ⟨rfl, readable_unclaimed (by decide) rfl⟩
    | cons code _ =>
      exact ⟨rfl, readable_unclaimed (by decide)
        (validDiagnostic_errorCodes code (codes code List.mem_cons_self))⟩
  case h_2 one =>
    obtain ⟨keyed, isKeyed, resolved⟩ := Fallible.bind_ok_iff.mp resolved
    obtain ⟨rfl, short⟩ := keyed_ok isKeyed
    have first : earliest (claims.map fun claim => (claim.position, claim)) = leading claims := by
      rw [earliest, pyMin_map, Option.map_map, leading]
      exact Option.map_id'
    rw [first] at resolved
    cases isLeading : leading claims with
    | none =>
      rw [isLeading] at resolved
      obtain rfl := Except.ok.inj resolved
      exact iff_of_true ⟨rfl, readable_unclaimed (by decide) rfl⟩ fun _ _ bad => by cases bad
    | some claim =>
      rw [isLeading] at resolved
      obtain rfl := Except.ok.inj resolved
      have isIn := pyMin_mem isLeading
      rw [claim_readable_iff (verified claim isIn) (short claim isIn)]
      constructor
      · rintro ⟨-, isStorable⟩ - other same
        exact Option.some.inj same ▸ isStorable
      · exact fun every => ⟨(verified claim isIn).evidence, every one claim rfl⟩
  case h_3 none one =>
    refine iff_of_true ?_ fun bad => absurd bad one
    obtain rfl := Except.ok.inj resolved
    exact ⟨rfl, readable_unclaimed (by decide) rfl⟩

def findingsAbout (findings : List Finding) (allowed : List String) (metricId : String) : List Finding :=
  findings.filter fun finding => finding.metricId = metricId && allowed.contains metricId

/-- The claim that the builder makes of a finding, if it makes one. -/
def claimOf (metric : List (String × JsonValue)) (pages : Int) (finding : Finding) : Option Claim :=
  match collectClaim finding metric pages with
  | .ok (some (.inr claim)) => some claim
  | _ => none

def claimsAbout (findings : List Finding) (allowed : List String) (pages : Int)
    (entry : String × List (String × JsonValue)) : List Claim :=
  (findingsAbout findings allowed entry.1).filterMap (claimOf entry.2 pages)

def untouched (findings : List Finding) (allowed : List String) (metricId : String) : Bool :=
  (findingsAbout findings allowed metricId).all fun finding => finding.availabilityStatus = .notReported

theorem claim_of_finding {finding : Finding} {metric : List (String × JsonValue)} {pages : Int} {claim : Claim}
    (isClaim : claimOf metric pages finding = some claim) :
    ∃ value, typedValue finding metric = .ok (.ok value) ∧ claim = claimFromFinding finding value := by
  unfold claimOf at isClaim
  split at isClaim
  case h_2 => cases isClaim
  case h_1 other collected =>
    obtain rfl := Option.some.inj isClaim
    rcases collectClaim_cases collected with ⟨-, bad⟩ | ⟨-, ⟨_, -, bad⟩ | ⟨value, typed, same⟩⟩
    · cases bad
    · cases bad
    · exact ⟨value, typed, Sum.inr.inj (Option.some.inj same)⟩

theorem claimsAbout_verified {findings : List Finding} {allowed : List String} {pages : Int}
    {entry : String × List (String × JsonValue)} {type : ValueType}
    (named : item entry.2 "type" = .ok (.str type.name)) :
    ∀ claim ∈ claimsAbout findings allowed pages entry, claim.Verified type := by
  intro claim isIn
  obtain ⟨finding, -, isClaim⟩ := List.mem_filterMap.mp isIn
  obtain ⟨value, typed, rfl⟩ := claim_of_finding isClaim
  exact claim_verified named typed

structure Sorted (findings : List Finding) (allowed : List String) (pages : Int)
    (entry : String × List (String × JsonValue)) (verdicts : List (String × (String ⊕ Claim))) : Prop where
  claims : claimsOf verdicts entry.1 = claimsAbout findings allowed pages entry
  codes : ∀ code ∈ errorsOf verdicts entry.1, code ∈ errorCodes
  touched : ((claimsOf verdicts entry.1).isEmpty && (errorsOf verdicts entry.1).isEmpty) =
    untouched findings allowed entry.1

theorem collectClaims_sorted {findings : List Finding}
    {entries : List (String × List (String × JsonValue))} {allowed : List String} {pages : Int}
    {verdicts : List (String × (String ⊕ Claim))} (distinct : (entries.map Prod.fst).Nodup)
    (collected : collectClaims findings entries allowed pages = .ok verdicts)
    {entry : String × List (String × JsonValue)} (isIn : entry ∈ entries) :
    Sorted findings allowed pages entry verdicts := by
  induction findings generalizing verdicts with
  | nil =>
    obtain rfl := Except.ok.inj collected
    exact ⟨rfl, fun _ bad => absurd bad List.not_mem_nil, rfl⟩
  | cons finding findings ih =>
    obtain ⟨verdict, isVerdict, collected⟩ := Fallible.bind_ok_iff.mp collected
    obtain ⟨later, areLater, collected⟩ := Fallible.bind_ok_iff.mp collected
    have rest := ih areLater
    by_cases here : finding.metricId = entry.1 ∧ allowed.contains entry.1 = true
    · have isAbout : findingsAbout (finding :: findings) allowed entry.1 =
          finding :: findingsAbout findings allowed entry.1 := by
        rw [findingsAbout, List.filter_cons, if_pos (by simpa using here)]
        rfl
      have judged : collectClaim finding entry.2 pages = .ok verdict := by
        rw [collectFinding, here.1, Upsert.lookup_of_mem distinct isIn] at isVerdict
        simpa only [here.2, if_true] using isVerdict
      rcases collectClaim_cases judged with ⟨unclaimed, rfl⟩ | ⟨claimed, ⟨code, isCode, rfl⟩ | ⟨value, -, rfl⟩⟩
      · obtain rfl := Except.ok.inj collected
        refine ⟨?_, rest.codes, ?_⟩
        · rw [rest.claims, claimsAbout, claimsAbout, isAbout, List.filterMap_cons_none (by rw [claimOf, judged])]
        · rw [rest.touched, untouched, untouched, isAbout]
          simp [unclaimed]
      · obtain rfl := Except.ok.inj collected
        refine ⟨?_, ?_, ?_⟩
        · rw [claimsAbout, isAbout, List.filterMap_cons_none (by rw [claimOf, judged]), ← claimsAbout, ← rest.claims]
          simp [claimsOf]
        · intro other isOther
          simp only [errorsOf, List.filterMap_cons, here.1, if_true, Sum.getLeft?_inl, List.mem_cons] at isOther
          rcases isOther with rfl | isLater
          · exact isCode
          · exact rest.codes other isLater
        · rw [untouched, isAbout]
          simp [errorsOf, here.1, claimed]
      · obtain rfl := Except.ok.inj collected
        refine ⟨?_, ?_, ?_⟩
        · rw [claimsAbout, isAbout, List.filterMap_cons_some (by rw [claimOf, judged]), ← claimsAbout, ← rest.claims]
          simp [claimsOf, here.1]
        · intro other isOther
          refine rest.codes other ?_
          simpa [errorsOf, here.1] using isOther
        · rw [untouched, isAbout]
          simp [claimsOf, here.1, claimed]
    · have isAbout : findingsAbout (finding :: findings) allowed entry.1 = findingsAbout findings allowed entry.1 := by
        rw [findingsAbout, List.filter_cons, if_neg (by simpa using here)]
        rfl
      have same : claimsOf verdicts entry.1 = claimsOf later entry.1 ∧
          errorsOf verdicts entry.1 = errorsOf later entry.1 := by
        cases verdict with
        | none =>
          obtain rfl := Except.ok.inj collected
          exact ⟨rfl, rfl⟩
        | some verdict =>
          have other : finding.metricId ≠ entry.1 := by
            intro same
            have denied : ¬ allowed.contains entry.1 = true := fun bad => here ⟨same, bad⟩
            rw [collectFinding, same, Upsert.lookup_of_mem distinct isIn] at isVerdict
            simp only [denied, Bool.false_eq_true, if_false] at isVerdict
            cases Except.ok.inj isVerdict
          obtain rfl := Except.ok.inj collected
          simp [claimsOf, errorsOf, other]
      refine ⟨?_, ?_, ?_⟩
      · rw [same.1, rest.claims, claimsAbout, claimsAbout, isAbout]
      · rw [same.2]
        exact rest.codes
      · rw [same.1, same.2, rest.touched, untouched, untouched, isAbout]

def jsonHashes (hashes : List (String × String)) : List (String × JsonValue) :=
  hashes.map fun hash => (hash.1, .str hash.2)

/-- The row that `insert_packet` reads the packet back under. `bytes.fromhex` and `hex`
turn the hash into its lower-case text. -/
def BuildArgs.row (args : BuildArgs) (packet : Packet) : PacketRow where
  packet := packet
  pdfSha256 := args.documentSha256
  domainSchemaHash := ((args.domainHashes.lookup args.domainId).getD "").toLower
  domainId := args.domainId
  academicYear := args.academicYear
  extractionId := args.extractionId
  manifestVersion := args.manifestVersion
  acceptedPacketStatus := packet.status
  currentDefinitionMatch := true
  currentness := some "current"

/-- What the outcome of a metric asks of its findings: where its claims agree, the leading
one is storable. A metric that no finding touches passes the reader's rules already. -/
structure BuildArgs.MetricStorable (args : BuildArgs) (allowed : List String)
    (entry : String × List (String × JsonValue)) (type : ValueType) : Prop where
  leading : agreed (claimsAbout args.findings allowed args.documentPageCount entry) = true →
    ∀ claim, leading (claimsAbout args.findings allowed args.documentPageCount entry) = some claim →
      storable type claim = true
  inherited : untouched args.findings allowed entry.1 = true →
    ∀ metric, args.baseMetrics.bind (·.lookup entry.1) = some metric →
      metric.evidence.all validEvidence = true ∧ readable args.domainId [(entry.1, type)] entry.1 metric = .ok ()

/-- The hash of the domain is written in lower case, and every metric is storable. -/
structure BuildArgs.Storable (args : BuildArgs) : Prop where
  hash : ∀ hash, args.domainHashes.lookup args.domainId = some hash → hash.toLower = hash
  metrics : ∀ entries, domainMetricDefinitions args.manifestContent args.domainId = .ok entries →
    ∀ entry ∈ entries, ∀ type, item entry.2 "type" = .ok (.str type.name) →
      args.MetricStorable (args.allowedMetricIds.getD (entries.map Prod.fst)) entry type

theorem resolveMetric_readable {args : BuildArgs} {allowed : List String}
    {entry : String × List (String × JsonValue)} {type : ValueType} {outcome : PacketMetric}
    {verdicts : List (String × (String ⊕ Claim))} (named : item entry.2 "type" = .ok (.str type.name))
    (isRef : isRefOf args.domainId entry.1 = true)
    (sorted : Sorted args.findings allowed args.documentPageCount entry verdicts)
    (resolved : resolveMetric verdicts args.baseMetrics entry.1 = .ok outcome) :
    (outcome.evidence.all validEvidence = true ∧ ReadableMetric type outcome) ↔
      args.MetricStorable allowed entry type := by
  have single : ∀ metric, readable args.domainId [(entry.1, type)] entry.1 metric = .ok () ↔
      ReadableMetric type metric := fun metric =>
    readable_iff isRef (by rw [List.lookup_cons, beq_self_eq_true])
  have verified := @claimsAbout_verified args.findings allowed args.documentPageCount entry type named
  rw [resolveMetric, sorted.touched, sorted.claims] at resolved
  split at resolved
  case h_1 inherited isUntouched isInherited =>
    obtain rfl := Except.ok.inj resolved
    have noClaims : claimsAbout args.findings allowed args.documentPageCount entry = [] := by
      have both := sorted.touched.trans isUntouched
      rw [Bool.and_eq_true, List.isEmpty_iff, sorted.claims] at both
      exact both.1
    constructor
    · rintro ⟨evidence, readable⟩
      refine ⟨fun _ claim bad => ?_, fun _ metric isMetric => ?_⟩
      · rw [noClaims] at bad
        cases bad
      · obtain rfl := Option.some.inj (isInherited.symm.trans isMetric)
        exact ⟨evidence, (single _).mpr readable⟩
    · intro isStorable
      obtain ⟨evidence, readable⟩ := isStorable.inherited isUntouched _ isInherited
      exact ⟨evidence, (single _).mp readable⟩
  case h_2 fresh =>
    rw [metricOutcome_readable verified sorted.codes resolved]
    constructor
    · intro isLeading
      exact ⟨isLeading, fun isUntouched metric isMetric => (fresh metric isUntouched isMetric).elim⟩
    · exact fun isStorable => isStorable.leading

theorem metrics_resolved {entries : List (String × List (String × JsonValue))}
    {resolve : String → Except PyError PacketMetric} {metrics : List (String × PacketMetric)}
    (resolved : (entries.mapM fun entry => (resolve entry.1).map fun outcome => (entry.1, outcome)) = .ok metrics) :
    List.Forall₂ (fun entry metric => metric.1 = entry.1 ∧ resolve entry.1 = .ok metric.2) entries metrics := by
  induction entries generalizing metrics with
  | nil =>
    obtain rfl := Except.ok.inj resolved
    exact .nil
  | cons entry entries ih =>
    rw [List.mapM_cons] at resolved
    obtain ⟨first, isFirst, resolved⟩ := Fallible.bind_ok_iff.mp resolved
    obtain ⟨rest, areRest, resolved⟩ := Fallible.bind_ok_iff.mp resolved
    obtain rfl := Except.ok.inj resolved
    obtain ⟨outcome, isOutcome, rfl⟩ := Fallible.map_ok_iff.mp isFirst
    exact .cons ⟨rfl, isOutcome⟩ (ih areRest)

theorem raising_ok {A : Type} {x : Except PyError A} {a : A} : raising x = .ok a ↔ x = .ok a := by
  cases x <;> simp [raising]

/-- The fields of a returned packet that the reader compares. -/
structure BuildArgs.Returns (args : BuildArgs) (hash : String) (packet : Packet) : Prop where
  documentSha256 : packet.documentSha256 = args.documentSha256
  academicYear : packet.academicYear = args.academicYear
  extractionId : packet.extractionId = args.extractionId
  manifestVersion : packet.manifestVersion = args.manifestVersion
  domainId : packet.domainId = args.domainId
  domainSchemaHash : packet.domainSchemaHash = hash
  extractorVersion : packet.extractorVersion = args.extractorVersion
  counts : packet.counts = countsOf packet.metrics

theorem buildPacket_ok {args : BuildArgs} {packet : Packet} (built : buildPacket args = .ok packet) :
    ∃ entries verdicts hash, domainMetricDefinitions args.manifestContent args.domainId = .ok entries ∧
      collectClaims args.findings entries (args.allowedMetricIds.getD (entries.map Prod.fst))
        args.documentPageCount = .ok verdicts ∧
      List.Forall₂ (fun entry metric => metric.1 = entry.1 ∧
        resolveMetric verdicts args.baseMetrics entry.1 = .ok metric.2) entries packet.metrics ∧
      args.domainHashes.lookup args.domainId = some hash ∧
      args.Returns hash packet := by
  obtain ⟨entries, defined, built⟩ := Fallible.bind_ok_iff.mp built
  obtain ⟨verdicts, collected, built⟩ := Fallible.bind_ok_iff.mp built
  obtain ⟨metrics, resolved, built⟩ := Fallible.bind_ok_iff.mp built
  simp only at built
  split at built
  case isTrue => cases built
  case isFalse =>
    split at built
    case h_1 => cases built
    case h_2 hash isHash =>
      obtain rfl := Except.ok.inj built
      exact ⟨entries, verdicts, hash, raising_ok.mp defined, raising_ok.mp collected,
        metrics_resolved (raising_ok.mp resolved), isHash, rfl, rfl, rfl, rfl, rfl, rfl, rfl, rfl⟩

theorem get_jsonHashes (hashes : List (String × String)) (id : String) :
    get (jsonHashes hashes) id = (hashes.lookup id).map .str := by
  induction hashes with
  | nil => rfl
  | cons hash rest ih =>
    simp only [PyJson.JsonValue.get] at ih ⊢
    rw [jsonHashes, List.map_cons, List.lookup_cons, List.lookup_cons, ← jsonHashes, ih]
    split <;> rfl

theorem manifestHash_str {text hash : String} (isHash : manifestHash (some (.str text)) = .ok hash) :
    hash = text.toLower := by
  rw [manifestHash] at isHash
  split at isHash
  · exact (Except.ok.inj isHash).symm
  · cases isHash

theorem name_inj {type other : ValueType} (same : type.name = other.name) : type = other := by
  cases type <;> cases other <;> first | rfl | exact absurd same (by decide)

theorem definition_of_entry {domainId : String} {entries : List (String × List (String × JsonValue))}
    {metrics : List ManifestMetric} (defines : List.Forall₂ (Defines domainId) entries metrics)
    (distinct : (entries.map Prod.fst).Nodup) {entry : String × List (String × JsonValue)}
    (isIn : entry ∈ entries) : ∃ type, item entry.2 "type" = .ok (.str type.name) ∧
      isRefOf domainId entry.1 = true ∧
      (metrics.map fun metric => (metric.ref, metric.type)).lookup entry.1 = some type := by
  induction defines with
  | nil => cases isIn
  | @cons head _ _ _ first _ ih =>
    rw [List.map_cons, List.nodup_cons] at distinct
    rw [List.map_cons, List.lookup_cons, ← first.ref]
    rcases List.mem_cons.mp isIn with rfl | later
    · rw [beq_self_eq_true]
      exact ⟨_, first.type, first.ref ▸ first.isRef, rfl⟩
    · have apart : (entry.1 == head.1) = false :=
        beq_false_of_ne fun same => distinct.1 (same ▸ List.mem_map_of_mem later)
      rw [apart]
      exact ih distinct.2 later

theorem forall₂_forall {A B : Type} {R : A → B → Prop} {P : A → Prop} {Q : B → Prop} {as : List A}
    {bs : List B} (pairs : List.Forall₂ R as bs) (each : ∀ a ∈ as, ∀ b, R a b → (Q b ↔ P a)) :
    (∀ b ∈ bs, Q b) ↔ ∀ a ∈ as, P a := by
  induction pairs with
  | nil => simp
  | cons related _ ih =>
    rw [List.forall_mem_cons, List.forall_mem_cons, each _ List.mem_cons_self _ related,
      ih fun a isIn => each a (List.mem_cons_of_mem _ isIn)]

theorem parsePacketRow_ok {args : BuildArgs} {packet : Packet} {hash : String} {snapshot : ManifestSnapshot}
    {domain : ManifestDomain} {supportedExtractors : List String}
    (supported : args.extractorVersion ∈ supportedExtractors)
    (isHash : args.domainHashes.lookup args.domainId = some hash)
    (found : snapshot.domains.find? (·.id = args.domainId) = some domain)
    (schemaHash : domain.schemaHash = hash.toLower)
    (returns : args.Returns hash packet)
    (known : ∀ metric ∈ packet.metrics,
      ((domain.metrics.map fun metric => (metric.ref, metric.type)).lookup metric.1).isSome = true) :
    (∃ parsed, parsePacketRow (args.row packet) [(args.manifestVersion, snapshot)] supportedExtractors =
        .ok parsed) ↔
      hash.toLower = hash ∧ ∀ metric ∈ packet.metrics, metric.2.evidence.all validEvidence = true ∧
        readable args.domainId (domain.metrics.map fun metric => (metric.ref, metric.type)) metric.1
          metric.2 = .ok () := by
  have identity : identityMatches (args.row packet) domain supportedExtractors =
      decide (hash.toLower = hash) := by
    have lower : (hash = hash.toLower) = (hash.toLower = hash) := propext eq_comm
    simpa [identityMatches, BuildArgs.row, returns.documentSha256, returns.academicYear, returns.extractionId,
      returns.manifestVersion, returns.domainId, returns.domainSchemaHash, returns.extractorVersion,
      isHash, supported, schemaHash, lower] using fun same => Or.inr same
  have allKnown : (packet.metrics.all fun metric =>
      ((domain.metrics.map fun metric => (metric.ref, metric.type)).lookup metric.1).isSome) = true :=
    List.all_eq_true.mpr known
  have parts : (∀ metric ∈ packet.metrics, metric.2.evidence.all validEvidence = true ∧
      readable args.domainId (domain.metrics.map fun metric => (metric.ref, metric.type)) metric.1
        metric.2 = .ok ()) ↔
      (packet.metrics.all fun metric => metric.2.evidence.all validEvidence) = true ∧
        readAll args.domainId (domain.metrics.map fun metric => (metric.ref, metric.type))
          packet.metrics = .ok () := by
    rw [List.all_eq_true, readAll_ok]
    exact ⟨fun both => ⟨fun metric isIn => (both metric isIn).1, fun metric isIn => (both metric isIn).2⟩,
      fun both metric isIn => ⟨both.1 metric isIn, both.2 metric isIn⟩⟩
  rw [parts]
  unfold parsePacketRow
  simp only [show (args.row packet).packet = packet from rfl, returns.manifestVersion, List.lookup_cons,
    beq_self_eq_true, returns.domainId, found, identity, allKnown, Bool.not_true, Bool.false_eq_true, if_false,
    returns.counts, ne_eq, not_true_eq_false]
  cases shaped : packet.metrics.all fun metric => metric.2.evidence.all validEvidence with
  | false => simp [reject]
  | true =>
    by_cases lower : hash.toLower = hash
    · cases read : readAll args.domainId (domain.metrics.map fun metric => (metric.ref, metric.type))
        packet.metrics <;> simp [lower]
    · simp [lower, reject]

/-- A packet that the builder returns is read back exactly when its domain's hash is in
lower case and every metric is storable. -/
theorem packet_read_back_iff {args : BuildArgs} {packet : Packet} {snapshot : ManifestSnapshot}
    {supportedExtractors : List String}
    (compiled : compileManifest args.manifestVersion args.manifestContent
      (some (jsonHashes args.domainHashes)) = .ok snapshot)
    (supported : args.extractorVersion ∈ supportedExtractors) (built : buildPacket args = .ok packet) :
    (∃ parsed, parsePacketRow (args.row packet) [(args.manifestVersion, snapshot)] supportedExtractors =
      .ok parsed) ↔ args.Storable := by
  obtain ⟨entries, verdicts, hash, defined, collected, resolved, isHash, returns⟩ := buildPacket_ok built
  obtain ⟨domain, found, sameId, defines, distinct, schemaHash⟩ := domainMetricDefinitions_ok compiled defined
  rw [get_jsonHashes, isHash] at schemaHash
  have definition := fun entry => @definition_of_entry _ _ _ defines distinct entry
  have known : ∀ metric ∈ packet.metrics,
      ((domain.metrics.map fun metric => (metric.ref, metric.type)).lookup metric.1).isSome = true := by
    have sameRefs : (∀ metric ∈ packet.metrics,
        ((domain.metrics.map fun metric => (metric.ref, metric.type)).lookup metric.1).isSome = true) ↔
        ∀ entry ∈ entries,
          ((domain.metrics.map fun metric => (metric.ref, metric.type)).lookup entry.1).isSome = true :=
      forall₂_forall resolved fun entry _ metric related => by rw [related.1]
    rw [sameRefs]
    intro entry isIn
    obtain ⟨type, -, -, listed⟩ := definition entry isIn
    rw [listed]
    rfl
  rw [parsePacketRow_ok supported isHash found (manifestHash_str schemaHash) returns known]
  have metrics : (∀ metric ∈ packet.metrics, metric.2.evidence.all validEvidence = true ∧
      readable args.domainId (domain.metrics.map fun metric => (metric.ref, metric.type)) metric.1
        metric.2 = .ok ()) ↔
      ∀ entry ∈ entries, ∀ type, item entry.2 "type" = .ok (.str type.name) →
        args.MetricStorable (args.allowedMetricIds.getD (entries.map Prod.fst)) entry type := by
    apply forall₂_forall resolved
    rintro entry isIn metric ⟨sameRef, isResolved⟩
    obtain ⟨type, named, isRef, listed⟩ := definition entry isIn
    have sorted := collectClaims_sorted distinct collected isIn
    rw [sameRef, readable_iff isRef listed, resolveMetric_readable named isRef sorted isResolved]
    constructor
    · intro isStorable other otherNamed
      have sameType : type = other := by
        apply name_inj
        simpa using named.symm.trans otherNamed
      exact sameType ▸ isStorable
    · exact fun every => every type named
  rw [metrics]
  constructor
  · rintro ⟨lower, every⟩
    refine ⟨fun other isOther => ?_, fun others areOthers => ?_⟩
    · obtain rfl := Option.some.inj (isHash.symm.trans isOther)
      exact lower
    · obtain rfl := Except.ok.inj (defined.symm.trans areOthers)
      exact every
  · exact fun storable => ⟨storable.hash hash isHash, storable.metrics entries defined⟩

def metricJson (id type : String) : JsonValue :=
  .dict [("id", .str id), ("description", .str "Students"), ("type", .str type)]

def sampleContent : JsonValue :=
  .dict [("domains", .list [.dict [("id", .str "aid"),
    ("metrics", .list [metricJson "aid.average" "number", metricJson "aid.count" "integer"])]])]

def sampleHash : String := "0000000000000000000000000000000000000000000000000000000000000000"

def finding (metricId : String) (status : AvailabilityStatus) (value : JsonValue) (raw : Option String) :
    Finding where
  metricId := metricId
  availabilityStatus := status
  value := value
  rawValue := raw
  pageNumber := 1
  section_ := none
  rowLabel := none
  columnLabel := none
  excerpt := "Total"
  onPage := by decide
  solid := by decide +kernel

def sampleArgs (findings : List Finding) : BuildArgs where
  manifestContent := sampleContent
  domainHashes := [("aid", sampleHash)]
  domainId := "aid"
  findings := findings
  providerContract := []
  documentPageCount := 2
  documentSha256 := sampleHash
  academicYear := 2024
  extractionId := "1"
  manifestVersion := "v1"
  modelId := "m"
  extractorVersion := "e1"
  allowedMetricIds := none
  baseMetrics := none

def isOk {E A : Type} : Except E A → Bool
  | .ok _ => true
  | .error _ => false

theorem exists_of_isOk {E A : Type} {x : Except E A} (ok : isOk x = true) : ∃ a, x = .ok a := by
  cases x with
  | ok a => exact ⟨a, rfl⟩
  | error => cases ok

def reportedBoth : List Finding :=
  [finding "aid.count" .reported (.int 12) (some "12"), finding "aid.average" .reported (.int 90) none]

/-- Two reported numbers, with and without their raw cells. -/
theorem packet_read_back_iff_reported : ∃ snapshot packet,
    compileManifest "v1" sampleContent (some (jsonHashes [("aid", sampleHash)])) = .ok snapshot ∧
      buildPacket (sampleArgs reportedBoth) = .ok packet ∧
      ((∃ parsed, parsePacketRow ((sampleArgs reportedBoth).row packet) [("v1", snapshot)] ["e1"] = .ok parsed) ↔
        (sampleArgs reportedBoth).Storable) := by
  obtain ⟨snapshot, compiled⟩ := @exists_of_isOk _ _ (compileManifest "v1" sampleContent
    (some (jsonHashes [("aid", sampleHash)]))) (by decide +kernel)
  obtain ⟨packet, built⟩ := @exists_of_isOk _ _ (buildPacket (sampleArgs reportedBoth)) (by decide +kernel)
  exact ⟨snapshot, packet, compiled, built,
    packet_read_back_iff compiled (List.mem_singleton_self (sampleArgs reportedBoth).extractorVersion) built⟩

/-- The error with which the reader refuses the packet, if the builder returns one. -/
def readBackError (args : BuildArgs) : Option ReadError :=
  match compileManifest args.manifestVersion args.manifestContent (some (jsonHashes args.domainHashes)),
    buildPacket args with
  | .ok snapshot, .ok packet =>
    match parsePacketRow (args.row packet) [(args.manifestVersion, snapshot)] [args.extractorVersion] with
    | .error error => some error
    | .ok _ => none
  | _, _ => none

/-- A good integer beside a suppressed number with a raw cell, or beside a number that is
no double. -/
def suppressedRaw : List Finding :=
  [finding "aid.count" .reported (.int 12) (some "12"), finding "aid.average" .suppressed .null (some "*")]

def hugeNumber : List Finding :=
  [finding "aid.count" .reported (.int 12) (some "12"), finding "aid.average" .reported (.int (2 ^ 1024)) none]

theorem read_of_error {args : BuildArgs} {error : ReadError} (refused : readBackError args = some error) :
    ∃ snapshot packet, compileManifest args.manifestVersion args.manifestContent
        (some (jsonHashes args.domainHashes)) = .ok snapshot ∧ buildPacket args = .ok packet ∧
      parsePacketRow (args.row packet) [(args.manifestVersion, snapshot)] [args.extractorVersion] = .error error := by
  unfold readBackError at refused
  split at refused
  case h_1 snapshot packet compiled built =>
    split at refused
    case h_1 found parsed =>
      rw [Option.some.inj refused] at parsed
      exact ⟨snapshot, packet, compiled, built, parsed⟩
    case h_2 => cases refused
  case h_2 => cases refused

/-- A suppressed number with a raw cell makes the reader refuse the whole packet, and a
number beyond the doubles raises an error that is no `ServiceError`. -/
theorem odd_finding_loses_packet :
    (∃ snapshot packet, compileManifest "v1" sampleContent (some (jsonHashes [("aid", sampleHash)])) = .ok snapshot ∧
      buildPacket (sampleArgs suppressedRaw) = .ok packet ∧
      parsePacketRow ((sampleArgs suppressedRaw).row packet) [("v1", snapshot)] ["e1"] =
        .error (.rejected "metric_state_invalid")) ∧
    ∃ snapshot packet, compileManifest "v1" sampleContent (some (jsonHashes [("aid", sampleHash)])) = .ok snapshot ∧
      buildPacket (sampleArgs hugeNumber) = .ok packet ∧
      parsePacketRow ((sampleArgs hugeNumber).row packet) [("v1", snapshot)] ["e1"] =
        .error (.escaped .overflowError) :=
  ⟨@read_of_error (sampleArgs suppressedRaw) _ (by decide +kernel),
    @read_of_error (sampleArgs hugeNumber) _ (by decide +kernel)⟩

end Counselle.Cds

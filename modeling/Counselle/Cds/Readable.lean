import Counselle.Cds.PacketRow

/-! The packets that the reader takes from the builder. The two decide the state of a metric
each on its own: the reader wants no raw cell beside an absent value, a digit in the raw cell
of a number, and a number that is a finite double. -/
namespace Counselle.Cds
open PyJson (JsonValue PyFloat)
open PyJson.JsonValue (get)
open PyText (PyError strip)

theorem require_ok {A : Type} {message : String} {x : Option A} {a : A} :
    require message x = .ok a ↔ x = some a := by
  cases x <;> simp [require]

theorem orRaise_ok {A : Type} {error : PyError} {x : Option A} {a : A} :
    orRaise error x = .ok a ↔ x = some a := by
  cases x <;> simp [orRaise]

theorem refuseIf_ok {condition : Bool} {message : String} :
    refuseIf condition message = .ok () ↔ condition = false := by
  cases condition <;> simp [refuseIf]

theorem asDict_some {value : JsonValue} {members : List (String × JsonValue)} :
    asDict value = some members ↔ value = .dict members := by
  cases value <;> simp [asDict]

theorem asList_some {value : JsonValue} {items : List JsonValue} :
    asList value = some items ↔ value = .list items := by
  cases value <;> simp [asList]

theorem solidText_some {value : JsonValue} {text : String} (solid : solidText value = some text) :
    value = .str text := by
  cases value with
  | str other =>
    rw [solidText] at solid
    split at solid
    · cases solid
    · rw [Option.some.inj solid]
  | _ => cases solid

theorem asType_some {value : JsonValue} {type : ValueType} (named : asType value = some type) :
    value = .str type.name := by
  cases value with
  | str text =>
    have same : type.name = text := by simpa using List.find?_some named
    rw [same]
  | _ => cases named

structure Compiles (domainId : String) (raw : JsonValue) (metric : ManifestMetric) : Prop where
  members : ∃ members, raw = .dict members ∧ get members "id" = some (.str metric.ref) ∧
    get members "type" = some (.str metric.type.name)
  isRef : isRefOf domainId metric.ref = true

theorem buildMetric_some {ref : String} {members : List (String × JsonValue)} {hints : List JsonValue}
    {contexts : List ManifestContext} {metric : ManifestMetric}
    (built : buildMetric ref members hints contexts = some metric) :
    metric.ref = ref ∧ get members "type" = some (.str metric.type.name) := by
  simp only [buildMetric, Option.bind_eq_bind, Option.bind_eq_some_iff] at built
  obtain ⟨_, _, type, ⟨value, found, named⟩, _, _, _, _, _, _, _, _, _, _, _, _, same⟩ := built
  obtain rfl := Option.some.inj same
  exact ⟨rfl, asType_some named ▸ found⟩

theorem compileMetric_ok {domainId : String} {seenRefs : List String} {raw : JsonValue}
    {metric : ManifestMetric} (compiled : compileMetric domainId seenRefs raw = .ok metric) :
    Compiles domainId raw metric ∧ metric.ref ∉ seenRefs := by
  obtain ⟨members, isDict, compiled⟩ := Fallible.bind_ok_iff.mp compiled
  obtain ⟨ref, isRef, compiled⟩ := Fallible.bind_ok_iff.mp compiled
  obtain ⟨_, fresh, compiled⟩ := Fallible.bind_ok_iff.mp compiled
  obtain ⟨items, -, compiled⟩ := Fallible.bind_ok_iff.mp compiled
  obtain ⟨contexts, -, compiled⟩ := Fallible.bind_ok_iff.mp compiled
  obtain ⟨-, -, compiled⟩ := Fallible.bind_ok_iff.mp compiled
  obtain ⟨-, -, compiled⟩ := Fallible.bind_ok_iff.mp compiled
  obtain ⟨-, -, compiled⟩ := Fallible.bind_ok_iff.mp compiled
  obtain ⟨hints, -, compiled⟩ := Fallible.bind_ok_iff.mp compiled
  obtain ⟨built, isBuilt, compiled⟩ := Fallible.bind_ok_iff.mp compiled
  obtain ⟨-, -, compiled⟩ := Fallible.bind_ok_iff.mp compiled
  obtain rfl := Except.ok.inj compiled
  obtain ⟨rfl, typed⟩ := buildMetric_some (require_ok.mp isBuilt)
  obtain ⟨value, found, solid⟩ := Option.bind_eq_some_iff.mp (require_ok.mp isRef)
  have freshRef := refuseIf_ok.mp fresh
  simp only [Bool.or_eq_false_iff, Bool.not_eq_false'] at freshRef
  exact ⟨⟨⟨members, asDict_some.mp (require_ok.mp isDict), solidText_some solid ▸ found, typed⟩, freshRef.2⟩,
    by simpa using freshRef.1⟩

theorem compileMetrics_ok {domainId : String} {raws : List JsonValue} {seenRefs after : List String}
    {metrics : List ManifestMetric} (compiled : compileMetrics domainId raws seenRefs = .ok (metrics, after)) :
    List.Forall₂ (Compiles domainId) raws metrics ∧ (metrics.map (·.ref)).Nodup ∧
      ∀ metric ∈ metrics, metric.ref ∉ seenRefs := by
  induction raws generalizing seenRefs after metrics with
  | nil =>
    obtain ⟨rfl, -⟩ := Prod.mk.inj (Except.ok.inj compiled)
    simp
  | cons raw raws ih =>
    obtain ⟨metric, first, compiled⟩ := Fallible.bind_ok_iff.mp compiled
    obtain ⟨⟨rest, _⟩, later, compiled⟩ := Fallible.bind_ok_iff.mp compiled
    obtain ⟨rfl, -⟩ := Prod.mk.inj (Except.ok.inj compiled)
    obtain ⟨compiles, fresh⟩ := compileMetric_ok first
    obtain ⟨others, distinct, unseen⟩ := ih later
    refine ⟨.cons compiles others, ?_, ?_⟩
    · rw [List.map_cons, List.nodup_cons]
      refine ⟨fun isIn => ?_, distinct⟩
      obtain ⟨other, isOther, same⟩ := List.mem_map.mp isIn
      exact unseen other isOther (same ▸ List.mem_cons_self)
    · intro other isIn
      rcases List.mem_cons.mp isIn with rfl | isLater
      · exact fresh
      · exact fun seen => unseen other isLater (List.mem_cons_of_mem _ seen)

structure CompilesDomain (hashes : List (String × JsonValue)) (raw : JsonValue) (domain : ManifestDomain) :
    Prop where
  members : ∃ members rawMetrics, raw = .dict members ∧ get members "id" = some (.str domain.id) ∧
    get members "metrics" = some (.list rawMetrics) ∧
    List.Forall₂ (Compiles domain.id) rawMetrics domain.metrics
  distinct : (domain.metrics.map (·.ref)).Nodup
  hash : manifestHash (get hashes domain.id) = .ok domain.schemaHash

theorem compileDomain_ok {hashes : List (String × JsonValue)} {seenDomains seenRefs after : List String}
    {raw : JsonValue} {domain : ManifestDomain}
    (compiled : compileDomain hashes seenDomains seenRefs raw = .ok (domain, after)) :
    CompilesDomain hashes raw domain := by
  obtain ⟨members, isDict, compiled⟩ := Fallible.bind_ok_iff.mp compiled
  obtain ⟨domainId, isId, compiled⟩ := Fallible.bind_ok_iff.mp compiled
  obtain ⟨-, -, compiled⟩ := Fallible.bind_ok_iff.mp compiled
  obtain ⟨title, -, compiled⟩ := Fallible.bind_ok_iff.mp compiled
  obtain ⟨rawMetrics, isList, compiled⟩ := Fallible.bind_ok_iff.mp compiled
  obtain ⟨⟨metrics, _⟩, isCompiled, compiled⟩ := Fallible.bind_ok_iff.mp compiled
  obtain ⟨schemaHash, isHash, compiled⟩ := Fallible.bind_ok_iff.mp compiled
  obtain ⟨rfl, -⟩ := Prod.mk.inj (Except.ok.inj compiled)
  obtain ⟨value, found, solid⟩ := Option.bind_eq_some_iff.mp (require_ok.mp isId)
  obtain ⟨list, foundList, same⟩ := Option.bind_eq_some_iff.mp (require_ok.mp isList)
  obtain ⟨others, distinct, -⟩ := compileMetrics_ok isCompiled
  exact ⟨⟨members, rawMetrics, asDict_some.mp (orRaise_ok.mp isDict), solidText_some solid ▸ found, asList_some.mp same ▸ foundList, others⟩,
    distinct, isHash⟩

theorem compileDomains_ok {hashes : List (String × JsonValue)} {raws : List JsonValue}
    {seenDomains seenRefs after : List String} {domains : List ManifestDomain}
    (compiled : compileDomains hashes raws seenDomains seenRefs = .ok (domains, after)) :
    List.Forall₂ (CompilesDomain hashes) raws domains := by
  induction raws generalizing seenDomains seenRefs after domains with
  | nil =>
    obtain ⟨rfl, -⟩ := Prod.mk.inj (Except.ok.inj compiled)
    exact .nil
  | cons raw raws ih =>
    obtain ⟨⟨domain, _⟩, first, compiled⟩ := Fallible.bind_ok_iff.mp compiled
    obtain ⟨⟨rest, _⟩, later, compiled⟩ := Fallible.bind_ok_iff.mp compiled
    obtain ⟨rfl, -⟩ := Prod.mk.inj (Except.ok.inj compiled)
    exact .cons (compileDomain_ok first) (ih later)

theorem compileManifest_ok {version : String} {content : JsonValue}
    {hashes : List (String × JsonValue)} {snapshot : ManifestSnapshot}
    (compiled : compileManifest version content (some hashes) = .ok snapshot) :
    ∃ members rawDomains, content = .dict members ∧ get members "domains" = some (.list rawDomains) ∧
      List.Forall₂ (CompilesDomain hashes) rawDomains snapshot.domains ∧
      sameNames (hashes.map Prod.fst) (snapshot.domains.map (·.id)) = true := by
  obtain ⟨rawDomains, isList, compiled⟩ := Fallible.bind_ok_iff.mp compiled
  obtain ⟨⟨domains, seenRefs⟩, isCompiled, compiled⟩ := Fallible.bind_ok_iff.mp compiled
  obtain ⟨_, complete, compiled⟩ := Fallible.bind_ok_iff.mp compiled
  obtain ⟨-, -, compiled⟩ := Fallible.bind_ok_iff.mp compiled
  obtain rfl := Except.ok.inj compiled
  obtain ⟨value, found, same⟩ := Option.bind_eq_some_iff.mp (require_ok.mp isList)
  obtain ⟨members, isDict, found⟩ := Option.bind_eq_some_iff.mp found
  have names := refuseIf_ok.mp complete
  simp only [Option.any_some, Bool.or_eq_false_iff, Bool.not_eq_false'] at names
  exact ⟨members, rawDomains, asDict_some.mp isDict, asList_some.mp same ▸ found,
    compileDomains_ok isCompiled, names.2⟩

theorem find?_forall₂ {A B : Type} {R : A → B → Prop} {p : A → Bool} {q : B → Bool}
    (agree : ∀ a b, R a b → p a = q b) {as : List A} {bs : List B} (pairs : List.Forall₂ R as bs) {a : A}
    (found : as.find? p = some a) : ∃ b, bs.find? q = some b ∧ R a b := by
  induction pairs with
  | nil => cases found
  | cons related _ ih =>
    rw [List.find?_cons] at found ⊢
    rw [← agree _ _ related]
    split at found
    case h_1 => exact ⟨_, rfl, Option.some.inj found ▸ related⟩
    case h_2 => exact ih found

/-- A definition of the builder and the reader's metric of the same id. -/
structure Defines (domainId : String) (entry : String × List (String × JsonValue)) (metric : ManifestMetric) :
    Prop where
  ref : entry.1 = metric.ref
  type : item entry.2 "type" = .ok (.str metric.type.name)
  isRef : isRefOf domainId metric.ref = true

theorem item_ok {members : List (String × JsonValue)} {key : String} {value : JsonValue} :
    item members key = .ok value ↔ get members key = some value := by
  unfold item
  cases get members key <;> simp

theorem Compiles.definition {domainId : String} {raw : JsonValue} {metric : ManifestMetric}
    (compiles : Compiles domainId raw metric) :
    ∃ entry, metricDefinition raw = .ok entry ∧ Defines domainId entry metric := by
  obtain ⟨members, rfl, id, type⟩ := compiles.members
  refine ⟨(metric.ref, members), ?_, rfl, item_ok.mpr type, compiles.isRef⟩
  exact Fallible.bind_ok_iff.mpr ⟨members, rfl, Fallible.bind_ok_iff.mpr
    ⟨_, item_ok.mpr id, Fallible.bind_ok_iff.mpr ⟨metric.ref, rfl, rfl⟩⟩⟩

theorem definitions_mapM {domainId : String} {raws : List JsonValue} {metrics : List ManifestMetric}
    (compiles : List.Forall₂ (Compiles domainId) raws metrics) :
    ∃ entries, raws.mapM metricDefinition = .ok entries ∧ List.Forall₂ (Defines domainId) entries metrics := by
  induction compiles with
  | nil => exact ⟨[], rfl, .nil⟩
  | cons first _ ih =>
    obtain ⟨entry, isEntry, defines⟩ := first.definition
    obtain ⟨entries, areEntries, others⟩ := ih
    refine ⟨entry :: entries, ?_, .cons defines others⟩
    rw [List.mapM_cons, isEntry, areEntries]
    rfl

theorem Defines.ids {domainId : String} {entries : List (String × List (String × JsonValue))}
    {metrics : List ManifestMetric} (defines : List.Forall₂ (Defines domainId) entries metrics) :
    entries.map Prod.fst = metrics.map (·.ref) := by
  induction defines with
  | nil => rfl
  | cons first _ ih => rw [List.map_cons, List.map_cons, first.ref, ih]

theorem domainMetricDefinitions_ok {version : String} {content : JsonValue}
    {hashes : List (String × JsonValue)} {snapshot : ManifestSnapshot} {domainId : String}
    {entries : List (String × List (String × JsonValue))}
    (compiled : compileManifest version content (some hashes) = .ok snapshot)
    (defined : domainMetricDefinitions content domainId = .ok entries) :
    ∃ domain, snapshot.domains.find? (·.id = domainId) = some domain ∧ domain.id = domainId ∧
      List.Forall₂ (Defines domainId) entries domain.metrics ∧ (entries.map Prod.fst).Nodup ∧
      manifestHash (get hashes domainId) = .ok domain.schemaHash := by
  obtain ⟨members, raws, rfl, domains, compiles, -⟩ := compileManifest_ok compiled
  obtain ⟨_, isDict, defined⟩ := Fallible.bind_ok_iff.mp defined
  obtain rfl : members = _ := Except.ok.inj isDict
  obtain ⟨value, isValue, defined⟩ := Fallible.bind_ok_iff.mp defined
  obtain rfl : JsonValue.list raws = value := Option.some.inj (domains.symm.trans (item_ok.mp isValue))
  obtain ⟨_, isList, defined⟩ := Fallible.bind_ok_iff.mp defined
  obtain rfl : raws = _ := Except.ok.inj isList
  obtain ⟨raw, found, defined⟩ := Fallible.bind_ok_iff.mp defined
  have agree : ∀ raw domain, CompilesDomain hashes raw domain →
      hasId domainId raw = decide (domain.id = domainId) := by
    intro raw domain compiles
    obtain ⟨members, _, rfl, id, -⟩ := compiles.members
    simp [hasId, asDict, id, isText]
  have foundRaw : raws.find? (hasId domainId) = some raw := by
    cases isFound : raws.find? (hasId domainId) with
    | none => rw [isFound] at found; cases found
    | some other => rw [isFound] at found; rw [Except.ok.inj found]
  obtain ⟨domain, isDomain, compilesDomain⟩ := find?_forall₂ agree compiles foundRaw
  have sameId : domain.id = domainId := by simpa using List.find?_some isDomain
  obtain ⟨domainMembers, rawMetrics, rfl, id, metrics, each⟩ := compilesDomain.members
  obtain ⟨_, isDict, defined⟩ := Fallible.bind_ok_iff.mp defined
  obtain rfl : domainMembers = _ := Except.ok.inj isDict
  obtain ⟨value, isValue, defined⟩ := Fallible.bind_ok_iff.mp defined
  obtain rfl : JsonValue.list rawMetrics = value := Option.some.inj (metrics.symm.trans (item_ok.mp isValue))
  obtain ⟨_, isList, defined⟩ := Fallible.bind_ok_iff.mp defined
  obtain rfl : rawMetrics = _ := Except.ok.inj isList
  obtain ⟨others, areOthers, defines⟩ := definitions_mapM each
  obtain ⟨listed, areListed, defined⟩ := Fallible.bind_ok_iff.mp defined
  obtain rfl : others = listed := Except.ok.inj (areOthers.symm.trans areListed)
  have distinct : (others.map Prod.fst).Nodup := by
    rw [Defines.ids defines]
    exact compilesDomain.distinct
  obtain rfl : others = entries := (Upsert.dictOf_of_nodup distinct).symm.trans (Except.ok.inj defined)
  subst sameId
  exact ⟨domain, isDomain, rfl, defines, distinct, compilesDomain.hash⟩

/-- The state is one of a metric, and a reported value can be shown. -/
structure ReadableMetric (type : ValueType) (metric : PacketMetric) : Prop where
  state : validMetricState metric = true
  shown : metric.extractionStatus = .verified → metric.availabilityStatus = some .reported →
    (∃ text, display metric type = .ok text) ∧ numericRaw metric type = true

theorem readable_iff {domainId ref : String} {definitions : List (String × ValueType)} {type : ValueType}
    {metric : PacketMetric} (isRef : isRefOf domainId ref = true) (defined : definitions.lookup ref = some type) :
    readable domainId definitions ref metric = .ok () ↔ ReadableMetric type metric := by
  unfold readable
  rw [isRef, defined]
  cases state : validMetricState metric with
  | false =>
    refine iff_of_false (by simp) fun readable => ?_
    rw [readable.state] at state
    cases state
  | true =>
    by_cases shown : metric.extractionStatus = .verified ∧ metric.availabilityStatus = some .reported
    · have asked : (∃ text, display metric type = .ok text) ∧ numericRaw metric type = true ↔
          ReadableMetric type metric :=
        ⟨fun both => ⟨state, fun _ _ => both⟩, fun readable => readable.shown shown.1 shown.2⟩
      rw [← asked]
      simp only [Bool.not_true, Bool.false_eq_true, if_false, shown.1, shown.2, decide_true, Bool.and_self, if_true]
      split
      case h_1 failed => simp [failed]
      case h_2 _ _ failed => simp [failed]
      case h_3 text displayed =>
        cases numericRaw metric type <;> simp [displayed]
    · have unasked : (decide (metric.extractionStatus = .verified) &&
          decide (metric.availabilityStatus = some .reported)) = false := by
        simpa using shown
      rw [unasked]
      exact iff_of_true rfl ⟨state, fun verified reported => absurd ⟨verified, reported⟩ shown⟩

theorem readAll_ok {domainId : String} {definitions : List (String × ValueType)}
    {metrics : List (String × PacketMetric)} : readAll domainId definitions metrics = .ok () ↔
      ∀ metric ∈ metrics, readable domainId definitions metric.1 metric.2 = .ok () := by
  induction metrics with
  | nil => simp [readAll]
  | cons metric rest ih =>
    rw [readAll, Fallible.bind_ok_iff, List.forall_mem_cons, ih]
    exact ⟨fun ⟨_, first, later⟩ => ⟨first, later⟩, fun ⟨first, later⟩ => ⟨(), first, later⟩⟩

theorem readable_unclaimed {type : ValueType} {status : ExtractionStatus} {code : Option String}
    (unverified : status ≠ .verified)
    (diagnosed : if status = .invalid then code.any validDiagnostic = true else code = none) :
    ReadableMetric type (unclaimed status code) where
  state := by
    cases status with
    | verified => exact absurd rfl unverified
    | invalid => simpa [validMetricState, unclaimed, isNull] using diagnosed
    | _ =>
      obtain rfl : code = none := by simpa using diagnosed
      rfl
  shown := fun verified => absurd verified unverified

/-- What the builder lets through as a value of the type. -/
def isTyped : ValueType → JsonValue → Bool
  | .integer, .int _ => true
  | .number, .int _ | .number, .float _ => true
  | .string, .str text => !isBlank text
  | .boolean, .bool _ => true
  | .enum, .str _ => true
  | _, _ => false

structure Claim.Verified (type : ValueType) (claim : Claim) : Prop where
  typed : claim.availabilityStatus = .reported → isTyped type claim.value = true
  absent : claim.availabilityStatus ≠ .reported → claim.value = .null
  evidence : validEvidence claim.evidence = true

def fits (type : ValueType) (value : JsonValue) : Bool :=
  match type, value with
  | .number, value => (toFloat value).toOption.any isFinite
  | .enum, .str text => !isBlank text
  | _, _ => true

/-- The reader's rules about what the builder does not check: a reported number has a digit
in its raw cell, if that is not blank, and is finite; an absent value has no raw cell. -/
def storable (type : ValueType) (claim : Claim) : Bool :=
  if claim.availabilityStatus = .reported then numericRaw claim.metric type && fits type claim.value
  else claim.rawValue.isNone

theorem validateTypedValue_iff {type : ValueType} {value : JsonValue} (typed : isTyped type value = true) :
    validateTypedValue value type = .ok () ↔ fits type value = true := by
  unfold isTyped at typed
  split at typed
  case h_2 n =>
    simp only [validateTypedValue, fits, Except.map]
    cases toFloat (.int n) with
    | error => simp [bind, Except.bind, Except.toOption]
    | ok q => cases finite : isFinite q <;> simp [bind, Except.bind, Except.toOption, finite]
  case h_3 q =>
    simp only [validateTypedValue, fits, Except.map]
    cases toFloat (.float q) with
    | error => simp [bind, Except.bind, Except.toOption]
    | ok q => cases finite : isFinite q <;> simp [bind, Except.bind, Except.toOption, finite]
  case h_4 text => simpa [validateTypedValue, fits, bind, Except.bind] using typed
  case h_6 text => cases blank : isBlank text <;> simp [validateTypedValue, fits, bind, Except.bind, blank]
  case h_7 => cases typed
  all_goals simp [validateTypedValue, fits, bind, Except.bind]

theorem groupedInt_ok {n : Int} (short : hasLongInt (.int n) = false) : ∃ text, groupedInt n = .ok text := by
  rw [hasLongInt, decide_eq_false_iff_not] at short
  exact ⟨_, by rw [groupedInt, if_neg short]⟩

theorem displayValue_ok {type : ValueType} {value : JsonValue} (typed : isTyped type value = true)
    (short : hasLongInt value = false) (isFit : fits type value = true) :
    ∃ text, displayValue type value = .ok text := by
  unfold isTyped at typed
  split at typed
  case h_1 n => exact groupedInt_ok short
  case h_2 n =>
    rw [fits] at isFit
    rw [displayValue]
    cases converted : toFloat (.int n) with
    | error => simp [converted, Except.toOption] at isFit
    | ok q =>
      have finite : isFinite q = true := by simpa [converted, Except.toOption] using isFit
      exact ⟨_, by simp only [bind, Except.bind, finite, if_true]; rfl⟩
  case h_3 q =>
    cases q with
    | finite q => exact ⟨_, rfl⟩
    | infinite negative => simp [fits, toFloat, Except.toOption, isFinite] at isFit
    | nan => simp [fits, toFloat, Except.toOption, isFinite] at isFit
  case h_7 => cases typed
  all_goals exact ⟨_, rfl⟩

theorem display_iff {type : ValueType} {claim : Claim} (typed : isTyped type claim.value = true)
    (short : hasLongInt claim.value = false) :
    (∃ text, display claim.metric type = .ok text) ↔ fits type claim.value = true := by
  rw [← validateTypedValue_iff typed]
  constructor
  · rintro ⟨text, displayed⟩
    obtain ⟨_, valid, -⟩ := Fallible.bind_ok_iff.mp displayed
    exact valid
  · intro valid
    obtain ⟨text, shown⟩ := displayValue_ok typed short ((validateTypedValue_iff typed).mp valid)
    unfold display
    split
    case h_1 c rest _ => exact ⟨c :: rest, Fallible.bind_ok_iff.mpr ⟨(), valid, rfl⟩⟩
    case h_2 => exact ⟨text, Fallible.bind_ok_iff.mpr ⟨(), valid, shown⟩⟩

theorem claim_readable_iff {type : ValueType} {claim : Claim} (verified : claim.Verified type)
    (short : hasLongInt claim.value = false) :
    ReadableMetric type claim.metric ↔ storable type claim = true := by
  unfold storable
  by_cases reported : claim.availabilityStatus = .reported
  · have typed := verified.typed reported
    have valued : isNull claim.value = false := by
      cases value : claim.value with
      | null =>
        rw [value] at typed
        cases type <;> cases typed
      | _ => rfl
    have state : validMetricState claim.metric = true := by
      simp [validMetricState, Claim.metric, reported, valued]
    rw [if_pos reported, Bool.and_eq_true, and_comm, ← display_iff typed short]
    exact ⟨fun readable => readable.shown rfl (congrArg some reported), fun both => ⟨state, fun _ _ => both⟩⟩
  · have absent := verified.absent reported
    have unshown : claim.metric.availabilityStatus ≠ some .reported := fun bad => reported (Option.some.inj bad)
    have state : validMetricState claim.metric = claim.rawValue.isNone := by
      rw [validMetricState]
      cases status : claim.availabilityStatus with
      | reported => exact absurd status reported
      | _ => simp [Claim.metric, status, absent, isNull]
    rw [if_neg reported, ← state]
    exact ⟨fun readable => readable.state, fun valid => ⟨valid, fun _ bad => absurd bad unshown⟩⟩

end Counselle.Cds

import Counselle.Cds.Review
import Counselle.Cds.Agreement

/-! The packet of an edited domain against its edits: when every edited ref says what was
written, and the others what they said. -/
namespace Counselle.Cds.Review
open PyJson (JsonValue PyFloat)
open PyJson.JsonValue (get)
open PyText (PyError strip)

/-- The lossless normalisation of a value: an integral float is its integer, and the name of
an enum is stripped. -/
inductive Lossless : JsonValue → JsonValue → Prop where
  | same (value : JsonValue) : Lossless value value
  | integral (n : Int) : Lossless (.float (.finite n)) (.int n)
  | stripped (text : String) : Lossless (.str text) (.str (String.ofList (strip text.toList)))

def changedRefs (packet : Packet) : List String :=
  ((((get packet.providerContract "human_review").bind asDict).bind (get · "changed_refs")).bind asList).getD []
    |>.filterMap asText

structure SaysEdit (edit : MetricEdit) (metric : PacketMetric) : Prop where
  verified : metric.extractionStatus = .verified
  status : metric.availabilityStatus.map AvailabilityStatus.name = some edit.availabilityStatus
  value : Lossless edit.value metric.value
  evidence : metric.evidence = some edit.evidence

/-- The packet says what the edits wrote, the rest of the packet they were written for, and
nothing else. -/
structure Says (base : List (String × PacketMetric)) (rows : List PendingEdit) (packet : Packet) : Prop where
  edited : ∀ row ∈ rows, ∃ metric, packet.metrics.lookup row.metricRef = some metric ∧ SaysEdit row.edit metric
  unedited : ∀ ref, (∀ row ∈ rows, row.metricRef ≠ ref) → packet.metrics.lookup ref = base.lookup ref
  audited : ∀ ref, ref ∈ changedRefs packet ↔ packet.metrics.lookup ref ≠ base.lookup ref

/-- The builder takes the edit for a claim of the value, which is the value as it was
written. -/
structure Representable (pages : Int) (definition : List (String × JsonValue)) (edit : MetricEdit)
    (status : AvailabilityStatus) (value : JsonValue) : Prop where
  named : AvailabilityStatus.ofName edit.availabilityStatus = some status
  claims : status ≠ .notReported
  onPage : edit.evidence.pageNumber ≤ pages
  absent : status = .notInTemplateVersion → edit.rawValue = none
  typed : status = .reported → ∃ type, item definition "type" = .ok type ∧
    typedAs type definition edit.value = .ok (some value)
  unvalued : status ≠ .reported → edit.value = .null ∧ value = .null

def MetricEdit.outcome (edit : MetricEdit) (status : AvailabilityStatus) (value : JsonValue) : PacketMetric where
  availabilityStatus := some status
  extractionStatus := .verified
  value := value
  rawValue := edit.rawValue
  evidence := some edit.evidence
  diagnosticCode := none

/-- Every edit can be represented, none restates what is stored, and the manifest has just
the refs of the packet. -/
structure Sayable (env : ReviewEnv) (summary : StoredPacket) (rows : List PendingEdit) : Prop where
  written : ∀ row ∈ rows, ∀ entries, domainMetricDefinitions env.manifestContent summary.domainId = .ok entries →
    ∃ definition, entries.lookup row.metricRef = some definition ∧
      ∃ status value, Representable env.pageCount definition row.edit status value ∧
        summary.packet.metrics.lookup row.metricRef ≠ some (row.edit.outcome status value)
  kept : ∀ ref, (∀ row ∈ rows, row.metricRef ≠ ref) → ∀ entries,
    domainMetricDefinitions env.manifestContent summary.domainId = .ok entries →
    ((entries.lookup ref).isSome ↔ (summary.packet.metrics.lookup ref).isSome)

theorem typedInteger_lossless {value after : JsonValue} (typed : typedInteger value = some after) :
    Lossless value after := by
  unfold typedInteger at typed
  split at typed
  case h_1 n => exact Option.some.inj typed ▸ .same _
  case h_2 q =>
    split at typed
    case isTrue integral =>
      obtain rfl := Option.some.inj typed
      have lossless := Lossless.integral q.num
      rwa [Rat.coe_int_num_of_den_eq_one integral] at lossless
    case isFalse => cases typed
  case h_3 => cases typed

theorem typedEnum_lossless {enums value after : JsonValue} (typed : typedEnum enums value = .ok (some after)) :
    Lossless value after := by
  unfold typedEnum at typed
  split at typed
  case h_1 text =>
    obtain ⟨isIn, -, same⟩ := Fallible.map_ok_iff.mp typed
    split at same
    · exact Option.some.inj same ▸ .stripped text
    · cases same
  case h_2 => cases typed

theorem typedAs_lossless {type : JsonValue} {metric : List (String × JsonValue)} {value after : JsonValue}
    (typed : typedAs type metric value = .ok (some after)) : Lossless value after := by
  unfold typedAs at typed
  split_ifs at typed
  · exact typedInteger_lossless (Except.ok.inj typed)
  · have typed := Except.ok.inj typed
    unfold typedNumber at typed
    split at typed <;> cases typed <;> exact .same _
  · have typed := Except.ok.inj typed
    unfold typedString at typed
    split at typed
    · split at typed <;> cases typed
      exact .same _
    · cases typed
  · have typed := Except.ok.inj typed
    unfold typedBoolean at typed
    split at typed <;> cases typed
    exact .same _
  · exact typedEnum_lossless typed
  · cases Except.ok.inj typed

theorem typedValue_reported {finding : Finding} {metric : List (String × JsonValue)} {value : JsonValue}
    (reported : finding.availabilityStatus = .reported) : typedValue finding metric = .ok (.ok value) ↔
      ∃ type, item metric "type" = .ok type ∧ typedAs type metric finding.value = .ok (some value) := by
  rw [typedValue, if_neg (by simpa using reported), Fallible.bind_ok_iff]
  refine exists_congr fun type => and_congr_right fun _ => ?_
  rw [Fallible.bind_ok_iff]
  constructor
  · rintro ⟨result, isResult, typed⟩
    cases result with
    | none => cases typed
    | some after =>
      obtain rfl : after = value := Except.ok.inj (Except.ok.inj typed)
      exact isResult
  · exact fun isResult => ⟨some value, isResult, rfl⟩

theorem Lossless.of_null {value : JsonValue} (lossless : Lossless value .null) : value = .null := by
  cases lossless
  rfl

theorem collectClaim_claim_iff {finding : Finding} {metric : List (String × JsonValue)} {pages : Int} {claim : Claim} :
    collectClaim finding metric pages = .ok (some (.inr claim)) ↔
      finding.availabilityStatus ≠ .notReported ∧
        (finding.availabilityStatus = .notInTemplateVersion → isNull finding.value = true ∧ finding.rawValue = none) ∧
        finding.pageNumber ≤ pages ∧
        ∃ value, typedValue finding metric = .ok (.ok value) ∧ claim = claimFromFinding finding value := by
  unfold collectClaim
  split
  case h_1 status => simp [status]
  case h_2 claimed =>
    split
    case isTrue refused =>
      refine iff_of_false (by simp) ?_
      rintro ⟨-, empty, -⟩
      simp only [Bool.and_eq_true, decide_eq_true_eq, Bool.or_eq_true, Bool.not_eq_true', Option.isSome_iff_ne_none,
        ne_eq] at refused
      obtain ⟨isNull, noRaw⟩ := empty refused.1
      rw [isNull, noRaw] at refused
      simp at refused
    case isFalse empty =>
      have empty : finding.availabilityStatus = .notInTemplateVersion →
          isNull finding.value = true ∧ finding.rawValue = none := by
        intro template
        simpa [template] using empty
      split
      case isTrue beyond => exact iff_of_false (by simp) fun claims => absurd claims.2.2.1 (not_le.mpr beyond)
      case isFalse within =>
        rw [Fallible.bind_ok_iff]
        constructor
        · rintro ⟨typed, isTyped, same⟩
          cases typed with
          | error code => cases same
          | ok value =>
            refine ⟨by simpa using claimed, empty, not_lt.mp within, value, isTyped, ?_⟩
            exact (Sum.inr.inj (Option.some.inj (Except.ok.inj same))).symm
        · rintro ⟨-, -, -, value, isTyped, rfl⟩
          exact ⟨.ok value, isTyped, rfl⟩

theorem ofName_some {name : String} {status : AvailabilityStatus} (found : AvailabilityStatus.ofName name = some status) :
    status.name = name := by
  simpa using List.find?_some found

structure OfRow (row : PendingEdit) (finding : Finding) : Prop where
  about : finding.metricId = row.metricRef
  named : AvailabilityStatus.ofName row.edit.availabilityStatus = some finding.availabilityStatus
  value : finding.value = row.edit.value
  rawValue : finding.rawValue = row.edit.rawValue
  evidence : (claimFromFinding finding .null).evidence = row.edit.evidence

theorem findingFromPending_ofRow {row : PendingEdit} {finding : Finding}
    (isFinding : findingFromPending row = some finding) : OfRow row finding := by
  unfold findingFromPending at isFinding
  split at isFinding
  · cases isFinding
  · rename_i status named
    split at isFinding
    · split at isFinding
      · obtain rfl := Option.some.inj isFinding
        exact ⟨rfl, named, rfl, rfl, rfl⟩
      · cases isFinding
    · cases isFinding

theorem metricIds_eq {rows : List PendingEdit} {findings : List Finding}
    (areFindings : rows.mapM findingFromPending = some findings) :
    findings.map Finding.metricId = rows.map PendingEdit.metricRef := by
  have pairs := Fallible.mapM_some_iff.mp areFindings
  clear areFindings
  induction pairs with
  | nil => rfl
  | cons isFinding _ ih => rw [List.map_cons, List.map_cons, ih, (findingFromPending_ofRow isFinding).about]

theorem finding_of_row {rows : List PendingEdit} {findings : List Finding}
    (areFindings : rows.mapM findingFromPending = some findings) {row : PendingEdit} (isIn : row ∈ rows) :
    ∃ finding ∈ findings, findingFromPending row = some finding := by
  have pairs := Fallible.mapM_some_iff.mp areFindings
  clear areFindings
  induction pairs with
  | nil => cases isIn
  | @cons first finding rows findings isFinding _ ih =>
    rcases List.mem_cons.mp isIn with rfl | later
    · exact ⟨finding, List.mem_cons_self, isFinding⟩
    · obtain ⟨other, otherIn, isOther⟩ := ih later
      exact ⟨other, List.mem_cons_of_mem _ otherIn, isOther⟩

theorem filter_about {findings : List Finding} (distinct : (findings.map Finding.metricId).Nodup) {finding : Finding}
    (isIn : finding ∈ findings) : findings.filter (·.metricId = finding.metricId) = [finding] := by
  induction findings with
  | nil => cases isIn
  | cons first rest ih =>
    rw [List.map_cons, List.nodup_cons] at distinct
    rw [List.filter_cons]
    rcases List.mem_cons.mp isIn with rfl | later
    · rw [if_pos (by simp), List.filter_eq_nil_iff.mpr]
      intro other otherIn same
      exact distinct.1 (List.mem_map.mpr ⟨other, otherIn, by simpa using same⟩)
    · rw [if_neg, ih distinct.2 later]
      intro same
      exact distinct.1 (List.mem_map.mpr ⟨finding, later, by simpa using Eq.symm (by simpa using same)⟩)

theorem verdict_untouched {finding : Finding} {metric : List (String × JsonValue)} {pages : Int}
    (unclaimed : finding.availabilityStatus = .notReported) : verdictOf metric pages finding = none := by
  rw [verdictOf, collectClaim, unclaimed]

theorem about_untouched {findings : List Finding} {allowed : List String} {pages : Int}
    {entry : String × List (String × JsonValue)} (nothing : untouched findings allowed entry.1 = true) :
    claimsAbout findings allowed pages entry = [] ∧ codesAbout findings allowed pages entry = [] := by
  rw [untouched, List.all_eq_true] at nothing
  have unclaimed : ∀ finding ∈ findingsAbout findings allowed entry.1, verdictOf entry.2 pages finding = none :=
    fun finding isAbout => verdict_untouched (by simpa using nothing finding isAbout)
  constructor
  · refine List.filterMap_eq_nil_iff.mpr fun finding isAbout => ?_
    rw [claimOf_eq, unclaimed finding isAbout, Option.bind_none]
  · refine List.filterMap_eq_nil_iff.mpr fun finding isAbout => ?_
    rw [unclaimed finding isAbout, Option.bind_none]

theorem metricOutcome_claim {claim : Claim} {metric : PacketMetric}
    (resolved : metricOutcome [claim] [] = .ok metric) : metric = claim.metric := by
  obtain ⟨outcomes, areOutcomes, resolves⟩ := metricOutcome_ok_iff.mp resolved
  cases resolves with
  | none none => cases none
  | agreed _ _ isLeading => exact congrArg Claim.metric (List.mem_singleton.mp (pyMin_mem isLeading))
  | conflict _ disagree =>
    have single := (Fallible.mapM_ok_iff.mp areOutcomes).length_eq.symm
    obtain ⟨outcome, rfl⟩ := List.length_eq_one_iff.mp single
    exact absurd ⟨outcome, List.mem_cons_self, by simp, fun _ => rfl⟩ disagree

section Built
variable {env : ReviewEnv} {call : Approval} {summary : StoredPacket} {findings : List Finding}
  {metrics : List (String × PacketMetric)} {entries : List (String × List (String × JsonValue))}

theorem lookup_undefined (resolved : (packetArgs env call summary findings).outcomes = .ok metrics)
    (defined : domainMetricDefinitions env.manifestContent summary.domainId = .ok entries) {ref : String}
    (unknown : entries.lookup ref = none) : metrics.lookup ref = none := by
  rw [Option.eq_none_iff_forall_ne_some]
  intro metric found
  obtain ⟨others, definedAgain, entry, isIn, rfl, -⟩ := outcome_of_lookup resolved found
  obtain rfl := Except.ok.inj (defined.symm.trans definedAgain)
  rw [Upsert.lookup_of_mem (nodup_definitions defined) isIn] at unknown
  cases unknown

theorem lookup_untouched (resolved : (packetArgs env call summary findings).outcomes = .ok metrics)
    (defined : domainMetricDefinitions env.manifestContent summary.domainId = .ok entries)
    {entry : String × List (String × JsonValue)} (isIn : entry ∈ entries)
    (untouched : (packetArgs env call summary findings).touches entry.1 = false) :
    metrics.lookup entry.1 =
      some ((summary.packet.metrics.lookup entry.1).getD (unclaimed .notExtracted none)) := by
  obtain ⟨metric, found, isMetric⟩ := outcome_of_entry resolved defined isIn
  have nothing := @untouched_eq (packetArgs env call summary findings) entries entry isIn
  rw [untouched, Bool.not_false] at nothing
  rw [found]
  unfold BuildArgs.outcomeOf at isMetric
  rw [nothing] at isMetric
  obtain ⟨noClaims, noCodes⟩ := @about_untouched _ _ (packetArgs env call summary findings).documentPageCount _ nothing
  rw [noClaims, noCodes] at isMetric
  have base : (packetArgs env call summary findings).baseMetrics.bind (·.lookup entry.1) =
      summary.packet.metrics.lookup entry.1 := rfl
  rw [base] at isMetric
  cases before : summary.packet.metrics.lookup entry.1 with
  | some inherited =>
    rw [before] at isMetric
    exact congrArg some (Except.ok.inj isMetric).symm
  | none =>
    rw [before] at isMetric
    exact congrArg some (Except.ok.inj isMetric).symm

theorem lookup_touched (resolved : (packetArgs env call summary findings).outcomes = .ok metrics)
    (defined : domainMetricDefinitions env.manifestContent summary.domainId = .ok entries)
    (distinct : (findings.map Finding.metricId).Nodup) {finding : Finding} (isFinding : finding ∈ findings)
    {entry : String × List (String × JsonValue)} (isIn : entry ∈ entries) (about : finding.metricId = entry.1)
    (claims : finding.availabilityStatus ≠ .notReported) :
    (∃ code, metrics.lookup entry.1 = some (unclaimed .invalid (some code)) ∧
        ∀ claim, collectClaim finding entry.2 env.pageCount ≠ .ok (some (.inr claim))) ∨
      ∃ claim, collectClaim finding entry.2 env.pageCount = .ok (some (.inr claim)) ∧
        metrics.lookup entry.1 = some claim.metric := by
  obtain ⟨metric, found, isMetric⟩ := outcome_of_entry resolved defined isIn
  have touched : (packetArgs env call summary findings).touches entry.1 = true := by
    refine List.any_eq_true.mpr ⟨finding, isFinding, ?_⟩
    simp [packetArgs, about, claims]
  have allowed := @contains_allowed (packetArgs env call summary findings) entries entry isIn
  change (List.contains _ _) = true at allowed
  rw [outcomeOf_touched isIn touched] at isMetric
  have single : findingsAbout findings ((packetArgs env call summary findings).allowed entries) entry.1 = [finding] := by
    rw [findingsAbout_eq, ← about, filter_about distinct isFinding, List.filter_singleton, about, allowed]
    rfl
  change metricOutcome ((findingsAbout findings _ entry.1).filterMap _)
    ((findingsAbout findings _ entry.1).filterMap _) = .ok metric at isMetric
  rw [single] at isMetric
  obtain ⟨others, definedAgain, judged, -⟩ := outcomes_ok_iff.mp resolved
  obtain rfl := Except.ok.inj (defined.symm.trans definedAgain)
  obtain ⟨verdict, isVerdict⟩ := judged finding isFinding
  rw [collectFinding, about, Upsert.lookup_of_mem (nodup_definitions defined) isIn] at isVerdict
  simp only [allowed, if_true] at isVerdict
  change collectClaim finding entry.2 env.pageCount = .ok verdict at isVerdict
  have same : verdictOf entry.2 env.pageCount finding = verdict := by rw [verdictOf, isVerdict]
  change metricOutcome ([finding].filterMap (claimOf entry.2 env.pageCount))
    ([finding].filterMap fun finding => (verdictOf entry.2 env.pageCount finding).bind Sum.getLeft?) = .ok metric
    at isMetric
  rw [List.filterMap_cons, List.filterMap_cons, claimOf_eq, same] at isMetric
  rw [found, isVerdict]
  rcases collectClaim_cases isVerdict with ⟨unclaimed, -⟩ | ⟨-, ⟨code, -, rfl⟩ | ⟨value, -, rfl⟩⟩
  · exact absurd unclaimed claims
  · left
    obtain rfl := Except.ok.inj isMetric
    exact ⟨code, rfl, by simp⟩
  · exact Or.inr ⟨_, rfl, congrArg some (metricOutcome_claim isMetric)⟩

end Built

theorem lookup_insertKey (members : List (String × JsonValue)) (key : String) (value : JsonValue) :
    (Upsert.insertKey Prod.fst members (key, value)).lookup key = some value := by
  unfold Upsert.insertKey
  induction members with
  | nil => simp [Upsert.upsert]
  | cons first rest ih =>
    rw [Upsert.upsert]
    split
    · rw [List.lookup_cons, beq_self_eq_true]
    case isFalse apart =>
      have other : (key == first.1) = false := by
        rw [BEq.comm]
        exact Bool.not_eq_true _ ▸ apart
      rw [List.lookup_cons, other]
      exact ih

theorem humanReviewedPacket_ok {env : ReviewEnv} {call : Approval} {summary : StoredPacket} {rows : List PendingEdit}
    {findings : List Finding} {packet : Packet} (built : humanReviewedPacket env call summary rows findings = .ok packet) :
    (packetArgs env call summary findings).outcomes = .ok packet.metrics ∧
      ∀ ref, ref ∈ changedRefs packet ↔ ∃ row ∈ rows, row.metricRef = ref := by
  obtain ⟨model, isModel, rfl⟩ := Fallible.map_ok_iff.mp built
  have metrics := buildPacket_outcomes isModel
  refine ⟨metrics, fun ref => ?_⟩
  rw [changedRefs, JsonValue.get, lookup_insertKey]
  have texts : ((sortRefs (rows.map PendingEdit.metricRef)).map JsonValue.str).filterMap asText =
      sortRefs (rows.map PendingEdit.metricRef) := by
    rw [List.filterMap_map]
    exact List.filterMap_some
  change ref ∈ ((sortRefs (rows.map PendingEdit.metricRef)).map JsonValue.str).filterMap asText ↔ _
  rw [texts, sortRefs, List.mem_insertionSort, List.mem_map]

theorem representable_iff {pages : Int} {definition : List (String × JsonValue)} {row : PendingEdit}
    {finding : Finding} (ofRow : OfRow row finding) {status : AvailabilityStatus} {value : JsonValue} :
    Representable pages definition row.edit status value ↔
      status = finding.availabilityStatus ∧ typedValue finding definition = .ok (.ok value) ∧
        collectClaim finding definition pages = .ok (some (.inr (claimFromFinding finding value))) ∧
        Lossless row.edit.value (claimFromFinding finding value).value := by
  rw [collectClaim_claim_iff, ← ofRow.value]
  have page : finding.pageNumber = row.edit.evidence.pageNumber := congrArg Evidence.pageNumber ofRow.evidence
  constructor
  · intro representable
    obtain rfl := Option.some.inj (representable.named.symm.trans ofRow.named)
    have typed : typedValue finding definition = .ok (.ok value) := by
      by_cases reported : finding.availabilityStatus = .reported
      · exact (typedValue_reported reported).mpr (ofRow.value ▸ representable.typed reported)
      · rw [typedValue, if_pos reported, (representable.unvalued reported).2]
    refine ⟨rfl, typed, ⟨representable.claims, fun template => ⟨?_, ?_⟩, page ▸ representable.onPage, value, typed,
      rfl⟩, ?_⟩
    · rw [ofRow.value, (representable.unvalued (by simp [template])).1]
      rfl
    · rw [ofRow.rawValue]
      exact representable.absent template
    · by_cases reported : finding.availabilityStatus = .reported
      · obtain ⟨type, -, isTyped⟩ := representable.typed reported
        simpa [claimFromFinding, reported, ofRow.value] using typedAs_lossless isTyped
      · simpa [claimFromFinding, reported, ofRow.value, (representable.unvalued reported).1] using Lossless.same .null
  · rintro ⟨rfl, typed, ⟨claims, absent, onPage, -⟩, lossless⟩
    refine ⟨ofRow.named, claims, page ▸ onPage, fun template => ?_, fun reported => ?_, fun unreported => ?_⟩
    · rw [← ofRow.rawValue]
      exact (absent template).2
    · exact ofRow.value ▸ (typedValue_reported reported).mp typed
    · simp only [claimFromFinding, unreported, if_false] at lossless
      exact ⟨ofRow.value ▸ lossless.of_null, typedValue_absent unreported typed⟩

theorem claim_outcome {pages : Int} {definition : List (String × JsonValue)} {row : PendingEdit} {finding : Finding}
    (ofRow : OfRow row finding) {status : AvailabilityStatus} {value : JsonValue}
    (representable : Representable pages definition row.edit status value) :
    (claimFromFinding finding value).metric = row.edit.outcome status value ∧
      SaysEdit row.edit (row.edit.outcome status value) := by
  obtain ⟨rfl, -, -, lossless⟩ := (representable_iff ofRow).mp representable
  have valued : (claimFromFinding finding value).value = value := by
    by_cases reported : finding.availabilityStatus = .reported
    · exact if_pos reported
    · rw [(representable.unvalued reported).2]
      exact if_neg reported
  have evidence : (claimFromFinding finding value).evidence = row.edit.evidence := ofRow.evidence
  refine ⟨?_, rfl, congrArg some (ofName_some ofRow.named), valued ▸ lossless, rfl⟩
  rw [Claim.metric, valued, evidence, MetricEdit.outcome, ← ofRow.rawValue]
  rfl

section Edited
variable {env : ReviewEnv} {call : Approval} {summary : StoredPacket} {rows : List PendingEdit}
  {findings : List Finding} {packet : Packet} {entries : List (String × List (String × JsonValue))}

theorem touches_unedited (areFindings : rows.mapM findingFromPending = some findings) {ref : String}
    (unedited : ∀ row ∈ rows, row.metricRef ≠ ref) : (packetArgs env call summary findings).touches ref = false := by
  refine List.any_eq_false.mpr fun finding isFinding => ?_
  obtain ⟨row, isRow, about⟩ := List.mem_map.mp (metricIds_eq areFindings ▸ List.mem_map_of_mem isFinding)
  have apart := about ▸ unedited row isRow
  simp [apart]

theorem touches_unclaimed (single : (findings.map Finding.metricId).Nodup) {finding : Finding}
    (isFinding : finding ∈ findings) (unclaimed : finding.availabilityStatus = .notReported) :
    (packetArgs env call summary findings).touches finding.metricId = false := by
  refine List.any_eq_false.mpr fun other otherIn claimed => ?_
  simp only [Bool.and_eq_true, decide_eq_true_eq] at claimed
  obtain rfl : other = finding := List.inj_on_of_nodup_map single otherIn isFinding claimed.1.1
  exact claimed.1.2 unclaimed

theorem representable_of_saysEdit (distinct : (rows.map PendingEdit.metricRef).Nodup)
    (areFindings : rows.mapM findingFromPending = some findings)
    (built : humanReviewedPacket env call summary rows findings = .ok packet)
    (defined : domainMetricDefinitions env.manifestContent summary.domainId = .ok entries) {row : PendingEdit}
    (isRow : row ∈ rows) {metric : PacketMetric} (found : packet.metrics.lookup row.metricRef = some metric)
    (isSaid : SaysEdit row.edit metric) (changed : summary.packet.metrics.lookup row.metricRef ≠ some metric) :
    ∃ definition, entries.lookup row.metricRef = some definition ∧
      ∃ status value, Representable env.pageCount definition row.edit status value ∧
        summary.packet.metrics.lookup row.metricRef ≠ some (row.edit.outcome status value) := by
  have resolved := (humanReviewedPacket_ok built).1
  have single : (findings.map Finding.metricId).Nodup := metricIds_eq areFindings ▸ distinct
  obtain ⟨finding, isFinding, ofRow⟩ := finding_of_row areFindings isRow
  have ofRow := findingFromPending_ofRow ofRow
  have about := ofRow.about
  cases isDefined : entries.lookup row.metricRef with
  | none =>
    rw [lookup_undefined resolved defined isDefined] at found
    cases found
  | some definition =>
    refine ⟨definition, rfl, finding.availabilityStatus, ?_⟩
    by_cases claims : finding.availabilityStatus = .notReported
    · exfalso
      have untouched := about ▸ @touches_unclaimed env call summary _ single _ isFinding claims
      have after := lookup_untouched resolved defined (Upsert.mem_of_lookup isDefined) untouched
      rw [found] at after
      cases before : summary.packet.metrics.lookup row.metricRef with
      | some inherited =>
        rw [before] at after changed
        exact changed after.symm
      | none =>
        rw [before] at after
        obtain rfl := Option.some.inj after
        cases isSaid.verified
    · obtain ⟨code, rejected, -⟩ | ⟨claim, collected, isClaim⟩ :=
        lookup_touched resolved defined single isFinding (Upsert.mem_of_lookup isDefined) about claims
      · exfalso
        obtain rfl := Option.some.inj (rejected.symm.trans found)
        cases isSaid.verified
      · obtain ⟨-, -, -, value, typed, rfl⟩ := collectClaim_claim_iff.mp collected
        obtain rfl := Option.some.inj (isClaim.symm.trans found)
        have representable := (representable_iff ofRow).mpr ⟨rfl, typed, collected, isSaid.value⟩
        exact ⟨value, representable, (claim_outcome ofRow representable).1 ▸ changed⟩

theorem lookup_representable (distinct : (rows.map PendingEdit.metricRef).Nodup)
    (areFindings : rows.mapM findingFromPending = some findings)
    (built : humanReviewedPacket env call summary rows findings = .ok packet)
    (defined : domainMetricDefinitions env.manifestContent summary.domainId = .ok entries) {row : PendingEdit}
    (isRow : row ∈ rows) {definition : List (String × JsonValue)}
    (isDefined : entries.lookup row.metricRef = some definition) {status : AvailabilityStatus} {value : JsonValue}
    (representable : Representable env.pageCount definition row.edit status value) :
    packet.metrics.lookup row.metricRef = some (row.edit.outcome status value) := by
  obtain ⟨finding, isFinding, isRowFinding⟩ := finding_of_row areFindings isRow
  have ofRow := findingFromPending_ofRow isRowFinding
  obtain ⟨rfl, -, collected, -⟩ := (representable_iff ofRow).mp representable
  rw [← (claim_outcome ofRow representable).1]
  obtain ⟨-, -, unclaimed⟩ | ⟨claim, isCollected, isClaim⟩ := lookup_touched (humanReviewedPacket_ok built).1 defined
    (metricIds_eq areFindings ▸ distinct) isFinding (Upsert.mem_of_lookup isDefined) ofRow.about representable.claims
  · exact absurd collected (unclaimed _)
  · obtain rfl := Sum.inr.inj (Option.some.inj (Except.ok.inj (isCollected.symm.trans collected)))
    exact isClaim

theorem unedited_iff (areFindings : rows.mapM findingFromPending = some findings)
    (built : humanReviewedPacket env call summary rows findings = .ok packet)
    (defined : domainMetricDefinitions env.manifestContent summary.domainId = .ok entries) {ref : String}
    (unedited : ∀ row ∈ rows, row.metricRef ≠ ref) :
    packet.metrics.lookup ref = summary.packet.metrics.lookup ref ↔
      ((entries.lookup ref).isSome ↔ (summary.packet.metrics.lookup ref).isSome) := by
  have resolved := (humanReviewedPacket_ok built).1
  cases isDefined : entries.lookup ref with
  | none =>
    rw [lookup_undefined resolved defined isDefined]
    cases summary.packet.metrics.lookup ref <;> simp
  | some definition =>
    rw [lookup_untouched resolved defined (Upsert.mem_of_lookup isDefined) (touches_unedited areFindings unedited)]
    cases summary.packet.metrics.lookup ref <;> simp

theorem says_iff (distinct : (rows.map PendingEdit.metricRef).Nodup)
    (areFindings : rows.mapM findingFromPending = some findings)
    (built : humanReviewedPacket env call summary rows findings = .ok packet) :
    Says summary.packet.metrics rows packet ↔ Sayable env summary rows := by
  obtain ⟨resolved, audit⟩ := humanReviewedPacket_ok built
  obtain ⟨entries, defined, -⟩ := outcomes_ok_iff.mp resolved
  change domainMetricDefinitions env.manifestContent summary.domainId = .ok entries at defined
  constructor
  · intro said
    constructor
    · intro row isRow again definedAgain
      obtain ⟨metric, found, isSaid⟩ := said.edited row isRow
      have changed := (said.audited row.metricRef).mp ((audit _).mpr ⟨row, isRow, rfl⟩)
      rw [found] at changed
      exact representable_of_saysEdit distinct areFindings built definedAgain isRow found isSaid changed.symm
    · intro ref unedited again definedAgain
      exact (unedited_iff areFindings built definedAgain unedited).mp (said.unedited ref unedited)
  · intro sayable
    have unedited : ∀ ref, (∀ row ∈ rows, row.metricRef ≠ ref) →
        packet.metrics.lookup ref = summary.packet.metrics.lookup ref := fun ref unedited =>
      (unedited_iff areFindings built defined unedited).mpr (sayable.kept ref unedited entries defined)
    have edited : ∀ row ∈ rows, ∃ metric, packet.metrics.lookup row.metricRef = some metric ∧
        SaysEdit row.edit metric ∧ summary.packet.metrics.lookup row.metricRef ≠ some metric := by
      intro row isRow
      obtain ⟨definition, isDefined, status, value, representable, changes⟩ :=
        sayable.written row isRow entries defined
      obtain ⟨finding, -, ofRow⟩ := finding_of_row areFindings isRow
      exact ⟨_, lookup_representable distinct areFindings built defined isRow isDefined representable,
        (claim_outcome (findingFromPending_ofRow ofRow) representable).2, changes⟩
    refine ⟨fun row isRow => ?_, unedited, fun ref => ?_⟩
    · obtain ⟨metric, found, isSaid, -⟩ := edited row isRow
      exact ⟨metric, found, isSaid⟩
    · rw [audit]
      constructor
      · rintro ⟨row, isRow, rfl⟩ same
        obtain ⟨metric, found, -, changes⟩ := edited row isRow
        exact changes (same ▸ found)
      · intro changed
        by_contra absent
        push Not at absent
        exact changed (unedited ref absent)

end Edited

end Counselle.Cds.Review

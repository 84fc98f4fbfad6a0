import Counselle.Cds.EditedPacket

/-! The packets that an approval makes active, and the edits that it applied: those that
`save_metric_edits` took, on a document without others. -/
namespace Counselle.Cds.Review
open PyJson (JsonValue)

theorem newer_mem (best : Option StoredPacket) (packets : List StoredPacket) {stored : StoredPacket}
    (isNewest : packets.foldl newer best = some stored) : best = some stored ∨ stored ∈ packets := by
  induction packets generalizing best with
  | nil => exact Or.inl isNewest
  | cons first rest ih =>
    obtain found | later := ih _ isNewest
    · cases best with
      | none => exact Or.inr (Option.some.inj found ▸ List.mem_cons_self)
      | some old =>
        rw [newer] at found
        split at found
        · exact Or.inr (Option.some.inj found ▸ List.mem_cons_self)
        · exact Or.inl found
    · exact Or.inr (List.mem_cons_of_mem _ later)

theorem mostRecent_domain {packets : List StoredPacket} {domainId : String} {stored : StoredPacket}
    (isRecent : mostRecent packets domainId = some stored) : stored ∈ packets ∧ stored.domainId = domainId := by
  obtain none | isIn := newer_mem none _ isRecent
  · cases none
  · simpa using isIn

theorem nodup_reviewDomains (packets : List StoredPacket) : ((reviewDomains packets).map (·.domainId)).Nodup := by
  have sublist : ∀ ids : List String,
      ((ids.filterMap (mostRecent packets)).map (·.domainId)).Sublist ids := by
    intro ids
    induction ids with
    | nil => exact List.Sublist.slnil
    | cons id ids ih =>
      rw [List.filterMap_cons]
      cases isRecent : mostRecent packets id with
      | none => exact ih.cons _
      | some stored =>
        rw [List.map_cons, (mostRecent_domain isRecent).2]
        exact ih.cons_cons _
  exact (sublist _).nodup (List.nodup_dedup _)

theorem summaryOf_mem {packets : List StoredPacket} {summary : StoredPacket} (isIn : summary ∈ reviewDomains packets) :
    summaryOf (reviewDomains packets) summary.domainId = some summary :=
  (Upsert.find?_key_iff (nodup_reviewDomains packets)).mpr ⟨isIn, rfl⟩

def Current (domains : List StoredPacket) (pending : List PendingEdit) : Prop :=
  ∀ row ∈ pending, (summaryOf domains row.domainId).any (·.extractionId = row.baseExtractionId) = true

theorem saveEdit_current {packets : List StoredPacket} {rows after : PendingRows} {edit : MetricEdit}
    (current : Current (reviewDomains packets) rows.val)
    (saved : saveEdit (reviewDomains packets) rows edit = .ok after) : Current (reviewDomains packets) after.val := by
  unfold saveEdit at saved
  split at saved
  · cases saved
  · rename_i domain found
    obtain rfl := Except.ok.inj saved
    intro row isRow
    obtain rfl | ⟨old, -⟩ := (Upsert.mem_insertKey rows.property).mp isRow
    · rw [summaryOf_mem (List.mem_reverse.mp (List.mem_of_find?_eq_some found))]
      simp
    · exact current row old

theorem saveMetricEdits_current {state saved : DocumentState} {edits : List MetricEdit} (none : state.pending = [])
    (isSaved : saveMetricEdits state edits = .ok saved) :
    saved.packets = state.packets ∧ Current (reviewDomains state.packets) saved.pending := by
  obtain ⟨-, isSaved⟩ := Fallible.guard_ok_iff.mp isSaved
  obtain ⟨rows, folded, rfl⟩ := Fallible.map_ok_iff.mp isSaved
  refine ⟨rfl, foldlM_keeps (P := fun rows : PendingRows => Current (reviewDomains state.packets) rows.val)
    saveEdit_current ?_ folded⟩
  intro row isRow
  have isRow : row ∈ state.pending := isRow
  rw [none] at isRow
  cases isRow

theorem currentEdits_current {pending : List PendingEdit} {domains : List StoredPacket}
    (current : Current domains pending) : currentEdits pending domains = pending :=
  List.filter_eq_self.mpr current

theorem activeOf_activatePacket_ne {packets after : List StoredPacket} {extractionId domainId other : String}
    (activated : activatePacket packets extractionId domainId = .ok after) (apart : other ≠ domainId) :
    activeOf after other = activeOf packets other := by
  obtain ⟨-, rfl⟩ := activatePacket_ok activated
  clear activated
  induction packets with
  | nil => rfl
  | cons first rest ih =>
    rw [activeOf, activeOf, List.map_cons, List.find?_cons, List.find?_cons]
    by_cases here : first.domainId = domainId
    · obtain rfl := here
      simp only [if_true, apart.symm, decide_false, Bool.false_and]
      exact ih
    · rw [if_neg here]
      split
      · rfl
      · exact ih

def EditedPacket.stored (call : Approval) (edited : EditedPacket) (isActive : Bool) : StoredPacket :=
  ⟨call.extractionId, edited.domainId, edited.packet, edited.flags, call.createdAt, isActive⟩

theorem writeEditedPacket_ok {env : ReviewEnv} {call : Approval} {packets after : List StoredPacket}
    {edited : EditedPacket} (written : writeEditedPacket env call packets edited = .ok after) :
    activatePacket (packets ++ [edited.stored call false]) call.extractionId edited.domainId = .ok after := by
  simp only [writeEditedPacket] at written
  split at written
  · cases written
  · exact written

theorem activeOf_written {env : ReviewEnv} {call : Approval} {packets after : List StoredPacket}
    {edited : EditedPacket} (fresh : ∀ stored ∈ packets, stored.extractionId = call.extractionId →
      stored.domainId ≠ edited.domainId) (written : writeEditedPacket env call packets edited = .ok after) :
    activeOf after edited.domainId = some (edited.stored call true) := by
  obtain ⟨-, rfl⟩ := activatePacket_ok (writeEditedPacket_ok written)
  clear written
  rw [List.map_append, activeOf, List.find?_append]
  have others : (packets.map fun stored => if stored.domainId = edited.domainId then
      { stored with isActive := stored.extractionId = call.extractionId } else stored).find?
        (fun stored => stored.domainId = edited.domainId && stored.isActive) = none := by
    rw [List.find?_eq_none]
    intro stored isIn
    obtain ⟨old, wasIn, rfl⟩ := List.mem_map.mp isIn
    split
    · rename_i here
      have apart : old.extractionId ≠ call.extractionId := fun same => fresh old wasIn same here
      simp [apart]
    · rename_i apart
      simp [apart]
  rw [others, Option.none_or]
  simp [EditedPacket.stored]

theorem activeOf_written_ne {env : ReviewEnv} {call : Approval} {packets after : List StoredPacket}
    {edited : EditedPacket} {other : String} (apart : other ≠ edited.domainId)
    (written : writeEditedPacket env call packets edited = .ok after) : activeOf after other = activeOf packets other := by
  rw [activeOf_activatePacket_ne (writeEditedPacket_ok written) apart, activeOf, List.find?_append]
  simp [activeOf, EditedPacket.stored]

theorem written_mem {env : ReviewEnv} {call : Approval} {packets after : List StoredPacket} {edited : EditedPacket}
    (written : writeEditedPacket env call packets edited = .ok after) {stored : StoredPacket} (isIn : stored ∈ after) :
    (∃ old ∈ packets, stored.extractionId = old.extractionId ∧ stored.domainId = old.domainId) ∨
      stored.domainId = edited.domainId := by
  obtain ⟨-, rfl⟩ := activatePacket_ok (writeEditedPacket_ok written)
  obtain ⟨old, wasIn, rfl⟩ := List.mem_map.mp isIn
  rcases List.mem_append.mp wasIn with wasIn | isNew
  · refine Or.inl ⟨old, wasIn, ?_⟩
    split <;> exact ⟨rfl, rfl⟩
  · right
    rw [List.mem_singleton.mp isNew]
    split <;> rfl

theorem activeOf_writes {env : ReviewEnv} {call : Approval} {edited : List EditedPacket}
    {packets after : List StoredPacket} (distinct : (edited.map (·.domainId)).Nodup)
    (fresh : ∀ stored ∈ packets, stored.extractionId = call.extractionId →
      stored.domainId ∉ edited.map (·.domainId))
    (written : edited.foldlM (writeEditedPacket env call) packets = .ok after) :
    (∀ other, other ∉ edited.map (·.domainId) → activeOf after other = activeOf packets other) ∧
      ∀ packet ∈ edited, activeOf after packet.domainId = some (packet.stored call true) := by
  induction edited generalizing packets with
  | nil =>
    cases written
    exact ⟨fun _ _ => rfl, fun _ bad => absurd bad List.not_mem_nil⟩
  | cons first rest ih =>
    rw [List.foldlM_cons] at written
    obtain ⟨middle, here, later⟩ := Fallible.bind_ok_iff.mp written
    rw [List.map_cons, List.nodup_cons] at distinct
    have freshLater : ∀ stored ∈ middle, stored.extractionId = call.extractionId →
        stored.domainId ∉ rest.map (·.domainId) := by
      intro stored isIn same
      obtain ⟨old, wasIn, sameId, sameDomain⟩ | isFirst := written_mem here isIn
      · rw [sameDomain]
        exact fun bad => fresh old wasIn (sameId ▸ same) (List.mem_cons_of_mem _ bad)
      · rw [isFirst]
        exact distinct.1
    obtain ⟨frame, active⟩ := ih distinct.2 freshLater later
    constructor
    · intro other absent
      rw [List.map_cons, List.mem_cons, not_or] at absent
      rw [frame other absent.2, activeOf_written_ne absent.1 here]
    · intro packet isIn
      rcases List.mem_cons.mp isIn with rfl | isIn
      · rw [frame _ distinct.1]
        exact activeOf_written (fun stored isIn same bad => fresh stored isIn same (bad ▸ List.mem_cons_self)) here
      · exact active packet isIn

theorem activeOf_activateUntouched {activeNow packets after : List StoredPacket} {skip : List String}
    {summary : StoredPacket} {domainId : String} (edited : domainId ∈ skip) {active : Option StoredPacket}
    (before : activeOf packets domainId = active)
    (activated : activateUntouched activeNow skip packets summary = .ok after) : activeOf after domainId = active := by
  unfold activateUntouched at activated
  split at activated
  · exact Except.ok.inj activated ▸ before
  · rename_i skipped
    have apart : domainId ≠ summary.domainId := by
      rintro rfl
      exact skipped (by simpa using edited)
    split at activated
    · rw [activeOf_activatePacket_ne activated apart, before]
    · split at activated
      · exact Except.ok.inj activated ▸ before
      · split at activated
        · cases activated
        · rw [activeOf_activatePacket_ne activated apart, before]

theorem liftBuild_ok {A : Type} {x : Except BuildError A} {a : A} (lifted : liftBuild x = .ok a) : x = .ok a := by
  cases x <;> cases lifted
  rfl

theorem prepareDomain_ok {env : ReviewEnv} {call : Approval} {domains : List StoredPacket} {current : List PendingEdit}
    {domainId : String} {edited : EditedPacket} (prepared : prepareDomain env call domains current domainId = .ok edited) :
    edited.domainId = domainId ∧ ∃ summary findings, summaryOf domains domainId = some summary ∧
      (current.filter (·.domainId = domainId)).mapM findingFromPending = some findings ∧
      humanReviewedPacket env call summary (current.filter (·.domainId = domainId)) findings = .ok edited.packet := by
  unfold prepareDomain at prepared
  split at prepared
  · cases prepared
  · rename_i summary isSummary
    simp only at prepared
    split at prepared
    · cases prepared
    · rename_i findings areFindings
      obtain ⟨packet, lifted, prepared⟩ := Fallible.bind_ok_iff.mp prepared
      obtain ⟨_, -, prepared⟩ := Fallible.bind_ok_iff.mp prepared
      obtain rfl := Except.ok.inj prepared
      exact ⟨rfl, summary, findings, isSummary, areFindings, liftBuild_ok lifted⟩

theorem prepareEditedPackets_ok {env : ReviewEnv} {call : Approval} {domains : List StoredPacket}
    {current : List PendingEdit} {edited : List EditedPacket}
    (prepared : prepareEditedPackets env call domains current = .ok edited) :
    List.Forall₂ (fun domainId packet => prepareDomain env call domains current domainId = .ok packet)
      (Upsert.dictOf id (current.map (·.domainId))) edited := by
  obtain ⟨packets, areBuilt, prepared⟩ := Fallible.bind_ok_iff.mp prepared
  obtain ⟨-, prepared⟩ := Fallible.guard_ok_iff.mp prepared
  obtain rfl := Except.ok.inj prepared
  exact Fallible.mapM_ok_iff.mp areBuilt

theorem edited_domains {env : ReviewEnv} {call : Approval} {domains : List StoredPacket} {current : List PendingEdit}
    {ids : List String} {edited : List EditedPacket}
    (prepared : List.Forall₂ (fun domainId packet => prepareDomain env call domains current domainId = .ok packet)
      ids edited) : edited.map (·.domainId) = ids := by
  induction prepared with
  | nil => rfl
  | cons here _ ih => rw [List.map_cons, ih, (prepareDomain_ok here).1]

theorem prepared_distinct {env : ReviewEnv} {call : Approval} {domains : List StoredPacket} {current : List PendingEdit}
    {edited : List EditedPacket} (prepared : prepareEditedPackets env call domains current = .ok edited) :
    (edited.map (·.domainId)).Nodup := by
  rw [edited_domains (prepareEditedPackets_ok prepared)]
  simpa using @Upsert.nodup_dictOf String String _ id (current.map PendingEdit.domainId)

theorem approveDocument_ok {env : ReviewEnv} {state after : DocumentState} {call : Approval}
    (approved : approveDocument env state call = .ok after) :
    approveWrites env call state (currentEdits state.pending (reviewDomains state.packets)) = .ok after.packets := by
  simp only [approveDocument] at approved
  obtain ⟨-, approved⟩ := Fallible.guard_ok_iff.mp approved
  obtain ⟨-, approved⟩ := Fallible.guard_ok_iff.mp approved
  obtain ⟨-, approved⟩ := Fallible.guard_ok_iff.mp approved
  split at approved
  · cases approved
  · rename_i packets isWritten
    obtain rfl := Except.ok.inj approved
    exact isWritten

theorem written_edited {env : ReviewEnv} {call : Approval} {domains untouched packets written after : List StoredPacket}
    {current : List PendingEdit} {extractions : List String} {edited : List EditedPacket}
    (prepared : prepareEditedPackets env call domains current = .ok edited)
    (owned : ∀ stored ∈ packets, stored.extractionId ∈ extractions)
    (stored : writeEditedPackets env call extractions packets edited = .ok written)
    (activated : untouched.foldlM (activateUntouched written (edited.map (·.domainId))) written = .ok after)
    {row : PendingEdit} (isRow : row ∈ current) :
    ∃ packet, prepareDomain env call domains current row.domainId = .ok packet ∧
      activeOf after row.domainId = some (packet.stored call true) := by
  have pairs := prepareEditedPackets_ok prepared
  have ids := edited_domains pairs
  obtain ⟨notKnown, stored⟩ := Fallible.guard_ok_iff.mp stored
  obtain ⟨-, active⟩ := activeOf_writes (prepared_distinct prepared)
    (fun old isIn same => absurd (same ▸ owned old isIn) (by simpa using notKnown)) stored
  have isDomain : row.domainId ∈ Upsert.dictOf id (current.map PendingEdit.domainId) :=
    Upsert.mem_dictOf_id.mpr (List.mem_map_of_mem isRow)
  obtain ⟨packet, isPacket, isPrepared⟩ := Fallible.mapM_mem (Fallible.mapM_ok_iff.mpr pairs) _ isDomain
  have same := (prepareDomain_ok isPrepared).1
  refine ⟨packet, isPrepared, foldlM_keeps (P := fun packets => activeOf packets row.domainId = _)
    (activeOf_activateUntouched ?_) ?_ activated⟩
  · rw [ids]
    exact isDomain
  · rw [← same]
    exact active packet isPacket

theorem approved_active {env : ReviewEnv} {state after : DocumentState} {call : Approval}
    (approved : approveDocument env state call = .ok after) {row : PendingEdit}
    (isRow : row ∈ currentEdits state.pending (reviewDomains state.packets)) :
    ∃ edited, prepareDomain env call (reviewDomains state.packets)
        (currentEdits state.pending (reviewDomains state.packets)) row.domainId = .ok edited ∧
      activeOf after.packets row.domainId = some (edited.stored call true) := by
  obtain ⟨⟨written, skip⟩, writes, activated⟩ := Fallible.bind_ok_iff.mp (approveDocument_ok approved)
  rw [editedWrites, if_neg (by simpa using List.ne_nil_of_mem isRow)] at writes
  obtain ⟨edited, prepared, writes⟩ := Fallible.bind_ok_iff.mp writes
  obtain ⟨packets, stored, writes⟩ := Fallible.bind_ok_iff.mp writes
  cases writes
  exact written_edited prepared state.owned stored activated isRow

/-- **Approved edits.** Where edits were saved on a document without pending ones, and an
approval succeeded, the packet that it left active in a domain says what was written
exactly when every edit of the domain can be represented and changes something, and the
manifest has just the refs of the packet. -/
theorem approved_says_iff {env : ReviewEnv} {state saved after : DocumentState} {edits : List MetricEdit}
    {call : Approval} (none : state.pending = []) (isSaved : saveMetricEdits state edits = .ok saved)
    (approved : approveDocument env saved call = .ok after) {summary : StoredPacket}
    (shown : summary ∈ reviewDomains state.packets)
    (touched : saved.pending.filter (·.domainId = summary.domainId) ≠ []) :
    (∃ stored, activeOf after.packets summary.domainId = some stored ∧
        Says summary.packet.metrics (saved.pending.filter (·.domainId = summary.domainId)) stored.packet) ↔
      Sayable env summary (saved.pending.filter (·.domainId = summary.domainId)) := by
  obtain ⟨samePackets, current⟩ := saveMetricEdits_current none isSaved
  have all := currentEdits_current current
  obtain ⟨row, isRow⟩ := List.exists_mem_of_ne_nil _ touched
  obtain ⟨isPending, inDomain⟩ : row ∈ saved.pending ∧ row.domainId = summary.domainId := by simpa using isRow
  obtain ⟨edited, prepared, active⟩ := @approved_active _ _ _ _ approved row
    (by rw [samePackets, all]; exact isPending)
  rw [samePackets, all, inDomain] at prepared
  obtain ⟨-, other, findings, isSummary, areFindings, built⟩ := prepareDomain_ok prepared
  obtain rfl := Option.some.inj ((summaryOf_mem shown).symm.trans isSummary)
  have distinct : ((saved.pending.filter (·.domainId = summary.domainId)).map PendingEdit.metricRef).Nodup :=
    (List.filter_sublist.map _).nodup saved.refs
  rw [inDomain] at active
  rw [← says_iff distinct areFindings built, active]
  simp [EditedPacket.stored]

def sampleMetric (finding : Finding) : String × PacketMetric :=
  (finding.metricId, (claimFromFinding finding finding.value).metric)

def sampleStored : StoredPacket where
  extractionId := "1"
  domainId := "aid"
  packet := {
    documentSha256 := sampleHash
    academicYear := 2024
    extractionId := "1"
    manifestVersion := "v1"
    domainId := "aid"
    domainSchemaHash := sampleHash
    extractorVersion := "e1"
    modelId := "m"
    metrics := [sampleMetric (finding "aid.average" .reported (.int 90) none),
      sampleMetric (finding "aid.count" .reported (.int 12) (some "12"))]
    providerContract := []
    counts := ⟨2, 0, 0, 0⟩
    status := .validated }
  flags := []
  createdAt := 0
  isActive := false

def sampleState : DocumentState where
  isCandidate := true
  isActive := false
  correctionPending := false
  extractions := ["1"]
  packets := [sampleStored]
  pending := []
  refs := List.nodup_nil
  owned := by simp [sampleStored]

def sampleEdit (value : JsonValue) : MetricEdit where
  metricRef := "aid.average"
  value := value
  rawValue := none
  availabilityStatus := "reported"
  evidence := ⟨1, "Total", none, none, none⟩
  note := none
  onPage := by decide
  filled := by decide

def sampleEnv : ReviewEnv where
  manifestVersion := "v1"
  manifestContent := sampleContent
  domainHashes := [("aid", sampleHash)]
  snapshots := match compileManifest "v1" sampleContent (some (jsonHashes [("aid", sampleHash)])) with
    | .ok snapshot => [("v1", snapshot)]
    | .error _ => []
  supportedExtractors := [humanReviewExtractorVersion]
  pageCount := 2
  pdfSha256 := sampleHash
  academicYear := 2024
  runValidators := fun _ => []

def sampleApproval : Approval := ⟨"2", "u", "2026-01-01", 1, false, none⟩

/-- The edit is saved and approved, and this holds of the documents after the two. -/
def approvedWith (edit : MetricEdit) (holds : DocumentState → DocumentState → Bool) : Bool :=
  match saveMetricEdits sampleState [edit] with
  | .error _ => false
  | .ok saved =>
    match approveDocument sampleEnv saved sampleApproval with
    | .error _ => false
    | .ok after => holds saved after

theorem approvedWith_true {edit : MetricEdit} {holds : DocumentState → DocumentState → Bool}
    (approved : approvedWith edit holds = true) :
    ∃ saved after, saveMetricEdits sampleState [edit] = .ok saved ∧
      approveDocument sampleEnv saved sampleApproval = .ok after ∧ holds saved after = true := by
  unfold approvedWith at approved
  split at approved
  · cases approved
  · rename_i saved isSaved
    split at approved
    · cases approved
    · rename_i after isApproved
      exact ⟨saved, after, isSaved, isApproved, approved⟩

/-- A number in the place of a number. -/
theorem approved_says_iff_number : ∃ saved after,
    saveMetricEdits sampleState [sampleEdit (.int 70)] = .ok saved ∧
      approveDocument sampleEnv saved sampleApproval = .ok after ∧
      ((∃ stored, activeOf after.packets "aid" = some stored ∧
          Says sampleStored.packet.metrics (saved.pending.filter (·.domainId = "aid")) stored.packet) ↔
        Sayable sampleEnv sampleStored (saved.pending.filter (·.domainId = "aid"))) := by
  obtain ⟨saved, after, isSaved, approved, touched⟩ := @approvedWith_true (sampleEdit (.int 70))
    (fun saved _ => !(saved.pending.filter (·.domainId = "aid")).isEmpty) (by decide +kernel)
  refine ⟨saved, after, isSaved, approved, ?_⟩
  have shown : sampleStored ∈ reviewDomains sampleState.packets := by
    simp [reviewDomains, mostRecent, newer, sampleState]
  refine approved_says_iff rfl isSaved approved shown ?_
  rintro none
  rw [show sampleStored.domainId = "aid" from rfl] at none
  rw [none] at touched
  cases touched

/-- A text in the place of a verified number is saved and approved, and the number is lost. -/
theorem approved_text_invalidates : ∃ saved after stored,
    saveMetricEdits sampleState [sampleEdit (.str "70")] = .ok saved ∧
      approveDocument sampleEnv saved sampleApproval = .ok after ∧
      activeOf after.packets "aid" = some stored ∧
      (sampleStored.packet.metrics.lookup "aid.average").map (·.extractionStatus) = some .verified ∧
      (stored.packet.metrics.lookup "aid.average").map (·.extractionStatus) = some .invalid ∧
      ¬ Says sampleStored.packet.metrics saved.pending stored.packet := by
  obtain ⟨saved, after, isSaved, approved, seen⟩ := @approvedWith_true (sampleEdit (.str "70"))
    (fun saved after => saved.pending.any (·.metricRef = "aid.average") &&
      (activeOf after.packets "aid").any fun stored =>
        (stored.packet.metrics.lookup "aid.average").map (·.extractionStatus) = some .invalid) (by decide +kernel)
  rw [Bool.and_eq_true, List.any_eq_true, Option.any_eq_true] at seen
  obtain ⟨⟨row, isRow, isAverage⟩, stored, active, invalid⟩ := seen
  have invalid : (stored.packet.metrics.lookup "aid.average").map (·.extractionStatus) = some .invalid := by
    simpa using invalid
  refine ⟨saved, after, stored, isSaved, approved, active, by decide +kernel, invalid, fun said => ?_⟩
  obtain ⟨metric, found, isSaid⟩ := said.edited row isRow
  rw [show row.metricRef = "aid.average" by simpa using isAverage] at found
  rw [found, Option.map_some, isSaid.verified] at invalid
  cases invalid

end Counselle.Cds.Review

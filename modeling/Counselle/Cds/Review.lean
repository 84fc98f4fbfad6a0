import Counselle.Cds.Storable

/-! The review of one document, `service_review.py` and `service_review_approve.py`:
corrections are saved beside the packets and become packets of their own on approval. -/
namespace Counselle.Cds.Review
open PyJson (JsonValue)
open PyJson.JsonValue (get)
open PyText (PyError)

structure ReviewFlag where
  code : String
  /-- The severity is `error`. -/
  blocking : Bool
  message : String
  metricRef : Option String
  deriving DecidableEq

/-- A row of `cds_domain_packets` of the document. -/
structure StoredPacket where
  extractionId : String
  domainId : String
  packet : Packet
  flags : List ReviewFlag
  createdAt : Nat
  isActive : Bool

/-- `MetricEditIn` with its `EvidenceIn`. -/
structure MetricEdit where
  metricRef : String
  value : JsonValue
  rawValue : Option String
  availabilityStatus : String
  evidence : Evidence
  note : Option String
  onPage : 1 ≤ evidence.pageNumber
  filled : evidence.excerpt ≠ ""

/-- A row of `cds_pending_edits` of the document. -/
structure PendingEdit where
  domainId : String
  baseExtractionId : String
  edit : MetricEdit

def PendingEdit.metricRef (row : PendingEdit) : String := row.edit.metricRef

structure DocumentState where
  isCandidate : Bool
  isActive : Bool
  /-- `find_pending_active_update` finds an extraction. -/
  correctionPending : Bool
  extractions : List String
  packets : List StoredPacket
  pending : List PendingEdit
  /-- The primary key of the table. -/
  refs : (pending.map PendingEdit.metricRef).Nodup
  /-- The foreign key of the packets. -/
  owned : ∀ stored ∈ packets, stored.extractionId ∈ extractions

inductive ReviewError where
  | notReviewable
  | unknownRef (metricRef : String)
  | noDomains
  | unresolvedFlags (count : Nat)
  | zeroVerified (domainId : String) (counts : PacketCounts)
  | blocked (flags : List ReviewFlag)
  | uniqueViolation
  | packetInvalid (error : ReadError)
  | packetMissing (domainId : String)
  | activatedMeanwhile (domainId : String)
  | raised (error : PyError)

def newer : Option StoredPacket → StoredPacket → Option StoredPacket
  | none, stored => some stored
  | some best, stored => if best.createdAt < stored.createdAt then some stored else some best

def mostRecent (packets : List StoredPacket) (domainId : String) : Option StoredPacket :=
  (packets.filter (·.domainId = domainId)).foldl newer none

/-- `get_document_review`: the most recent packet of each domain. -/
def reviewDomains (packets : List StoredPacket) : List StoredPacket :=
  (packets.map (·.domainId)).dedup.filterMap (mostRecent packets)

def summaryOf (domains : List StoredPacket) (domainId : String) : Option StoredPacket :=
  domains.find? (·.domainId = domainId)

def DocumentState.reviewable (state : DocumentState) : Bool :=
  state.isCandidate || state.isActive && state.correctionPending

def currentEdits (pending : List PendingEdit) (domains : List StoredPacket) : List PendingEdit :=
  pending.filter fun row => (summaryOf domains row.domainId).any (·.extractionId = row.baseExtractionId)

/-- `_flags_summary(...).unresolved` -/
def unresolved (domains : List StoredPacket) (pending : List PendingEdit) : Nat :=
  (domains.flatMap (·.flags)).countP fun flag =>
    flag.blocking && !flag.metricRef.any fun ref => pending.any (·.metricRef = ref)

def domainByRef (domains : List StoredPacket) (ref : String) : Option StoredPacket :=
  domains.reverse.find? fun domain => domain.packet.metrics.any (·.1 = ref)

abbrev PendingRows : Type := { pending : List PendingEdit // (pending.map PendingEdit.metricRef).Nodup }

def saveEdit (domains : List StoredPacket) (rows : PendingRows) (edit : MetricEdit) : Except ReviewError PendingRows :=
  match domainByRef domains edit.metricRef with
  | none => .error (.unknownRef edit.metricRef)
  | some domain => .ok ⟨Upsert.insertKey PendingEdit.metricRef rows.val ⟨domain.domainId, domain.extractionId, edit⟩,
      Upsert.nodup_insertKey rows.property _⟩

def saveMetricEdits (state : DocumentState) (edits : List MetricEdit) : Except ReviewError DocumentState :=
  if !state.reviewable then .error .notReviewable
  else (edits.foldlM (saveEdit (reviewDomains state.packets)) ⟨state.pending, state.refs⟩).map fun rows =>
    { state with pending := rows.val, refs := rows.property }

structure ReviewEnv where
  manifestVersion : String
  manifestContent : JsonValue
  domainHashes : List (String × String)
  snapshots : List (String × ManifestSnapshot)
  supportedExtractors : List String
  pageCount : Int
  pdfSha256 : String
  academicYear : Int
  /-- `run_validators` with the facts of the document. -/
  runValidators : Packet → List ReviewFlag

structure Approval where
  extractionId : String
  actorUserId : String
  reviewedAt : String
  createdAt : Nat
  overrideFlags : Bool
  note : Option String

def AvailabilityStatus.ofName (name : String) : Option AvailabilityStatus :=
  [AvailabilityStatus.reported, .notReported, .notApplicable, .suppressed, .notInTemplateVersion].find?
    (·.name = name)

def isScalar : JsonValue → Bool
  | .list _ | .dict _ => false
  | _ => true

/-- `_finding_from_pending`; `none` is a `ValidationError`. -/
def findingFromPending (row : PendingEdit) : Option Finding :=
  match AvailabilityStatus.ofName row.edit.availabilityStatus with
  | none => none
  | some status =>
    if isScalar row.edit.value then
      if solid : isBlank row.edit.evidence.excerpt = false then
        some {
          metricId := row.metricRef
          availabilityStatus := status
          value := row.edit.value
          rawValue := row.edit.rawValue
          pageNumber := row.edit.evidence.pageNumber
          section_ := row.edit.evidence.section_
          rowLabel := row.edit.evidence.rowLabel
          columnLabel := row.edit.evidence.columnLabel
          excerpt := row.edit.evidence.excerpt
          onPage := row.edit.onPage
          solid := solid }
      else none
    else none

def humanReviewExtractorVersion : String := "human-review-v1"

def packetArgs (env : ReviewEnv) (call : Approval) (summary : StoredPacket) (findings : List Finding) : BuildArgs where
  manifestContent := env.manifestContent
  domainHashes := env.domainHashes
  domainId := summary.domainId
  findings := findings
  providerContract := []
  documentPageCount := env.pageCount
  documentSha256 := env.pdfSha256
  academicYear := env.academicYear
  extractionId := call.extractionId
  manifestVersion := env.manifestVersion
  modelId := "human"
  extractorVersion := humanReviewExtractorVersion
  allowedMetricIds := none
  baseMetrics := some summary.packet.metrics

def sortRefs (refs : List String) : List String :=
  refs.insertionSort fun a b => textLess b.toList a.toList = false

/-- The `human_review` block. -/
def humanReview (call : Approval) (summary : StoredPacket) (rows : List PendingEdit) : JsonValue :=
  .dict [("reviewer_user_id", .str call.actorUserId), ("reviewed_at", .str call.reviewedAt),
    ("base_extraction_id", .str summary.extractionId),
    ("changed_refs", .list ((sortRefs (rows.map PendingEdit.metricRef)).map .str)), ("note", textValue call.note)]

/-- `_human_reviewed_packet` of findings made from the rows. -/
def humanReviewedPacket (env : ReviewEnv) (call : Approval) (summary : StoredPacket) (rows : List PendingEdit)
    (findings : List Finding) : Except BuildError Packet :=
  (buildPacket (packetArgs env call summary findings)).map fun packet =>
    { packet with
      providerContract := Upsert.insertKey Prod.fst summary.packet.providerContract
        ("human_review", humanReview call summary rows) }

structure EditedPacket where
  domainId : String
  packet : Packet
  flags : List ReviewFlag

def buildFailure : BuildError → ReviewError
  | .zeroVerified domainId counts => .zeroVerified domainId counts
  | .raised error => .raised error

def liftBuild {A : Type} : Except BuildError A → Except ReviewError A
  | .ok a => .ok a
  | .error error => .error (buildFailure error)

def uneditedFlags (env : ReviewEnv) (call : Approval) (summary : StoredPacket) : Except ReviewError (List ReviewFlag) :=
  match humanReviewedPacket env call summary [] [] with
  | .ok packet => .ok (env.runValidators packet)
  | .error (.zeroVerified ..) => .ok []
  | .error (.raised error) => .error (.raised error)

/-- One domain of `_prepare_edited_packets`; whose flag it is only tells the message. -/
def prepareDomain (env : ReviewEnv) (call : Approval) (domains : List StoredPacket) (current : List PendingEdit)
    (domainId : String) : Except ReviewError EditedPacket :=
  match summaryOf domains domainId with
  | none => .error (.raised .keyError)
  | some summary =>
    let rows := current.filter (·.domainId = domainId)
    match rows.mapM findingFromPending with
    | none => .error (.raised .valueError)
    | some findings => do
      let packet ← liftBuild (humanReviewedPacket env call summary rows findings)
      let _ ← uneditedFlags env call summary
      .ok ⟨domainId, packet, env.runValidators packet⟩

def prepareEditedPackets (env : ReviewEnv) (call : Approval) (domains : List StoredPacket)
    (current : List PendingEdit) : Except ReviewError (List EditedPacket) := do
  let edited ← (Upsert.dictOf id (current.map (·.domainId))).mapM (prepareDomain env call domains current)
  let blocking := (edited.flatMap (·.flags)).filter (·.blocking)
  if blocking ≠ [] ∧ call.overrideFlags = false then .error (.blocked blocking) else .ok edited

def activeOf (packets : List StoredPacket) (domainId : String) : Option StoredPacket :=
  packets.find? fun stored => stored.domainId = domainId && stored.isActive

def activatePacket (packets : List StoredPacket) (extractionId domainId : String) :
    Except ReviewError (List StoredPacket) :=
  if packets.any fun stored => stored.extractionId = extractionId && stored.domainId = domainId then
    .ok (packets.map fun stored =>
      if stored.domainId = domainId then { stored with isActive := stored.extractionId = extractionId } else stored)
  else .error (.packetMissing domainId)

/-- `insert_packet`, which reads the packet back first, and `activate_packet`. -/
def writeEditedPacket (env : ReviewEnv) (call : Approval) (packets : List StoredPacket) (edited : EditedPacket) :
    Except ReviewError (List StoredPacket) :=
  let row : PacketRow := {
    packet := edited.packet
    pdfSha256 := env.pdfSha256
    domainSchemaHash := ((env.domainHashes.lookup edited.domainId).getD "").toLower
    domainId := edited.domainId
    academicYear := env.academicYear
    extractionId := call.extractionId
    manifestVersion := env.manifestVersion
    acceptedPacketStatus := edited.packet.status
    currentDefinitionMatch := true
    currentness := some "current" }
  match parsePacketRow row env.snapshots env.supportedExtractors with
  | .error error => .error (.packetInvalid error)
  | .ok _ =>
    activatePacket (packets ++ [⟨call.extractionId, edited.domainId, edited.packet, edited.flags, call.createdAt, false⟩])
      call.extractionId edited.domainId

def writeEditedPackets (env : ReviewEnv) (call : Approval) (extractions : List String) (packets : List StoredPacket)
    (edited : List EditedPacket) : Except ReviewError (List StoredPacket) :=
  if extractions.contains call.extractionId then .error .uniqueViolation
  else edited.foldlM (writeEditedPacket env call) packets

/-- One domain of `_activate_untouched`. -/
def activateUntouched (activeNow : List StoredPacket) (skip : List String) (packets : List StoredPacket)
    (summary : StoredPacket) : Except ReviewError (List StoredPacket) :=
  if skip.contains summary.domainId then .ok packets
  else match activeOf activeNow summary.domainId with
    | none => activatePacket packets summary.extractionId summary.domainId
    | some active =>
      if active.extractionId = summary.extractionId then .ok packets
      else if summary.createdAt ≤ active.createdAt then .error (.activatedMeanwhile summary.domainId)
      else activatePacket packets summary.extractionId summary.domainId

/-- The packets with those of the edited domains written, and these domains. -/
def editedWrites (env : ReviewEnv) (call : Approval) (state : DocumentState) (current : List PendingEdit) :
    Except ReviewError (List StoredPacket × List String) :=
  if current.isEmpty then .ok (state.packets, [])
  else do
    let edited ← prepareEditedPackets env call (reviewDomains state.packets) current
    let packets ← writeEditedPackets env call state.extractions state.packets edited
    .ok (packets, edited.map (·.domainId))

/-- The packets that `_approve_writes` leaves. -/
def approveWrites (env : ReviewEnv) (call : Approval) (state : DocumentState) (current : List PendingEdit) :
    Except ReviewError (List StoredPacket) := do
  let (written, skip) ← editedWrites env call state current
  (reviewDomains state.packets).foldlM (activateUntouched written skip) written

theorem activatePacket_ok {packets after : List StoredPacket} {extractionId domainId : String}
    (activated : activatePacket packets extractionId domainId = .ok after) :
    (∃ stored ∈ packets, stored.extractionId = extractionId ∧ stored.domainId = domainId) ∧
      after = packets.map fun stored =>
        if stored.domainId = domainId then { stored with isActive := stored.extractionId = extractionId } else stored := by
  unfold activatePacket at activated
  split at activated
  · rename_i found
    cases activated
    exact ⟨by simpa using found, rfl⟩
  · cases activated

theorem activatePacket_owned {packets after : List StoredPacket} {extractionId domainId : String} {ids : List String}
    (owned : ∀ stored ∈ packets, stored.extractionId ∈ ids)
    (activated : activatePacket packets extractionId domainId = .ok after) :
    ∀ stored ∈ after, stored.extractionId ∈ ids := by
  obtain ⟨-, rfl⟩ := activatePacket_ok activated
  intro stored isIn
  obtain ⟨old, wasIn, rfl⟩ := List.mem_map.mp isIn
  split <;> exact owned old wasIn

theorem foldlM_keeps {A S E : Type} {P : S → Prop} {step : S → A → Except E S}
    (keeps : ∀ {s a t}, P s → step s a = .ok t → P t) {items : List A} {s t : S} (initial : P s)
    (folded : items.foldlM step s = .ok t) : P t := by
  induction items generalizing s with
  | nil =>
    cases folded
    exact initial
  | cons a items ih =>
    rw [List.foldlM_cons] at folded
    obtain ⟨middle, first, rest⟩ := Fallible.bind_ok_iff.mp folded
    exact ih (keeps initial first) rest

theorem activateUntouched_owned {activeNow packets after : List StoredPacket} {skip ids : List String}
    {summary : StoredPacket} (owned : ∀ stored ∈ packets, stored.extractionId ∈ ids)
    (activated : activateUntouched activeNow skip packets summary = .ok after) :
    ∀ stored ∈ after, stored.extractionId ∈ ids := by
  unfold activateUntouched at activated
  split at activated
  · exact Except.ok.inj activated ▸ owned
  · split at activated
    · exact activatePacket_owned owned activated
    · split at activated
      · exact Except.ok.inj activated ▸ owned
      · split at activated
        · cases activated
        · exact activatePacket_owned owned activated

theorem writeEditedPacket_owned {env : ReviewEnv} {call : Approval} {packets after : List StoredPacket}
    {edited : EditedPacket} {ids : List String} (known : call.extractionId ∈ ids)
    (owned : ∀ stored ∈ packets, stored.extractionId ∈ ids)
    (written : writeEditedPacket env call packets edited = .ok after) :
    ∀ stored ∈ after, stored.extractionId ∈ ids := by
  simp only [writeEditedPacket] at written
  split at written
  · cases written
  · apply activatePacket_owned _ written
    intro stored isIn
    rw [List.mem_append, List.mem_singleton] at isIn
    obtain isIn | rfl := isIn
    · exact owned stored isIn
    · exact known

def extractionsAfter (call : Approval) (state : DocumentState) (current : List PendingEdit) : List String :=
  if current.isEmpty then state.extractions else call.extractionId :: state.extractions

theorem approveWrites_owned {env : ReviewEnv} {call : Approval} {state : DocumentState} {current : List PendingEdit}
    {after : List StoredPacket} (approved : approveWrites env call state current = .ok after) :
    ∀ stored ∈ after, stored.extractionId ∈ extractionsAfter call state current := by
  obtain ⟨⟨written, skip⟩, writes, activated⟩ := Fallible.bind_ok_iff.mp approved
  apply foldlM_keeps activateUntouched_owned _ activated
  unfold editedWrites at writes
  unfold extractionsAfter
  split at writes
  · rename_i none
    cases writes
    rw [if_pos none]
    exact state.owned
  · rename_i some
    rw [if_neg some]
    obtain ⟨edited, -, writes⟩ := Fallible.bind_ok_iff.mp writes
    obtain ⟨packets, stored, writes⟩ := Fallible.bind_ok_iff.mp writes
    cases writes
    unfold writeEditedPackets at stored
    split at stored
    · cases stored
    · exact foldlM_keeps (writeEditedPacket_owned List.mem_cons_self)
        (fun stored isIn => List.mem_cons_of_mem _ (state.owned stored isIn)) stored

/-- `approve_document`: the transaction, and then the pending rows that it has read are
deleted. -/
def approveDocument (env : ReviewEnv) (state : DocumentState) (call : Approval) : Except ReviewError DocumentState :=
  let domains := reviewDomains state.packets
  let current := currentEdits state.pending domains
  if !state.reviewable then .error .notReviewable
  else if domains.isEmpty then .error .noDomains
  else if 0 < unresolved domains current ∧ call.overrideFlags = false then
    .error (.unresolvedFlags (unresolved domains current))
  else
    match approved : approveWrites env call state current with
    | .error error => .error error
    | .ok packets => .ok {
        isCandidate := false
        isActive := state.isActive || state.isCandidate
        correctionPending := false
        extractions := extractionsAfter call state current
        packets := packets
        pending := []
        refs := List.nodup_nil
        owned := approveWrites_owned approved }

end Counselle.Cds.Review

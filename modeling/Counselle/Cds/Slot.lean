import Counselle.Transition
import Counselle.Upsert

/-! The school-year slot of a document: reviewers, reruns and uploads, each of whose
statements reads what the others have committed. The row locks of the database keep some
of the orders out that the steps allow. -/
namespace Counselle.Cds.Slot

/-- A row of `cds_domain_packets`. -/
structure SlotPacket where
  documentId : Nat
  extractionId : String
  domainId : String
  /-- `now()` of the transaction that stored it. -/
  createdAt : Nat
  isActive : Bool
  -- what no column has: the times of its commit, of its last activation, and of the review
  -- that the approval had read which activated it
  storedAt : Nat
  activeSince : Nat
  reviewedAt : Nat
  deriving DecidableEq

/-- What a review has of a packet, `DomainPacketSummary`, and an `ActivePacketRef` with its
domain. -/
structure PacketRef where
  domainId : String
  extractionId : String
  createdAt : Nat
  deriving DecidableEq

def SlotPacket.ref (row : SlotPacket) : PacketRef := ⟨row.domainId, row.extractionId, row.createdAt⟩

/-- What `get_document_review` has read. -/
structure Snapshot where
  isCandidate : Bool
  readAt : Nat
  domains : List PacketRef

structure Writes where
  startedAt : Nat
  extractionId : String
  edited : List String

inductive Phase where
  | opened (isCandidate isActive : Bool)
  | reviewed (snapshot : Snapshot) (isActive : Bool)
  | admitted (snapshot : Snapshot)
  | writing (snapshot : Snapshot) (writes : Writes)
  | checked (snapshot : Snapshot) (writes : Writes) (activeNow : List PacketRef)

structure Session where
  documentId : Nat
  phase : Phase

structure Extraction where
  id : String
  documentId : Nat
  isUpdate : Bool

/-- An approval that was committed, with the packets before and after. -/
structure Approved where
  documentId : Nat
  snapshot : Snapshot
  writes : Writes
  before : List SlotPacket
  after : List SlotPacket

structure SlotState where
  clock : Nat
  activeDocument : Option Nat
  candidateDocument : Option Nat
  invalidated : List Nat
  extractions : List Extraction
  /-- The documents of the `active_update` extractions that no review has resolved. -/
  corrections : List Nat
  packets : List SlotPacket
  /-- The documents that the transaction of an upload has found or inserted. -/
  uploads : List Nat
  sessions : Nat → Option Session
  approvals : List Approved

def SlotState.initial : SlotState := ⟨0, none, none, [], [], [], [], [], fun _ => none, []⟩

inductive Action where
  /-- `_DOCUMENT_META_SQL` -/
  | openDocument (who documentId : Nat)
  /-- `_DOCUMENT_PACKETS_SQL` -/
  | readPackets (who : Nat)
  | requireReviewable (who : Nat)
  /-- The transaction of an approval begins, with the domains that have edits. -/
  | beginWrites (who : Nat) (edited : List String) (extractionId : String)
  /-- `fetch_active_extraction_ids`, and the decisions on it. -/
  | recheck (who : Nat)
  | commit (who : Nat)
  | reject (who : Nat)
  | abandon (who : Nat)
  /-- `create_extraction` -/
  | queue (extraction : Extraction)
  /-- `insert_packet` of a worker, in a transaction that began at the time. -/
  | storePacket (extraction : Extraction) (domainId : String) (createdAt : Nat)
  | complete (extraction : Extraction)
  /-- `insert_document`: another document, or one that is not invalidated. -/
  | insertDocument (documentId : Nat)
  | setCandidate (documentId : Nat)

def newest (best : List PacketRef) (ref : PacketRef) : List PacketRef :=
  if best.any fun old => old.domainId = ref.domainId && ref.createdAt ≤ old.createdAt then best
  else Upsert.insertKey PacketRef.domainId best ref

def packetsOf (packets : List SlotPacket) (documentId : Nat) : List SlotPacket :=
  packets.filter (·.documentId = documentId)

def reviewDomains (packets : List SlotPacket) (documentId : Nat) : List PacketRef :=
  ((packetsOf packets documentId).map SlotPacket.ref).foldl newest []

def activeRefs (packets : List SlotPacket) (documentId : Nat) : List PacketRef :=
  ((packetsOf packets documentId).filter (·.isActive)).map SlotPacket.ref

/-- A domain that `_activate_untouched` refuses. -/
def conflicts (activeNow : List PacketRef) (shown : PacketRef) : Bool :=
  activeNow.any fun active => active.domainId = shown.domainId && active.extractionId ≠ shown.extractionId &&
    shown.createdAt ≤ active.createdAt

/-- The packet that the transaction activates in the domain. -/
def target (snapshot : Snapshot) (writes : Writes) (activeNow : List PacketRef) (domainId : String) : Option String :=
  if writes.edited.contains domainId then some writes.extractionId
  else (snapshot.domains.find? (·.domainId = domainId)).bind fun shown =>
    if activeNow.any fun active => active.domainId = domainId && active.extractionId = shown.extractionId then none
    else some shown.extractionId

/-- `activate_packet` on a row, for the packet to be activated in its domain. -/
def switch (clock readAt : Nat) (extractionId : String) (row : SlotPacket) : SlotPacket :=
  if row.extractionId = extractionId then { row with isActive := true, activeSince := clock, reviewedAt := readAt }
  else { row with isActive := false }

def inserted (clock documentId : Nat) (writes : Writes) : List SlotPacket :=
  writes.edited.map fun domainId =>
    ⟨documentId, writes.extractionId, domainId, writes.startedAt, false, clock, 0, 0⟩

def switched (clock documentId : Nat) (snapshot : Snapshot) (writes : Writes) (activeNow : List PacketRef)
    (row : SlotPacket) : SlotPacket :=
  if row.documentId = documentId then
    match target snapshot writes activeNow row.domainId with
    | some extractionId => switch clock snapshot.readAt extractionId row
    | none => row
  else row

def written (clock documentId : Nat) (snapshot : Snapshot) (writes : Writes) (activeNow : List PacketRef)
    (packets : List SlotPacket) : List SlotPacket :=
  (packets ++ inserted clock documentId writes).map (switched clock documentId snapshot writes activeNow)

/-- The primary keys of `cds_extractions`, also of those of human reviews. -/
def SlotState.extractionIds (state : SlotState) : List String :=
  state.extractions.map (·.id) ++ state.packets.map (·.extractionId)

def SlotState.tick (state : SlotState) : SlotState := { state with clock := state.clock + 1 }

def SlotState.setPhase (state : SlotState) (who documentId : Nat) (phase : Phase) : SlotState :=
  { state.tick with sessions := Function.update state.sessions who (some ⟨documentId, phase⟩) }

def SlotState.endSession (state : SlotState) (who : Nat) : SlotState :=
  { state.tick with sessions := Function.update state.sessions who none }

theorem sessions_setPhase (state : SlotState) (who documentId : Nat) (phase : Phase) :
    (state.setPhase who documentId phase).sessions = Function.update state.sessions who (some ⟨documentId, phase⟩) := rfl

theorem sessions_endSession (state : SlotState) (who : Nat) :
    (state.endSession who).sessions = Function.update state.sessions who none := rfl

/-- `promote_candidate_document` and `close_pending_active_updates` -/
def SlotState.approve (state : SlotState) (documentId : Nat) (snapshot : Snapshot) (writes : Writes)
    (activeNow : List PacketRef) : SlotState :=
  let packets := written state.clock documentId snapshot writes activeNow state.packets
  { state with
    activeDocument := if snapshot.isCandidate then some documentId else state.activeDocument
    candidateDocument := if snapshot.isCandidate ∧ state.candidateDocument = some documentId then none
      else state.candidateDocument
    corrections := state.corrections.filter (· ≠ documentId)
    packets := packets
    approvals := state.approvals ++ [⟨documentId, snapshot, writes, state.packets, packets⟩] }

/-- `reject_candidate_document`, or `close_pending_active_updates` of an active document. -/
def SlotState.rejected (state : SlotState) (documentId : Nat) (isCandidate : Bool) : Option SlotState :=
  if isCandidate then
    if state.invalidated.contains documentId then none
    else some { state with
      invalidated := documentId :: state.invalidated
      candidateDocument := if state.candidateDocument = some documentId then none else state.candidateDocument }
  else some { state with corrections := state.corrections.filter (· ≠ documentId) }

def step (state : SlotState) : Action → Option SlotState
  | .openDocument who documentId =>
    match state.sessions who with
    | none => some (state.setPhase who documentId
        (.opened (state.candidateDocument = some documentId) (state.activeDocument = some documentId)))
    | some _ => none
  | .readPackets who =>
    match state.sessions who with
    | some ⟨documentId, .opened isCandidate isActive⟩ =>
      some (state.setPhase who documentId
        (.reviewed ⟨isCandidate, state.clock, reviewDomains state.packets documentId⟩ isActive))
    | _ => none
  | .requireReviewable who =>
    match state.sessions who with
    | some ⟨documentId, .reviewed snapshot isActive⟩ =>
      if snapshot.isCandidate || isActive && state.corrections.contains documentId then
        some (state.setPhase who documentId (.admitted snapshot))
      else none
    | _ => none
  | .beginWrites who edited extractionId =>
    match state.sessions who with
    | some ⟨documentId, .admitted snapshot⟩ =>
      if edited.all (fun domainId => snapshot.domains.any (·.domainId = domainId)) && !snapshot.domains.isEmpty then
        some (state.setPhase who documentId (.writing snapshot ⟨state.clock, extractionId, edited⟩))
      else none
    | _ => none
  | .recheck who =>
    match state.sessions who with
    | some ⟨documentId, .writing snapshot writes⟩ =>
      let activeNow := activeRefs state.packets documentId
      if snapshot.domains.any fun shown => !writes.edited.contains shown.domainId && conflicts activeNow shown then none
      else some (state.setPhase who documentId (.checked snapshot writes activeNow))
    | _ => none
  | .commit who =>
    match state.sessions who with
    | some ⟨documentId, .checked snapshot writes activeNow⟩ =>
      if !writes.edited.isEmpty && state.extractionIds.contains writes.extractionId then none
      else some ((state.approve documentId snapshot writes activeNow).endSession who)
    | _ => none
  | .reject who =>
    match state.sessions who with
    | some ⟨documentId, .admitted snapshot⟩ =>
      (state.rejected documentId snapshot.isCandidate).map (·.endSession who)
    | _ => none
  | .abandon who => some (state.endSession who)
  | .queue extraction =>
    if state.extractionIds.contains extraction.id then none
    else some { state.tick with extractions := extraction :: state.extractions }
  | .storePacket extraction domainId createdAt =>
    if state.extractions.any (fun other => other.id = extraction.id && other.documentId = extraction.documentId) &&
        !state.packets.any (fun row => row.extractionId = extraction.id && row.domainId = domainId) &&
        createdAt ≤ state.clock then
      some { state.tick with packets := state.packets ++
        [⟨extraction.documentId, extraction.id, domainId, createdAt, false, state.clock, 0, 0⟩] }
    else none
  | .complete extraction =>
    if state.extractions.any (fun other => other.id = extraction.id && other.documentId = extraction.documentId) then
      some { state.tick with corrections :=
        if extraction.isUpdate then extraction.documentId :: state.corrections else state.corrections }
    else none
  | .insertDocument documentId =>
    if state.invalidated.contains documentId then none
    else some { state.tick with uploads := documentId :: state.uploads }
  | .setCandidate documentId =>
    if state.uploads.contains documentId && state.activeDocument ≠ some documentId then
      some { state.tick with candidateDocument := some documentId, uploads := state.uploads.erase documentId }
    else none

end Counselle.Cds.Slot

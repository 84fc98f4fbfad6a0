import Counselle.Cds.Review
import Counselle.Transition

/-! The corrections of one document: saves, approvals, rejections and reruns, whose packets
and pending edits are in two databases without a shared transaction. -/
namespace Counselle.Cds.Corrections
open Review

/-- A row of `cds_pending_edits`. -/
structure SavedRow where
  edit : PendingEdit
  editedAt : Nat

def SavedRow.metricRef (row : SavedRow) : String := row.edit.metricRef

inductive Phase where
  /-- A save has read the packets. -/
  | saving (read : List StoredPacket) (edits : List MetricEdit)
  | wrote (rows : List SavedRow)
  /-- It has read the packets of the review that it returns. -/
  | readBack (rows : List SavedRow) (read : List StoredPacket)
  | approving (read : List StoredPacket)
  /-- An approval has read the pending rows. -/
  | preparing (read : List StoredPacket) (rows : List SavedRow)
  | approved (read : List StoredPacket) (rows : List SavedRow)
  | rejecting
  | rejected

/-- A save that returned its review, with the number of packets that this had read. -/
structure Saved where
  rows : List SavedRow
  known : Nat

/-- An approval that has committed, with the packets that it left. -/
structure Built where
  env : ReviewEnv
  call : Approval
  read : List StoredPacket
  rows : List SavedRow
  after : List StoredPacket

structure CorrectionState where
  clock : Nat
  reviewable : Bool
  extractions : List String
  packets : List StoredPacket
  pending : List SavedRow
  sessions : Nat → Option Phase
  requests : Nat
  -- what happened so far; no tables
  writes : List SavedRow
  saved : List Saved
  built : List Built
  /-- The rows that an approval deleted as superseded, with the packets that it had read. -/
  swept : List (SavedRow × List StoredPacket)
  discarded : List SavedRow

inductive Action where
  | openSave (edits : List MetricEdit)
  | writeEdits (who : Nat)
  | readBack (who : Nat)
  | returnReview (who : Nat)
  | openApprove
  | readPending (who : Nat)
  | commitApprove (who : Nat) (env : ReviewEnv) (call : Approval)
  | clearPending (who : Nat)
  | openReject
  | commitReject (who : Nat)
  | clearAll (who : Nat)
  | abandon (who : Nat)
  | storePacket (stored : StoredPacket)
  /-- An upload or a rerun makes the document one to be reviewed. -/
  | submit

def isCurrent (domains : List StoredPacket) (row : SavedRow) : Bool :=
  (summaryOf domains row.edit.domainId).any (·.extractionId = row.edit.baseExtractionId)

/-- `_current_edits` -/
def currentRows (domains : List StoredPacket) (rows : List SavedRow) : List SavedRow :=
  rows.filter (isCurrent domains)

def rowOf (domains : List StoredPacket) (clock : Nat) (edit : MetricEdit) : Option SavedRow :=
  (domainByRef domains edit.metricRef).map fun domain => ⟨⟨domain.domainId, domain.extractionId, edit⟩, clock⟩

def showsPending (domains : List StoredPacket) (rows : List SavedRow) (ref : String) : Bool :=
  domains.any (fun domain => domain.packet.metrics.any (·.1 = ref)) &&
    (currentRows domains rows).any (·.metricRef = ref)

def storeEdited (env : ReviewEnv) (call : Approval) (domains : List StoredPacket) (current : List PendingEdit)
    (extractions : List String) (packets : List StoredPacket) : Except ReviewError (List StoredPacket × List String) :=
  if current.isEmpty then .ok (packets, [])
  else do
    let edited ← prepareEditedPackets env call domains current
    let written ← writeEditedPackets env call extractions packets edited
    .ok (written, edited.map (·.domainId))

/-- The write transaction of an approval, on packets that are not those of its review any
more. -/
def commitWrites (env : ReviewEnv) (call : Approval) (domains : List StoredPacket) (current : List PendingEdit)
    (extractions : List String) (packets : List StoredPacket) : Except ReviewError (List StoredPacket) := do
  let (written, skip) ← storeEdited env call domains current extractions packets
  domains.foldlM (activateUntouched written skip) written

def deletes (rows : List SavedRow) (row : SavedRow) : Bool :=
  rows.any fun read => read.metricRef = row.metricRef && read.editedAt = row.editedAt

def CorrectionState.tick (state : CorrectionState) : CorrectionState := { state with clock := state.clock + 1 }

def CorrectionState.setPhase (state : CorrectionState) (who : Nat) (phase : Phase) : CorrectionState :=
  { state.tick with sessions := Function.update state.sessions who (some phase) }

def CorrectionState.openSession (state : CorrectionState) (phase : Phase) : CorrectionState :=
  { state.setPhase state.requests phase with requests := state.requests + 1 }

def CorrectionState.endSession (state : CorrectionState) (who : Nat) : CorrectionState :=
  { state.tick with sessions := Function.update state.sessions who none }

def step (state : CorrectionState) : Action → Option CorrectionState
  | .openSave edits => if state.reviewable then some (state.openSession (.saving state.packets edits)) else none
  | .writeEdits who =>
    match state.sessions who with
    | some (.saving read edits) =>
      (edits.mapM (rowOf (reviewDomains read) state.clock)).map fun rows =>
        { state.setPhase who (.wrote rows) with
          pending := rows.foldl (Upsert.insertKey SavedRow.metricRef) state.pending
          writes := state.writes ++ rows }
    | _ => none
  | .readBack who =>
    match state.sessions who with
    | some (.wrote rows) => some (state.setPhase who (.readBack rows state.packets))
    | _ => none
  | .returnReview who =>
    match state.sessions who with
    | some (.readBack rows read) =>
      if rows.all fun row => showsPending (reviewDomains read) state.pending row.metricRef then
        some { state.endSession who with saved := ⟨rows, read.length⟩ :: state.saved }
      else none
    | _ => none
  | .openApprove => if state.reviewable then some (state.openSession (.approving state.packets)) else none
  | .readPending who =>
    match state.sessions who with
    | some (.approving read) => some (state.setPhase who (.preparing read state.pending))
    | _ => none
  | .commitApprove who env call =>
    match state.sessions who with
    | some (.preparing read rows) =>
      let domains := reviewDomains read
      let current := currentRows domains rows
      if domains.isEmpty || 0 < unresolved domains (current.map (·.edit)) && !call.overrideFlags then none
      -- the transaction begins after the packets were read
      else if state.clock < call.createdAt || read.any (call.createdAt < ·.createdAt) then none
      else
        match commitWrites env call domains (current.map (·.edit)) state.extractions state.packets with
        | .error _ => none
        | .ok packets => some { state.setPhase who (.approved read rows) with
            reviewable := false
            extractions := if current.isEmpty then state.extractions else call.extractionId :: state.extractions
            packets := packets
            built := ⟨env, call, read, current, packets⟩ :: state.built }
    | _ => none
  | .clearPending who =>
    match state.sessions who with
    | some (.approved read rows) =>
      some { state.endSession who with
        pending := state.pending.filter fun row => !deletes rows row
        swept := ((state.pending.filter fun row => deletes rows row && !isCurrent (reviewDomains read) row).map
          fun row => (row, read)) ++ state.swept }
    | _ => none
  | .openReject => if state.reviewable then some (state.openSession .rejecting) else none
  | .commitReject who =>
    match state.sessions who with
    | some .rejecting => some { state.setPhase who .rejected with reviewable := false }
    | _ => none
  | .clearAll who =>
    match state.sessions who with
    | some .rejected => some { state.endSession who with
        pending := []
        discarded := state.pending ++ state.discarded }
    | _ => none
  | .abandon who => some (state.endSession who)
  | .storePacket stored =>
    if state.packets.any (fun other => other.extractionId = stored.extractionId && other.domainId = stored.domainId) ||
        stored.isActive || state.clock < stored.createdAt then none
    else some { state.tick with
      extractions := stored.extractionId :: state.extractions
      packets := state.packets ++ [stored] }
  | .submit => some { state.tick with reviewable := true }

def CorrectionState.initial : CorrectionState :=
  ⟨0, false, [], [], [], fun _ => none, 0, [], [], [], [], []⟩

end Counselle.Cds.Corrections

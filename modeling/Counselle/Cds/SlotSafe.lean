import Counselle.Cds.Slot
import Mathlib

/-! What approvals leave active, over every order of the steps of reviewers, reruns and
uploads. -/
namespace Counselle.Cds.Slot
open Transition

/-- The refs are the most recent ones, one of each domain. -/
structure Newest (seen best : List PacketRef) : Prop where
  distinct : (best.map PacketRef.domainId).Nodup
  isSeen : ∀ shown ∈ best, shown ∈ seen
  covers : ∀ ref ∈ seen, ∃ shown ∈ best, shown.domainId = ref.domainId
  recent : ∀ ref ∈ seen, ∀ shown ∈ best, shown.domainId = ref.domainId → ref.createdAt ≤ shown.createdAt

theorem Newest.snoc {seen best : List PacketRef} (isNewest : Newest seen best) (ref : PacketRef) :
    Newest (seen ++ [ref]) (newest best ref) := by
  rw [newest]
  split
  case isTrue older =>
    obtain ⟨old, isOld, sameDomain, notAfter⟩ : ∃ old ∈ best, old.domainId = ref.domainId ∧
        ref.createdAt ≤ old.createdAt := by simpa using older
    refine ⟨isNewest.distinct, fun shown isIn => List.mem_append_left _ (isNewest.isSeen shown isIn), ?_, ?_⟩
    · intro other isIn
      rcases List.mem_append.mp isIn with isIn | isIn
      · exact isNewest.covers other isIn
      · exact ⟨old, isOld, List.mem_singleton.mp isIn ▸ sameDomain⟩
    · intro other isIn shown isShown same
      rcases List.mem_append.mp isIn with isIn | isIn
      · exact isNewest.recent other isIn shown isShown same
      · obtain rfl := List.mem_singleton.mp isIn
        obtain rfl := List.inj_on_of_nodup_map isNewest.distinct isShown isOld (same.trans sameDomain.symm)
        exact notAfter
  case isFalse newer =>
    have newer : ∀ old ∈ best, old.domainId = ref.domainId → old.createdAt < ref.createdAt := by
      simpa using newer
    refine ⟨Upsert.nodup_insertKey isNewest.distinct ref, ?_, ?_, ?_⟩
    · intro shown isIn
      rcases (Upsert.mem_insertKey isNewest.distinct).mp isIn with rfl | ⟨isIn, -⟩
      · exact List.mem_append_right _ (List.mem_singleton_self _)
      · exact List.mem_append_left _ (isNewest.isSeen shown isIn)
    · intro other isIn
      by_cases same : other.domainId = ref.domainId
      · exact ⟨ref, (Upsert.mem_insertKey isNewest.distinct).mpr (Or.inl rfl), same.symm⟩
      · rcases List.mem_append.mp isIn with isIn | isIn
        · obtain ⟨shown, isShown, sameDomain⟩ := isNewest.covers other isIn
          exact ⟨shown, (Upsert.mem_insertKey isNewest.distinct).mpr (Or.inr ⟨isShown, sameDomain ▸ same⟩), sameDomain⟩
        · exact absurd (congrArg _ (List.mem_singleton.mp isIn)) same
    · intro other isIn shown isShown same
      rcases (Upsert.mem_insertKey isNewest.distinct).mp isShown with rfl | ⟨wasShown, apart⟩
      · rcases List.mem_append.mp isIn with isIn | isIn
        · obtain ⟨old, isOld, sameDomain⟩ := isNewest.covers other isIn
          exact Nat.le_trans (isNewest.recent other isIn old isOld sameDomain)
            (Nat.le_of_lt (newer old isOld (sameDomain.trans same.symm)))
        · exact Nat.le_of_eq (congrArg _ (List.mem_singleton.mp isIn))
      · rcases List.mem_append.mp isIn with isIn | isIn
        · exact isNewest.recent other isIn shown wasShown same
        · exact absurd (same.trans (congrArg _ (List.mem_singleton.mp isIn))) apart

theorem newest_foldl (refs : List PacketRef) : Newest refs (refs.foldl newest []) := by
  induction refs using List.reverseRecOn with
  | nil => exact ⟨List.nodup_nil, by simp, by simp, by simp⟩
  | append_singleton refs ref ih =>
    rw [List.foldl_append]
    exact ih.snoc ref

theorem newest_reviewDomains (packets : List SlotPacket) (documentId : Nat) :
    Newest ((packetsOf packets documentId).map SlotPacket.ref) (reviewDomains packets documentId) :=
  newest_foldl _

/-- The packets that an approval left active are those of its review or built from them, and
it took no packet away that an approval of a later review had activated. -/
structure Approved.Sound (approved : Approved) : Prop where
  seen : ∀ row ∈ approved.after, row.documentId = approved.documentId → row.isActive = true →
    ∃ shown ∈ approved.snapshot.domains, shown.domainId = row.domainId ∧
      (row.extractionId = shown.extractionId ∨
        row.domainId ∈ approved.writes.edited ∧ row.extractionId = approved.writes.extractionId)
  kept : ∀ row ∈ approved.before, row.documentId = approved.documentId → row.isActive = true →
    approved.snapshot.readAt < row.reviewedAt → row ∈ approved.after

structure SlotState.Safe (state : SlotState) : Prop where
  live : ∀ documentId, state.activeDocument = some documentId → documentId ∉ state.invalidated
  approvals : ∀ approved ∈ state.approvals, approved.Sound

/-- What an approval is not to be disturbed by before it commits: the review shows every
domain with an active packet, which in an edited domain was active before the review was
read, and in another is the one that was read again; and the document is not invalidated
that it promotes. -/
structure CommitUndisturbed (state : SlotState) (documentId : Nat) (snapshot : Snapshot) (writes : Writes)
    (activeNow : List PacketRef) : Prop where
  shown : ∀ row ∈ state.packets, row.documentId = documentId → row.isActive = true →
    ∃ shown ∈ snapshot.domains, shown.domainId = row.domainId
  edited : ∀ row ∈ state.packets, row.documentId = documentId → row.isActive = true →
    row.domainId ∈ writes.edited → row.activeSince ≤ snapshot.readAt
  unedited : ∀ row ∈ state.packets, row.documentId = documentId → row.isActive = true →
    row.domainId ∉ writes.edited → row.ref ∈ activeNow
  valid : snapshot.isCandidate = true → documentId ∉ state.invalidated

/-- And a rejection takes the document for a candidate that is not the active one by now. -/
def Undisturbed (state : SlotState) : Action → Prop
  | .commit who => ∀ documentId snapshot writes activeNow,
      state.sessions who = some ⟨documentId, .checked snapshot writes activeNow⟩ →
        CommitUndisturbed state documentId snapshot writes activeNow
  | .reject who => ∀ documentId snapshot, state.sessions who = some ⟨documentId, .admitted snapshot⟩ →
      snapshot.isCandidate = true → state.activeDocument ≠ some documentId
  | _ => True

instance CommitUndisturbed.decidable (state : SlotState) (documentId : Nat) (snapshot : Snapshot) (writes : Writes)
    (activeNow : List PacketRef) : Decidable (CommitUndisturbed state documentId snapshot writes activeNow) :=
  decidable_of_iff ((∀ row ∈ state.packets, row.documentId = documentId → row.isActive = true →
      (∃ shown ∈ snapshot.domains, shown.domainId = row.domainId) ∧
        (row.domainId ∈ writes.edited → row.activeSince ≤ snapshot.readAt) ∧
        (row.domainId ∉ writes.edited → row.ref ∈ activeNow)) ∧
      (snapshot.isCandidate = true → documentId ∉ state.invalidated))
    ⟨fun ⟨rows, valid⟩ => ⟨fun row isIn isOf isActive => (rows row isIn isOf isActive).1,
        fun row isIn isOf isActive => (rows row isIn isOf isActive).2.1,
        fun row isIn isOf isActive => (rows row isIn isOf isActive).2.2, valid⟩,
      fun undisturbed => ⟨fun row isIn isOf isActive => ⟨undisturbed.shown row isIn isOf isActive,
        undisturbed.edited row isIn isOf isActive, undisturbed.unedited row isIn isOf isActive⟩, undisturbed.valid⟩⟩

instance Undisturbed.decidable (state : SlotState) (action : Action) : Decidable (Undisturbed state action) :=
  match action with
  | .commit who =>
    match isSession : state.sessions who with
    | some ⟨documentId, .checked snapshot writes activeNow⟩ =>
      decidable_of_iff (CommitUndisturbed state documentId snapshot writes activeNow)
        ⟨fun undisturbed _ _ _ _ same => by cases isSession.symm.trans same; exact undisturbed,
          fun every => every _ _ _ _ isSession⟩
    | none | some ⟨_, .opened ..⟩ | some ⟨_, .reviewed ..⟩ | some ⟨_, .admitted ..⟩ | some ⟨_, .writing ..⟩ =>
      isTrue (by simp [Undisturbed, isSession])
  | .reject who =>
    match isSession : state.sessions who with
    | some ⟨documentId, .admitted snapshot⟩ =>
      decidable_of_iff (snapshot.isCandidate = true → state.activeDocument ≠ some documentId)
        (by simp [Undisturbed, isSession])
    | none | some ⟨_, .opened ..⟩ | some ⟨_, .reviewed ..⟩ | some ⟨_, .checked ..⟩ | some ⟨_, .writing ..⟩ =>
      isTrue (by simp [Undisturbed, isSession])
  | .openDocument .. | .readPackets .. | .requireReviewable .. | .beginWrites .. | .recheck .. | .abandon .. | .queue ..
  | .storePacket .. | .complete .. | .insertDocument .. | .setCandidate .. => isTrue trivial

structure Extends (clock : Nat) (packets after : List SlotPacket) : Prop where
  keeps : ∀ row ∈ packets, ∃ other ∈ after, other.documentId = row.documentId ∧ other.ref = row.ref ∧
    other.storedAt = row.storedAt
  adds : ∀ row ∈ after, (∃ other ∈ packets, other.documentId = row.documentId ∧ other.ref = row.ref ∧
    other.storedAt = row.storedAt) ∨ row.storedAt = clock

structure PacketsValid (clock : Nat) (packets : List SlotPacket) : Prop where
  stored : ∀ row ∈ packets, row.createdAt ≤ row.storedAt ∧ row.storedAt < clock
  reviewed : ∀ row ∈ packets, row.reviewedAt ≤ row.activeSince ∧ row.reviewedAt < clock
  /-- The primary key. -/
  key : ∀ row ∈ packets, ∀ other ∈ packets, row.extractionId = other.extractionId → row.domainId = other.domainId →
    row.createdAt = other.createdAt
  single : ∀ row ∈ packets, ∀ other ∈ packets, row.isActive = true → other.isActive = true →
    row.documentId = other.documentId → row.domainId = other.domainId → row.extractionId = other.extractionId
  recent : ∀ row ∈ packets, row.isActive = true → ∀ other ∈ packets, other.documentId = row.documentId →
    other.domainId = row.domainId → other.storedAt ≤ row.reviewedAt → other.createdAt ≤ row.createdAt

structure Snapshot.Valid (clock : Nat) (packets : List SlotPacket) (documentId : Nat) (snapshot : Snapshot) : Prop where
  isRead : snapshot.readAt < clock
  shown : ∀ shown ∈ snapshot.domains, ∃ row ∈ packets, row.documentId = documentId ∧ row.ref = shown ∧
    row.storedAt ≤ snapshot.readAt
  newest : ∀ shown ∈ snapshot.domains, ∀ row ∈ packets, row.documentId = documentId →
    row.domainId = shown.domainId → row.storedAt ≤ snapshot.readAt → row.createdAt ≤ shown.createdAt

structure Writes.Valid (clock : Nat) (snapshot : Snapshot) (writes : Writes) : Prop where
  later : snapshot.readAt < writes.startedAt
  started : writes.startedAt < clock
  shown : ∀ domainId ∈ writes.edited, ∃ shown ∈ snapshot.domains, shown.domainId = domainId

structure Passed (snapshot : Snapshot) (writes : Writes) (activeNow : List PacketRef) : Prop where
  single : ∀ active ∈ activeNow, ∀ other ∈ activeNow, active.domainId = other.domainId →
    active.extractionId = other.extractionId
  older : ∀ shown ∈ snapshot.domains, shown.domainId ∉ writes.edited → ∀ active ∈ activeNow,
    active.domainId = shown.domainId → active.extractionId ≠ shown.extractionId → active.createdAt < shown.createdAt

inductive Phase.Valid (clock : Nat) (packets : List SlotPacket) (documentId : Nat) : Phase → Prop where
  | opened (isCandidate isActive : Bool) : Valid clock packets documentId (.opened isCandidate isActive)
  | reviewed {snapshot : Snapshot} (isActive : Bool) : snapshot.Valid clock packets documentId →
      Valid clock packets documentId (.reviewed snapshot isActive)
  | admitted {snapshot : Snapshot} : snapshot.Valid clock packets documentId →
      Valid clock packets documentId (.admitted snapshot)
  | writing {snapshot : Snapshot} {writes : Writes} : snapshot.Valid clock packets documentId →
      writes.Valid clock snapshot → Valid clock packets documentId (.writing snapshot writes)
  | checked {snapshot : Snapshot} {writes : Writes} {activeNow : List PacketRef} :
      snapshot.Valid clock packets documentId → writes.Valid clock snapshot → Passed snapshot writes activeNow →
      Valid clock packets documentId (.checked snapshot writes activeNow)

structure Inv (state : SlotState) : Prop where
  safe : state.Safe
  packets : PacketsValid state.clock state.packets
  sessions : ∀ who session, state.sessions who = some session →
    session.phase.Valid state.clock state.packets session.documentId

theorem Extends.refl (clock : Nat) (packets : List SlotPacket) : Extends clock packets packets :=
  ⟨fun row isIn => ⟨row, isIn, rfl, rfl, rfl⟩, fun row isIn => Or.inl ⟨row, isIn, rfl, rfl, rfl⟩⟩

theorem Snapshot.Valid.extend {clock documentId : Nat} {packets after : List SlotPacket} {snapshot : Snapshot}
    (valid : snapshot.Valid clock packets documentId) (more : Extends clock packets after) :
    snapshot.Valid (clock + 1) after documentId := by
  refine ⟨Nat.lt_succ_of_lt valid.isRead, fun shown isShown => ?_, fun shown isShown row isIn isOf inDomain isStored => ?_⟩
  · obtain ⟨row, isIn, isOf, isRef, isStored⟩ := valid.shown shown isShown
    obtain ⟨other, otherIn, sameDocument, sameRef, sameTime⟩ := more.keeps row isIn
    exact ⟨other, otherIn, sameDocument.trans isOf, sameRef.trans isRef, sameTime ▸ isStored⟩
  · obtain ⟨other, otherIn, sameDocument, sameRef, sameTime⟩ | isNew := more.adds row isIn
    · have sameDomain : other.domainId = row.domainId := congrArg PacketRef.domainId sameRef
      have sameCreated : other.createdAt = row.createdAt := congrArg PacketRef.createdAt sameRef
      rw [← sameCreated]
      exact valid.newest shown isShown other otherIn (sameDocument.trans isOf) (sameDomain.trans inDomain)
        (sameTime ▸ isStored)
    · have before := valid.isRead
      omega

theorem Phase.Valid.extend {clock documentId : Nat} {packets after : List SlotPacket} {phase : Phase}
    (valid : phase.Valid clock packets documentId) (more : Extends clock packets after) :
    phase.Valid (clock + 1) after documentId := by
  cases valid with
  | opened => exact .opened _ _
  | reviewed isActive isRead => exact .reviewed isActive (isRead.extend more)
  | admitted isRead => exact .admitted (isRead.extend more)
  | writing isRead began => exact .writing (isRead.extend more) ⟨began.later, Nat.lt_succ_of_lt began.started, began.shown⟩
  | checked isRead began passed =>
    exact .checked (isRead.extend more) ⟨began.later, Nat.lt_succ_of_lt began.started, began.shown⟩ passed

theorem PacketsValid.tick {clock : Nat} {packets : List SlotPacket} (valid : PacketsValid clock packets) :
    PacketsValid (clock + 1) packets where
  stored row isIn := ⟨(valid.stored row isIn).1, Nat.lt_succ_of_lt (valid.stored row isIn).2⟩
  reviewed row isIn := ⟨(valid.reviewed row isIn).1, Nat.lt_succ_of_lt (valid.reviewed row isIn).2⟩
  key := valid.key
  single := valid.single
  recent := valid.recent

theorem PacketsValid.store {clock : Nat} {packets : List SlotPacket} (valid : PacketsValid clock packets)
    {new : SlotPacket} (created : new.createdAt ≤ clock) (stored : new.storedAt = clock) (inactive : new.isActive = false)
    (unreviewed : new.reviewedAt = 0) (fresh : ∀ row ∈ packets, ¬(row.extractionId = new.extractionId ∧
      row.domainId = new.domainId)) : PacketsValid (clock + 1) (packets ++ [new]) := by
  have cases_ : ∀ {row}, row ∈ packets ++ [new] → row ∈ packets ∨ row = new := by simp
  have wasIn : ∀ {row}, row ∈ packets ++ [new] → row.isActive = true → row ∈ packets := by
    intro row isIn isActive
    rcases cases_ isIn with isIn | rfl
    · exact isIn
    · rw [inactive] at isActive
      cases isActive
  constructor
  · intro row isIn
    rcases cases_ isIn with isIn | rfl
    · exact valid.tick.stored row isIn
    · omega
  · intro row isIn
    rcases cases_ isIn with isIn | rfl
    · exact valid.tick.reviewed row isIn
    · omega
  · intro row isIn other otherIn sameId sameDomain
    rcases cases_ isIn with was | rfl <;> rcases cases_ otherIn with otherWas | rfl
    · exact valid.key row was other otherWas sameId sameDomain
    · exact absurd ⟨sameId, sameDomain⟩ (fresh row was)
    · exact absurd ⟨sameId.symm, sameDomain.symm⟩ (fresh other otherWas)
    · rfl
  · intro row isIn other otherIn isActive otherActive
    exact valid.single row (wasIn isIn isActive) other (wasIn otherIn otherActive) isActive otherActive
  · intro row isIn isActive other otherIn sameDocument sameDomain before
    have was := wasIn isIn isActive
    rcases cases_ otherIn with otherWas | rfl
    · exact valid.recent row was isActive other otherWas sameDocument sameDomain before
    · have reviewed := (valid.reviewed row was).2
      omega

section Written
variable {clock documentId : Nat} {snapshot : Snapshot} {writes : Writes} {activeNow : List PacketRef}
  {packets : List SlotPacket}

theorem switched_same (row : SlotPacket) :
    (switched clock documentId snapshot writes activeNow row).documentId = row.documentId ∧
      (switched clock documentId snapshot writes activeNow row).ref = row.ref ∧
      (switched clock documentId snapshot writes activeNow row).storedAt = row.storedAt := by
  unfold switched
  split
  · split
    · unfold switch
      split <;> exact ⟨rfl, rfl, rfl⟩
    · exact ⟨rfl, rfl, rfl⟩
  · exact ⟨rfl, rfl, rfl⟩

theorem switched_active {row : SlotPacket}
    (isActive : (switched clock documentId snapshot writes activeNow row).isActive = true) :
    (row.documentId = documentId ∧ target snapshot writes activeNow row.domainId = some row.extractionId ∧
        switched clock documentId snapshot writes activeNow row =
          { row with isActive := true, activeSince := clock, reviewedAt := snapshot.readAt }) ∨
      (row.documentId = documentId → target snapshot writes activeNow row.domainId = none) ∧
        switched clock documentId snapshot writes activeNow row = row := by
  unfold switched at isActive ⊢
  split
  case isFalse other => exact Or.inr ⟨fun bad => absurd bad other, rfl⟩
  case isTrue here =>
    rw [if_pos here] at isActive
    cases isTarget : target snapshot writes activeNow row.domainId with
    | none => exact Or.inr ⟨fun _ => rfl, rfl⟩
    | some extractionId =>
      rw [isTarget] at isActive
      simp only [switch] at isActive ⊢
      split
      case isTrue same => exact Or.inl ⟨here, congrArg some same.symm, rfl⟩
      case isFalse apart =>
        rw [if_neg apart] at isActive
        cases isActive

theorem inserted_mem {row : SlotPacket} (isIn : row ∈ inserted clock documentId writes) :
    row.domainId ∈ writes.edited ∧ row.extractionId = writes.extractionId ∧ row.createdAt = writes.startedAt ∧
      row.storedAt = clock ∧ row.isActive = false ∧ row.activeSince = 0 ∧ row.reviewedAt = 0 := by
  obtain ⟨domainId, isEdited, rfl⟩ := List.mem_map.mp isIn
  exact ⟨isEdited, rfl, rfl, rfl, rfl, rfl, rfl⟩

theorem target_edited {domainId : String} (edited : domainId ∈ writes.edited) :
    target snapshot writes activeNow domainId = some writes.extractionId :=
  if_pos (List.contains_iff_mem.mpr edited)

theorem target_unedited {domainId extractionId : String} (unedited : domainId ∉ writes.edited)
    (isTarget : target snapshot writes activeNow domainId = some extractionId) :
    ∃ shown ∈ snapshot.domains, shown.domainId = domainId ∧ shown.extractionId = extractionId := by
  rw [target, if_neg (by simpa using unedited), Option.bind_eq_some_iff] at isTarget
  obtain ⟨shown, found, isTarget⟩ := isTarget
  split at isTarget
  · cases isTarget
  · exact ⟨shown, List.mem_of_find?_eq_some found, by simpa using List.find?_some found, Option.some.inj isTarget⟩

theorem target_none {domainId : String} (shows : ∃ shown ∈ snapshot.domains, shown.domainId = domainId) :
    target snapshot writes activeNow domainId = none ↔ domainId ∉ writes.edited ∧
      ∃ shown, snapshot.domains.find? (·.domainId = domainId) = some shown ∧
        ∃ active ∈ activeNow, active.domainId = domainId ∧ active.extractionId = shown.extractionId := by
  by_cases edited : domainId ∈ writes.edited
  · simp [target_edited edited, edited]
  · obtain ⟨shown, found⟩ : ∃ shown, snapshot.domains.find? (·.domainId = domainId) = some shown := by
      rw [← Option.isSome_iff_exists, List.find?_isSome]
      simpa using shows
    rw [target, if_neg (by simpa using edited), found, Option.bind_some]
    simp [edited]

theorem written_extends : Extends clock packets (written clock documentId snapshot writes activeNow packets) := by
  constructor
  · intro row isIn
    exact ⟨_, List.mem_map_of_mem (List.mem_append_left _ isIn), switched_same row⟩
  · intro row isIn
    obtain ⟨old, wasIn, rfl⟩ := List.mem_map.mp isIn
    obtain ⟨sameDocument, sameRef, sameTime⟩ :=
      @switched_same clock documentId snapshot writes activeNow old
    rcases List.mem_append.mp wasIn with wasIn | isNew
    · exact Or.inl ⟨old, wasIn, sameDocument.symm, sameRef.symm, sameTime.symm⟩
    · exact Or.inr (sameTime.trans (inserted_mem isNew).2.2.2.1)

theorem written_active {row : SlotPacket} (isIn : row ∈ written clock documentId snapshot writes activeNow packets)
    (isActive : row.isActive = true) :
    (row.documentId = documentId ∧ target snapshot writes activeNow row.domainId = some row.extractionId ∧
        row.activeSince = clock ∧ row.reviewedAt = snapshot.readAt ∧
        ∃ old ∈ packets ++ inserted clock documentId writes, old.ref = row.ref) ∨
      row ∈ packets ∧ (row.documentId = documentId → target snapshot writes activeNow row.domainId = none) := by
  obtain ⟨old, wasIn, rfl⟩ := List.mem_map.mp isIn
  obtain ⟨here, isTarget, same⟩ | ⟨untouched, same⟩ := switched_active isActive
  · rw [same]
    exact Or.inl ⟨here, isTarget, rfl, rfl, old, wasIn, rfl⟩
  · rw [same] at isActive ⊢
    rcases List.mem_append.mp wasIn with wasIn | isNew
    · exact Or.inr ⟨wasIn, untouched⟩
    · rw [(inserted_mem isNew).2.2.2.2.1] at isActive
      cases isActive

theorem target_recent (valid : PacketsValid clock packets) (isRead : snapshot.Valid clock packets documentId)
    (began : writes.Valid clock snapshot) (fresh : ∀ row ∈ packets, writes.edited ≠ [] →
      row.extractionId ≠ writes.extractionId) {row : SlotPacket} (isIn : row ∈ packets ++ inserted clock documentId writes)
    (isTarget : target snapshot writes activeNow row.domainId = some row.extractionId) {other : SlotPacket}
    (otherIn : other ∈ packets) (isOf : other.documentId = documentId) (sameDomain : other.domainId = row.domainId)
    (before : other.storedAt ≤ snapshot.readAt) : other.createdAt ≤ row.createdAt := by
  have stored := (valid.stored other otherIn).1
  by_cases edited : row.domainId ∈ writes.edited
  · rw [target_edited edited] at isTarget
    rcases List.mem_append.mp isIn with wasIn | isNew
    · exact absurd (Option.some.inj isTarget).symm (fresh row wasIn (List.ne_nil_of_mem edited))
    · rw [(inserted_mem isNew).2.2.1]
      have later := began.later
      omega
  · rcases List.mem_append.mp isIn with wasIn | isNew
    · obtain ⟨shown, isShown, inDomain, isPacket⟩ := target_unedited edited isTarget
      obtain ⟨old, oldIn, -, rfl, -⟩ := isRead.shown shown isShown
      have same := valid.key row wasIn old oldIn isPacket.symm inDomain.symm
      rw [same]
      exact isRead.newest _ isShown other otherIn isOf (sameDomain.trans inDomain.symm) before
    · exact absurd (inserted_mem isNew).1 edited

theorem written_valid (valid : PacketsValid clock packets) (isRead : snapshot.Valid clock packets documentId)
    (began : writes.Valid clock snapshot) (fresh : ∀ row ∈ packets, writes.edited ≠ [] →
      row.extractionId ≠ writes.extractionId) :
    PacketsValid (clock + 1) (written clock documentId snapshot writes activeNow packets) := by
  have more := @written_extends clock documentId snapshot writes activeNow packets
  have started := began.started
  have readBefore := isRead.isRead
  constructor
  · intro row isIn
    obtain ⟨old, wasIn, rfl⟩ := List.mem_map.mp isIn
    obtain ⟨-, sameRef, sameTime⟩ := @switched_same clock documentId snapshot writes activeNow old
    have sameCreated := congrArg PacketRef.createdAt sameRef
    simp only [SlotPacket.ref] at sameCreated
    rcases List.mem_append.mp wasIn with wasIn | isNew
    · have stored := valid.stored old wasIn
      omega
    · obtain ⟨-, -, created, stored, -⟩ := inserted_mem isNew
      omega
  · intro row isIn
    obtain ⟨old, wasIn, rfl⟩ := List.mem_map.mp isIn
    have reviewed : old.reviewedAt ≤ old.activeSince ∧ old.reviewedAt < clock := by
      rcases List.mem_append.mp wasIn with wasIn | isNew
      · exact valid.reviewed old wasIn
      · obtain ⟨-, -, -, -, -, since, reviewed⟩ := inserted_mem isNew
        omega
    unfold switched switch
    split
    · split
      · split
        · exact ⟨Nat.le_of_lt readBefore, Nat.lt_succ_of_lt readBefore⟩
        · exact ⟨reviewed.1, Nat.lt_succ_of_lt reviewed.2⟩
      · exact ⟨reviewed.1, Nat.lt_succ_of_lt reviewed.2⟩
    · exact ⟨reviewed.1, Nat.lt_succ_of_lt reviewed.2⟩
  · intro row isIn other otherIn sameId sameDomain
    obtain ⟨old, wasIn, rfl⟩ := List.mem_map.mp isIn
    obtain ⟨otherOld, otherWasIn, rfl⟩ := List.mem_map.mp otherIn
    obtain ⟨-, ref, -⟩ := @switched_same clock documentId snapshot writes activeNow old
    obtain ⟨-, otherRef, -⟩ := @switched_same clock documentId snapshot writes activeNow otherOld
    simp only [SlotPacket.ref, PacketRef.mk.injEq] at ref otherRef
    rw [ref.2.1, otherRef.2.1] at sameId
    rw [ref.1, otherRef.1] at sameDomain
    rw [ref.2.2, otherRef.2.2]
    rcases List.mem_append.mp wasIn with wasIn | isNew <;>
      rcases List.mem_append.mp otherWasIn with otherWasIn | otherNew
    · exact valid.key old wasIn otherOld otherWasIn sameId sameDomain
    · obtain ⟨edited, isNew, -⟩ := inserted_mem otherNew
      exact absurd (sameId.trans isNew) (fresh old wasIn (List.ne_nil_of_mem edited))
    · obtain ⟨edited, isNew, -⟩ := inserted_mem isNew
      exact absurd (sameId.symm.trans isNew) (fresh otherOld otherWasIn (List.ne_nil_of_mem edited))
    · rw [(inserted_mem isNew).2.2.1, (inserted_mem otherNew).2.2.1]
  · intro row isIn other otherIn isActive otherActive sameDocument sameDomain
    obtain ⟨here, isTarget, -⟩ | ⟨wasIn, untouched⟩ := written_active isIn isActive <;>
      obtain ⟨otherHere, otherTarget, -⟩ | ⟨otherWasIn, otherUntouched⟩ := written_active otherIn otherActive
    · rw [sameDomain, otherTarget] at isTarget
      exact (Option.some.inj isTarget).symm
    · rw [← sameDomain, isTarget] at otherUntouched
      cases otherUntouched (sameDocument.symm.trans here)
    · rw [sameDomain, otherTarget] at untouched
      cases untouched (sameDocument.trans otherHere)
    · exact valid.single row wasIn other otherWasIn isActive otherActive sameDocument sameDomain
  · intro row isIn isActive other otherIn sameDocument sameDomain before
    obtain ⟨old, wasIn, oldDocument, ref, time⟩ | isNew := more.adds other otherIn
    · simp only [SlotPacket.ref, PacketRef.mk.injEq] at ref
      rw [← ref.2.2]
      obtain ⟨here, isTarget, -, reviewed, source, sourceIn, isSource⟩ | ⟨rowWasIn, -⟩ := written_active isIn isActive
      · simp only [SlotPacket.ref, PacketRef.mk.injEq] at isSource
        rw [← isSource.2.2]
        rw [← isSource.1, ← isSource.2.1] at isTarget
        exact target_recent valid isRead began fresh sourceIn isTarget wasIn
          (oldDocument.trans (sameDocument.trans here)) (ref.1.trans (sameDomain.trans isSource.1.symm)) (by omega)
      · exact valid.recent row rowWasIn isActive old wasIn (oldDocument.trans sameDocument) (ref.1.trans sameDomain)
          (by omega)
    · exfalso
      obtain ⟨-, -, -, reviewed, -⟩ | ⟨rowWasIn, -⟩ := written_active isIn isActive
      · omega
      · have reviewed := (valid.reviewed row rowWasIn).2
        omega

theorem written_sound {state : SlotState} (valid : PacketsValid clock state.packets)
    (isRead : snapshot.Valid clock state.packets documentId) (began : writes.Valid clock snapshot)
    (passed : Passed snapshot writes activeNow)
    (undisturbed : CommitUndisturbed state documentId snapshot writes activeNow) :
    Approved.Sound ⟨documentId, snapshot, writes, state.packets,
      written clock documentId snapshot writes activeNow state.packets⟩ := by
  constructor
  · intro row isIn isOf isActive
    obtain ⟨-, isTarget, -⟩ | ⟨wasIn, untouched⟩ := written_active isIn isActive
    · by_cases edited : row.domainId ∈ writes.edited
      · obtain ⟨shown, isShown, inDomain⟩ := began.shown row.domainId edited
        rw [target_edited edited] at isTarget
        exact ⟨shown, isShown, inDomain, Or.inr ⟨edited, (Option.some.inj isTarget).symm⟩⟩
      · obtain ⟨shown, isShown, inDomain, isPacket⟩ := target_unedited edited isTarget
        exact ⟨shown, isShown, inDomain, Or.inl isPacket.symm⟩
    · obtain ⟨unedited, shown, found, active, isActiveNow, inDomain, isPacket⟩ :=
        (target_none (undisturbed.shown row wasIn isOf isActive)).mp (untouched isOf)
      have again := undisturbed.unedited row wasIn isOf isActive unedited
      have same : row.extractionId = active.extractionId := passed.single row.ref again active isActiveNow inDomain.symm
      exact ⟨shown, List.mem_of_find?_eq_some found, by simpa using List.find?_some found,
        Or.inl (same.trans isPacket)⟩
  · intro row isIn isOf isActive later
    have shows := undisturbed.shown row isIn isOf isActive
    have unedited : row.domainId ∉ writes.edited := by
      intro edited
      have since := undisturbed.edited row isIn isOf isActive edited
      have reviewed := (valid.reviewed row isIn).1
      dsimp only at later
      omega
    have again := undisturbed.unedited row isIn isOf isActive unedited
    have untouched : target snapshot writes activeNow row.domainId = none := by
      obtain ⟨shown, found⟩ : ∃ shown, snapshot.domains.find? (·.domainId = row.domainId) = some shown := by
        rw [← Option.isSome_iff_exists, List.find?_isSome]
        simpa using shows
      have isShown := List.mem_of_find?_eq_some found
      have inDomain : shown.domainId = row.domainId := by simpa using List.find?_some found
      refine (target_none shows).mpr ⟨unedited, shown, found, row.ref, again, rfl, ?_⟩
      by_contra apart
      -- the check let an older packet pass, but a later review has seen the shown one too
      have older := passed.older shown isShown (inDomain ▸ unedited) row.ref again inDomain.symm apart
      obtain ⟨source, sourceIn, sourceOf, rfl, stored⟩ := isRead.shown shown isShown
      have recent := valid.recent row isIn isActive source sourceIn (sourceOf.trans isOf.symm) inDomain
        (Nat.le_trans stored (Nat.le_of_lt later))
      exact absurd older (Nat.not_lt.mpr recent)
    refine List.mem_map.mpr ⟨row, List.mem_append_left _ isIn, ?_⟩
    rw [switched, if_pos isOf, untouched]

end Written

section Steps
variable {state after : SlotState} {who : Nat}

theorem Inv.frame (inv : Inv state) (clock : after.clock = state.clock + 1) (packets : after.packets = state.packets)
    (active : after.activeDocument = state.activeDocument) (invalidated : after.invalidated = state.invalidated)
    (approvals : after.approvals = state.approvals) (sessions : ∀ who session, after.sessions who = some session →
      state.sessions who = some session ∨ session.phase.Valid (state.clock + 1) state.packets session.documentId) :
    Inv after where
  safe := ⟨fun documentId isActive => invalidated ▸ inv.safe.live documentId (active ▸ isActive),
    fun approved isIn => inv.safe.approvals approved (approvals ▸ isIn)⟩
  packets := by
    rw [clock, packets]
    exact inv.packets.tick
  sessions := by
    intro who session isSession
    rw [clock, packets]
    obtain was | valid := sessions who session isSession
    · exact (inv.sessions who session was).extend (Extends.refl _ _)
    · exact valid

theorem Inv.setPhase (inv : Inv state) {documentId : Nat} {phase : Phase}
    (valid : phase.Valid (state.clock + 1) state.packets documentId) : Inv (state.setPhase who documentId phase) := by
  refine inv.frame rfl rfl rfl rfl rfl fun other session isSession => ?_
  by_cases same : other = who
  · subst same
    rw [sessions_setPhase, Function.update_self] at isSession
    obtain rfl := Option.some.inj isSession
    exact Or.inr valid
  · rw [sessions_setPhase, Function.update_of_ne same] at isSession
    exact Or.inl isSession

theorem session_of_endSession {other : Nat} {session : Session}
    (isSession : (state.endSession who).sessions other = some session) : state.sessions other = some session := by
  by_cases same : other = who
  · subst same
    rw [sessions_endSession, Function.update_self] at isSession
    cases isSession
  · rwa [sessions_endSession, Function.update_of_ne same] at isSession

theorem Inv.endSession (inv : Inv state) : Inv (state.endSession who) :=
  inv.frame rfl rfl rfl rfl rfl fun _ _ isSession => Or.inl (session_of_endSession isSession)

theorem Inv.snapshot (inv : Inv state) (documentId : Nat) (isCandidate : Bool) :
    Snapshot.Valid (state.clock + 1) state.packets documentId
      ⟨isCandidate, state.clock, reviewDomains state.packets documentId⟩ := by
  have isNewest := newest_reviewDomains state.packets documentId
  refine ⟨Nat.lt_succ_self _, fun shown isShown => ?_, fun shown isShown row isIn isOf inDomain _ => ?_⟩
  · obtain ⟨row, isRow, rfl⟩ := List.mem_map.mp (isNewest.isSeen shown isShown)
    obtain ⟨isIn, isOf⟩ : row ∈ state.packets ∧ row.documentId = documentId := by simpa [packetsOf] using isRow
    exact ⟨row, isIn, isOf, rfl, Nat.le_of_lt (inv.packets.stored row isIn).2⟩
  · have isSeen : row.ref ∈ (packetsOf state.packets documentId).map SlotPacket.ref :=
      List.mem_map_of_mem (by simpa [packetsOf] using ⟨isIn, isOf⟩)
    exact isNewest.recent row.ref isSeen shown isShown inDomain.symm

theorem activeRefs_mem {packets : List SlotPacket} {documentId : Nat} {ref : PacketRef} :
    ref ∈ activeRefs packets documentId ↔
      ∃ row ∈ packets, row.documentId = documentId ∧ row.isActive = true ∧ row.ref = ref := by
  simp [activeRefs, packetsOf, and_assoc, and_left_comm]

theorem Inv.passed (inv : Inv state) {documentId : Nat} {snapshot : Snapshot} {writes : Writes}
    (agree : (snapshot.domains.any fun shown => !writes.edited.contains shown.domainId &&
      conflicts (activeRefs state.packets documentId) shown) = false) :
    Passed snapshot writes (activeRefs state.packets documentId) := by
  constructor
  · intro active isActive other otherIsActive sameDomain
    obtain ⟨row, isIn, isOf, rowActive, rfl⟩ := activeRefs_mem.mp isActive
    obtain ⟨otherRow, otherIn, otherOf, otherActive, rfl⟩ := activeRefs_mem.mp otherIsActive
    exact inv.packets.single row isIn otherRow otherIn rowActive otherActive (isOf.trans otherOf.symm) sameDomain
  · intro shown isShown unedited active isActive inDomain apart
    have fine := List.any_eq_false.mp agree shown isShown
    rw [Bool.and_eq_true, not_and, Bool.not_eq_true] at fine
    have none := List.any_eq_false.mp (fine (by simpa using unedited)) active isActive
    simpa [inDomain, apart] using none

theorem Inv.commit (inv : Inv state) {documentId : Nat} {snapshot : Snapshot} {writes : Writes}
    {activeNow : List PacketRef} (isSession : state.sessions who = some ⟨documentId, .checked snapshot writes activeNow⟩)
    (undisturbed : CommitUndisturbed state documentId snapshot writes activeNow)
    (fresh : ∀ row ∈ state.packets, writes.edited ≠ [] → row.extractionId ≠ writes.extractionId) :
    Inv ((state.approve documentId snapshot writes activeNow).endSession who) := by
  cases inv.sessions who _ isSession with
  | checked isRead began passed =>
    constructor
    · constructor
      · intro active isActive
        change (if snapshot.isCandidate = true then some documentId else state.activeDocument) = some active at isActive
        change active ∉ state.invalidated
        split at isActive
        case isTrue candidate => exact Option.some.inj isActive ▸ undisturbed.valid candidate
        case isFalse => exact inv.safe.live active isActive
      · intro approved isIn
        rcases List.mem_append.mp isIn with isIn | isNew
        · exact inv.safe.approvals approved isIn
        · rw [List.mem_singleton.mp isNew]
          exact written_sound inv.packets isRead began passed undisturbed
    · exact written_valid inv.packets isRead began fresh
    · intro other session isOther
      exact (inv.sessions other session (session_of_endSession isOther)).extend written_extends

theorem Inv.rejected (inv : Inv state) {documentId : Nat} {isCandidate : Bool}
    (isRejected : state.rejected documentId isCandidate = some after)
    (other : isCandidate = true → state.activeDocument ≠ some documentId) : Inv (after.endSession who) := by
  refine Inv.endSession ?_
  unfold SlotState.rejected at isRejected
  split at isRejected
  case isTrue candidate =>
    split at isRejected
    · cases isRejected
    · obtain rfl := Option.some.inj isRejected
      refine ⟨⟨fun active isActive isIn => ?_, inv.safe.approvals⟩, inv.packets, inv.sessions⟩
      rcases List.mem_cons.mp isIn with rfl | was
      · exact other candidate isActive
      · exact inv.safe.live active isActive was
  case isFalse =>
    obtain rfl := Option.some.inj isRejected
    exact ⟨⟨inv.safe.live, inv.safe.approvals⟩, inv.packets, inv.sessions⟩

theorem fresh_of_commit {writes : Writes}
    (allowed : ¬(!writes.edited.isEmpty && state.extractionIds.contains writes.extractionId) = true) :
    ∀ row ∈ state.packets, writes.edited ≠ [] → row.extractionId ≠ writes.extractionId := by
  intro row isIn edited same
  apply allowed
  have known : writes.extractionId ∈ state.extractionIds :=
    List.mem_append_right _ (List.mem_map.mpr ⟨row, isIn, same⟩)
  simpa [known] using edited

theorem step_inv {action : Action} (inv : Inv state) (undisturbed : Undisturbed state action)
    (stepped : step state action = some after) : Inv after := by
  have unchanged : ∀ who session, state.sessions who = some session → state.sessions who = some session ∨
      session.phase.Valid (state.clock + 1) state.packets session.documentId := fun _ _ isSession => Or.inl isSession
  cases action with
  | openDocument who documentId =>
    simp only [step] at stepped
    split at stepped
    · exact Option.some.inj stepped ▸ inv.setPhase (.opened _ _)
    · cases stepped
  | readPackets who =>
    simp only [step] at stepped
    split at stepped
    · exact Option.some.inj stepped ▸ inv.setPhase (.reviewed _ (inv.snapshot _ _))
    · cases stepped
  | requireReviewable who =>
    simp only [step] at stepped
    split at stepped
    · rename_i documentId snapshot isActive isSession
      split at stepped
      · cases (inv.sessions who _ isSession).extend (Extends.refl _ _) with
        | reviewed _ isRead => exact Option.some.inj stepped ▸ inv.setPhase (.admitted isRead)
      · cases stepped
    · cases stepped
  | beginWrites who edited extractionId =>
    simp only [step] at stepped
    split at stepped
    · rename_i documentId snapshot isSession
      split at stepped
      · rename_i allowed
        cases inv.sessions who _ isSession with
        | admitted isRead =>
          have shown : ∀ domainId ∈ edited, ∃ shown ∈ snapshot.domains, shown.domainId = domainId := by
            rw [Bool.and_eq_true] at allowed
            simpa using allowed.1
          exact Option.some.inj stepped ▸ inv.setPhase
            (.writing (isRead.extend (Extends.refl _ _)) ⟨isRead.isRead, Nat.lt_succ_self _, shown⟩)
      · cases stepped
    · cases stepped
  | recheck who =>
    simp only [step] at stepped
    split at stepped
    · rename_i documentId snapshot writes isSession
      split at stepped
      · cases stepped
      · rename_i agree
        rw [Bool.not_eq_true] at agree
        cases (inv.sessions who _ isSession).extend (Extends.refl _ _) with
        | writing isRead began =>
          exact Option.some.inj stepped ▸ inv.setPhase (.checked isRead began (inv.passed agree))
    · cases stepped
  | commit who =>
    simp only [step] at stepped
    split at stepped
    · rename_i documentId snapshot writes activeNow isSession
      split at stepped
      · cases stepped
      · rename_i allowed
        exact Option.some.inj stepped ▸
          inv.commit isSession (undisturbed _ _ _ _ isSession) (fresh_of_commit allowed)
    · cases stepped
  | reject who =>
    simp only [step] at stepped
    split at stepped
    · rename_i documentId snapshot isSession
      obtain ⟨rejected, isRejected, rfl⟩ := Option.map_eq_some_iff.mp stepped
      exact inv.rejected isRejected (undisturbed _ _ isSession)
    · cases stepped
  | abandon who => exact Option.some.inj stepped ▸ inv.endSession
  | queue extraction =>
    simp only [step] at stepped
    split at stepped
    · cases stepped
    · exact Option.some.inj stepped ▸ inv.frame rfl rfl rfl rfl rfl unchanged
  | storePacket extraction domainId createdAt =>
    simp only [step] at stepped
    split at stepped
    · rename_i allowed
      simp only [Bool.and_eq_true, Bool.not_eq_true', decide_eq_true_eq, List.any_eq_false] at allowed
      obtain rfl := Option.some.inj stepped
      refine ⟨⟨inv.safe.live, inv.safe.approvals⟩, inv.packets.store allowed.2 rfl rfl rfl ?_, fun who session isSession => ?_⟩
      · simpa using allowed.1.2
      · refine (inv.sessions who session isSession).extend ⟨fun row isIn => ?_, fun row isIn => ?_⟩
        · exact ⟨row, List.mem_append_left _ isIn, rfl, rfl, rfl⟩
        · rcases List.mem_append.mp isIn with wasIn | isNew
          · exact Or.inl ⟨row, wasIn, rfl, rfl, rfl⟩
          · exact Or.inr (List.mem_singleton.mp isNew ▸ rfl)
    · cases stepped
  | complete extraction =>
    simp only [step] at stepped
    split at stepped
    · exact Option.some.inj stepped ▸ inv.frame rfl rfl rfl rfl rfl unchanged
    · cases stepped
  | insertDocument documentId =>
    simp only [step] at stepped
    split at stepped
    · cases stepped
    · exact Option.some.inj stepped ▸ inv.frame rfl rfl rfl rfl rfl unchanged
  | setCandidate documentId =>
    simp only [step] at stepped
    split at stepped
    · exact Option.some.inj stepped ▸ inv.frame rfl rfl rfl rfl rfl unchanged
    · cases stepped

end Steps

theorem Inv.initial : Inv .initial where
  safe := ⟨by simp [SlotState.initial], by simp [SlotState.initial]⟩
  packets := ⟨by simp [SlotState.initial], by simp [SlotState.initial], by simp [SlotState.initial],
    by simp [SlotState.initial], by simp [SlotState.initial]⟩
  sessions := by simp [SlotState.initial]

/-- **Approvals of what was seen.** In a run whose approvals and rejections are not
disturbed, every approval leaves active what its review shows and keeps what a later review
activated, and the active document is never an invalidated one. -/
theorem run_safe {actions : List Action} {state : SlotState} (path : run step .initial actions = some state)
    (undisturbed : Meets step Undisturbed .initial actions) : state.Safe :=
  (invariant_of_meets step_inv Inv.initial path undisturbed).safe

/-- A candidate with one packet, which both reviewers have read. -/
def bothReviewed : List Action :=
  [.insertDocument 1, .setCandidate 1, .queue ⟨"model", 1, false⟩, .storePacket ⟨"model", 1, false⟩ "aid" 2,
    .openDocument 1 1, .openDocument 2 1, .readPackets 1, .readPackets 2, .requireReviewable 1, .requireReviewable 2]

def approves (who : Nat) (edited : List String) (extractionId : String) : List Action :=
  [.beginWrites who edited extractionId, .recheck who, .commit who]

/-- One approves an edit, and the other gives up. -/
theorem run_safe_one : ∃ state, run step .initial (bothReviewed ++ approves 2 ["aid"] "human") = some state ∧
    state.approvals.length = 1 ∧ state.Safe := by
  have ends : ((run step .initial (bothReviewed ++ approves 2 ["aid"] "human")).map fun state =>
      state.approvals.length) = some 1 := by decide +kernel
  obtain ⟨state, path, one⟩ := Option.map_eq_some_iff.mp ends
  exact ⟨state, path, one, run_safe path (by decide +kernel)⟩

/-- Both approve an edit of the domain: the later review's packet is replaced without a
word. Or one approves and the other rejects: the active document is invalidated. -/
theorem concurrent_reviews_unsafe :
    (∃ state, run step .initial (bothReviewed ++ approves 2 ["aid"] "second" ++ approves 1 ["aid"] "first") = some state ∧
      ¬ state.Safe) ∧
    ∃ state, run step .initial (bothReviewed ++ approves 1 [] "" ++ [.reject 2]) = some state ∧
      state.activeDocument = some 1 ∧ 1 ∈ state.invalidated ∧ ¬ state.Safe := by
  constructor
  · have ends : (run step .initial (bothReviewed ++ approves 2 ["aid"] "second" ++ approves 1 ["aid"] "first")).any
        (fun state => state.approvals.any fun approved => approved.before.any fun row =>
          row.documentId = approved.documentId && row.isActive && approved.snapshot.readAt < row.reviewedAt &&
            !approved.after.contains row) = true := by decide +kernel
    obtain ⟨state, path, lost⟩ := (Option.any_eq_true _ _).mp ends
    refine ⟨state, path, fun safe => ?_⟩
    simp only [List.any_eq_true, Bool.and_eq_true, decide_eq_true_eq, Bool.not_eq_true'] at lost
    obtain ⟨approved, isIn, row, isRow, ⟨⟨isOf, isActive⟩, later⟩, gone⟩ := lost
    have kept := (safe.approvals approved isIn).kept row isRow isOf isActive later
    rw [List.contains_iff_mem.mpr kept] at gone
    cases gone
  · have ends : (run step .initial (bothReviewed ++ approves 1 [] "" ++ [.reject 2])).any
        (fun state => state.activeDocument = some 1 && state.invalidated.contains 1) = true := by decide +kernel
    obtain ⟨state, path, found⟩ := (Option.any_eq_true _ _).mp ends
    simp only [Bool.and_eq_true, decide_eq_true_eq, List.contains_iff_mem] at found
    exact ⟨state, path, found.1, found.2, fun safe => safe.live 1 found.1 found.2⟩

end Counselle.Cds.Slot

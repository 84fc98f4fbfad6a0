import Counselle.Cds.Approved
import Counselle.Cds.Corrections

/-! What becomes of a saved correction, over every order in which saves, approvals,
rejections and reruns cross. -/
namespace Counselle.Cds.Corrections
open Review Transition

def inert (stored : StoredPacket) : StoredPacket := { stored with isActive := false }

theorem of_inert {stored other : StoredPacket} (same : inert stored = inert other) :
    stored.extractionId = other.extractionId ∧ stored.domainId = other.domainId ∧ stored.packet = other.packet ∧
      stored.createdAt = other.createdAt := by
  simp only [inert, StoredPacket.mk.injEq] at same
  exact ⟨same.1, same.2.1, same.2.2.1, same.2.2.2.2.1⟩

theorem newer_inert (best : Option StoredPacket) (stored : StoredPacket) :
    newer (best.map inert) (inert stored) = (newer best stored).map inert := by
  cases best with
  | none => rfl
  | some old =>
    rw [Option.map_some, newer, newer]
    split
    case isTrue later =>
      rw [if_pos (by exact later)]
      rfl
    case isFalse earlier =>
      rw [if_neg (by exact earlier)]
      rfl

theorem foldl_newer_inert (best : Option StoredPacket) (packets : List StoredPacket) :
    (packets.map inert).foldl newer (best.map inert) = (packets.foldl newer best).map inert := by
  induction packets generalizing best with
  | nil => rfl
  | cons first rest ih => rw [List.map_cons, List.foldl_cons, List.foldl_cons, newer_inert, ih]

theorem mostRecent_inert (packets : List StoredPacket) (domainId : String) :
    mostRecent (packets.map inert) domainId = (mostRecent packets domainId).map inert := by
  have filtered : (packets.map inert).filter (·.domainId = domainId) =
      (packets.filter (·.domainId = domainId)).map inert := by
    rw [List.filter_map]
    rfl
  rw [mostRecent, filtered]
  exact foldl_newer_inert none _

theorem foldl_newer_some {best stored : StoredPacket} {packets : List StoredPacket}
    (isNewest : packets.foldl newer (some best) = some stored) :
    stored = best ∨ stored ∈ packets ∧ best.createdAt < stored.createdAt := by
  induction packets generalizing best with
  | nil => exact Or.inl (Option.some.inj isNewest).symm
  | cons first rest ih =>
    rw [List.foldl_cons, newer] at isNewest
    split at isNewest
    case isTrue later =>
      obtain rfl | ⟨isIn, after⟩ := ih isNewest
      · exact Or.inr ⟨List.mem_cons_self, later⟩
      · exact Or.inr ⟨List.mem_cons_of_mem _ isIn, lt_trans later after⟩
    case isFalse =>
      obtain same | ⟨isIn, after⟩ := ih isNewest
      · exact Or.inl same
      · exact Or.inr ⟨List.mem_cons_of_mem _ isIn, after⟩

theorem foldl_newer_isSome {best : StoredPacket} (packets : List StoredPacket) :
    ∃ stored, packets.foldl newer (some best) = some stored := by
  induction packets generalizing best with
  | nil => exact ⟨best, rfl⟩
  | cons first rest ih =>
    rw [List.foldl_cons, newer]
    split <;> exact ih

theorem mostRecent_append (packets later : List StoredPacket) (domainId : String) {best : StoredPacket}
    (isRecent : mostRecent packets domainId = some best) :
    ∃ stored, mostRecent (packets ++ later) domainId = some stored ∧
      (stored = best ∨ stored ∈ later ∧ stored.domainId = domainId ∧ best.createdAt < stored.createdAt) := by
  obtain ⟨stored, isNewest⟩ := @foldl_newer_isSome best (later.filter (·.domainId = domainId))
  have same : mostRecent (packets ++ later) domainId = some stored := by
    rw [mostRecent, List.filter_append, List.foldl_append, ← mostRecent, isRecent, isNewest]
  refine ⟨stored, same, ?_⟩
  obtain rfl | ⟨isIn, after⟩ := foldl_newer_some isNewest
  · exact Or.inl rfl
  · have isIn : stored ∈ later ∧ stored.domainId = domainId := by simpa using isIn
    exact Or.inr ⟨isIn.1, isIn.2, after⟩

theorem summaryOf_reviewDomains (packets : List StoredPacket) (domainId : String) :
    summaryOf (reviewDomains packets) domainId = mostRecent packets domainId := by
  cases isRecent : mostRecent packets domainId with
  | some stored =>
    obtain ⟨isIn, rfl⟩ := mostRecent_domain isRecent
    exact summaryOf_mem (List.mem_filterMap.mpr
      ⟨stored.domainId, List.mem_dedup.mpr (List.mem_map_of_mem isIn), isRecent⟩)
  | none =>
    rw [summaryOf, List.find?_eq_none]
    intro stored isIn same
    obtain ⟨id, -, isStored⟩ := List.mem_filterMap.mp isIn
    rw [← (mostRecent_domain isStored).2, of_decide_eq_true same, isRecent] at isStored
    cases isStored

theorem isCurrent_reviewDomains (packets : List StoredPacket) (row : SavedRow) :
    isCurrent (reviewDomains packets) row =
      (mostRecent packets row.edit.domainId).any (·.extractionId = row.edit.baseExtractionId) := by
  rw [isCurrent, summaryOf_reviewDomains]

theorem isCurrent_inert {packets others : List StoredPacket} (same : packets.map inert = others.map inert)
    (row : SavedRow) : isCurrent (reviewDomains packets) row = isCurrent (reviewDomains others) row := by
  have recent := congrArg (mostRecent · row.edit.domainId) same
  simp only [mostRecent_inert] at recent
  rw [isCurrent_reviewDomains, isCurrent_reviewDomains]
  cases here : mostRecent packets row.edit.domainId <;> cases there : mostRecent others row.edit.domainId
  · rfl
  · rw [here, there] at recent
    cases recent
  · rw [here, there] at recent
    cases recent
  · rw [here, there] at recent
    simp [(of_inert (Option.some.inj recent)).1]

theorem activatePacket_inert {packets after : List StoredPacket} {extractionId domainId : String}
    (activated : activatePacket packets extractionId domainId = .ok after) : after.map inert = packets.map inert := by
  obtain ⟨-, rfl⟩ := activatePacket_ok activated
  rw [List.map_map]
  apply List.map_congr_left
  intro stored _
  rw [Function.comp_apply]
  split <;> rfl

theorem writes_inert {env : ReviewEnv} {call : Approval} {edited : List EditedPacket} {packets after : List StoredPacket}
    (written : edited.foldlM (writeEditedPacket env call) packets = .ok after) :
    after.map inert = packets.map inert ++ edited.map (·.stored call false) := by
  induction edited generalizing packets with
  | nil =>
    cases written
    simp
  | cons first rest ih =>
    rw [List.foldlM_cons] at written
    obtain ⟨middle, here, later⟩ := Fallible.bind_ok_iff.mp written
    rw [ih later, activatePacket_inert (writeEditedPacket_ok here), List.map_append, List.append_assoc]
    rfl

theorem activateUntouched_inert {activeNow packets after : List StoredPacket} {skip : List String}
    {summary : StoredPacket} (activated : activateUntouched activeNow skip packets summary = .ok after) :
    after.map inert = packets.map inert := by
  unfold activateUntouched at activated
  split at activated
  · exact Except.ok.inj activated ▸ rfl
  · split at activated
    · exact activatePacket_inert activated
    · split at activated
      · exact Except.ok.inj activated ▸ rfl
      · split at activated
        · cases activated
        · exact activatePacket_inert activated

theorem untouched_inert {activeNow packets after domains : List StoredPacket} {skip : List String}
    (activated : domains.foldlM (activateUntouched activeNow skip) packets = .ok after) :
    after.map inert = packets.map inert :=
  foldlM_keeps (P := fun others => others.map inert = packets.map inert)
    (fun same activated => (activateUntouched_inert activated).trans same) rfl activated

theorem commitWrites_ok {env : ReviewEnv} {call : Approval} {domains packets after : List StoredPacket}
    {current : List PendingEdit} {extractions : List String}
    (committed : commitWrites env call domains current extractions packets = .ok after) :
    (current = [] ∧ after.map inert = packets.map inert) ∨
      current ≠ [] ∧ ∃ edited written, prepareEditedPackets env call domains current = .ok edited ∧
        writeEditedPackets env call extractions packets edited = .ok written ∧
        domains.foldlM (activateUntouched written (edited.map (·.domainId))) written = .ok after ∧
        call.extractionId ∉ extractions ∧
        after.map inert = packets.map inert ++ edited.map (·.stored call false) := by
  obtain ⟨⟨written, skip⟩, writes, activated⟩ := Fallible.bind_ok_iff.mp committed
  unfold storeEdited at writes
  split at writes
  case isTrue none =>
    cases writes
    exact Or.inl ⟨List.isEmpty_iff.mp none, untouched_inert activated⟩
  case isFalse some =>
    obtain ⟨edited, prepared, writes⟩ := Fallible.bind_ok_iff.mp writes
    obtain ⟨packets, stored, writes⟩ := Fallible.bind_ok_iff.mp writes
    cases writes
    refine Or.inr ⟨by simpa using some, edited, written, prepared, stored, activated, ?_, ?_⟩
    all_goals obtain ⟨notKnown, isWritten⟩ := Fallible.guard_ok_iff.mp stored
    · simpa using notKnown
    · rw [untouched_inert activated, writes_inert isWritten]

def CorrectionState.lastWrite (state : CorrectionState) (ref : String) : Option SavedRow :=
  state.writes.reverse.find? (·.metricRef = ref)

/-- The approval built the packet that it left active from the packet that the edit was
written against, with the edit. -/
def Built.Applies (built : Built) (row : SavedRow) : Prop :=
  ∃ summary edited, summaryOf (reviewDomains built.read) row.edit.domainId = some summary ∧
    summary.extractionId = row.edit.baseExtractionId ∧
    prepareDomain built.env built.call (reviewDomains built.read) (built.rows.map (·.edit)) row.edit.domainId =
      .ok edited ∧
    activeOf built.after row.edit.domainId = some (edited.stored built.call true)

/-- The edit is in an approved packet, was replaced by a later save of its ref, is shown as
pending, or was discarded by a rejection. -/
inductive AccountedFor (state : CorrectionState) (row : SavedRow) : Prop where
  | contained {built : Built} : built ∈ state.built → row ∈ built.rows → AccountedFor state row
  | replaced {later : SavedRow} : state.lastWrite row.metricRef = some later → later ≠ row → AccountedFor state row
  | pending : row ∈ state.pending → isCurrent (reviewDomains state.packets) row = true →
      showsPending (reviewDomains state.packets) state.pending row.metricRef = true → AccountedFor state row
  | discarded : row ∈ state.discarded → AccountedFor state row

/-- A packet that was stored after the first ones is more recent than the one that the edit
was written against. -/
def Superseded (state : CorrectionState) (known : Nat) (row : SavedRow) : Prop :=
  ∃ base ∈ state.packets, base.extractionId = row.edit.baseExtractionId ∧ base.domainId = row.edit.domainId ∧
    ∃ later ∈ state.packets.drop known, later.domainId = row.edit.domainId ∧ base.createdAt < later.createdAt

/-- An approval deleted the row whose review showed another packet of the domain. -/
def Swept (state : CorrectionState) (row : SavedRow) : Prop :=
  ∃ read, (row, read) ∈ state.swept ∧ isCurrent (reviewDomains read) row = false

structure Kept (state : CorrectionState) : Prop where
  saved : ∀ saved ∈ state.saved, ∀ row ∈ saved.rows,
    AccountedFor state row ∨ Superseded state saved.known row ∨ Swept state row
  applied : ∀ built ∈ state.built, ∀ row ∈ built.rows, built.Applies row

def packetKey (stored : StoredPacket) : String × String := (stored.extractionId, stored.domainId)

/-- The row that a write left, of those of its ref at its time. -/
def Final (writes : List SavedRow) (row : SavedRow) : Prop :=
  (writes.reverse.find? fun other => other.metricRef = row.metricRef && other.editedAt = row.editedAt) = some row

def Contained (state : CorrectionState) (row : SavedRow) : Prop := ∃ built ∈ state.built, row ∈ built.rows

def Settled (state : CorrectionState) (row : SavedRow) : Prop :=
  Contained state row ∨ row ∈ state.discarded ∨ Swept state row

def Known (state : CorrectionState) (read : List StoredPacket) : Prop := read.map inert <+: state.packets.map inert

inductive Phase.Valid (state : CorrectionState) : Phase → Prop where
  | saving {read : List StoredPacket} (edits : List MetricEdit) : Known state read → Valid state (.saving read edits)
  | wrote {rows : List SavedRow} : (∀ row ∈ rows, row ∈ state.writes) → Valid state (.wrote rows)
  | readBack {rows : List SavedRow} {read : List StoredPacket} : (∀ row ∈ rows, row ∈ state.writes) →
      Known state read → Valid state (.readBack rows read)
  | approving {read : List StoredPacket} : Known state read → Valid state (.approving read)
  | preparing {read : List StoredPacket} {rows : List SavedRow} : Known state read →
      (∀ row ∈ rows, Final state.writes row) → Valid state (.preparing read rows)
  | approved {read : List StoredPacket} {rows : List SavedRow} : (∀ row ∈ rows, Final state.writes row) →
      (∀ row ∈ rows, isCurrent (reviewDomains read) row = true → Contained state row) → Valid state (.approved read rows)
  | rejecting : Valid state .rejecting
  | rejected : Valid state .rejected

structure Saved.Valid (state : CorrectionState) (saved : Saved) : Prop where
  known : saved.known ≤ state.packets.length
  written : ∀ row ∈ saved.rows, row ∈ state.writes
  kept : ∀ row ∈ saved.rows, state.lastWrite row.metricRef ≠ some row ∨ Settled state row ∨
    isCurrent (reviewDomains (state.packets.take saved.known)) row = true

structure Inv (state : CorrectionState) : Prop where
  distinct : (state.pending.map SavedRow.metricRef).Nodup
  keyed : (state.packets.map packetKey).Nodup
  owned : ∀ stored ∈ state.packets, stored.extractionId ∈ state.extractions
  times : ∀ row ∈ state.writes, row.editedAt < state.clock
  final : ∀ row ∈ state.pending, Final state.writes row
  sources : ∀ row ∈ state.writes, ∃ stored ∈ state.packets, stored.extractionId = row.edit.baseExtractionId ∧
    stored.domainId = row.edit.domainId ∧ stored.packet.metrics.any (·.1 = row.metricRef) = true
  last : ∀ row, state.lastWrite row.metricRef = some row → row ∈ state.pending ∨ Settled state row
  sessions : ∀ who phase, state.sessions who = some phase → phase.Valid state
  saved : ∀ saved ∈ state.saved, saved.Valid state
  applied : ∀ built ∈ state.built, ∀ row ∈ built.rows, built.Applies row

structure Grows (state after : CorrectionState) : Prop where
  clock : state.clock < after.clock
  packets : state.packets.map inert <+: after.packets.map inert
  writes : ∃ more, after.writes = state.writes ++ more ∧ ∀ row ∈ more, row.editedAt = state.clock
  built : ∀ built ∈ state.built, built ∈ after.built
  swept : ∀ row ∈ state.swept, row ∈ after.swept
  discarded : ∀ row ∈ state.discarded, row ∈ after.discarded

section Growth
variable {state after : CorrectionState} {row : SavedRow}

theorem Settled.grows (settled : Settled state row) (grows : Grows state after) : Settled after row := by
  obtain ⟨built, isBuilt, isIn⟩ | isIn | ⟨read, isIn, other⟩ := settled
  · exact Or.inl ⟨built, grows.built built isBuilt, isIn⟩
  · exact Or.inr (Or.inl (grows.discarded row isIn))
  · exact Or.inr (Or.inr ⟨read, grows.swept _ isIn, other⟩)

theorem Known.grows {read : List StoredPacket} (known : Known state read) (grows : Grows state after) :
    Known after read := known.trans grows.packets

theorem Grows.mem_writes (grows : Grows state after) (isIn : row ∈ state.writes) : row ∈ after.writes := by
  obtain ⟨more, same, -⟩ := grows.writes
  rw [same]
  exact List.mem_append_left _ isIn

theorem Final.mem {writes : List SavedRow} (final : Final writes row) : row ∈ writes :=
  List.mem_reverse.mp (List.mem_of_find?_eq_some final)

theorem Final.grows (final : Final state.writes row) (times : ∀ row ∈ state.writes, row.editedAt < state.clock)
    (grows : Grows state after) : Final after.writes row := by
  obtain ⟨more, same, now⟩ := grows.writes
  have before := times row final.mem
  rw [Final, same, List.reverse_append, List.find?_append]
  have none : more.reverse.find? (fun other => other.metricRef = row.metricRef && other.editedAt = row.editedAt) =
      none := by
    rw [List.find?_eq_none]
    intro other isIn same
    simp only [Bool.and_eq_true, decide_eq_true_eq] at same
    have time := now other (List.mem_reverse.mp isIn)
    omega
  rw [none, Option.none_or]
  exact final

theorem lastWrite_grows (isIn : row ∈ state.writes) (times : ∀ row ∈ state.writes, row.editedAt < state.clock)
    (grows : Grows state after) (last : after.lastWrite row.metricRef = some row) :
    state.lastWrite row.metricRef = some row := by
  obtain ⟨more, same, now⟩ := grows.writes
  have before := times row isIn
  rw [CorrectionState.lastWrite, same, List.reverse_append, List.find?_append] at last
  cases found : more.reverse.find? (·.metricRef = row.metricRef) with
  | none =>
    rw [found, Option.none_or] at last
    exact last
  | some later =>
    rw [found, Option.some_or] at last
    obtain rfl := Option.some.inj last
    have time := now later (List.mem_reverse.mp (List.mem_of_find?_eq_some found))
    omega

theorem take_inert (grows : Grows state after) {known : Nat} (some : known ≤ state.packets.length) :
    (after.packets.take known).map inert = (state.packets.take known).map inert := by
  obtain ⟨more, same⟩ := grows.packets
  rw [List.map_take, List.map_take, ← same, List.take_append_of_le_length]
  simpa using some

theorem Phase.Valid.grows {phase : Phase} (valid : phase.Valid state)
    (times : ∀ row ∈ state.writes, row.editedAt < state.clock) (grows : Grows state after) : phase.Valid after := by
  cases valid with
  | saving edits known => exact .saving edits (known.grows grows)
  | wrote written => exact .wrote fun row isIn => grows.mem_writes (written row isIn)
  | readBack written known => exact .readBack (fun row isIn => grows.mem_writes (written row isIn)) (known.grows grows)
  | approving known => exact .approving (known.grows grows)
  | preparing known final => exact .preparing (known.grows grows) fun row isIn => (final row isIn).grows times grows
  | approved final contained =>
    refine .approved (fun row isIn => (final row isIn).grows times grows) fun row isIn isCurrent => ?_
    obtain ⟨built, isBuilt, isRow⟩ := contained row isIn isCurrent
    exact ⟨built, grows.built built isBuilt, isRow⟩
  | rejecting => exact .rejecting
  | rejected => exact .rejected

theorem Saved.Valid.grows {saved : Saved} (valid : saved.Valid state)
    (times : ∀ row ∈ state.writes, row.editedAt < state.clock) (grows : Grows state after) : saved.Valid after := by
  refine ⟨?_, fun row isIn => grows.mem_writes (valid.written row isIn), fun row isIn => ?_⟩
  · have longer := grows.packets.length_le
    simp only [List.length_map] at longer
    exact valid.known.trans longer
  · obtain replaced | settled | current := valid.kept row isIn
    · exact Or.inl fun last => replaced (lastWrite_grows (valid.written row isIn) times grows last)
    · exact Or.inr (Or.inl (settled.grows grows))
    · refine Or.inr (Or.inr ?_)
      rw [isCurrent_inert (take_inert grows valid.known)]
      exact current

end Growth

section Steps
variable {state after : CorrectionState} {who : Nat}

theorem Inv.frame (inv : Inv state) (clock : after.clock = state.clock + 1) (packets : after.packets = state.packets)
    (extractions : after.extractions = state.extractions) (pending : after.pending = state.pending)
    (writes : after.writes = state.writes) (built : after.built = state.built) (swept : after.swept = state.swept)
    (discarded : after.discarded = state.discarded)
    (sessions : ∀ who phase, after.sessions who = some phase → state.sessions who = some phase ∨ phase.Valid state)
    (saved : ∀ saved ∈ after.saved, saved ∈ state.saved ∨ saved.Valid state) : Inv after := by
  have grows : Grows state after := by
    refine ⟨by omega, by rw [packets], ⟨[], by rw [writes, List.append_nil], by simp⟩, ?_, ?_, ?_⟩
    · exact fun _ isIn => built ▸ isIn
    · exact fun _ isIn => swept ▸ isIn
    · exact fun _ isIn => discarded ▸ isIn
  constructor
  · exact pending ▸ inv.distinct
  · exact packets ▸ inv.keyed
  · rw [packets, extractions]
    exact inv.owned
  · intro row isIn
    have before := inv.times row (writes ▸ isIn)
    omega
  · rw [pending, writes]
    exact inv.final
  · rw [packets, writes]
    exact inv.sources
  · intro row last
    rw [CorrectionState.lastWrite, writes] at last
    rw [pending]
    exact (inv.last row last).imp_right fun settled => settled.grows grows
  · intro who phase isPhase
    obtain was | valid := sessions who phase isPhase
    · exact (inv.sessions who phase was).grows inv.times grows
    · exact valid.grows inv.times grows
  · intro entry isIn
    obtain was | valid := saved entry isIn
    · exact (inv.saved entry was).grows inv.times grows
    · exact valid.grows inv.times grows
  · exact built ▸ inv.applied

theorem sessions_setPhase {phase other : Phase} {id : Nat} {Q : Phase → Prop} (here : Q phase)
    (isPhase : (state.setPhase who phase).sessions id = some other) : state.sessions id = some other ∨ Q other := by
  change Function.update state.sessions who (some phase) id = some other at isPhase
  by_cases same : id = who
  · subst same
    rw [Function.update_self] at isPhase
    exact Or.inr (Option.some.inj isPhase ▸ here)
  · rw [Function.update_of_ne same] at isPhase
    exact Or.inl isPhase

theorem sessions_endSession {other : Phase} {id : Nat} (isPhase : (state.endSession who).sessions id = some other) :
    state.sessions id = some other := by
  change Function.update state.sessions who none id = some other at isPhase
  by_cases same : id = who
  · subst same
    rw [Function.update_self] at isPhase
    cases isPhase
  · rwa [Function.update_of_ne same] at isPhase

theorem Inv.setPhase (inv : Inv state) {phase : Phase} (valid : phase.Valid state) : Inv (state.setPhase who phase) :=
  inv.frame rfl rfl rfl rfl rfl rfl rfl rfl (fun _ _ => sessions_setPhase valid) fun _ => Or.inl

theorem Inv.openSession (inv : Inv state) {phase : Phase} (valid : phase.Valid state) : Inv (state.openSession phase) :=
  inv.frame rfl rfl rfl rfl rfl rfl rfl rfl (fun _ _ isPhase => sessions_setPhase valid isPhase) fun _ => Or.inl

theorem Inv.endSession (inv : Inv state) : Inv (state.endSession who) :=
  inv.frame rfl rfl rfl rfl rfl rfl rfl rfl (fun _ _ isPhase => Or.inl (sessions_endSession isPhase)) fun _ => Or.inl

theorem Known.refl (state : CorrectionState) : Known state state.packets := List.prefix_rfl

theorem rowOf_some {domains : List StoredPacket} {clock : Nat} {edit : MetricEdit} {row : SavedRow}
    (isRow : rowOf domains clock edit = some row) : row.editedAt = clock ∧ ∃ domain ∈ domains,
      row.edit.baseExtractionId = domain.extractionId ∧ row.edit.domainId = domain.domainId ∧
        domain.packet.metrics.any (·.1 = row.metricRef) = true := by
  obtain ⟨domain, found, rfl⟩ := Option.map_eq_some_iff.mp isRow
  have shows : domain.packet.metrics.any (·.1 = edit.metricRef) = true := by simpa using List.find?_some found
  exact ⟨rfl, domain, List.mem_reverse.mp (List.mem_of_find?_eq_some found), rfl, rfl, shows⟩

theorem rows_of_edits {domains : List StoredPacket} {clock : Nat} {edits : List MetricEdit} {rows : List SavedRow}
    (areRows : edits.mapM (rowOf domains clock) = some rows) : ∀ row ∈ rows, row.editedAt = clock ∧
      ∃ domain ∈ domains, row.edit.baseExtractionId = domain.extractionId ∧ row.edit.domainId = domain.domainId ∧
        domain.packet.metrics.any (·.1 = row.metricRef) = true := by
  have pairs := Fallible.mapM_some_iff.mp areRows
  clear areRows
  induction pairs with
  | nil => simp
  | cons isRow _ ih =>
    intro other isIn
    rcases List.mem_cons.mp isIn with rfl | isIn
    · exact rowOf_some isRow
    · exact ih other isIn

theorem mem_reviewDomains {packets : List StoredPacket} {stored : StoredPacket}
    (isIn : stored ∈ reviewDomains packets) : stored ∈ packets := by
  obtain ⟨id, -, isRecent⟩ := List.mem_filterMap.mp isIn
  exact (mostRecent_domain isRecent).1

theorem still_mem {read packets : List StoredPacket} (more : read.map inert <+: packets.map inert)
    {stored : StoredPacket} (isIn : stored ∈ read) : ∃ now ∈ packets, inert now = inert stored := by
  have isNow := more.subset (List.mem_map_of_mem isIn)
  exact List.mem_map.mp isNow

theorem find?_and_time {rows : List SavedRow} {clock : Nat} (now : ∀ row ∈ rows, row.editedAt = clock) (ref : String) :
    (rows.find? fun other => other.metricRef = ref && other.editedAt = clock) = rows.find? (·.metricRef = ref) := by
  induction rows with
  | nil => rfl
  | cons first rest ih =>
    rw [List.find?_cons, List.find?_cons, now first List.mem_cons_self, ih fun row isIn => now row
      (List.mem_cons_of_mem _ isIn)]
    simp

theorem Inv.writeEdits (inv : Inv state) {read : List StoredPacket} {edits : List MetricEdit} {rows : List SavedRow}
    (known : Known state read) (areRows : edits.mapM (rowOf (reviewDomains read) state.clock) = some rows) :
    Inv { state.setPhase who (.wrote rows) with
      pending := rows.foldl (Upsert.insertKey SavedRow.metricRef) state.pending
      writes := state.writes ++ rows } := by
  have isRow := rows_of_edits areRows
  have now : ∀ row ∈ rows, row.editedAt = state.clock := fun row isIn => (isRow row isIn).1
  have grows : Grows state { state.setPhase who (.wrote rows) with
      pending := rows.foldl (Upsert.insertKey SavedRow.metricRef) state.pending
      writes := state.writes ++ rows } :=
    ⟨Nat.lt_succ_self _, List.prefix_rfl, ⟨rows, rfl, now⟩, fun _ isIn => isIn, fun _ isIn => isIn, fun _ isIn => isIn⟩
  have distinct := Upsert.nodup_inserted inv.distinct rows
  -- a pending row is the last one of the save, or one of a ref that the save leaves alone
  have pendingRow : ∀ row, row ∈ rows.foldl (Upsert.insertKey SavedRow.metricRef) state.pending ↔
      (rows.reverse.find? (·.metricRef = row.metricRef)).or (state.pending.find? (·.metricRef = row.metricRef)) =
        some row := by
    intro row
    have found := @Upsert.find?_key_iff _ _ _ SavedRow.metricRef _ distinct row row.metricRef
    rw [← Upsert.find?_inserted, found]
    simp
  constructor
  · exact distinct
  · exact inv.keyed
  · exact inv.owned
  · intro row isIn
    rcases List.mem_append.mp isIn with isIn | isIn
    · exact Nat.lt_succ_of_lt (inv.times row isIn)
    · exact Nat.lt_succ_of_le (now row isIn).le
  · intro row isIn
    have found := (pendingRow row).mp isIn
    cases written : rows.reverse.find? (·.metricRef = row.metricRef) with
    | some last =>
      rw [written, Option.some_or] at found
      obtain rfl := Option.some.inj found
      have time := now last (List.mem_reverse.mp (List.mem_of_find?_eq_some written))
      change (List.find? _ (state.writes ++ rows).reverse) = some last
      rw [List.reverse_append, List.find?_append, time, find?_and_time (fun row isIn => now row (List.mem_reverse.mp isIn)),
        written, Option.some_or]
    | none =>
      rw [written, Option.none_or] at found
      exact (inv.final row (List.mem_of_find?_eq_some found)).grows inv.times grows
  · intro row isIn
    rcases List.mem_append.mp isIn with isIn | isIn
    · exact inv.sources row isIn
    · obtain ⟨-, domain, isDomain, id, domainId, shows⟩ := isRow row isIn
      obtain ⟨stored, isStored, same⟩ := still_mem known (mem_reviewDomains isDomain)
      obtain ⟨sameId, sameDomain, samePacket, -⟩ := of_inert same
      refine ⟨stored, isStored, sameId.trans id.symm, sameDomain.trans domainId.symm, ?_⟩
      rw [samePacket]
      exact shows
  · intro row last
    change (List.find? _ (state.writes ++ rows).reverse) = some row at last
    rw [List.reverse_append, List.find?_append] at last
    cases written : rows.reverse.find? (·.metricRef = row.metricRef) with
    | some final =>
      left
      rw [written, Option.some_or] at last
      exact (pendingRow row).mpr (by rw [written, Option.some_or, last])
    | none =>
      rw [written, Option.none_or] at last
      obtain wasPending | settled := inv.last row last
      · left
        refine (pendingRow row).mpr ?_
        rw [written, Option.none_or]
        exact (Upsert.find?_key_iff inv.distinct).mpr ⟨wasPending, rfl⟩
      · exact Or.inr (settled.grows grows)
  · intro id phase isPhase
    obtain was | rfl := sessions_setPhase (Q := (· = .wrote rows)) rfl isPhase
    · exact (inv.sessions id phase was).grows inv.times grows
    · exact .wrote fun row isIn => List.mem_append_right _ isIn
  · exact fun entry isIn => (inv.saved entry isIn).grows inv.times grows
  · exact inv.applied

theorem Inv.returnReview (inv : Inv state) {rows : List SavedRow} {read : List StoredPacket}
    (isPhase : state.sessions who = some (.readBack rows read))
    (shown : ∀ row ∈ rows, showsPending (reviewDomains read) state.pending row.metricRef = true) :
    Inv { state.endSession who with saved := ⟨rows, read.length⟩ :: state.saved } := by
  cases inv.sessions who _ isPhase with
  | readBack written known =>
    have enough : read.length ≤ state.packets.length := by simpa using known.length_le
    have taken : (state.packets.take read.length).map inert = read.map inert := by
      obtain ⟨more, same⟩ := known
      rw [List.map_take, ← same, List.take_append_of_le_length (by simp), List.take_of_length_le (by simp)]
    refine inv.frame rfl rfl rfl rfl rfl rfl rfl rfl (fun _ _ isPhase => Or.inl (sessions_endSession isPhase)) ?_
    intro entry isIn
    rcases List.mem_cons.mp isIn with rfl | isIn
    · refine Or.inr ⟨enough, written, fun row isRow => ?_⟩
      by_cases last : state.lastWrite row.metricRef = some row
      · refine Or.inr ?_
        obtain wasPending | settled := inv.last row last
        · right
          obtain ⟨-, shows⟩ := (Bool.and_eq_true _ _).mp (shown row isRow)
          obtain ⟨other, isOther, same⟩ := List.any_eq_true.mp shows
          obtain ⟨otherPending, current⟩ := List.mem_filter.mp isOther
          obtain rfl := List.inj_on_of_nodup_map inv.distinct otherPending wasPending (by simpa using same)
          rw [isCurrent_inert taken]
          exact current
        · exact Or.inl settled
      · exact Or.inl last
    · exact Or.inl isIn

theorem packetKey_inert (packets : List StoredPacket) : (packets.map inert).map packetKey = packets.map packetKey := by
  rw [List.map_map]
  rfl

theorem Inv.commitApprove (inv : Inv state) {read : List StoredPacket} {rows : List SavedRow} {env : ReviewEnv}
    {call : Approval} {packets : List StoredPacket} (isPhase : state.sessions who = some (.preparing read rows))
    (committed : commitWrites env call (reviewDomains read) ((currentRows (reviewDomains read) rows).map (·.edit))
      state.extractions state.packets = .ok packets) :
    Inv { state.setPhase who (.approved read rows) with
      reviewable := false
      extractions := if (currentRows (reviewDomains read) rows).isEmpty then state.extractions
        else call.extractionId :: state.extractions
      packets := packets
      built := ⟨env, call, read, currentRows (reviewDomains read) rows, packets⟩ :: state.built } := by
  have stored := commitWrites_ok committed
  have more : state.packets.map inert <+: packets.map inert := by
    obtain ⟨-, same⟩ | ⟨-, edited, -, -, -, -, -, same⟩ := stored
    · rw [same]
    · rw [same]
      exact List.prefix_append _ _
  have grows : Grows state { state.setPhase who (.approved read rows) with
      reviewable := false
      extractions := if (currentRows (reviewDomains read) rows).isEmpty then state.extractions
        else call.extractionId :: state.extractions
      packets := packets
      built := ⟨env, call, read, currentRows (reviewDomains read) rows, packets⟩ :: state.built } :=
    ⟨Nat.lt_succ_self _, more, ⟨[], (List.append_nil _).symm, by simp⟩, fun _ => List.mem_cons_of_mem _, fun _ isIn => isIn,
      fun _ isIn => isIn⟩
  constructor
  · exact inv.distinct
  · change (packets.map packetKey).Nodup
    rw [← packetKey_inert]
    obtain ⟨-, same⟩ | ⟨-, edited, -, prepared, -, -, isNew, same⟩ := stored
    · rw [same, packetKey_inert]
      exact inv.keyed
    · rw [same, List.map_append, packetKey_inert, List.map_map]
      refine List.Nodup.append inv.keyed ?_ fun key isOld isLater => ?_
      · have distinct := prepared_distinct prepared
        rw [show packetKey ∘ (fun packet : EditedPacket => packet.stored call false) =
          (fun domainId => (call.extractionId, domainId)) ∘ EditedPacket.domainId from rfl, ← List.map_map]
        exact distinct.map fun _ _ same => congrArg Prod.snd same
      · obtain ⟨old, wasIn, rfl⟩ := List.mem_map.mp isOld
        obtain ⟨packet, -, isKey⟩ := List.mem_map.mp isLater
        have id : call.extractionId = old.extractionId := congrArg Prod.fst isKey
        exact isNew (id ▸ inv.owned old wasIn)
  · intro now isIn
    change now.extractionId ∈ if (currentRows (reviewDomains read) rows).isEmpty = true then state.extractions
      else call.extractionId :: state.extractions
    have isInert := List.mem_map_of_mem (f := inert) isIn
    obtain ⟨none, same⟩ | ⟨some, edited, -, -, -, -, -, same⟩ := stored
    · rw [List.map_eq_nil_iff] at none
      rw [same] at isInert
      obtain ⟨old, wasIn, isOld⟩ := List.mem_map.mp isInert
      rw [none, ← (of_inert isOld).1]
      exact inv.owned old wasIn
    · rw [ne_eq, List.map_eq_nil_iff, ← List.isEmpty_iff] at some
      rw [if_neg some]
      rw [same] at isInert
      rcases List.mem_append.mp isInert with isOld | isNew
      · obtain ⟨old, wasIn, isOld⟩ := List.mem_map.mp isOld
        rw [← (of_inert isOld).1]
        exact List.mem_cons_of_mem _ (inv.owned old wasIn)
      · obtain ⟨packet, -, isPacket⟩ := List.mem_map.mp isNew
        have id : call.extractionId = now.extractionId := congrArg StoredPacket.extractionId isPacket
        exact id ▸ List.mem_cons_self
  · exact fun row isIn => Nat.lt_succ_of_lt (inv.times row isIn)
  · exact inv.final
  · intro row isIn
    obtain ⟨old, wasIn, id, domainId, shows⟩ := inv.sources row isIn
    obtain ⟨now, isNow, same⟩ := still_mem more wasIn
    obtain ⟨sameId, sameDomain, samePacket, -⟩ := of_inert same
    exact ⟨now, isNow, sameId.trans id, sameDomain.trans domainId, samePacket ▸ shows⟩
  · exact fun row last => (inv.last row last).imp_right fun settled => settled.grows grows
  · intro id phase isSession
    obtain was | rfl := sessions_setPhase (Q := (· = .approved read rows)) rfl isSession
    · exact (inv.sessions id phase was).grows inv.times grows
    · cases inv.sessions who _ isPhase with
      | preparing _ final =>
        refine .approved final fun row isIn current => ⟨_, List.mem_cons_self, List.mem_filter.mpr ⟨isIn, current⟩⟩
  · exact fun entry isIn => (inv.saved entry isIn).grows inv.times grows
  · intro built isBuilt
    rcases List.mem_cons.mp isBuilt with rfl | wasBuilt
    · intro row isRow
      have isEdit : row.edit ∈ (currentRows (reviewDomains read) rows).map (·.edit) := List.mem_map_of_mem isRow
      obtain ⟨none, -⟩ | ⟨-, edited, written, prepared, isWritten, activated, -⟩ := stored
      · rw [none] at isEdit
        cases isEdit
      · have current := (List.mem_filter.mp isRow).2
        rw [isCurrent, Option.any_eq_true] at current
        obtain ⟨summary, isSummary, base⟩ := current
        obtain ⟨packet, isPrepared, active⟩ := written_edited prepared inv.owned isWritten activated isEdit
        exact ⟨summary, packet, isSummary, of_decide_eq_true base, isPrepared, active⟩
    · exact inv.applied built wasBuilt

theorem Inv.clearPending (inv : Inv state) {read : List StoredPacket} {rows : List SavedRow}
    (isPhase : state.sessions who = some (.approved read rows)) :
    Inv { state.endSession who with
      pending := state.pending.filter fun row => !deletes rows row
      swept := ((state.pending.filter fun row => deletes rows row && !isCurrent (reviewDomains read) row).map
        fun row => (row, read)) ++ state.swept } := by
  have grows : Grows state { state.endSession who with
      pending := state.pending.filter fun row => !deletes rows row
      swept := ((state.pending.filter fun row => deletes rows row && !isCurrent (reviewDomains read) row).map
        fun row => (row, read)) ++ state.swept } :=
    ⟨Nat.lt_succ_self _, List.prefix_rfl, ⟨[], (List.append_nil _).symm, by simp⟩, fun _ isIn => isIn,
      fun _ isIn => List.mem_append_right _ isIn, fun _ isIn => isIn⟩
  constructor
  · exact (List.filter_sublist.map _).nodup inv.distinct
  · exact inv.keyed
  · exact inv.owned
  · exact fun row isIn => Nat.lt_succ_of_lt (inv.times row isIn)
  · exact fun row isIn => inv.final row (List.mem_of_mem_filter isIn)
  · exact inv.sources
  · intro row last
    obtain wasPending | settled := inv.last row last
    · by_cases deleted : deletes rows row = true
      · right
        obtain ⟨other, otherIn, same⟩ := List.any_eq_true.mp deleted
        simp only [Bool.and_eq_true, decide_eq_true_eq] at same
        cases inv.sessions who _ isPhase with
        | approved final contained =>
          -- the row that was read is the row that is deleted
          have found := final other otherIn
          rw [Final, same.1, same.2, inv.final row wasPending] at found
          obtain rfl := Option.some.inj found
          by_cases current : isCurrent (reviewDomains read) row = true
          · have settled : Settled state row := Or.inl (contained row otherIn current)
            exact settled.grows grows
          · refine Or.inr (Or.inr ⟨_, List.mem_append_left _ (List.mem_map.mpr ⟨row, ?_, rfl⟩), by simpa using current⟩)
            exact List.mem_filter.mpr ⟨wasPending, by simp [deleted, current]⟩
      · exact Or.inl (List.mem_filter.mpr ⟨wasPending, by simpa using deleted⟩)
    · exact Or.inr (settled.grows grows)
  · exact fun id phase isSession => (inv.sessions id phase (sessions_endSession isSession)).grows inv.times grows
  · exact fun entry isIn => (inv.saved entry isIn).grows inv.times grows
  · exact inv.applied

theorem Inv.clearAll (inv : Inv state) :
    Inv { state.endSession who with pending := [], discarded := state.pending ++ state.discarded } := by
  have grows : Grows state { state.endSession who with pending := [], discarded := state.pending ++ state.discarded } :=
    ⟨Nat.lt_succ_self _, List.prefix_rfl, ⟨[], (List.append_nil _).symm, by simp⟩, fun _ isIn => isIn, fun _ isIn => isIn,
      fun _ isIn => List.mem_append_right _ isIn⟩
  constructor
  · exact List.nodup_nil
  · exact inv.keyed
  · exact inv.owned
  · exact fun row isIn => Nat.lt_succ_of_lt (inv.times row isIn)
  · exact fun row bad => absurd bad List.not_mem_nil
  · exact inv.sources
  · intro row last
    obtain wasPending | settled := inv.last row last
    · exact Or.inr (Or.inr (Or.inl (List.mem_append_left _ wasPending)))
    · exact Or.inr (settled.grows grows)
  · exact fun id phase isSession => (inv.sessions id phase (sessions_endSession isSession)).grows inv.times grows
  · exact fun entry isIn => (inv.saved entry isIn).grows inv.times grows
  · exact inv.applied

theorem Inv.storePacket (inv : Inv state) {stored : StoredPacket}
    (fresh : (state.packets.any fun other => other.extractionId = stored.extractionId &&
      other.domainId = stored.domainId) = false) :
    Inv { state.tick with extractions := stored.extractionId :: state.extractions, packets := state.packets ++ [stored] } := by
  have grows : Grows state { state.tick with
      extractions := stored.extractionId :: state.extractions, packets := state.packets ++ [stored] } := by
    refine ⟨Nat.lt_succ_self _, ?_, ⟨[], (List.append_nil _).symm, by simp⟩, fun _ isIn => isIn, fun _ isIn => isIn,
      fun _ isIn => isIn⟩
    rw [List.map_append]
    exact List.prefix_append _ _
  constructor
  · exact inv.distinct
  · change ((state.packets ++ [stored]).map packetKey).Nodup
    rw [List.map_append]
    refine List.Nodup.append inv.keyed (List.nodup_singleton _) fun key isOld isNew => ?_
    obtain ⟨old, wasIn, rfl⟩ := List.mem_map.mp isOld
    have same : packetKey old = packetKey stored := List.mem_singleton.mp isNew
    have apart := List.any_eq_false.mp fresh old wasIn
    simp only [packetKey, Prod.mk.injEq] at same
    simp [same] at apart
  · intro other isIn
    rcases List.mem_append.mp isIn with wasIn | isNew
    · exact List.mem_cons_of_mem _ (inv.owned other wasIn)
    · rw [List.mem_singleton.mp isNew]
      exact List.mem_cons_self
  · exact fun row isIn => Nat.lt_succ_of_lt (inv.times row isIn)
  · exact inv.final
  · intro row isIn
    obtain ⟨old, wasIn, rest⟩ := inv.sources row isIn
    exact ⟨old, List.mem_append_left _ wasIn, rest⟩
  · exact fun row last => (inv.last row last).imp_right fun settled => settled.grows grows
  · exact fun id phase isSession => (inv.sessions id phase isSession).grows inv.times grows
  · exact fun entry isIn => (inv.saved entry isIn).grows inv.times grows
  · exact inv.applied

theorem step_inv {action : Action} (inv : Inv state) (stepped : step state action = some after) : Inv after := by
  cases action with
  | openSave edits =>
    simp only [step] at stepped
    split at stepped
    · exact Option.some.inj stepped ▸ inv.openSession (.saving edits (Known.refl state))
    · cases stepped
  | writeEdits who =>
    simp only [step] at stepped
    split at stepped
    · rename_i read edits isPhase
      obtain ⟨rows, areRows, rfl⟩ := Option.map_eq_some_iff.mp stepped
      cases inv.sessions who _ isPhase with
      | saving _ known => exact inv.writeEdits known areRows
    · cases stepped
  | readBack who =>
    simp only [step] at stepped
    split at stepped
    · rename_i rows isPhase
      cases inv.sessions who _ isPhase with
      | wrote written => exact Option.some.inj stepped ▸ inv.setPhase (.readBack written (Known.refl state))
    · cases stepped
  | returnReview who =>
    simp only [step] at stepped
    split at stepped
    · rename_i rows read isPhase
      split at stepped
      · rename_i shown
        exact Option.some.inj stepped ▸ inv.returnReview isPhase (List.all_eq_true.mp shown)
      · cases stepped
    · cases stepped
  | openApprove =>
    simp only [step] at stepped
    split at stepped
    · exact Option.some.inj stepped ▸ inv.openSession (.approving (Known.refl state))
    · cases stepped
  | readPending who =>
    simp only [step] at stepped
    split at stepped
    · rename_i read isPhase
      cases inv.sessions who _ isPhase with
      | approving known => exact Option.some.inj stepped ▸ inv.setPhase (.preparing known inv.final)
    · cases stepped
  | commitApprove who env call =>
    simp only [step] at stepped
    split at stepped
    · rename_i read rows isPhase
      split at stepped
      · cases stepped
      · split at stepped
        · cases stepped
        · split at stepped
          · cases stepped
          · rename_i packets committed
            exact Option.some.inj stepped ▸ inv.commitApprove isPhase committed
    · cases stepped
  | clearPending who =>
    simp only [step] at stepped
    split at stepped
    · rename_i read rows isPhase
      exact Option.some.inj stepped ▸ inv.clearPending isPhase
    · cases stepped
  | openReject =>
    simp only [step] at stepped
    split at stepped
    · exact Option.some.inj stepped ▸ inv.openSession .rejecting
    · cases stepped
  | commitReject who =>
    simp only [step] at stepped
    split at stepped
    · exact Option.some.inj stepped ▸ inv.frame rfl rfl rfl rfl rfl rfl rfl rfl
        (fun _ _ => sessions_setPhase .rejected) fun _ => Or.inl
    · cases stepped
  | clearAll who =>
    simp only [step] at stepped
    split at stepped
    · exact Option.some.inj stepped ▸ inv.clearAll
    · cases stepped
  | abandon who => exact Option.some.inj stepped ▸ inv.endSession
  | storePacket stored =>
    simp only [step] at stepped
    split at stepped
    · cases stepped
    · rename_i allowed
      rw [Bool.not_eq_true, Bool.or_eq_false_iff, Bool.or_eq_false_iff] at allowed
      exact Option.some.inj stepped ▸ inv.storePacket allowed.1.1
  | submit => exact Option.some.inj stepped ▸ inv.frame rfl rfl rfl rfl rfl rfl rfl rfl (fun _ _ => Or.inl) fun _ => Or.inl

theorem Inv.initial : Inv .initial := by
  constructor <;> simp [CorrectionState.initial, CorrectionState.lastWrite]

theorem Inv.shown (inv : Inv state) {row : SavedRow} (isPending : row ∈ state.pending)
    (current : isCurrent (reviewDomains state.packets) row = true) :
    showsPending (reviewDomains state.packets) state.pending row.metricRef = true := by
  rw [showsPending, Bool.and_eq_true, List.any_eq_true, List.any_eq_true]
  refine ⟨?_, row, List.mem_filter.mpr ⟨isPending, current⟩, by simp⟩
  rw [isCurrent, Option.any_eq_true] at current
  obtain ⟨domain, isSummary, base⟩ := current
  have isShown := List.mem_of_find?_eq_some isSummary
  have inDomain : domain.domainId = row.edit.domainId := by simpa using List.find?_some isSummary
  obtain ⟨stored, isStored, id, domainId, shows⟩ := inv.sources row (inv.final row isPending).mem
  have same : packetKey stored = packetKey domain :=
    Prod.ext (id.trans (of_decide_eq_true base).symm) (domainId.trans inDomain.symm)
  obtain rfl := List.inj_on_of_nodup_map inv.keyed isStored (mem_reviewDomains isShown) same
  exact ⟨stored, isShown, shows⟩

theorem Inv.kept (inv : Inv state) : Kept state where
  applied := inv.applied
  saved := by
    intro saved isSaved row isRow
    have valid := inv.saved saved isSaved
    have isWrite := valid.written row isRow
    obtain ⟨later, isLater⟩ : ∃ later, state.lastWrite row.metricRef = some later := by
      rw [← Option.isSome_iff_exists, CorrectionState.lastWrite, List.find?_isSome]
      exact ⟨row, List.mem_reverse.mpr isWrite, by simp⟩
    by_cases last : later = row
    · subst last
      have settledCase : Settled state later → AccountedFor state later ∨ Superseded state saved.known later ∨
          Swept state later := by
        rintro (⟨built, isBuilt, isIn⟩ | isIn | swept)
        · exact Or.inl (.contained isBuilt isIn)
        · exact Or.inl (.discarded isIn)
        · exact Or.inr (Or.inr swept)
      obtain isPending | settled := inv.last later isLater
      · obtain replaced | settled | wasCurrent := valid.kept later isRow
        · exact absurd isLater replaced
        · exact settledCase settled
        · by_cases current : isCurrent (reviewDomains state.packets) later = true
          · exact Or.inl (.pending isPending current (inv.shown isPending current))
          · right
            left
            rw [isCurrent_reviewDomains, Option.any_eq_true] at wasCurrent
            obtain ⟨base, wasRecent, isBase⟩ := wasCurrent
            obtain ⟨now, isRecent, newest⟩ :=
              mostRecent_append _ (state.packets.drop saved.known) later.edit.domainId wasRecent
            rw [List.take_append_drop] at isRecent
            obtain ⟨baseIn, inDomain⟩ := mostRecent_domain wasRecent
            obtain rfl | ⟨isNew, nowIn, after⟩ := newest
            · rw [isCurrent_reviewDomains, isRecent] at current
              exact absurd isBase current
            · exact ⟨base, List.mem_of_mem_take baseIn, of_decide_eq_true isBase, inDomain, now, isNew, nowIn, after⟩
      · exact settledCase settled
    · exact Or.inl (.replaced isLater last)

end Steps

/-- **Saved corrections.** In every run, an edit whose save has returned is in an approved
packet that was built from the packet it was written against, or was replaced by a later
save of its ref, is shown as pending, or was discarded by a rejection, unless a packet of
its domain that was stored later is more recent than the one it was written against, or an
approval swept it whose review showed another packet. -/
theorem run_kept {actions : List Action} {state : CorrectionState} (path : run step .initial actions = some state) :
    Kept state :=
  (invariant step_inv Inv.initial path).kept

def savesEdit : List Action :=
  [.storePacket sampleStored, .submit, .openSave [sampleEdit (.int 70)], .writeEdits 0, .readBack 0, .returnReview 0]

def reruns : List Action := [.storePacket { sampleStored with extractionId := "2", createdAt := 1 }]

theorem run_kept_approved :
    ∃ state, run step .initial (savesEdit ++ [.openApprove, .readPending 1, .commitApprove 1 sampleEnv sampleApproval,
        .clearPending 1]) = some state ∧
      state.pending.isEmpty = true ∧ state.built.length = 1 ∧ Kept state := by
  have ends : (run step .initial (savesEdit ++ [.openApprove, .readPending 1, .commitApprove 1 sampleEnv sampleApproval,
      .clearPending 1])).any (fun state => state.pending.isEmpty && decide (state.built.length = 1)) = true := by
    decide +kernel
  obtain ⟨state, path, applied⟩ := (Option.any_eq_true _ _).mp ends
  simp only [Bool.and_eq_true, decide_eq_true_eq] at applied
  exact ⟨state, path, applied.1, applied.2, run_kept path⟩

/-- After the rerun the edit is in no packet, was not replaced, is not shown and was not
discarded. -/
theorem superseded_not_accountedFor :
    ∃ state, run step .initial (savesEdit ++ reruns) = some state ∧
      ∃ saved ∈ state.saved, ∃ row ∈ saved.rows, ¬ AccountedFor state row := by
  have ends : (run step .initial (savesEdit ++ reruns)).any (fun state =>
      state.built.isEmpty && state.discarded.isEmpty && decide (state.writes.length = 1) &&
        state.saved.any fun saved => saved.rows.any fun row => !isCurrent (reviewDomains state.packets) row) = true := by
    decide +kernel
  obtain ⟨state, path, lost⟩ := (Option.any_eq_true _ _).mp ends
  simp only [Bool.and_eq_true, decide_eq_true_eq, List.any_eq_true, Bool.not_eq_true', List.isEmpty_iff] at lost
  obtain ⟨⟨⟨noneBuilt, noneDiscarded⟩, oneWrite⟩, saved, isSaved, row, isIn, stale⟩ := lost
  refine ⟨state, path, saved, isSaved, row, isIn, ?_⟩
  rintro (⟨isBuilt, -⟩ | ⟨last, other⟩ | ⟨-, current, -⟩ | discarded)
  · rw [noneBuilt] at isBuilt
    cases isBuilt
  · obtain ⟨only, isOnly⟩ := List.length_eq_one_iff.mp oneWrite
    have isWrite := ((invariant step_inv Inv.initial path).saved saved isSaved).written row isIn
    have isLast := List.mem_reverse.mp (List.mem_of_find?_eq_some last)
    rw [isOnly, List.mem_singleton] at isWrite isLast
    exact other (isLast.trans isWrite.symm)
  · rw [stale] at current
    cases current
  · rw [noneDiscarded] at discarded
    cases discarded

end Counselle.Cds.Corrections

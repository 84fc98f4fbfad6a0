import Counselle.Workspace.Changes

/-! Delivery of the changes of the log to a client that keeps reconnecting: which changes are still
on their way in every state of a run, and what a connection sends until nothing is left. -/
namespace Counselle.Workspace

instance : Std.Total ChangeRow.below := ⟨fun first second => Nat.le_total first.id second.id⟩

instance : IsTrans ChangeRow ChangeRow.below := ⟨fun _ _ _ => Nat.le_trans⟩

section Pages
variable {log : List ChangeRow} {afterId limit : Nat}

theorem mem_replayRows {row : ChangeRow} (isIn : row ∈ replayRows log afterId limit) :
    row ∈ log ∧ afterId < row.id := by
  have sorted := List.mem_of_mem_take isIn
  rw [(List.perm_insertionSort _ _).mem_iff, List.mem_filter, decide_eq_true_eq] at sorted
  exact sorted

theorem sorted_rows (distinct : (log.map ChangeRow.id).Nodup) :
    ((log.filter fun row => afterId < row.id).insertionSort ChangeRow.below).Pairwise
      fun first second => first.id < second.id := by
  have apart : ((log.filter fun row => afterId < row.id).insertionSort ChangeRow.below).Pairwise
      fun first second => first.id ≠ second.id := by
    have ids := (distinct.sublist (List.filter_sublist.map ChangeRow.id) : ((log.filter
      fun row => afterId < row.id).map ChangeRow.id).Nodup)
    have permuted := ((List.perm_insertionSort ChangeRow.below
      (log.filter fun row => afterId < row.id)).map ChangeRow.id).nodup_iff.mpr ids
    exact List.pairwise_map.mp permuted
  exact ((List.pairwise_insertionSort ChangeRow.below _).and apart).imp fun both =>
    Nat.lt_of_le_of_ne both.1 both.2

theorem replayRows_ascending (distinct : (log.map ChangeRow.id).Nodup) :
    (replayRows log afterId limit).Pairwise fun first second => first.id < second.id :=
  (sorted_rows distinct).sublist (List.take_sublist _ _)

theorem replayRows_covers (distinct : (log.map ChangeRow.id).Nodup) {row : ChangeRow}
    (isIn : row ∈ log) (after : afterId < row.id) :
    row ∈ replayRows log afterId limit ∨
      ((replayRows log afterId limit).length = limit ∧
        ∀ shown ∈ replayRows log afterId limit, shown.id < row.id) := by
  have sorted : row ∈ (log.filter fun row => afterId < row.id).insertionSort ChangeRow.below := by
    rw [(List.perm_insertionSort _ _).mem_iff, List.mem_filter, decide_eq_true_eq]
    exact ⟨isIn, after⟩
  have ascending := @sorted_rows log afterId distinct
  rw [← List.take_append_drop limit
    ((log.filter fun row => afterId < row.id).insertionSort ChangeRow.below)] at sorted ascending
  rcases List.mem_append.mp sorted with front | back
  · exact .inl front
  · refine .inr ⟨?_, fun shown isShown => (List.pairwise_append.mp ascending).2.2 shown isShown row back⟩
    have longer : limit < ((log.filter fun row => afterId < row.id).insertionSort
        ChangeRow.below).length := by
      by_contra short
      rw [List.drop_of_length_le (Nat.le_of_not_lt short)] at back
      cases back
    rw [replayRows, List.length_take]
    omega

end Pages

theorem le_last {rows : List ChangeRow} (ascending : rows.Pairwise fun first second =>
    first.id < second.id) (default : Nat) : ∀ row ∈ rows,
      row.id ≤ (rows.getLast?.map ChangeRow.id).getD default := by
  intro row isIn
  obtain rfl | ⟨front, last, rfl⟩ := rows.eq_nil_or_concat'
  · cases isIn
  · rw [List.getLast?_concat, Option.map_some, Option.getD_some]
    rcases List.mem_append.mp isIn with inFront | isLast
    · exact Nat.le_of_lt ((List.pairwise_append.mp ascending).2.2 row inFront last (by simp))
    · rw [List.mem_singleton.mp isLast]

theorem eventFromRow_some {row : ChangeRow} {event : ChangeEvent}
    (isEvent : eventFromRow row = some event) : row.event = event := by
  rw [eventFromRow] at isEvent
  split at isEvent
  · exact Option.some.inj isEvent
  · cases isEvent

theorem publishEvents_room {queueSize : Nat} {queue events : List ChangeEvent}
    (room : queueSize = 0 ∨ queue.length + events.length ≤ queueSize) :
    publishEvents queueSize queue events = queue ++ events := by
  induction events generalizing queue with
  | nil => simp [publishEvents]
  | cons event rest ih =>
    have notFull : full queueSize queue = false := by
      simp only [full, Bool.and_eq_false_iff, bne_eq_false_iff_eq, decide_eq_false_iff_not]
      simp only [List.length_cons] at room
      omega
    have one : publish queueSize queue event = queue ++ [event] := by
      rw [publish, notFull]
      rfl
    have next := @ih (queue ++ [event]) (by
      simp only [List.length_append, List.length_cons, List.length_nil] at room ⊢
      omega)
    rw [publishEvents, List.foldl_cons, one]
    rw [publishEvents] at next
    rw [next, List.append_assoc]
    rfl

def Feed.Waits (feed : Feed) (row : ChangeRow) : Prop := row ∈ feed.due ∧ row.id ∉ feed.received

def Feed.Reaches (feed : Feed) (row : ChangeRow) : Prop := ∃ last ∈ feed.lastEventId, last < row.id

def Phase.Ahead (row : ChangeRow) : Phase → Prop
  | .replaying after => after < row.id
  | .yielding events next => row.event ∈ events ∨ ∃ after ∈ next, after < row.id
  | .live => False

def Connection.Carries (connection : Connection) (feed : Feed) (row : ChangeRow) : Prop :=
  (∀ after ∈ connection.afterId, after < row.id) ∧
    (row.event ∈ connection.queue ∨ (connection.phase.Ahead row ∧ feed.Reaches row))

def Feed.OnWay (feed : Feed) (row : ChangeRow) : Prop :=
  match feed.connection with
  | none => feed.Reaches row
  | some connection => connection.Carries feed row

/-- The events of a page ascend, up to the row behind which the next page starts. -/
def Phase.Ascends : Phase → Prop
  | .yielding events next =>
    events.Pairwise (fun first second => first.id < second.id) ∧
      ∀ after ∈ next, ∀ event ∈ events, event.id ≤ after
  | _ => True

structure Connection.Ok (connection : Connection) (received : List Nat) : Prop where
  once : connection.sent.Nodup
  delivered : ∀ id, id ∈ connection.sent ↔ id ∈ connection.deliveredIds
  got : ∀ id ∈ connection.deliveredIds, id ∈ received
  ascends : connection.phase.Ascends

structure Feed.Ok (feed : Feed) : Prop where
  distinct : ((feed.log ++ feed.open_.map Prod.snd).map ChangeRow.id).Nodup
  bounded : ∀ row ∈ feed.log ++ feed.open_.map Prod.snd, row.id ≤ feed.drawn
  current : ∀ pair ∈ feed.open_, pair.2.objectType ∈ validObjectTypes
  logged : ∀ row ∈ feed.due, row ∈ feed.log ∧ row.objectType ∈ validObjectTypes
  connection : ∀ connection ∈ feed.connection, connection.Ok feed.received
  onWay : ∀ row, feed.Waits row → row ∈ feed.unpublished.map Prod.snd ∨ feed.OnWay row

/-- Published now, the change is delivered by the connection, or by the replay of the next one. -/
def Feed.InOrder (feed : Feed) (row : ChangeRow) : Prop :=
  match feed.connection with
  | some connection => ∀ after ∈ connection.afterId, after < row.id
  | none => feed.Reaches row

/-- A step that puts nothing out of reach: an event is published into a queue with room and above
the id the connection started from, or above the client's last id while it is away; and the client
goes away only while that id is below every event that waits in the queue. -/
def InReach (queueSize : Nat) (feed : Feed) : Action → Prop
  | .publish transaction =>
    (∀ connection ∈ feed.connection, queueSize = 0 ∨
      connection.queue.length + (rowsOf transaction feed.unpublished).length ≤ queueSize) ∧
    ∀ row ∈ rowsOf transaction feed.unpublished, feed.Waits row → feed.InOrder row
  | .disconnect => ∀ connection ∈ feed.connection, ∀ row ∈ feed.due, feed.Waits row →
      row.event ∈ connection.queue → feed.Reaches row
  | _ => True

instance (feed : Feed) (row : ChangeRow) : Decidable (feed.Waits row) :=
  inferInstanceAs (Decidable (_ ∧ _))

instance (feed : Feed) (row : ChangeRow) : Decidable (feed.Reaches row) :=
  inferInstanceAs (Decidable (∃ last ∈ feed.lastEventId, last < row.id))

instance (feed : Feed) (row : ChangeRow) : Decidable (feed.InOrder row) := by
  unfold Feed.InOrder
  split <;> infer_instance

instance (queueSize : Nat) (feed : Feed) : ∀ action, Decidable (InReach queueSize feed action)
  | .publish _ => inferInstanceAs (Decidable (_ ∧ _))
  | .disconnect => inferInstanceAs (Decidable (∀ connection ∈ feed.connection, _))
  | .record .. | .commit _ | .rollback _ | .connect | .page | .yieldNext | .poll =>
    inferInstanceAs (Decidable True)

section Steps
variable {queueSize : Nat} {feed : Feed}

theorem mem_rowsOf {transaction : Nat} {pairs : List (Nat × ChangeRow)} {row : ChangeRow} :
    row ∈ rowsOf transaction pairs ↔ (transaction, row) ∈ pairs := by
  simp [rowsOf]

theorem mem_others_or {transaction : Nat} {pairs : List (Nat × ChangeRow)} {row : ChangeRow}
    (isIn : row ∈ pairs.map Prod.snd) :
    row ∈ rowsOf transaction pairs ∨ row ∈ (others transaction pairs).map Prod.snd := by
  obtain ⟨pair, isPair, rfl⟩ := List.mem_map.mp isIn
  rcases Decidable.em (pair.1 = transaction) with same | apart
  · exact .inl (mem_rowsOf.mpr (same ▸ isPair))
  · exact .inr (List.mem_map_of_mem (List.mem_filter.mpr ⟨isPair, by simpa using apart⟩))

theorem rows_perm (transaction : Nat) (pairs : List (Nat × ChangeRow)) :
    (rowsOf transaction pairs ++ (others transaction pairs).map Prod.snd).Perm
      (pairs.map Prod.snd) := by
  rw [rowsOf, others, ← List.map_append]
  refine List.Perm.map _ ?_
  have split := List.filter_append_perm (fun pair : Nat × ChangeRow => pair.1 == transaction) pairs
  simpa only [bne] using split

theorem Feed.Ok.record {transaction id : Nat} {objectType op : String} (ok : feed.Ok)
    (fresh : feed.drawn < id) (isValid : objectType ∈ validObjectTypes) :
    Feed.Ok { feed with
      drawn := id, open_ := feed.open_ ++ [(transaction, ⟨id, objectType, op⟩)] } := by
  have rows : feed.log ++
      (feed.open_ ++ [(transaction, ChangeRow.mk id objectType op)]).map Prod.snd =
        (feed.log ++ feed.open_.map Prod.snd) ++ [ChangeRow.mk id objectType op] := by simp
  refine ⟨?_, ?_, ?_, ok.logged, ok.connection, ok.onWay⟩
  · rw [rows, List.map_append]
    refine List.nodup_append.mpr ⟨ok.distinct, by simp, ?_⟩
    intro old isOld new isNew
    obtain ⟨row, isRow, rfl⟩ := List.mem_map.mp isOld
    have small := ok.bounded row isRow
    have same : new = id := by simpa using isNew
    omega
  · intro row isIn
    rw [rows] at isIn
    rcases List.mem_append.mp isIn with old | new
    · exact (ok.bounded row old).trans (Nat.le_of_lt fresh)
    · rw [List.mem_singleton.mp new]
  · intro pair isIn
    rcases List.mem_append.mp isIn with old | new
    · exact ok.current pair old
    · rw [List.mem_singleton.mp new]
      exact isValid

theorem Feed.Ok.commit {transaction : Nat} (ok : feed.Ok) : Feed.Ok { feed with
    log := feed.log ++ rowsOf transaction feed.open_
    open_ := others transaction feed.open_
    unpublished := feed.unpublished ++ (rowsOf transaction feed.open_).map (transaction, ·)
    due := if feed.connected then feed.due ++ rowsOf transaction feed.open_ else feed.due } := by
  have perm : (feed.log ++ rowsOf transaction feed.open_ ++
      (others transaction feed.open_).map Prod.snd).Perm (feed.log ++ feed.open_.map Prod.snd) := by
    rw [List.append_assoc]
    exact (rows_perm transaction feed.open_).append_left feed.log
  have dueRows : ∀ row ∈ (if feed.connected then feed.due ++ rowsOf transaction feed.open_
      else feed.due), row ∈ feed.due ∨ row ∈ rowsOf transaction feed.open_ := by
    intro row isDue
    split at isDue
    · exact List.mem_append.mp isDue
    · exact .inl isDue
  constructor
  · exact (perm.map ChangeRow.id).nodup_iff.mpr ok.distinct
  · exact fun row isIn => ok.bounded row (perm.mem_iff.mp isIn)
  · exact fun pair isIn => ok.current pair (List.mem_of_mem_filter isIn)
  · intro row isDue
    rcases dueRows row isDue with old | new
    · obtain ⟨isLogged, isValid⟩ := ok.logged row old
      exact ⟨List.mem_append_left _ isLogged, isValid⟩
    · exact ⟨List.mem_append_right _ new, ok.current (transaction, row) (mem_rowsOf.mp new)⟩
  · exact ok.connection
  · intro row waits
    rw [List.map_append]
    rcases dueRows row waits.1 with old | new
    · exact (ok.onWay row ⟨old, waits.2⟩).imp (List.mem_append_left _) id
    · refine .inl (List.mem_append_right _ (List.mem_map.mpr ⟨(transaction, row), ?_, rfl⟩))
      exact List.mem_map_of_mem new

theorem Feed.Ok.rollback {transaction : Nat} (ok : feed.Ok) :
    Feed.Ok { feed with open_ := others transaction feed.open_ } := by
  have fewer : (feed.log ++ (others transaction feed.open_).map Prod.snd).Sublist
      (feed.log ++ feed.open_.map Prod.snd) :=
    (List.filter_sublist.map Prod.snd).append_left feed.log
  exact ⟨ok.distinct.sublist (fewer.map ChangeRow.id), fun row isIn => ok.bounded row (fewer.mem isIn),
    fun pair isIn => ok.current pair (List.mem_of_mem_filter isIn), ok.logged, ok.connection, ok.onWay⟩

theorem Feed.Ok.publish {transaction : Nat} (ok : feed.Ok)
    (inReach : InReach queueSize feed (.publish transaction)) : Feed.Ok { feed with
      unpublished := others transaction feed.unpublished
      connection := feed.connection.map fun connection => { connection with
        queue := publishEvents queueSize connection.queue
          ((rowsOf transaction feed.unpublished).map ChangeRow.event) } } := by
  obtain ⟨room, reached⟩ := inReach
  cases connected : feed.connection with
  | none =>
    refine ⟨ok.distinct, ok.bounded, ok.current, ok.logged, nofun, fun row waits => ?_⟩
    have way := ok.onWay row waits
    simp only [Feed.OnWay, Feed.InOrder, connected] at way reached
    rcases way with waiting | way
    · rcases mem_others_or waiting with here | there
      · exact .inr (reached row here waits)
      · exact .inl there
    · exact .inr way
  | some connection =>
    have queued := publishEvents_room ((room connection connected).imp id fun fits =>
      (List.length_map ChangeRow.event).symm ▸ fits)
    rw [Option.map_some, queued]
    refine ⟨ok.distinct, ok.bounded, ok.current, ok.logged, ?_, fun row waits => ?_⟩
    · rintro _ ⟨rfl⟩
      have fine := ok.connection connection connected
      exact ⟨fine.once, fine.delivered, fine.got, fine.ascends⟩
    · have way := ok.onWay row waits
      simp only [Feed.OnWay, Feed.InOrder, connected] at way reached
      rcases way with waiting | ⟨above, carried⟩
      · rcases mem_others_or waiting with here | there
        · exact .inr ⟨reached row here waits,
            .inl (List.mem_append_right _ (List.mem_map_of_mem here))⟩
        · exact .inl there
      · exact .inr ⟨above, carried.imp (List.mem_append_left _) id⟩

theorem Feed.Ok.connect (ok : feed.Ok) (away : feed.connection = none) :
    Feed.Ok { feed with connection := some (.open_ feed.lastEventId), connected := true } := by
  refine ⟨ok.distinct, ok.bounded, ok.current, ok.logged, ?_, fun row waits => ?_⟩
  · rintro _ ⟨rfl⟩
    refine ⟨List.nodup_nil, fun _ => Iff.rfl, nofun, ?_⟩
    unfold Connection.open_
    cases parseLastChangeId feed.lastEventId <;> trivial
  · refine (ok.onWay row waits).imp id fun way => ?_
    simp only [Feed.OnWay, away] at way
    obtain ⟨last, isLast, before⟩ := way
    have parsed : ∃ after, parseLastChangeId feed.lastEventId = some after ∧ after ≤ last := by
      rw [isLast, parseLastChangeId]
      refine ⟨_, rfl, ?_⟩
      split <;> omega
    obtain ⟨after, isAfter, le⟩ := parsed
    simp only [Feed.OnWay, Connection.Carries, Connection.open_, isAfter, Option.mem_some_iff,
      forall_eq']
    exact ⟨Nat.lt_of_le_of_lt le before, .inr ⟨Nat.lt_of_le_of_lt le before, last, isLast, before⟩⟩

theorem Feed.Ok.disconnect (ok : feed.Ok) (inReach : InReach queueSize feed .disconnect) :
    Feed.Ok { feed with connection := none } := by
  refine ⟨ok.distinct, ok.bounded, ok.current, ok.logged, nofun, fun row waits => ?_⟩
  refine (ok.onWay row waits).imp id fun way => ?_
  cases connected : feed.connection with
  | none =>
    simp only [Feed.OnWay, connected] at way
    exact way
  | some connection =>
    simp only [Feed.OnWay, connected] at way
    obtain ⟨_, queued | ⟨_, reaches⟩⟩ := way
    · exact inReach connection connected row waits.1 waits queued
    · exact reaches

theorem Feed.Ok.emit {connection : Connection} {change : ChangeEvent} (ok : feed.Ok)
    (fine : connection.Ok feed.received)
    (passes : ∀ row, feed.Waits row → row.event = change →
      row ∈ feed.unpublished.map Prod.snd ∨ ∀ after ∈ connection.afterId, after < row.id)
    (left : ∀ row, feed.Waits row → row.event ≠ change → row ∈ feed.unpublished.map Prod.snd ∨
      ((∀ after ∈ connection.afterId, after < row.id) ∧ (row.event ∈ connection.queue ∨
        (connection.phase.Ahead row ∧ feed.Reaches row ∧ change.id < row.id)))) :
    Feed.Ok (feed.emit connection change) := by
  rw [Feed.emit]
  split
  · rename_i emits
    simp only [shouldEmitChange, Bool.and_eq_true, Bool.not_eq_true', List.contains_eq_mem,
      decide_eq_false_iff_not] at emits
    refine ⟨ok.distinct, ok.bounded, ok.current, ok.logged, ?_, fun row waits => ?_⟩
    · rintro _ ⟨rfl⟩
      have unsent : change.id ∉ connection.sent := fun isIn => emits.2 ((fine.delivered _).mp isIn)
      refine ⟨?_, fun id => ?_, fun id isIn => ?_, fine.ascends⟩
      · refine List.nodup_append.mpr ⟨fine.once, by simp, fun old isOld new isNew => ?_⟩
        rw [List.mem_singleton.mp isNew]
        exact fun same => unsent (same ▸ isOld)
      · rw [List.mem_append, List.mem_singleton, List.mem_cons, fine.delivered, or_comm]
      · exact (List.mem_cons.mp isIn).elim (fun same => same ▸ List.mem_cons_self)
          fun old => List.mem_cons_of_mem _ (fine.got id old)
    · obtain ⟨isDue, missing⟩ := waits
      obtain ⟨other, missing⟩ := not_or.mp (List.mem_cons.not.mp missing)
      have distinct : row.event ≠ change := fun same => other (congrArg ChangeEvent.id same)
      refine (left row ⟨isDue, missing⟩ distinct).imp id fun carried => ?_
      exact ⟨carried.1, carried.2.imp id fun ahead => ⟨ahead.1, change.id, rfl, ahead.2.2⟩⟩
  · rename_i filtered
    refine ⟨ok.distinct, ok.bounded, ok.current, ok.logged, ?_, fun row waits => ?_⟩
    · rintro _ ⟨rfl⟩
      exact fine
    · rcases Decidable.em (row.event = change) with same | distinct
      · refine .inl ((passes row waits same).resolve_right fun above => filtered ?_)
        have missing : change.id ∉ connection.deliveredIds := by
          intro isIn
          have got := fine.got change.id isIn
          rw [← same] at got
          exact waits.2 got
        have above' : connection.afterId.any (change.id ≤ ·) = false := by
          cases isAfter : connection.afterId with
          | none => rfl
          | some after =>
            have lt := above after isAfter
            rw [← same, Option.any_some, decide_eq_false_iff_not]
            exact Nat.not_le.mpr lt
        rw [shouldEmitChange, above', List.contains_eq_mem, decide_eq_false missing]
        rfl
      · refine (left row waits distinct).imp id fun carried => ?_
        exact ⟨carried.1, carried.2.imp id fun ahead => ⟨ahead.1, ahead.2.1⟩⟩

theorem Feed.Ok.poll {afterId : Option Nat} {change : ChangeEvent} {queue : List ChangeEvent}
    {deliveredIds sent : List Nat} (ok : feed.Ok)
    (connected : feed.connection = some ⟨afterId, change :: queue, deliveredIds, .live, sent⟩) :
    Feed.Ok (feed.emit ⟨afterId, queue, deliveredIds, .live, sent⟩ change) := by
  have fine := ok.connection _ connected
  have way : ∀ row, feed.Waits row → row ∈ feed.unpublished.map Prod.snd ∨
      ((∀ after ∈ afterId, after < row.id) ∧ row.event ∈ change :: queue) := by
    intro row waits
    refine (ok.onWay row waits).imp id fun carried => ?_
    simp only [Feed.OnWay, connected] at carried
    exact ⟨carried.1, carried.2.resolve_right fun ahead => ahead.1⟩
  have sending : Connection.Ok ⟨afterId, queue, deliveredIds, .live, sent⟩ feed.received :=
    ⟨fine.once, fine.delivered, fine.got, trivial⟩
  apply ok.emit sending
  · exact fun row waits _ => (way row waits).imp id And.left
  · exact fun row waits distinct => (way row waits).imp id fun carried =>
      ⟨carried.1, .inl ((List.mem_cons.mp carried.2).resolve_left distinct)⟩

theorem Feed.Ok.yieldNext {afterId next : Option Nat} {change : ChangeEvent}
    {queue rest : List ChangeEvent} {deliveredIds sent : List Nat} (ok : feed.Ok)
    (connected : feed.connection =
      some ⟨afterId, queue, deliveredIds, .yielding (change :: rest) next, sent⟩) :
    Feed.Ok (feed.emit ⟨afterId, queue, deliveredIds, .yielding rest next, sent⟩ change) := by
  have fine := ok.connection _ connected
  obtain ⟨ascends, upTo⟩ := fine.ascends
  have way : ∀ row, feed.Waits row → row ∈ feed.unpublished.map Prod.snd ∨
      ((∀ after ∈ afterId, after < row.id) ∧ (row.event ∈ queue ∨
        ((row.event ∈ change :: rest ∨ ∃ after ∈ next, after < row.id) ∧ feed.Reaches row))) := by
    intro row waits
    refine (ok.onWay row waits).imp id fun carried => ?_
    simp only [Feed.OnWay, connected] at carried
    exact carried
  have sending :
      Connection.Ok ⟨afterId, queue, deliveredIds, .yielding rest next, sent⟩ feed.received :=
    ⟨fine.once, fine.delivered, fine.got, (List.pairwise_cons.mp ascends).2,
      fun after isAfter event isIn => upTo after isAfter event (List.mem_cons_of_mem _ isIn)⟩
  apply ok.emit sending
  · exact fun row waits _ => (way row waits).imp id And.left
  · refine fun row waits distinct => (way row waits).imp id fun carried => ⟨carried.1, ?_⟩
    refine carried.2.imp id fun ahead => ?_
    rcases ahead.1 with inPage | ⟨after, isAfter, beyond⟩
    · have inRest := (List.mem_cons.mp inPage).resolve_left distinct
      exact ⟨.inl inRest, ahead.2, (List.pairwise_cons.mp ascends).1 row.event inRest⟩
    · exact ⟨.inr ⟨after, isAfter, beyond⟩, ahead.2,
        Nat.lt_of_le_of_lt (upTo after isAfter change List.mem_cons_self) beyond⟩

theorem Feed.Ok.yieldEnd {afterId next : Option Nat} {queue : List ChangeEvent}
    {deliveredIds sent : List Nat} (ok : feed.Ok)
    (connected : feed.connection = some ⟨afterId, queue, deliveredIds, .yielding [] next, sent⟩) :
    Feed.Ok { feed with
      connection := some ⟨afterId, queue, deliveredIds, .behind next, sent⟩ } := by
  have fine := ok.connection _ connected
  refine ⟨ok.distinct, ok.bounded, ok.current, ok.logged, ?_, fun row waits => ?_⟩
  · rintro _ ⟨rfl⟩
    refine ⟨fine.once, fine.delivered, fine.got, ?_⟩
    cases next <;> trivial
  · refine (ok.onWay row waits).imp id fun carried => ?_
    simp only [Feed.OnWay, connected] at carried
    refine ⟨carried.1, carried.2.imp id fun ahead => ⟨?_, ahead.2⟩⟩
    obtain inPage | ⟨after, isAfter, beyond⟩ := ahead.1
    · cases inPage
    · cases isAfter
      exact beyond

theorem Feed.Ok.page {after : Nat} {afterId : Option Nat} {queue : List ChangeEvent}
    {deliveredIds sent : List Nat} (ok : feed.Ok)
    (connected : feed.connection = some ⟨afterId, queue, deliveredIds, .replaying after, sent⟩) :
    Feed.Ok { feed with connection := some ⟨afterId, queue, deliveredIds,
      .read (replayChanges feed.log after WORKSPACE_REPLAY_LIMIT), sent⟩ } := by
  have fine := ok.connection _ connected
  have distinct : (feed.log.map ChangeRow.id).Nodup := by
    have all := ok.distinct
    rw [List.map_append] at all
    exact (List.nodup_append.mp all).1
  have ascending := @replayRows_ascending feed.log after WORKSPACE_REPLAY_LIMIT distinct
  have last_ge := le_last ascending after
  refine ⟨ok.distinct, ok.bounded, ok.current, ok.logged, ?_, fun row waits => ?_⟩
  · rintro _ ⟨rfl⟩
    refine ⟨fine.once, fine.delivered, fine.got, ?_⟩
    rw [replayChanges, Phase.read]
    split
    · trivial
    · refine ⟨ascending.filterMap _ fun first second before event isEvent event' isEvent' => ?_,
        fun last isLast event isIn => ?_⟩
      · rw [← eventFromRow_some isEvent, ← eventFromRow_some isEvent']
        exact before
      · obtain ⟨row, isRow, isEvent⟩ := List.mem_filterMap.mp isIn
        split at isLast
        · cases isLast
        · cases isLast
          rw [← eventFromRow_some isEvent]
          exact last_ge row isRow
  · refine (ok.onWay row waits).imp id fun carried => ?_
    simp only [Feed.OnWay, connected] at carried
    refine ⟨carried.1, carried.2.imp id fun ahead => ⟨?_, ahead.2⟩⟩
    obtain ⟨isLogged, isValid⟩ := ok.logged row waits.1
    rcases replayRows_covers distinct isLogged ahead.1 with inPage | ⟨isFull, beyond⟩
    · have nonempty : (replayChanges feed.log after WORKSPACE_REPLAY_LIMIT).2.2 ≠ 0 :=
        fun none => List.ne_nil_of_mem inPage (List.length_eq_zero_iff.mp none)
      rw [Phase.read, if_neg nonempty]
      exact .inl (List.mem_filterMap.mpr ⟨row, inPage, if_pos isValid⟩)
    · have count : (replayChanges feed.log after WORKSPACE_REPLAY_LIMIT).2.2 = WORKSPACE_REPLAY_LIMIT :=
        isFull
      rw [Phase.read, count, if_neg (by decide), if_neg (Nat.lt_irrefl _)]
      refine .inr ⟨_, rfl, ?_⟩
      rcases List.eq_nil_or_concat' (replayRows feed.log after WORKSPACE_REPLAY_LIMIT) with
        none | ⟨front, last, isLast⟩
      · rw [none] at isFull
        cases isFull
      · have before := beyond last (by rw [isLast]; simp)
        simpa [replayChanges, isLast] using before

theorem Feed.Ok.step {action : Action} {next : Feed} (ok : feed.Ok)
    (inReach : InReach queueSize feed action) (stepped : step queueSize feed action = some next) :
    next.Ok := by
  cases action with
  | record transaction id objectType op =>
    simp only [Workspace.step, Option.ite_none_right_eq_some, Option.some.injEq] at stepped
    obtain ⟨⟨fresh, isValid⟩, rfl⟩ := stepped
    exact ok.record fresh isValid
  | commit transaction =>
    cases stepped
    exact ok.commit
  | rollback transaction =>
    cases stepped
    exact ok.rollback
  | publish transaction =>
    cases stepped
    exact ok.publish inReach
  | connect =>
    simp only [Workspace.step, Option.ite_none_right_eq_some, Option.some.injEq,
      Option.isNone_iff_eq_none] at stepped
    obtain ⟨away, rfl⟩ := stepped
    exact ok.connect away
  | page =>
    simp only [Workspace.step] at stepped
    split at stepped
    · rename_i connected
      cases stepped
      exact ok.page connected
    · cases stepped
  | yieldNext =>
    simp only [Workspace.step] at stepped
    split at stepped
    · rename_i connected
      cases stepped
      exact ok.yieldNext connected
    · rename_i connected
      cases stepped
      exact ok.yieldEnd connected
    · cases stepped
  | poll =>
    simp only [Workspace.step] at stepped
    split at stepped
    · rename_i connected
      cases stepped
      exact ok.poll connected
    · cases stepped
  | disconnect =>
    simp only [Workspace.step, Option.map_eq_some_iff] at stepped
    obtain ⟨_, _, rfl⟩ := stepped
    exact ok.disconnect inReach

end Steps

section Draining
variable {queueSize : Nat} {feed : Feed}

def Feed.Drained (feed : Feed) : Prop :=
  ∃ connection ∈ feed.connection, connection.phase = .live ∧ connection.queue = []

def rowsAhead (log : List ChangeRow) (after : Nat) : Nat :=
  (log.filter fun row => after < row.id).length

def Phase.work (log : List ChangeRow) : Phase → Nat
  | .replaying after => 2000 * rowsAhead log after + 2
  | .yielding events (some after) => events.length + 1 + (2000 * rowsAhead log after + 2)
  | .yielding events none => events.length + 1
  | .live => 0

def Connection.work (connection : Connection) (log : List ChangeRow) : Nat :=
  connection.queue.length + connection.phase.work log

theorem rowsAhead_lt {log : List ChangeRow} {after last : Nat} {row : ChangeRow} (isIn : row ∈ log)
    (ahead : after < row.id) (passed : row.id ≤ last) : rowsAhead log last < rowsAhead log after := by
  have fewer : (log.filter fun row => last < row.id) =
      (log.filter fun row => after < row.id).filter fun row => last < row.id := by
    rw [List.filter_filter]
    refine List.filter_congr fun other _ => ?_
    rw [← Bool.decide_and, decide_eq_decide]
    omega
  rw [rowsAhead, rowsAhead, fewer, List.length_filter_lt_length_iff_exists]
  exact ⟨row, List.mem_filter.mpr ⟨isIn, by simpa using ahead⟩, by simpa using passed⟩

theorem work_read (log : List ChangeRow) (after : Nat) :
    (Phase.read (replayChanges log after WORKSPACE_REPLAY_LIMIT)).work log <
      (Phase.replaying after).work log := by
  rw [replayChanges, Phase.read]
  split
  · simp [Phase.work]
  · rename_i some
    have short : (replayRows log after WORKSPACE_REPLAY_LIMIT).length ≤ WORKSPACE_REPLAY_LIMIT :=
      List.length_take_le _ _
    have events : ((replayRows log after WORKSPACE_REPLAY_LIMIT).filterMap eventFromRow).length ≤
        (replayRows log after WORKSPACE_REPLAY_LIMIT).length := List.length_filterMap_le _ _
    obtain none | ⟨front, last, isLast⟩ :=
      (replayRows log after WORKSPACE_REPLAY_LIMIT).eq_nil_or_concat'
    · exact absurd (congrArg List.length none) some
    · have isIn := mem_replayRows (isLast ▸ List.mem_append_right front (List.mem_singleton_self last))
      have fewer := rowsAhead_lt isIn.1 isIn.2 le_rfl
      have limit : WORKSPACE_REPLAY_LIMIT = 1000 := rfl
      rcases Nat.lt_or_ge (replayRows log after WORKSPACE_REPLAY_LIMIT).length
        WORKSPACE_REPLAY_LIMIT with partly | isFull
      · rw [if_pos partly]
        simp only [Phase.work]
        omega
      · have behind : ((replayRows log after WORKSPACE_REPLAY_LIMIT).getLast?.map ChangeRow.id).getD
            after = last.id := by
          rw [isLast, List.getLast?_concat, Option.map_some, Option.getD_some]
        rw [if_neg (Nat.not_lt.mpr isFull), behind]
        simp only [Phase.work]
        omega

def Action.isStream : Action → Prop
  | .page | .yieldNext | .poll => True
  | _ => False

/-- The same changes are due and unpublished, and the connection has less to do. -/
structure Progress (feed next : Feed) : Prop where
  log : next.log = feed.log
  due : next.due = feed.due
  unpublished : next.unpublished = feed.unpublished
  less : ∀ connection ∈ feed.connection, ∃ connection' ∈ next.connection,
    connection'.work next.log < connection.work feed.log

theorem progress_emit {connection after : Connection} {change : ChangeEvent}
    (connected : feed.connection = some connection)
    (less : after.work feed.log < connection.work feed.log) :
    Progress feed (feed.emit after change) := by
  rw [Feed.emit]
  split
  · refine ⟨rfl, rfl, rfl, fun old isOld => ⟨_, rfl, ?_⟩⟩
    cases connected.symm.trans isOld
    exact less
  · refine ⟨rfl, rfl, rfl, fun old isOld => ⟨_, rfl, ?_⟩⟩
    cases connected.symm.trans isOld
    exact less

theorem exists_progress (queueSize : Nat) (online : feed.connection.isSome = true)
    (busy : ¬ feed.Drained) :
    ∃ action next, action.isStream ∧ step queueSize feed action = some next ∧ Progress feed next := by
  obtain ⟨⟨afterId, queue, deliveredIds, phase, sent⟩, connected⟩ := Option.isSome_iff_exists.mp online
  have moved (phase' : Phase) (less : phase'.work feed.log < phase.work feed.log) :
      Progress feed { feed with connection := some ⟨afterId, queue, deliveredIds, phase', sent⟩ } := by
    refine ⟨rfl, rfl, rfl, fun old isOld => ⟨_, rfl, ?_⟩⟩
    cases connected.symm.trans isOld
    exact Nat.add_lt_add_left less queue.length
  cases phase with
  | replaying after =>
    refine ⟨.page, _, trivial, ?_, moved _ (work_read feed.log after)⟩
    simp only [step, connected]
  | yielding events next =>
    cases events with
    | nil =>
      refine ⟨.yieldNext, _, trivial, ?_, moved (.behind next) ?_⟩
      · simp only [step, connected]
      · cases next <;> simp [Phase.behind, Phase.work]
    | cons change rest =>
      refine ⟨.yieldNext,
        feed.emit ⟨afterId, queue, deliveredIds, .yielding rest next, sent⟩ change, trivial, ?_,
        progress_emit connected ?_⟩
      · simp only [step, connected]
      · cases next <;> simp only [Connection.work, Phase.work, List.length_cons] <;> omega
  | live =>
    cases queue with
    | nil => exact absurd ⟨_, connected, rfl, rfl⟩ busy
    | cons change rest =>
      refine ⟨.poll, feed.emit ⟨afterId, rest, deliveredIds, .live, sent⟩ change, trivial, ?_,
        progress_emit connected ?_⟩
      · simp only [step, connected]
      · simp only [Connection.work, List.length_cons]
        omega

theorem drains (queueSize work : Nat) {connection : Connection}
    (connected : feed.connection = some connection) (bound : connection.work feed.log ≤ work) :
    ∃ moves later, (∀ move ∈ moves, move.isStream) ∧
      Transition.run (step queueSize) feed moves = some later ∧ later.Drained ∧
      later.due = feed.due ∧ later.unpublished = feed.unpublished := by
  induction work generalizing feed connection with
  | zero =>
    refine ⟨[], feed, nofun, rfl, ?_, rfl, rfl⟩
    by_contra busy
    obtain ⟨_, next, _, _, progress⟩ := exists_progress queueSize (connected ▸ rfl) busy
    obtain ⟨_, _, less⟩ := progress.less connection connected
    omega
  | succ work ih =>
    rcases Classical.em feed.Drained with drained | busy
    · exact ⟨[], feed, nofun, rfl, drained, rfl, rfl⟩
    · obtain ⟨action, next, isStream, stepped, progress⟩ :=
        exists_progress queueSize (connected ▸ rfl) busy
      obtain ⟨connection', connected', less⟩ := progress.less connection connected
      obtain ⟨moves, later, areStream, path, drained, due, unpublished⟩ := ih connected' (by omega)
      exact ⟨action :: moves, later, List.forall_mem_cons.mpr ⟨isStream, areStream⟩,
        (Transition.run_cons_some stepped).mpr path, drained, due.trans progress.due,
        unpublished.trans progress.unpublished⟩

theorem inReach_of_stream {action : Action} (isStream : action.isStream) :
    InReach queueSize feed action := by
  cases action with
  | page | yieldNext | poll => trivial
  | record | commit | rollback | publish | connect | disconnect => exact isStream.elim

theorem meets_of_stream {moves : List Action} (areStream : ∀ move ∈ moves, move.isStream) :
    Transition.Meets (step queueSize) (InReach queueSize) feed moves := by
  induction moves generalizing feed with
  | nil => trivial
  | cons move rest ih =>
    obtain ⟨here, later⟩ := List.forall_mem_cons.mp areStream
    exact ⟨inReach_of_stream here, fun _ _ => ih later⟩

theorem Feed.Ok.run {moves : List Action} {later : Feed} (ok : feed.Ok)
    (path : Transition.run (Workspace.step queueSize) feed moves = some later)
    (meets : Transition.Meets (Workspace.step queueSize) (InReach queueSize) feed moves) : later.Ok :=
  Transition.invariant_of_meets (fun ok inReach stepped => Feed.Ok.step ok inReach stepped) ok path meets

theorem begun_ok (history : History) : (begun history).Ok := by
  refine ⟨?_, ?_, nofun, nofun, nofun, fun row waits => absurd waits.1 List.not_mem_nil⟩
  · simpa [begun] using history.distinct
  · simpa [begun] using history.bounded

theorem Feed.Ok.delivered (ok : feed.Ok) (drained : feed.Drained) {row : ChangeRow}
    (isDue : row ∈ feed.due) (published : row ∉ feed.unpublished.map Prod.snd) :
    row.id ∈ feed.received := by
  by_contra missing
  obtain ⟨connection, connected, isLive, isEmpty⟩ := drained
  have way := (ok.onWay row ⟨isDue, missing⟩).resolve_left published
  rw [Feed.OnWay, connected] at way
  obtain ⟨_, queued | ahead⟩ := way
  · rw [isEmpty] at queued
    cases queued
  · rw [isLive] at ahead
    exact ahead.1

/-- Nothing is lost to the client: a connection with nothing left to send has delivered every change
that was committed after the client first connected and is published, every connection gets there by
its own steps, and none sends a change twice. -/
structure Feed.Reliable (queueSize : Nat) (feed : Feed) : Prop where
  delivered : feed.Drained → ∀ row ∈ feed.due, row ∉ feed.unpublished.map Prod.snd →
    row.id ∈ feed.received
  drains : feed.connection.isSome = true → ∃ moves later, (∀ move ∈ moves, move.isStream) ∧
    Transition.run (Workspace.step queueSize) feed moves = some later ∧ later.Drained ∧
    ∀ row ∈ feed.due, row ∉ feed.unpublished.map Prod.snd → row.id ∈ later.received
  once : ∀ connection ∈ feed.connection, connection.sent.Nodup

theorem changes_delivered (queueSize : Nat) (history : History) {actions : List Action} {feed : Feed}
    (path : Transition.run (step queueSize) (begun history) actions = some feed)
    (meets : Transition.Meets (step queueSize) (InReach queueSize) (begun history) actions) :
    feed.Reliable queueSize := by
  have ok := (begun_ok history).run path meets
  refine ⟨fun drained row isDue published => ok.delivered drained isDue published,
    fun online => ?_, fun connection connected => (ok.connection connection connected).once⟩
  obtain ⟨connection, connected⟩ := Option.isSome_iff_exists.mp online
  obtain ⟨moves, later, areStream, path', drained, due, unpublished⟩ :=
    drains queueSize _ connected le_rfl
  have ok' := ok.run path' (meets_of_stream areStream)
  exact ⟨moves, later, areStream, path', drained, fun row isDue published =>
    ok'.delivered drained (due ▸ isDue) (unpublished ▸ published)⟩

end Draining

def noHistory : History := ⟨[], 0, List.nodup_nil, nofun⟩

/-- A client that reads one change, goes away, and is back after the second. -/
def reconnects : List Action :=
  [.connect, .record 1 1 "task" "created", .commit 1, .publish 1, .poll, .disconnect,
    .record 2 2 "essay" "updated", .commit 2, .publish 2, .connect, .page, .yieldNext, .yieldNext]

theorem changes_delivered_reconnects :
    ∃ feed, Transition.run (step 2) (begun noHistory) reconnects = some feed ∧ feed.Reliable 2 :=
  ⟨_, rfl, @changes_delivered 2 noHistory reconnects _ rfl (by decide +kernel)⟩

/-- Three changes of one transaction for a queue of two, while the client reads nothing. -/
def overflows : List Action :=
  [.connect, .record 1 1 "task" "updated", .record 1 2 "task" "updated", .record 1 3 "task" "updated",
    .commit 1, .publish 1, .poll, .poll]

theorem overflow_drops_change :
    ∃ feed, Transition.run (step 2) (begun noHistory) overflows = some feed ∧ ¬ feed.Reliable 2 := by
  refine ⟨_, rfl, fun reliable => ?_⟩
  have got := reliable.delivered ⟨_, rfl, rfl, rfl⟩ ⟨1, "task", "updated"⟩ (by decide) (by decide)
  exact absurd got (by decide)

end Counselle.Workspace

import Counselle.Transition
import Mathlib.Data.List.Sort

/-! `app/workspace/changes.py` and `api/routes/workspace_events.py`: the change log of one user, the
event queue of a connection, and the stream that replays the log and then follows the queue. -/
namespace Counselle.Workspace

/-- `ObjectType` -/
def validObjectTypes : List String :=
  ["application", "task", "essay", "activity", "honor", "profile", "document", "memory"]

structure ChangeRow where
  id : Nat
  objectType : String
  op : String
deriving DecidableEq

structure ChangeEvent where
  id : Nat
  type : String
deriving DecidableEq

/-- `make_change_event` -/
def ChangeRow.event (row : ChangeRow) : ChangeEvent := ⟨row.id, row.objectType ++ "." ++ row.op⟩

def eventFromRow (row : ChangeRow) : Option ChangeEvent :=
  if row.objectType ∈ validObjectTypes then some row.event else none

def ChangeRow.below (first second : ChangeRow) : Prop := first.id ≤ second.id

instance : DecidableRel ChangeRow.below := fun first second => Nat.decLe first.id second.id

/-- `_REPLAY_SQL` -/
def replayRows (log : List ChangeRow) (afterId limit : Nat) : List ChangeRow :=
  ((log.filter fun row => afterId < row.id).insertionSort ChangeRow.below).take limit

/-- The events, the id of the last row that was read, and how many rows were. -/
def replayChanges (log : List ChangeRow) (afterId limit : Nat) : List ChangeEvent × Nat × Nat :=
  let rows := replayRows log afterId limit
  (rows.filterMap eventFromRow, (rows.getLast?.map ChangeRow.id).getD afterId, rows.length)

/-- `asyncio.Queue.full`, of a queue without a bound where the size is 0. -/
def full (queueSize : Nat) (queue : List ChangeEvent) : Bool :=
  queueSize != 0 && queueSize ≤ queue.length

/-- `WorkspaceEventBus.publish`, for one queue. -/
def publish (queueSize : Nat) (queue : List ChangeEvent) (event : ChangeEvent) : List ChangeEvent :=
  (if full queueSize queue then queue.tail else queue) ++ [event]

def publishEvents (queueSize : Nat) (queue : List ChangeEvent) (events : List ChangeEvent) :
    List ChangeEvent :=
  events.foldl (publish queueSize) queue

def MAX_CHANGE_ID := 10000000
def WORKSPACE_REPLAY_LIMIT := 1000

/-- `parse_last_change_id`, of a header that holds an id. -/
def parseLastChangeId : Option Nat → Option Nat
  | none => none
  | some value => some (if value < MAX_CHANGE_ID then value else 0)

/-- Where `workspace_event_stream` stands: about to read a page, at the events of a page with the
row behind which the next one starts, or at the queue. -/
inductive Phase where
  | replaying (afterId : Nat)
  | yielding (events : List ChangeEvent) (next : Option Nat)
  | live

/-- After a page: no row ends the replay, else its events are sent, and a full page has another
behind it. -/
def Phase.read : List ChangeEvent × Nat × Nat → Phase
  | (events, last, count) =>
    if count = 0 then .live
    else .yielding events (if count < WORKSPACE_REPLAY_LIMIT then none else some last)

def Phase.behind : Option Nat → Phase
  | some after => .replaying after
  | none => .live

structure Connection where
  afterId : Option Nat
  queue : List ChangeEvent
  deliveredIds : List Nat
  phase : Phase
  /-- What this connection has sent, in order. -/
  sent : List Nat

def shouldEmitChange (change : ChangeEvent) (afterId : Option Nat) (deliveredIds : List Nat) : Bool :=
  !afterId.any (change.id ≤ ·) && !deliveredIds.contains change.id

/-- One user's log, the transactions under way and the client: `unpublished` are the changes of
committed transactions whose events are not on the bus yet; `due` are the changes committed after
the client first connected. -/
structure Feed where
  log : List ChangeRow
  drawn : Nat
  open_ : List (Nat × ChangeRow)
  unpublished : List (Nat × ChangeRow)
  connection : Option Connection
  lastEventId : Option Nat
  received : List Nat
  connected : Bool
  due : List ChangeRow

def Feed.emit (feed : Feed) (connection : Connection) (change : ChangeEvent) : Feed :=
  if shouldEmitChange change connection.afterId connection.deliveredIds then
    { feed with
      connection := some { connection with
        deliveredIds := change.id :: connection.deliveredIds
        sent := connection.sent ++ [change.id] }
      lastEventId := some change.id
      received := change.id :: feed.received }
  else { feed with connection := some connection }

/-- `record` is `record_change` in a transaction, which draws an id above all that were drawn. The
last four are the connection's own: a page is read, an event of the page is sent, one of the queue
is, or the client is gone. -/
inductive Action where
  | record (transaction id : Nat) (objectType op : String)
  | commit (transaction : Nat)
  | rollback (transaction : Nat)
  | publish (transaction : Nat)
  | connect
  | page
  | yieldNext
  | poll
  | disconnect
deriving DecidableEq

def rowsOf (transaction : Nat) (pairs : List (Nat × ChangeRow)) : List ChangeRow :=
  (pairs.filter (·.1 == transaction)).map Prod.snd

def others (transaction : Nat) (pairs : List (Nat × ChangeRow)) : List (Nat × ChangeRow) :=
  pairs.filter (·.1 != transaction)

def Connection.open_ (lastEventId : Option Nat) : Connection where
  afterId := parseLastChangeId lastEventId
  queue := []
  deliveredIds := []
  phase := match parseLastChangeId lastEventId with
    | some afterId => .replaying afterId
    | none => .live
  sent := []

def step (queueSize : Nat) (feed : Feed) : Action → Option Feed
  | .record transaction id objectType op =>
    if feed.drawn < id ∧ objectType ∈ validObjectTypes then
      some { feed with drawn := id, open_ := feed.open_ ++ [(transaction, ⟨id, objectType, op⟩)] }
    else none
  | .commit transaction =>
    let rows := rowsOf transaction feed.open_
    some { feed with
      log := feed.log ++ rows
      open_ := others transaction feed.open_
      unpublished := feed.unpublished ++ rows.map (transaction, ·)
      due := if feed.connected then feed.due ++ rows else feed.due }
  | .rollback transaction => some { feed with open_ := others transaction feed.open_ }
  | .publish transaction =>
    let events := (rowsOf transaction feed.unpublished).map ChangeRow.event
    some { feed with
      unpublished := others transaction feed.unpublished
      connection := feed.connection.map fun connection =>
        { connection with queue := publishEvents queueSize connection.queue events } }
  | .connect =>
    if feed.connection.isNone then
      some { feed with connection := some (.open_ feed.lastEventId), connected := true }
    else none
  | .page =>
    match feed.connection with
    | some ⟨afterId, queue, deliveredIds, .replaying after, sent⟩ =>
      let phase := Phase.read (replayChanges feed.log after WORKSPACE_REPLAY_LIMIT)
      some { feed with connection := some ⟨afterId, queue, deliveredIds, phase, sent⟩ }
    | _ => none
  | .yieldNext =>
    match feed.connection with
    | some ⟨afterId, queue, deliveredIds, .yielding (change :: rest) next, sent⟩ =>
      some (feed.emit ⟨afterId, queue, deliveredIds, .yielding rest next, sent⟩ change)
    | some ⟨afterId, queue, deliveredIds, .yielding [] next, sent⟩ =>
      some { feed with connection := some ⟨afterId, queue, deliveredIds, .behind next, sent⟩ }
    | _ => none
  | .poll =>
    match feed.connection with
    | some ⟨afterId, change :: queue, deliveredIds, .live, sent⟩ =>
      some (feed.emit ⟨afterId, queue, deliveredIds, .live, sent⟩ change)
    | _ => none
  | .disconnect => feed.connection.map fun _ => { feed with connection := none }

/-- The table in front of a run: its ids are distinct and were drawn. -/
structure History where
  rows : List ChangeRow
  drawn : Nat
  distinct : (rows.map ChangeRow.id).Nodup
  bounded : ∀ row ∈ rows, row.id ≤ drawn

/-- Nothing under way, and a client that never connected. -/
def begun (history : History) : Feed where
  log := history.rows
  drawn := history.drawn
  open_ := []
  unpublished := []
  connection := none
  lastEventId := none
  received := []
  connected := false
  due := []

end Counselle.Workspace

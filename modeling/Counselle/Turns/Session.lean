import Counselle.Transition
import Counselle.Turns.OneRecord

/-! The records of one session under every request and turn that writes them. Each
label is a stretch without an await; a writer holds the list it has read. -/
namespace Counselle.Turns
open Records

inductive RunPhase where
  /-- `start` past its claim, with the edit it still has to make -/
  | preparing (replaceMessageId : Option String)
  /-- `_rewrite_history` has resolved its target -/
  | rewriting (base : List TurnRecord) (index : Nat)
  | spawned
  /-- past the meta event -/
  | running
  /-- the graph runs on the state it has loaded -/
  | loaded (base : List TurnRecord)
  /-- `_write_failure_record` has read the state -/
  | failing (base : List TurnRecord)
  | ended
  /-- ended before its meta event: there is no id to anchor a record -/
  | silent
  | stopping
  /-- `_persist_partial` has read the state -/
  | persisting (base : List TurnRecord)
deriving DecidableEq

structure Run where
  /-- the id its records carry, from the meta event on -/
  messageId : String
  continuation : Bool
  /-- the records of the prefetch, unless it raised -/
  prior : Option (List TurnRecord)
  phase : RunPhase
deriving DecidableEq

/-- Where `accept_clarification` is, under its claim. -/
inductive AnswerPhase where
  | claimed
  | read (base : List TurnRecord) (latest : TurnRecord) (continuationId : String)
  | written (continuationId : String)
deriving DecidableEq

structure Session where
  records : List TurnRecord
  run : Option Run := none
  /-- text-only requests by what their classification read said -/
  posts : List Bool := []
  answer : Option AnswerPhase := none
  /-- the lists that cancel requests on a parked session are about to write back -/
  unparks : List (List TurnRecord) := []
  /-- ghost: the message ids drawn so far -/
  minted : List String := []
  /-- ghost: the message ids written so far -/
  written : List String := []
deriving DecidableEq

inductive SessionLabel where
  /-- `has_pending_v2_clarification`; unreadable counts as not pending -/
  | classify (readable : Bool)
  | start (post : Nat) (replaceMessageId : Option String)
  | failStart
  | rewriteRead
  | rewriteWrite
  | spawn
  /-- an answer: a classified text, or a request that names what it replies to -/
  | claimAnswer (post : Option Nat)
  | readAnswer (continuationId : String)
  | writeAnswer (answered : TurnRecord)
  | refuseAnswer
  | startContinuation
  | prefetch (readable : Bool) (messageId : String)
  /-- the meta event of a continuation -/
  | beginContinuation
  | load
  /-- the agent node's record -/
  | commit (record : TurnRecord)
  /-- the parked record of a legacy interrupt -/
  | park (record : TurnRecord)
  | failRead
  | failWrite (record : TurnRecord)
  | quit
  | stop
  | stopRead
  | stopWrite (record : TurnRecord)
  | finalize
  | unparkRead
  | unparkWrite (request : Nat)

def pendingV2Tail (records : List TurnRecord) : Bool :=
  (parkedRecord records).any (·.isV2Clarify)

/-- The record an edit may name; the check of its offset is left to `failStart`. -/
def editIndex (records : List TurnRecord) (replaceMessageId : String) : Option Nat := do
  let index ← records.findIdx? (·.userMessageId = replaceMessageId)
  let target ← records[index]?
  if target.synthesizedAnswer ∨ target.continuationOf.isSome then none else some index

/-- `cancel` would stop the turn rather than unpark. -/
def Run.cancellable (run : Run) : Bool :=
  match run.phase with
  | .preparing _ | .rewriting _ _ | .stopping | .persisting _ => false
  | _ => true

namespace Session

def setPhase (session : Session) (run : Run) (phase : RunPhase) : Session :=
  { session with run := some { run with phase := phase } }

def write (session : Session) (run : Run) (base : List TurnRecord) (record : TurnRecord) :
    Session :=
  { session.setPhase run .ended with
    records := appendOrReplace base record
    written := run.messageId :: session.written }

/-- A record the run may write, with one of the statuses of that path. -/
def mayWrite (run : Run) (record : TurnRecord) (statuses : List TurnStatus) : Bool :=
  record.messageId = run.messageId ∧ record.status ∈ statuses

end Session

def runStep (session : Session) (run : Run) : SessionLabel → Option Session
  | .failStart =>
    match run.phase with
    | .preparing _ | .rewriting _ _ => some { session with run := none }
    | _ => none
  | .rewriteRead =>
    match run.phase with
    | .preparing (some replaceMessageId) =>
      (editIndex session.records replaceMessageId).map fun index =>
        session.setPhase run (.rewriting session.records index)
    | _ => none
  | .rewriteWrite =>
    match run.phase with
    | .rewriting base index =>
      some { session.setPhase run (.preparing none) with records := base.take index }
    | _ => none
  | .spawn =>
    match run.phase with
    | .preparing none => some (session.setPhase run .spawned)
    | _ => none
  | .prefetch readable messageId =>
    if run.phase ≠ .spawned ∨ run.continuation ∨ messageId ∈ session.minted then none
    else
      let drawn := { session with minted := messageId :: session.minted }
      if readable then
        let id := ((parkedRecord session.records).map (·.messageId)).getD messageId
        some (drawn.setPhase { run with messageId := id, prior := some session.records } .running)
      else some (drawn.setPhase { run with messageId := messageId, prior := none } .running)
  | .beginContinuation =>
    if run.phase = .spawned ∧ run.continuation then some (session.setPhase run .running)
    else none
  | .load =>
    if run.phase = .running ∧ (run.continuation ∨ run.prior.isSome) then
      some (session.setPhase run (.loaded session.records))
    else none
  | .commit record =>
    match run.phase with
    | .loaded base =>
      if Session.mayWrite run record [.complete, .awaitingInput] ∧
          (record.status = .awaitingInput → record.isV2Clarify) then
        some (session.write run base record)
      else none
    | _ => none
  | .park record =>
    match run.phase, run.prior with
    | .loaded _, some prior =>
      if Session.mayWrite run record [.awaitingInput] ∧ record.isV2Clarify = false then
        some (session.write run prior record)
      else none
    | _, _ => none
  | .failRead =>
    match run.phase with
    | .running | .loaded _ => some (session.setPhase run (.failing session.records))
    | _ => none
  | .failWrite record =>
    match run.phase with
    | .failing base =>
      if Session.mayWrite run record [.error] then some (session.write run base record) else none
    | _ => none
  | .quit =>
    match run.phase with
    | .spawned => some (session.setPhase run .silent)
    | .running | .loaded _ | .failing _ => some (session.setPhase run .ended)
    | _ => none
  | .stop =>
    match run.phase with
    | .preparing _ | .rewriting _ _ | .silent => none
    | .spawned => some (session.setPhase run .silent)
    | _ => some (session.setPhase run .stopping)
  | .stopRead =>
    match run.phase with
    | .stopping =>
      let replacesParked := (parkedRecord session.records).any fun tail =>
        tail.messageId = run.messageId ∧ tail.isV2Clarify = false
      if run.messageId ∈ messageIds session.records ∧ replacesParked = false then
        some (session.setPhase run .ended)
      else some (session.setPhase run (.persisting session.records))
    | _ => none
  | .stopWrite record =>
    match run.phase with
    | .persisting base =>
      if Session.mayWrite run record [.cancelled, .error] then
        some (session.write run base record)
      else none
    | _ => none
  | .finalize =>
    match run.phase with
    | .ended | .silent | .stopping | .persisting _ => some { session with run := none }
    | _ => none
  | _ => none

def sessionStep (session : Session) : SessionLabel → Option Session
  | .classify readable =>
    some { session with posts := session.posts ++ [readable && pendingV2Tail session.records] }
  | .start post replaceMessageId =>
    if session.posts[post]? = some false ∧ session.run = none then
      some { session with
        posts := session.posts.eraseIdx post
        run := some ⟨"", false, none, .preparing replaceMessageId⟩ }
    else none
  | .claimAnswer post =>
    if post.all (session.posts[·]? = some true) ∧ session.run = none ∧ session.answer = none then
      some { session with
        posts := post.elim session.posts session.posts.eraseIdx
        answer := some .claimed }
    else none
  | .readAnswer continuationId =>
    match session.answer, parkedRecord session.records with
    | some .claimed, some latest =>
      if latest.isV2Clarify ∧ continuationId ∉ session.minted then
        some { session with
          answer := some (.read session.records latest continuationId)
          minted := continuationId :: session.minted }
      else none
    | _, _ => none
  | .writeAnswer answered =>
    match session.answer with
    | some (.read base latest continuationId) =>
      if answered.messageId = latest.messageId ∧ answered.status = .complete then
        (replaceLatestPendingV2 base answered).map fun records =>
          { session with records := records, answer := some (.written continuationId) }
      else none
    | _ => none
  | .refuseAnswer => session.answer.map fun _ => { session with answer := none }
  | .startContinuation =>
    match session.answer with
    | some (.written continuationId) =>
      if session.run = none then
        some { session with
          answer := none
          run := some ⟨continuationId, true, none, .spawned⟩ }
      else none
    | _ => none
  | .unparkRead =>
    if session.run.all (·.cancellable = false) ∧ isParked session.records then
      some { session with unparks := session.records :: session.unparks }
    else none
  | .unparkWrite request =>
    match session.unparks[request]? with
    | some base =>
      (parkedRecord base).map fun parked =>
        { session with
          records := base.dropLast ++ [{ parked with status := .cancelled }]
          unparks := session.unparks.eraseIdx request }
    | none => none
  | label => session.run.bind fun run => runStep session run label

end Counselle.Turns

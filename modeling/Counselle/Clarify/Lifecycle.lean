import Counselle.Turns.Persistence
import Counselle.Turns.Registry

/-! `app/clarify_lifecycle.py` and the answer branch of `post_message`: a pending v2
clarification is answered durably first, then the run that continues it is claimed. -/
namespace Counselle.Clarify
open Fallible Protocol Records Turns

/-- The pydantic models at work: what a stored spec and a widget's payload parse to,
and what a response serializes to. -/
structure Codec where
  /-- `parse_clarify_spec`, when it gives a v2 spec -/
  parseSpec : Payload → Option ClarifySpecV2
  /-- `WidgetClarifyResponseV2.model_validate`, when it does not raise -/
  parseWidget : Payload → Option (List ClarifyAnswerV2)
  dump : ClarifyResponseV2 → Payload

/-- `len(response.model_dump_json())` -/
def Codec.dumpLength (codec : Codec) (response : ClarifyResponseV2) : Nat :=
  (codec.dump response).length

/-- What the caller's classification passes on, exactly one of the two. -/
inductive AnswerBody where
  | widget (payload : Payload)
  | composer (text : String) (userMessageId : Option String)

structure AnswerRequest where
  inReplyTo : Option String
  body : AnswerBody

structure FreshIds where
  userMessageId : String
  continuationMessageId : String
  triggerRequestId : String

structure InheritedGoal where
  goal : Payload
  /-- the paused run's own receipts, under ids that stay unique across the chain -/
  ownSteps : List StepData
deriving DecidableEq

structure PreparedContinuation where
  rootMessageId : String
  continuationMessageId : String
  triggerRequestId : String
  origin : ResponseOrigin
  completedMessageHistory : List ModelMessage
  modelInputText : String
  projectUser : Bool
  recordUserText : Option String
  userMessageId : Option String
  inheritedSkills : List String
  inheritedSourceConfig : Option Payload
  inheritedResponseMode : String
  responsePayload : Payload
  editableRootMessageId : String
  messagesOffset : Nat
  inheritedScope : Option (Option String × Option String)
  inheritedGoal : Option InheritedGoal

/-- `NOT_GOAL_EVIDENCE_KINDS` -/
def notGoalEvidence : StepKind → Bool
  | .goal | .writePlan | .compaction => true
  | _ => false

def inheritedGoal (latest : TurnRecord) : Option InheritedGoal :=
  latest.goal.map fun goal =>
    let prefixed := String.ofList (latest.messageId.toList.take 8)
    { goal := goal
      ownSteps := (latest.steps.filter fun step =>
          step.status ≠ .start ∧ notGoalEvidence step.kind = false).map fun step =>
        { step with stepId := prefixed ++ "-" ++ step.stepId } }

/-- `_inherited_surface`: `none` is the chat. -/
def inheritedScope (scope : TurnScope) : Option (Option String × Option String) :=
  if scope.surface = some "essay" then
    some (scope.essayId.filter (· ≠ ""), scope.essaySelection.filter (· ≠ ""))
  else none

/-- An answer as it will be stored, and as the model and the transcript will see it. -/
structure ReadAnswer where
  response : ClarifyResponseV2
  modelInputText : String
  recordUserText : Option String
  userMessageId : Option String
  origin : ResponseOrigin

/-- The validation of the answer itself; the error is the conflict's code. -/
def readAnswer (codec : Codec) (spec : ClarifySpecV2) (fresh : FreshIds) :
    AnswerBody → Except String ReadAnswer
  | .composer text userMessageId =>
    if boundedNonblank text clarifyReplyMaxChars = false then .error "malformed_response"
    else
      let id := (userMessageId.filter (· ≠ "")).getD fresh.userMessageId
      .ok ⟨.reply text id, text, some text, some id, .reply⟩
  | .widget payload =>
    match codec.parseWidget payload with
    | none => .error "malformed_response"
    | some answers => do
      let kept ← validateClarifyResponse codec.dumpLength spec answers
      return ⟨.widget answers, renderClarifyModelPayload spec kept, none, none, .widget⟩

/-- The record that is waiting for an answer, with its parsed spec. -/
def pendingV2 (codec : Codec) (records : List TurnRecord) :
    Except String (TurnRecord × Clarification × ClarifySpecV2) :=
  match records.getLast? with
  | none => .error "clarification_stale"
  | some latest =>
    if latest.status ≠ .awaitingInput then .error "clarification_stale"
    else
      match latest.clarify with
      | none => .error "clarification_stale"
      | some block =>
        if block.response.isSome then .error "clarification_stale"
        else
          match codec.parseSpec block.spec with
          | none => .error "clarification_stale"
          | some spec => .ok (latest, block, spec)

def answeredRecord (codec : Codec) (latest : TurnRecord) (block : Clarification)
    (response : ClarifyResponseV2) : TurnRecord :=
  { latest with
    status := .complete
    clarify := some
      { spec := block.spec, isV2 := block.isV2, answer := none, response := some (codec.dump response) } }

def storedMode (latest : TurnRecord) : String :=
  if latest.responseMode = "" then "quick" else latest.responseMode

/-- A1's own snapshot of the source config, else the session's. -/
def inheritedSourceConfig (stored : Checkpoint) (latest : TurnRecord) : Option Payload :=
  latest.sourceConfig.orElse fun _ => stored.sourceConfig

def intentOf (stored : Checkpoint) (fresh : FreshIds) (latest : TurnRecord)
    (answer : ReadAnswer) : ContinuationIntent where
  phase := .accepted
  rootMessageId := latest.messageId
  continuationMessageId := fresh.continuationMessageId
  triggerRequestId := fresh.triggerRequestId
  responseOrigin := answer.origin
  inheritedSkills := latest.skills
  inheritedSourceConfig := inheritedSourceConfig stored latest

def continuationOf (codec : Codec) (stored : Checkpoint) (fresh : FreshIds) (latest : TurnRecord)
    (answer : ReadAnswer) : PreparedContinuation where
  rootMessageId := latest.messageId
  continuationMessageId := fresh.continuationMessageId
  triggerRequestId := fresh.triggerRequestId
  origin := answer.origin
  completedMessageHistory := stored.messages
  modelInputText := answer.modelInputText
  projectUser := answer.origin = .reply
  recordUserText := answer.recordUserText
  userMessageId := answer.userMessageId
  inheritedSkills := latest.skills
  inheritedSourceConfig := inheritedSourceConfig stored latest
  inheritedResponseMode := storedMode latest
  responsePayload := codec.dump answer.response
  editableRootMessageId := latest.userMessageId
  messagesOffset := stored.messages.length
  inheritedScope := inheritedScope stored.turnScope
  inheritedGoal := inheritedGoal latest

/-- `accept_clarification` up to its write: the continuation and the update. -/
def prepareAnswer (codec : Codec) (stored : Checkpoint) (fresh : FreshIds)
    (request : AnswerRequest) : Except String (PreparedContinuation × StateUpdate) := do
  let (latest, block, spec) ← pendingV2 codec stored.turnRecords
  if request.inReplyTo.any (· ≠ latest.messageId) then .error "clarification_stale"
  else
    let answer ← readAnswer codec spec fresh request.body
    match replaceLatestPendingV2 stored.turnRecords
        (answeredRecord codec latest block answer.response) with
    | none => .error "ValueError"
    | some updated =>
      .ok (continuationOf codec stored fresh latest answer,
        { turnRecords := some updated
          continuationIntent := some (some (intentOf stored fresh latest answer)) })

/-- How the answer branch of `post_message` is refused. -/
inductive AnswerRefusal where
  | conflict (code : String)
  | claimBusy
  | invalidStoredMode
  | registry (refusal : Refusal)
deriving DecidableEq

/-- `ResponseMode(...)`; `none` is its `ValueError`. -/
def ResponseMode.ofString : String → Option ResponseMode
  | "quick" => some .quick
  | "think" => some .think
  | _ => none

/-- The registry's part of the acceptance: the session must be idle and unclaimed, and
the write must succeed. -/
def acceptClarification {ε : Type} (codec : Codec) (registry : Registry ε)
    (sid : SessionId) (claimed written : Bool) (stored : Checkpoint) (fresh : FreshIds)
    (request : AnswerRequest) : Except AnswerRefusal PreparedContinuation × Checkpoint :=
  if sid ∈ registry.turns then
    (.error (.conflict "clarification_conflict_active_turn"), stored)
  else if claimed then (.error .claimBusy, stored)
  else
    match prepareAnswer codec stored fresh request with
    | .error code => (.error (.conflict code), stored)
    | .ok (prepared, update) =>
      if written then (.ok prepared, stored.update update)
      else (.error (.conflict "acceptance_write_failed"), stored)

def claimContinuation {ε : Type} (settings : Settings) (registry : Registry ε) (sid : SessionId)
    (prepared : PreparedContinuation) : Except AnswerRefusal (Registry ε) :=
  match ResponseMode.ofString prepared.inheritedResponseMode with
  | none => .error .invalidStoredMode
  | some mode =>
    match registry.startContinuation settings sid mode prepared.inheritedGoal.isSome with
    | .error refusal => .error (.registry refusal)
    | .ok next => .ok next

/-- The answer branch of `post_message`. The acceptance awaits the checkpoint, so the
registry may have changed when the continuation is claimed. -/
def postAnswer {ε : Type} (codec : Codec) (settings : Settings) (accepting starting : Registry ε)
    (sid : SessionId) (claimed written : Bool) (stored : Checkpoint) (fresh : FreshIds)
    (request : AnswerRequest) : Except AnswerRefusal (Registry ε) × Checkpoint :=
  match acceptClarification codec accepting sid claimed written stored fresh request with
  | (.error refusal, kept) => (.error refusal, kept)
  | (.ok prepared, answered) => (claimContinuation settings starting sid prepared, answered)

variable {ε : Type} {codec : Codec} {settings : Settings} {stored : Checkpoint}
  {latest : TurnRecord} {block : Clarification} {spec : ClarifySpecV2}

theorem pendingV2_ok {records : List TurnRecord}
    (pending : pendingV2 codec records = .ok (latest, block, spec)) :
    records.getLast? = some latest ∧ latest.status = .awaitingInput ∧ latest.clarify = some block ∧
      block.response = none ∧ codec.parseSpec block.spec = some spec := by
  unfold pendingV2 at pending
  split at pending
  · cases pending
  case h_2 last isLast =>
    obtain ⟨awaits, pending⟩ := guard_ok_iff.mp pending
    split at pending
    · cases pending
    case h_2 asked isAsked =>
      obtain ⟨unanswered, pending⟩ := guard_ok_iff.mp pending
      split at pending
      · cases pending
      case h_2 parsed isParsed =>
        cases pending
        exact ⟨isLast, by simpa using awaits, isAsked, by simpa using unanswered, isParsed⟩

theorem replace_answered (codec : Codec) (block : Clarification) (response : ClarifyResponseV2)
    {records : List TurnRecord}
    (isLast : records.getLast? = some latest) (awaits : latest.status = .awaitingInput) :
    replaceLatestPendingV2 records (answeredRecord codec latest block response) =
      some (records.dropLast ++ [answeredRecord codec latest block response]) := by
  simp [replaceLatestPendingV2, isLast, awaits, answeredRecord]

/-- The write of the acceptance: A1 answered and the intent, in one update. -/
def answerUpdate (codec : Codec) (stored : Checkpoint) (fresh : FreshIds) (latest : TurnRecord)
    (block : Clarification) (answer : ReadAnswer) : StateUpdate where
  turnRecords := some
    (stored.turnRecords.dropLast ++ [answeredRecord codec latest block answer.response])
  continuationIntent := some (some (intentOf stored fresh latest answer))

theorem prepareAnswer_ok {fresh : FreshIds} {request : AnswerRequest} {answer : ReadAnswer}
    (pending : pendingV2 codec stored.turnRecords = .ok (latest, block, spec))
    (addressed : ∀ id ∈ request.inReplyTo, id = latest.messageId)
    (valid : readAnswer codec spec fresh request.body = .ok answer) :
    prepareAnswer codec stored fresh request =
      .ok (continuationOf codec stored fresh latest answer,
        answerUpdate codec stored fresh latest block answer) := by
  obtain ⟨isLast, awaits, _⟩ := pendingV2_ok pending
  have same : ¬request.inReplyTo.any (· ≠ latest.messageId) = true := by
    simpa [Option.any_eq_true] using addressed
  have replaced := replace_answered codec block answer.response isLast awaits
  simp only [prepareAnswer, pending, bind, Except.bind, if_neg same, valid, replaced,
    answerUpdate]

structure Admits (settings : Settings) (registry : Registry ε) (sid : SessionId)
    (latest : TurnRecord) : Prop where
  mode : ∃ mode, ResponseMode.ofString (storedMode latest) = some mode ∧
    (mode = .think → settings.responseModeThinkEnabled = true)
  idle : sid ∉ registry.turns
  room : (registry.turns.keys.length : Int) < settings.maxConcurrentTurns
  goal : latest.goal.isSome → (registry.goalTurns : Int) < settings.goalMaxConcurrentTurns

theorem startContinuation_isOk (settings : Settings) (registry : Registry ε) (sid : SessionId)
    (mode : ResponseMode) (goalMode : Bool) :
    (∃ next, registry.startContinuation settings sid mode goalMode = .ok next) ↔
      (mode = .think → settings.responseModeThinkEnabled = true) ∧ sid ∉ registry.turns ∧
        (registry.turns.keys.length : Int) < settings.maxConcurrentTurns ∧
        (goalMode = true → (registry.goalTurns : Int) < settings.goalMaxConcurrentTurns) := by
  constructor
  · rintro ⟨next, granted⟩
    obtain ⟨_, slot, granted⟩ := bind_ok_iff.mp granted
    obtain ⟨_, available, _⟩ := bind_ok_iff.mp granted
    obtain ⟨idle, slot⟩ := guard_ok_iff.mp slot
    obtain ⟨room, slot⟩ := guard_ok_iff.mp slot
    have goal := (guard_ok_iff.mp slot).1
    have think := (guard_ok_iff.mp available).1
    refine ⟨fun isThink => ?_, idle, by omega, fun isGoal => ?_⟩
    · simpa [isThink] using think
    · simpa [isGoal] using goal
  · rintro ⟨think, idle, room, goal⟩
    have slot : registry.requireSlot settings sid goalMode = .ok () := by
      unfold Registry.requireSlot Registry.requireGoalSlot
      rw [if_neg idle, if_neg (by omega), if_neg]
      rintro ⟨isGoal, full⟩
      exact absurd (goal isGoal) (by omega)
    have available : Registry.requireResponseModeAvailable settings mode = .ok () := by
      unfold Registry.requireResponseModeAvailable
      rw [if_neg]
      rintro ⟨isThink, disabled⟩
      simp [think isThink] at disabled
    exact ⟨_, by simp only [Registry.startContinuation, slot, available]; rfl⟩

/-- Whenever the acceptance is written, the continuation finds its slot. -/
def SlotAfterAcceptance (settings : Settings) (accepting starting : Registry ε) (sid : SessionId)
    (claimed written : Bool) (latest : TurnRecord) : Prop :=
  sid ∉ accepting.turns → claimed = false → written = true → Admits settings starting sid latest

theorem answered_ne {records : List TurnRecord} (response : ClarifyResponseV2)
    (isLast : records.getLast? = some latest) (awaits : latest.status = .awaitingInput) :
    records.dropLast ++ [answeredRecord codec latest block response] ≠ records := by
  intro same
  rw [← same, List.getLast?_append] at isLast
  have answered := Option.some.inj isLast
  rw [← answered] at awaits
  cases awaits

theorem claimContinuation_isOk {registry : Registry ε} {sid : SessionId}
    (prepared : PreparedContinuation) (mode : prepared.inheritedResponseMode = storedMode latest)
    (goal : prepared.inheritedGoal.isSome = latest.goal.isSome) :
    (∃ next, claimContinuation settings registry sid prepared = .ok next) ↔
      Admits settings registry sid latest := by
  unfold claimContinuation
  rw [mode, goal]
  cases parsed : ResponseMode.ofString (storedMode latest) with
  | none =>
    refine ⟨nofun, fun admits => ?_⟩
    obtain ⟨_, isMode, _⟩ := admits.mode
    cases parsed.symm.trans isMode
  | some stored =>
    have granted := startContinuation_isOk settings registry sid stored latest.goal.isSome
    constructor
    · rintro ⟨next, claimed⟩
      simp only at claimed
      split at claimed
      · cases claimed
      case h_2 slot isSlot =>
        obtain ⟨think, idle, room, goal⟩ := granted.mp ⟨slot, isSlot⟩
        exact ⟨⟨stored, parsed, think⟩, idle, room, goal⟩
    · rintro ⟨⟨other, isMode, think⟩, idle, room, goal⟩
      cases Option.some.inj (parsed.symm.trans isMode)
      obtain ⟨next, isNext⟩ := granted.mpr ⟨think, idle, room, goal⟩
      exact ⟨next, by simp only [isNext]⟩

/-- A refused answer leaves the question pending, for every valid answer to a pending
v2 clarification, if and only if nothing is refused once the acceptance is written. -/
theorem refused_answer_stays_iff (codec : Codec) (settings : Settings)
    (accepting starting : Registry ε) (sid : SessionId) (claimed written : Bool)
    (stored : Checkpoint) (fresh : FreshIds) (request : AnswerRequest) {latest : TurnRecord}
    {block : Clarification} {spec : ClarifySpecV2} {answer : ReadAnswer}
    (pending : pendingV2 codec stored.turnRecords = .ok (latest, block, spec))
    (addressed : ∀ id ∈ request.inReplyTo, id = latest.messageId)
    (valid : readAnswer codec spec fresh request.body = .ok answer) :
    (∀ refusal kept, postAnswer codec settings accepting starting sid claimed written stored fresh
        request = (.error refusal, kept) →
      kept.turnRecords = stored.turnRecords ∧
        kept.continuationIntent = stored.continuationIntent) ↔
      SlotAfterAcceptance settings accepting starting sid claimed written latest := by
  obtain ⟨isLast, awaits, _⟩ := pendingV2_ok pending
  have ready := prepareAnswer_ok pending addressed valid
  constructor
  · intro unchanged idle unclaimed succeeds
    subst unclaimed succeeds
    have flow : postAnswer codec settings accepting starting sid false true stored fresh request =
        (claimContinuation settings starting sid (continuationOf codec stored fresh latest answer),
          stored.update (answerUpdate codec stored fresh latest block answer)) := by
      simp only [postAnswer, acceptClarification, if_neg idle, ready]
      rfl
    rw [← claimContinuation_isOk (continuationOf codec stored fresh latest answer) rfl
      (by simp [continuationOf, inheritedGoal])]
    cases outcome : claimContinuation settings starting sid
        (continuationOf codec stored fresh latest answer) with
    | ok next => exact ⟨next, rfl⟩
    | error refusal =>
      rw [outcome] at flow
      have same := (unchanged refusal _ flow).1
      exact absurd same (answered_ne answer.response isLast awaits)
  · intro slot refusal kept refused
    by_cases idle : sid ∈ accepting.turns
    · simp only [postAnswer, acceptClarification, if_pos idle, Prod.mk.injEq] at refused
      obtain ⟨_, rfl⟩ := refused
      exact ⟨rfl, rfl⟩
    · simp only [postAnswer, acceptClarification, if_neg idle] at refused
      cases claimed with
      | true =>
        cases refused
        exact ⟨rfl, rfl⟩
      | false =>
        cases written with
        | false =>
          simp only [ready] at refused
          cases refused
          exact ⟨rfl, rfl⟩
        | true =>
          simp only [ready] at refused
          have admits := slot idle rfl rfl
          rw [← claimContinuation_isOk (continuationOf codec stored fresh latest answer) rfl
            (by simp [continuationOf, inheritedGoal])] at admits
          obtain ⟨next, granted⟩ := admits
          simp [granted] at refused

section Example

def askedRecord : TurnRecord :=
  buildTurnRecord (fun _ => "") [.clarify]
    { ids := { messageId := "a1", userMessageId := "u1" }
      status := .awaitingInput
      userText := some "Where should I apply?"
      clarify := some { spec := "spec", isV2 := true }
      messagesOffset := 0 }

def askedSession : Checkpoint :=
  { messages := [.request "Where should I apply?", .response [.call "ask_student"]]
    turnRecords := [askedRecord] }

def plainCodec : Codec := ⟨fun _ => some ⟨[]⟩, fun _ => none, fun _ => ""⟩

def replyRequest : AnswerRequest := ⟨none, .composer "In the north" none⟩

def freshIds : FreshIds := ⟨"u2", "a2", "t2"⟩

def oneTurnAtATime : Settings := ⟨1024, 1024, 1, 1, true⟩

/-- Another session's turn takes the only slot while the acceptance is written. -/
def slotTaken : Registry Unit := Registry.empty.register oneTurnAtATime "other" false .spawned

end Example

theorem refused_answer_stays_iff_idle :
    SlotAfterAcceptance oneTurnAtATime Registry.empty (Registry.empty : Registry Unit) "s" false true
        askedRecord ∧
      ∀ refusal kept, postAnswer plainCodec oneTurnAtATime Registry.empty
          (Registry.empty : Registry Unit) "s" false true askedSession freshIds replyRequest =
            (.error refusal, kept) →
        kept.turnRecords = askedSession.turnRecords ∧
          kept.continuationIntent = askedSession.continuationIntent := by
  have slot : SlotAfterAcceptance oneTurnAtATime Registry.empty (Registry.empty : Registry Unit) "s"
      false true askedRecord := fun _ _ _ =>
    ⟨⟨.quick, rfl, nofun⟩, by decide, by decide, by decide⟩
  exact ⟨slot, (refused_answer_stays_iff plainCodec oneTurnAtATime Registry.empty Registry.empty "s"
    false true askedSession freshIds replyRequest rfl nofun rfl).mpr slot⟩

theorem refused_answer_is_lost :
    ∃ kept, postAnswer plainCodec oneTurnAtATime Registry.empty slotTaken "s" false true askedSession
        freshIds replyRequest = (.error (.registry .tooManyTurns), kept) ∧
      kept.turnRecords ≠ askedSession.turnRecords ∧
      ∀ claimed written, postAnswer plainCodec oneTurnAtATime Registry.empty
        (Registry.empty : Registry Unit) "s" claimed written kept freshIds replyRequest =
          (.error (if claimed then .claimBusy else .conflict "clarification_stale"), kept) := by
  refine ⟨_, rfl, ?_, ?_⟩
  · exact answered_ne _ rfl rfl
  · intro claimed written
    cases claimed <;> rfl

end Counselle.Clarify

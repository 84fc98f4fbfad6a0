import Counselle.Turns.Anchors

/-! Every offset an edit may slice at is where its turn started. -/
namespace Counselle.Turns
open Protocol Records Clarify Transition

theorem ModelMessage.quiet_quiet (message : ModelMessage) : message.quiet.quiet = message.quiet := by
  cases message with
  | request content => rfl
  | response parts => simp [ModelMessage.quiet]

theorem stripThinking_eq_map {messages : List ModelMessage}
    (spoken : ∀ message ∈ messages, message.stripped.isSome) :
    stripThinking messages = messages.map (·.quiet) := by
  induction messages with
  | nil => rfl
  | cons message rest ih =>
    have here : message.stripped = some message.quiet := by
      have speaks := spoken message List.mem_cons_self
      unfold ModelMessage.stripped at speaks ⊢
      split at speaks
      · cases speaks
      case isFalse some => rw [if_neg some]
    have later := ih fun other isIn => spoken other (List.mem_cons_of_mem _ isIn)
    rw [stripThinking] at later ⊢
    rw [List.filterMap_cons_some here, later, List.map_cons]

theorem stripThinking_congr {messages others : List ModelMessage}
    (same : messages.map (·.quiet) = others.map (·.quiet)) :
    stripThinking messages = stripThinking others := by
  have kept : ∀ messages : List ModelMessage, stripThinking messages =
      (messages.map (·.quiet)).filterMap fun message =>
        if message = .response [] then none else some message := by
    intro messages
    rw [List.filterMap_map]
    rfl
  rw [kept, kept, same]

/-- The history goes on from the base, thinking aside. -/
def Keeps (base messages : List ModelMessage) : Prop :=
  base.map (·.quiet) <+: messages.map (·.quiet)

variable {base messages more history : List ModelMessage}

theorem Keeps.refl (messages : List ModelMessage) : Keeps messages messages := List.prefix_rfl

theorem Keeps.append (keeps : Keeps base messages) (rest : List ModelMessage) :
    Keeps base (messages ++ rest) := by
  rw [Keeps, List.map_append]
  exact keeps.trans (List.prefix_append _ _)

theorem Keeps.trans (first : Keeps base messages) (second : Keeps messages more) :
    Keeps base more :=
  List.IsPrefix.trans first second

theorem Keeps.take (base : List ModelMessage) (count : Nat) : Keeps (base.take count) base :=
  (List.take_prefix count base).map _

theorem Keeps.length_le (keeps : Keeps base messages) : base.length ≤ messages.length := by
  simpa using List.IsPrefix.length_le keeps

theorem Keeps.take_eq (keeps : Keeps base messages) {count : Nat} (within : count ≤ base.length) :
    (messages.take count).map (·.quiet) = (base.take count).map (·.quiet) := by
  rw [List.map_take, List.map_take, (List.prefix_iff_eq_take.mp keeps), List.take_take]
  congr 1
  simp [within]

theorem Keeps.run (spoken : ∀ message ∈ messages, message.stripped.isSome)
    (extends' : stripThinking messages <+: history) : Keeps messages history := by
  have mapped := extends'.map ModelMessage.quiet
  rw [stripThinking_eq_map spoken, List.map_map] at mapped
  have idempotent : ModelMessage.quiet ∘ ModelMessage.quiet = ModelMessage.quiet :=
    funext ModelMessage.quiet_quiet
  rw [idempotent] at mapped
  exact mapped

theorem anchorProse_keeps (keeps : Keeps base messages) (prose : String) :
    Keeps base (anchorProse messages prose).1 := by
  unfold anchorProse
  split
  · exact keeps
  · exact keeps.append _

theorem Terminal.messages_keeps {terminal : Terminal} (keeps : Keeps base messages)
    (partialKeeps : ∀ history ∈ terminal.partialHistory, Keeps base history) :
    Keeps base (terminal.messages messages).1 := by
  unfold Terminal.messages
  cases isPartial : terminal.partialHistory with
  | none => exact anchorProse_keeps keeps _
  | some history => exact anchorProse_keeps (partialKeeps history isPartial) _

/-- A record whose offset will be sliced at: an edit may name it, or an answer resumes it. -/
def Marks (record : TurnRecord) : Prop :=
  (record.synthesizedAnswer = false ∧ record.continuationOf = none) ∨
    record.status = .awaitingInput

abbrev Starts := List (String × List ModelMessage)

structure Anchored (messages : List ModelMessage) (starts : Starts) (record : TurnRecord) : Prop where
  within : record.messagesOffset ≤ messages.length
  exact : ∃ start, starts.lookup record.userMessageId = some start ∧
    (messages.take record.messagesOffset).map (·.quiet) = start.map (·.quiet)

structure Anchors (messages : List ModelMessage) (records : List TurnRecord) (starts : Starts) :
    Prop where
  anchored : ∀ record ∈ records, Marks record → Anchored messages starts record
  ordered : records.Pairwise fun a b => Marks a → Marks b → a.messagesOffset ≤ b.messagesOffset

variable {records : List TurnRecord} {record : TurnRecord} {starts : Starts}

theorem Anchored.keep (anchored : Anchored messages starts record) (old : Keeps base messages)
    (new : Keeps base more) (within : record.messagesOffset ≤ base.length) :
    Anchored more starts record := by
  refine ⟨within.trans new.length_le, ?_⟩
  obtain ⟨start, isStart, same⟩ := anchored.exact
  refine ⟨start, isStart, ?_⟩
  rw [new.take_eq within, ← old.take_eq within]
  exact same

theorem Anchored.later (anchored : Anchored messages starts record) {userMessageId : String}
    (fresh : starts.lookup userMessageId = none) (start : List ModelMessage) :
    Anchored messages ((userMessageId, start) :: starts) record := by
  refine ⟨anchored.within, ?_⟩
  obtain ⟨own, isStart, same⟩ := anchored.exact
  refine ⟨own, ?_, same⟩
  have other : (record.userMessageId == userMessageId) = false := by
    rw [beq_eq_false_iff_ne]
    rintro rfl
    cases fresh.symm.trans isStart
  rw [List.lookup_cons, other]
  exact isStart

theorem Anchors.nil (messages : List ModelMessage) : Anchors messages [] starts := by
  refine ⟨fun record isIn _ => ?_, List.Pairwise.nil⟩
  cases isIn

theorem Anchors.begin (anchors : Anchors messages records starts) {userMessageId : String}
    (fresh : starts.lookup userMessageId = none) (start : List ModelMessage) :
    Anchors messages records ((userMessageId, start) :: starts) :=
  ⟨fun record isIn marks => (anchors.anchored record isIn marks).later fresh start, anchors.ordered⟩

theorem Anchors.keep (anchors : Anchors messages records starts) (old : Keeps base messages)
    (new : Keeps base more)
    (within : ∀ record ∈ records, Marks record → record.messagesOffset ≤ base.length) :
    Anchors more records starts :=
  ⟨fun record isIn marks => (anchors.anchored record isIn marks).keep old new (within record isIn marks),
    anchors.ordered⟩

theorem Anchors.sublist {fewer : List TurnRecord} (anchors : Anchors messages records starts)
    (sub : fewer.Sublist records) : Anchors messages fewer starts :=
  ⟨fun record isIn marks => anchors.anchored record (sub.subset isIn) marks,
    anchors.ordered.sublist sub⟩

theorem Anchors.append (anchors : Anchors messages records starts)
    (here : Marks record → Anchored messages starts record)
    (last : ∀ earlier ∈ records, Marks earlier → Marks record →
      earlier.messagesOffset ≤ record.messagesOffset) :
    Anchors messages (records ++ [record]) starts := by
  refine ⟨fun other isIn marks => ?_, ?_⟩
  · obtain before | same := List.mem_append.mp isIn
    · exact anchors.anchored other before marks
    · cases List.mem_singleton.mp same
      exact here marks
  · refine List.pairwise_append.mpr ⟨anchors.ordered, List.pairwise_singleton _ _, ?_⟩
    intro earlier isIn other isOther
    cases List.mem_singleton.mp isOther
    exact last earlier isIn

theorem appendOrReplace_eq (records : List TurnRecord) (record : TurnRecord) :
    ∃ kept, kept.Sublist records ∧ appendOrReplace records record = kept ++ [record] := by
  unfold appendOrReplace
  split
  · split
    · exact ⟨_, List.dropLast_sublist _, rfl⟩
    · exact ⟨_, List.Sublist.refl _, rfl⟩
  · exact ⟨_, List.Sublist.refl _, rfl⟩

theorem Anchors.commit (anchors : Anchors messages records starts) (old : Keeps base messages)
    (new : Keeps base more)
    (within : ∀ record ∈ records, Marks record → record.messagesOffset ≤ base.length)
    (offset : Marks record → record.messagesOffset = base.length)
    (start : ∃ start, starts.lookup record.userMessageId = some start ∧
      base.map (·.quiet) = start.map (·.quiet)) :
    Anchors more (appendOrReplace records record) starts := by
  obtain ⟨kept, sub, split⟩ := appendOrReplace_eq records record
  rw [split]
  apply Anchors.append ((anchors.sublist sub).keep old new fun other isIn =>
    within other (sub.subset isIn))
  · intro marks
    obtain ⟨history, isStart, same⟩ := start
    refine ⟨(offset marks).trans_le new.length_le, history, isStart, ?_⟩
    rw [offset marks, new.take_eq le_rfl, List.take_length]
    exact same
  · intro earlier isIn isMark marks
    rw [offset marks]
    exact within earlier (sub.subset isIn) isMark

theorem Anchors.settle (anchors : Anchors messages records starts) {last : TurnRecord}
    (isLast : records.getLast? = some last) (marks : Marks record → Marks last)
    (same : record.messagesOffset = last.messagesOffset ∧
      record.userMessageId = last.userMessageId) :
    Anchors messages (records.dropLast ++ [record]) starts := by
  rw [← dropLast_snoc_last isLast] at anchors
  obtain ⟨_, _, ordered⟩ := List.pairwise_append.mp anchors.ordered
  apply (anchors.sublist (List.sublist_append_left _ _)).append
  · intro isMark
    obtain ⟨within, exact⟩ := anchors.anchored last (by simp) (marks isMark)
    refine ⟨same.1 ▸ within, ?_⟩
    rw [same.1, same.2]
    exact exact
  · intro earlier isIn isMark isRecord
    rw [same.1]
    exact ordered earlier isIn last (by simp) isMark (marks isRecord)

/-- The turn began on its own: its record is neither a resume nor a continuation. -/
def OpenTurn.startsNew (turn : OpenTurn) : Bool :=
  match turn.kind with
  | .unread | .fresh => true
  | _ => false

/-- What holds of a running turn: the stored messages and the run handle's go on from
the history it started from, behind which no earlier record is anchored. -/
structure OpenTurn.Ok (turn : OpenTurn) (thread : Thread) (base : List ModelMessage) : Prop where
  stored : Keeps base thread.checkpoint.messages
  input : ∀ input ∈ turn.input, ∃ prompt, input = base ++ [.request prompt]
  prepared : turn.input.isSome → turn.offset = some base.length
  continues : ∀ prepared ∈ turn.continuation?, some prepared.messagesOffset = some base.length
  offset : ∀ offset ∈ turn.offset, offset = base.length
  landed : turn.landed = true → turn.input = some thread.checkpoint.messages
  waiting : turn.landed = false → base = turn.base thread.checkpoint.messages
  marks : ∀ record ∈ thread.checkpoint.turnRecords, Marks record →
    record.messagesOffset ≤ base.length
  start : ∃ start, thread.starts.lookup turn.ids.userMessageId = some start ∧
    base.map (·.quiet) = start.map (·.quiet)
  handle : ∀ history ∈ turn.partialHistory, Keeps base history
  resumes : ∀ parked ∈ turn.parked?, parkedRecord thread.checkpoint.turnRecords = some parked ∧
    parked.messageId = turn.ids.messageId
  fresh : turn.startsNew → turn.ids.messageId ∉ messageIds thread.checkpoint.turnRecords

structure Thread.Ok (thread : Thread) : Prop where
  anchors : Anchors thread.checkpoint.messages thread.checkpoint.turnRecords thread.starts
  turn : ∀ turn ∈ thread.turn, ∃ base, turn.Ok thread base

/-- A failure is written only once the input is prepared, or over an empty history; a
new turn is stopped before its input is stored only over a history that does not end
with a request; a run goes on from a history in which every response speaks. -/
def Thread.Safe (thread : Thread) : ThreadLabel → Prop
  | .snapshot history _ | .commit history _ _ =>
    (∀ message ∈ thread.checkpoint.messages, message.stripped.isSome) ∧
      stripThinking thread.checkpoint.messages <+: history
  | .fail _ _ => ∀ turn ∈ thread.turn, turn.offset = none → thread.checkpoint.messages = []
  | .stop _ _ => ∀ turn ∈ thread.turn, turn.startsNew → turn.landed = false →
    thread.checkpoint.messages.getLast?.any (·.isRequest) = false
  | _ => True

instance (thread : Thread) : DecidablePred thread.Safe
  | .snapshot _ _ | .commit _ _ _ => inferInstanceAs (Decidable (_ ∧ _))
  | .fail _ _ => inferInstanceAs (Decidable (∀ _ ∈ _, _ → _))
  | .stop _ _ => inferInstanceAs (Decidable (∀ _ ∈ _, _ → _ → _))
  | .begin _ _ _ _ | .answer _ _ | .prepare _ _ | .land | .exhaust _ | .park _ _ | .lose | .unpark
  | .edit _ => isTrue trivial

variable {codec : Codec} {signature : Payload → String} {thread next : Thread} {turn : OpenTurn}

theorem Thread.Ok.close (update : StateUpdate)
    (anchors : Anchors (update.messages.getD thread.checkpoint.messages)
      (update.turnRecords.getD thread.checkpoint.turnRecords) thread.starts) :
    (thread.close update).Ok := by
  refine ⟨anchors, fun turn isTurn => ?_⟩
  cases isTurn

theorem OpenTurn.Ok.commit (ok : turn.Ok thread base) (threadOk : thread.Ok)
    (keeps : Keeps base more) (own : record.userMessageId = turn.ids.userMessageId)
    (offset : Marks record → record.messagesOffset = base.length) :
    Anchors more (appendOrReplace thread.checkpoint.turnRecords record) thread.starts :=
  threadOk.anchors.commit ok.stored keeps ok.marks offset (own ▸ ok.start)

theorem resolveOffset_landed (ok : turn.Ok thread base) (landed : turn.landed = true)
    {explicit : Option Nat} (own : ∀ offset ∈ explicit, offset = base.length) :
    resolveOffset explicit thread.checkpoint.messages = base.length := by
  cases explicit with
  | some offset => exact own offset rfl
  | none =>
    obtain ⟨prompt, isInput⟩ := ok.input _ (ok.landed landed)
    simp [resolveOffset, isInput, ModelMessage.isRequest]

theorem Thread.Ok.commit (ok : thread.Ok) (isTurn : thread.turn = some turn)
    {out : List ModelMessage} {emissions : List Emission} {asks : Option Question}
    (keeps : ∀ base, turn.Ok thread base → Keeps base out)
    (step : thread.commit signature turn out emissions asks = some next) : next.Ok := by
  obtain ⟨base, turnOk⟩ := ok.turn turn isTurn
  unfold Thread.commit at step
  split at step
  case isTrue landed =>
    cases step
    apply Thread.Ok.close
    apply turnOk.commit ok (keeps base turnOk) rfl
    intro _
    apply resolveOffset_landed turnOk landed
    intro offset isOffset
    refine turnOk.offset offset ?_
    have set : turn.nodeOffset = some offset := isOffset
    unfold OpenTurn.nodeOffset at set
    split at set
    · cases set
    · exact set
  case isFalse => cases step

theorem Thread.Ok.park (ok : thread.Ok) (isTurn : thread.turn = some turn)
    {spec : Option Payload} {emissions : List Emission}
    (step : thread.park signature turn spec emissions = some next) : next.Ok := by
  obtain ⟨base, turnOk⟩ := ok.turn turn isTurn
  unfold Thread.park at step
  split at step
  case isTrue due =>
    cases step
    have isInput := turnOk.landed due.1
    have set := turnOk.prepared (by rw [isInput]; rfl)
    apply Thread.Ok.close
    apply turnOk.commit ok turnOk.stored rfl
    intro _
    change resolveOffset turn.offset _ = _
    rw [set]
    rfl
  case isFalse => cases step

theorem buildTerminalUpdate_records (signature : Payload → String) (messages : List ModelMessage)
    (records : List TurnRecord) (terminal : Terminal) : ∃ record,
      (buildTerminalUpdate signature messages records terminal).turnRecords =
        some (appendOrReplace records record) ∧
      record.userMessageId = terminal.context.ids.userMessageId ∧
      record.status = terminal.context.status ∧
      record.synthesizedAnswer = terminal.context.synthesizedAnswer ∧
      record.continuationOf = terminal.context.continuationOf ∧
      ∀ offset, terminal.messagesOffset = some offset → record.messagesOffset = offset := by
  refine ⟨_, rfl, rfl, rfl, rfl, rfl, fun offset isSet => ?_⟩
  change resolveOffset terminal.messagesOffset _ = offset
  rw [isSet]
  rfl

theorem buildTerminalUpdate_keeps (signature : Payload → String) (records : List TurnRecord)
    (terminal : Terminal) {messages : List ModelMessage} (keeps : Keeps base messages)
    (partialKeeps : ∀ history ∈ terminal.partialHistory, Keeps base history) :
    ∀ kept ∈ (buildTerminalUpdate signature messages records terminal).messages,
      Keeps base kept := by
  intro kept isKept
  have leaves := terminal.messages_keeps keeps partialKeeps
  unfold buildTerminalUpdate at isKept
  cases left : terminal.messages messages with
  | mk after changed =>
    rw [left] at leaves isKept
    cases changed with
    | true =>
      cases isKept
      exact leaves
    | false => cases isKept

theorem failureMessages_keeps (ok : turn.Ok thread base) :
    Keeps base (Thread.failureMessages thread.checkpoint turn) := by
  unfold Thread.failureMessages
  split
  · exact ok.stored
  · split
    case h_1 input isInput =>
      obtain ⟨prompt, rfl⟩ := ok.input input isInput
      split
      · exact (Keeps.refl base).append _
      · exact ok.stored
    case h_2 => exact ok.stored

theorem failureOffset (ok : turn.Ok thread base)
    (safe : turn.offset = none → thread.checkpoint.messages = []) :
    turn.offset.getD ((Thread.failureMessages thread.checkpoint turn).length - 1) = base.length := by
  cases isSet : turn.offset with
  | some offset => exact ok.offset offset isSet
  | none =>
    have empty := safe isSet
    have unprepared : turn.input = none := by
      cases isInput : turn.input with
      | none => rfl
      | some input =>
        have set := ok.prepared (by rw [isInput]; rfl)
        cases isSet.symm.trans set
    have short := ok.stored.length_le
    rw [empty, List.length_nil, Nat.le_zero] at short
    simp [Thread.failureMessages, unprepared, empty, short]

theorem update_keeps {written : Option (List ModelMessage)} (stored : Keeps base messages)
    (restored : Keeps base more) (own : ∀ kept ∈ written, Keeps base kept) :
    Keeps base ((written <|> if messages.length < more.length then some more else none).getD
      messages) := by
  cases written with
  | some kept => exact own kept rfl
  | none =>
    by_cases shorter : messages.length < more.length
    · simpa [shorter] using restored
    · simpa [shorter] using stored

theorem Thread.Ok.fail (ok : thread.Ok) (isTurn : thread.turn = some turn)
    {emissions : List Emission} {error : ErrorData} (safe : thread.Safe (.fail emissions error))
    (step : thread.fail signature turn emissions error = some next) : next.Ok := by
  obtain ⟨base, turnOk⟩ := ok.turn turn isTurn
  unfold Thread.fail at step
  split at step
  · cases step
    exact Thread.Ok.close _ ok.anchors
  · cases step
    apply Thread.Ok.close
    obtain ⟨record, isCommitted, own, _, _, _, isSet⟩ := buildTerminalUpdate_records signature
      (Thread.failureMessages thread.checkpoint turn) thread.checkpoint.turnRecords
      (turn.failureTerminal emissions error
        (turn.offset.getD ((Thread.failureMessages thread.checkpoint turn).length - 1)))
    have leaves := failureMessages_keeps turnOk
    have partialKeeps : ∀ history ∈ (turn.failureTerminal emissions error
        (turn.offset.getD ((Thread.failureMessages thread.checkpoint turn).length - 1))).partialHistory,
        Keeps base history := by
      intro history isPartial
      simp only [OpenTurn.failureTerminal] at isPartial
      split at isPartial
      · cases isPartial
      · exact turnOk.handle history isPartial
    have kept := buildTerminalUpdate_keeps signature thread.checkpoint.turnRecords _ leaves
      partialKeeps
    rw [isCommitted]
    refine turnOk.commit ok ?_ own fun _ => ?_
    · exact update_keeps turnOk.stored leaves kept
    · rw [isSet _ rfl]
      exact failureOffset turnOk (safe turn isTurn)

theorem partialTerminal_marks (ok : turn.Ok thread base) {emissions : List Emission}
    {error : Option ErrorData} (marks : Marks record)
    (status : record.status = (turn.partialTerminal thread.checkpoint emissions error).context.status)
    (synthesized : record.synthesizedAnswer =
      (turn.partialTerminal thread.checkpoint emissions error).context.synthesizedAnswer)
    (continuation : record.continuationOf =
      (turn.partialTerminal thread.checkpoint emissions error).context.continuationOf) :
    turn.startsNew = true ∧ (turn.partialTerminal thread.checkpoint emissions error).messagesOffset =
      some (resolveOffset none thread.checkpoint.messages) := by
  have settled : record.status ≠ .awaitingInput := by
    rw [status]
    simp only [OpenTurn.partialTerminal]
    split <;> nofun
  obtain ⟨fresh, root⟩ := marks.resolve_right settled
  rw [synthesized] at fresh
  rw [continuation] at root
  simp only [OpenTurn.partialTerminal, OpenTurn.context, Option.isSome_eq_false_iff,
    Option.isNone_iff_eq_none] at fresh
  have noRoot : turn.continuation? = none := by
    simpa [OpenTurn.partialTerminal, OpenTurn.context] using root
  refine ⟨?_, ?_⟩
  · cases kind : turn.kind with
    | unread => simp [OpenTurn.startsNew, kind]
    | fresh => simp [OpenTurn.startsNew, kind]
    | continuation prepared => simp [OpenTurn.continuation?, kind] at noRoot
    | resume parked =>
      obtain ⟨isParked, same⟩ := ok.resumes parked (by simp [OpenTurn.parked?, kind])
      simp [isParked, same, noRoot] at fresh
  · simp only [OpenTurn.partialTerminal, Option.isNone_iff_eq_none, fresh, Option.map_none]

theorem Thread.Ok.stop (ok : thread.Ok) (isTurn : thread.turn = some turn)
    {emissions : List Emission} {error : Option ErrorData}
    (safe : thread.Safe (.stop emissions error))
    (step : thread.stop signature turn emissions error = some next) : next.Ok := by
  obtain ⟨base, turnOk⟩ := ok.turn turn isTurn
  simp only [Thread.stop] at step
  split at step
  · cases step
    exact Thread.Ok.close _ ok.anchors
  · cases step
    apply Thread.Ok.close
    obtain ⟨record, isCommitted, own, status, synthesized, continuation, isSet⟩ :=
      buildTerminalUpdate_records signature thread.checkpoint.messages thread.checkpoint.turnRecords
        (turn.partialTerminal thread.checkpoint emissions error)
    have kept := buildTerminalUpdate_keeps signature thread.checkpoint.turnRecords
      (turn.partialTerminal thread.checkpoint emissions error) turnOk.stored turnOk.handle
    rw [isCommitted]
    refine turnOk.commit ok ?_ own fun marks => ?_
    · cases written : (buildTerminalUpdate signature thread.checkpoint.messages
          thread.checkpoint.turnRecords
          (turn.partialTerminal thread.checkpoint emissions error)).messages with
      | some after => exact kept after written
      | none => exact turnOk.stored
    · obtain ⟨startsNew, anchor⟩ :=
        partialTerminal_marks turnOk marks status synthesized continuation
      rw [isSet _ anchor]
      cases landed : turn.landed with
      | true => exact resolveOffset_landed turnOk landed nofun
      | false =>
        have isBase : base = thread.checkpoint.messages := by
          rw [turnOk.waiting landed]
          unfold OpenTurn.startsNew at startsNew
          split at startsNew
          case h_1 kind => simp [OpenTurn.base, kind]
          case h_2 kind => simp [OpenTurn.base, kind]
          case h_3 => cases startsNew
        simp [resolveOffset, safe turn isTurn startsNew landed, isBase]

theorem OpenTurn.Ok.ofNew (ok : thread.Ok) (new : turn.startsNew = true)
    (untouched : turn.input = none ∧ turn.offset = none ∧ turn.landed = false ∧ turn.handle = none)
    (unused : turn.ids.messageId ∉ messageIds thread.checkpoint.turnRecords) :
    turn.Ok (thread.beginTurn turn thread.checkpoint.messages) thread.checkpoint.messages := by
  obtain ⟨input, offset, landed, handle⟩ := untouched
  have isNew : turn.kind = .unread ∨ turn.kind = .fresh := by
    cases kind : turn.kind <;> simp_all [OpenTurn.startsNew]
  refine
    { stored := Keeps.refl _
      input := by simp [input]
      prepared := by simp [input]
      continues := ?_
      offset := by simp [offset]
      landed := by simp [landed]
      waiting := fun _ => ?_
      marks := fun record isIn marks => (ok.anchors.anchored record isIn marks).within
      start := ⟨_, by simp [Thread.beginTurn], rfl⟩
      handle := by simp [OpenTurn.partialHistory, handle]
      resumes := ?_
      fresh := fun _ => unused }
  all_goals obtain kind | kind := isNew
  all_goals simp [OpenTurn.continuation?, OpenTurn.base, OpenTurn.parked?, Thread.beginTurn, kind]

theorem OpenTurn.Ok.ofResume (ok : thread.Ok) {parked : TurnRecord} {ids : Records.TurnIds}
    {userText : String} {skills : List String}
    (isParked : parkedRecord thread.checkpoint.turnRecords = some parked)
    (same : parked.messageId = ids.messageId) :
    ({ ids, kind := .resume parked, userText, skills } : OpenTurn).Ok
      (thread.beginTurn { ids, kind := .resume parked, userText, skills }
        ((thread.starts.lookup parked.userMessageId).getD thread.checkpoint.messages))
      (thread.checkpoint.messages.take parked.messagesOffset) := by
  obtain ⟨isLast, awaits⟩ := parkedRecord_eq_some.mp isParked
  have isIn := List.mem_of_getLast? isLast
  obtain ⟨within, start, isStart, exact⟩ := ok.anchors.anchored parked isIn (Or.inr awaits)
  have length : (thread.checkpoint.messages.take parked.messagesOffset).length =
      parked.messagesOffset := by simpa using within
  exact
    { stored := Keeps.take _ _
      input := nofun
      prepared := nofun
      continues := nofun
      offset := nofun
      landed := nofun
      waiting := fun _ => rfl
      marks := by
        intro record isRecord marks
        rw [length]
        have ordered := ok.anchors.ordered
        change record ∈ thread.checkpoint.turnRecords at isRecord
        rw [← dropLast_snoc_last isLast] at ordered isRecord
        obtain before | here := List.mem_append.mp isRecord
        · exact (List.pairwise_append.mp ordered).2.2 record before parked (by simp) marks
            (Or.inr awaits)
        · cases List.mem_singleton.mp here
          exact le_rfl
      start := ⟨start, by simp [Thread.beginTurn, isStart], exact⟩
      handle := nofun
      resumes := fun other isOther => by
        cases isOther
        exact ⟨isParked, same⟩
      fresh := nofun }

theorem Thread.Ok.begin (ok : thread.Ok) {ids : Records.TurnIds} {userText : String}
    {skills : List String} {readable : Bool}
    (step : thread.begin ids userText skills readable = some next) : next.Ok := by
  unfold Thread.begin at step
  split at step
  · cases step
  case isFalse idle =>
    have new : thread.starts.lookup ids.userMessageId = none :=
      Option.not_isSome_iff_eq_none.mp (not_or.mp idle).2
    split at step
    case h_1 parked isParked =>
      split at step
      case isTrue same =>
        cases step
        refine ⟨ok.anchors.begin new _, fun turn isTurn => ?_⟩
        cases isTurn
        exact ⟨_, .ofResume ok isParked same⟩
      case isFalse => cases step
    all_goals
      split at step
      · cases step
      case isFalse unused =>
        cases step
        refine ⟨ok.anchors.begin new _, fun turn isTurn => ?_⟩
        cases isTurn
        exact ⟨_, .ofNew ok rfl ⟨rfl, rfl, rfl, rfl⟩ unused⟩

theorem prepareAnswer_inv {checkpoint : Checkpoint} {fresh : FreshIds} {request : AnswerRequest}
    {prepared : PreparedContinuation} {update : StateUpdate}
    (accepted : prepareAnswer codec checkpoint fresh request = .ok (prepared, update)) :
    ∃ latest block answer, checkpoint.turnRecords.getLast? = some latest ∧
      latest.status = .awaitingInput ∧
      prepared = continuationOf codec checkpoint fresh latest answer ∧
      update = answerUpdate codec checkpoint fresh latest block answer := by
  obtain ⟨⟨latest, block, spec⟩, pending, accepted⟩ := Fallible.bind_ok_iff.mp accepted
  obtain ⟨isLast, awaits, _⟩ := pendingV2_ok pending
  obtain ⟨_, accepted⟩ := Fallible.guard_ok_iff.mp accepted
  obtain ⟨answer, _, accepted⟩ := Fallible.bind_ok_iff.mp accepted
  rw [replace_answered codec block answer.response isLast awaits] at accepted
  cases accepted
  exact ⟨latest, block, answer, isLast, awaits, rfl, rfl⟩

theorem OpenTurn.Ok.ofContinuation {prepared : PreparedContinuation} {ids : Records.TurnIds}
    {userText : String} {skills : List String} (thread : Thread)
    (offset : prepared.messagesOffset = prepared.completedMessageHistory.length)
    (anchors : Anchors prepared.completedMessageHistory thread.checkpoint.turnRecords starts)
    (messages : thread.checkpoint.messages = prepared.completedMessageHistory)
    (start : thread.starts.lookup ids.userMessageId = some prepared.completedMessageHistory) :
    ({ ids, kind := .continuation prepared, userText, skills,
       offset := some prepared.messagesOffset } : OpenTurn).Ok thread
      prepared.completedMessageHistory where
  stored := messages ▸ Keeps.refl _
  input := by simp
  prepared := by simp
  continues := fun other isOther => by
    cases isOther
    exact congrArg some offset
  offset := fun other isSet => by
    cases isSet
    exact offset
  landed := by simp
  waiting := fun _ => rfl
  marks := fun record isIn marks => (anchors.anchored record isIn marks).within
  start := ⟨_, start, rfl⟩
  handle := by simp [OpenTurn.partialHistory]
  resumes := by simp [OpenTurn.parked?]
  fresh := by simp [OpenTurn.startsNew]

theorem Thread.Ok.answer (ok : thread.Ok) {fresh : FreshIds} {request : AnswerRequest}
    (step : thread.answer codec fresh request = some next) : next.Ok := by
  unfold Thread.answer at step
  split at step
  · cases step
  case isFalse idle =>
    split at step
    · cases step
    case h_2 prepared update isPrepared =>
      simp only at step
      split at step
      · cases step
      case isFalse owns =>
        cases step
        obtain ⟨latest, block, answer, isLast, awaits, rfl, rfl⟩ := prepareAnswer_inv isPrepared
        have new := Option.not_isSome_iff_eq_none.mp (not_or.mp owns).1
        have settled := ok.anchors.settle isLast
          (fun _ : Marks (answeredRecord codec latest block answer.response) => Or.inr awaits)
          ⟨rfl, rfl⟩
        refine ⟨settled.begin new _, fun turn isTurn => ?_⟩
        cases isTurn
        exact ⟨_, .ofContinuation _ rfl settled rfl (by simp [Thread.beginTurn, continuationOf])⟩

theorem Thread.Ok.prepare (ok : thread.Ok) (isTurn : thread.turn = some turn)
    {prompt sourceConfig : Payload}
    (step : thread.prepare turn prompt sourceConfig = some next) : next.Ok := by
  obtain ⟨base, turnOk⟩ := ok.turn turn isTurn
  unfold Thread.prepare at step
  split at step
  · cases step
  · cases step
  case h_3 noInput kind =>
    cases step
    have waits : turn.landed = false := by
      cases landed : turn.landed with
      | false => rfl
      | true => cases noInput.symm.trans (turnOk.landed landed)
    have isBase := turnOk.waiting waits
    refine ⟨ok.anchors, fun other isOther => ?_⟩
    cases isOther
    have offset : turn.preparedOffset thread.checkpoint.messages = some base.length := by
      unfold OpenTurn.preparedOffset
      cases kind : turn.kind with
      | unread => simp [isBase, OpenTurn.base, kind]
      | fresh => simp [isBase, OpenTurn.base, kind]
      | resume parked =>
        obtain ⟨isParked, _⟩ := turnOk.resumes parked (by simp [OpenTurn.parked?, kind])
        obtain ⟨isLast, awaits⟩ := parkedRecord_eq_some.mp isParked
        have within :=
          (ok.anchors.anchored parked (List.mem_of_getLast? isLast) (Or.inr awaits)).within
        simp [isBase, OpenTurn.base, kind, within]
      | continuation prepared =>
        exact turnOk.continues prepared (by simp [OpenTurn.continuation?, kind])
    exact ⟨base,
      { stored := turnOk.stored
        input := by
          intro input isInput
          cases isInput
          exact ⟨prompt, by rw [isBase]⟩
        prepared := fun _ => offset
        continues := turnOk.continues
        offset := fun other isSet => Option.some.inj (isSet.symm.trans offset)
        landed := by simp [waits]
        waiting := fun _ => isBase
        marks := turnOk.marks
        start := turnOk.start
        handle := turnOk.handle
        resumes := turnOk.resumes
        fresh := turnOk.fresh }⟩

theorem Thread.Ok.land (ok : thread.Ok) (isTurn : thread.turn = some turn)
    (step : thread.land turn = some next) : next.Ok := by
  obtain ⟨base, turnOk⟩ := ok.turn turn isTurn
  unfold Thread.land at step
  split at step
  case h_1 input isInput =>
    split at step
    · cases step
    · cases step
      obtain ⟨prompt, rfl⟩ := turnOk.input input isInput
      have goesOn : Keeps base (base ++ [.request prompt]) := (Keeps.refl base).append _
      refine ⟨ok.anchors.keep turnOk.stored goesOn turnOk.marks, fun other isOther => ?_⟩
      cases isOther
      exact ⟨base,
        { stored := goesOn
          input := turnOk.input
          prepared := turnOk.prepared
          continues := turnOk.continues
          offset := turnOk.offset
          landed := fun _ => isInput
          waiting := nofun
          marks := turnOk.marks
          start := turnOk.start
          handle := turnOk.handle
          resumes := turnOk.resumes
          fresh := turnOk.fresh }⟩
  case h_2 => cases step

theorem Thread.Ok.snapshot (ok : thread.Ok) (isTurn : thread.turn = some turn)
    {history : List ModelMessage} {emissionsLen : Nat}
    (safe : thread.Safe (.snapshot history emissionsLen)) :
    (thread.setTurn { turn with handle := some (history, emissionsLen) }).Ok := by
  obtain ⟨base, turnOk⟩ := ok.turn turn isTurn
  refine ⟨ok.anchors, fun other isOther => ?_⟩
  cases isOther
  exact ⟨base,
    { stored := turnOk.stored
      input := turnOk.input
      prepared := turnOk.prepared
      continues := turnOk.continues
      offset := turnOk.offset
      landed := turnOk.landed
      waiting := turnOk.waiting
      marks := turnOk.marks
      start := turnOk.start
      handle := by
        intro kept isKept
        obtain ⟨held, _⟩ := Option.filter_eq_some_iff.mp isKept
        cases held
        exact turnOk.stored.trans (Keeps.run safe.1 safe.2)
      resumes := turnOk.resumes
      fresh := turnOk.fresh }⟩

theorem Thread.Ok.unpark (ok : thread.Ok) (step : thread.unpark = some next) : next.Ok := by
  obtain ⟨parked, isParked, rfl⟩ := Option.map_eq_some_iff.mp step
  obtain ⟨isLast, awaits⟩ := parkedRecord_eq_some.mp isParked
  exact Thread.Ok.close _ (ok.anchors.settle isLast (fun _ => Or.inr awaits) ⟨rfl, rfl⟩)

theorem resolveEditTarget_eq {checkpoint : Checkpoint} {replaceMessageId : String}
    {index offset : Nat} (target : resolveEditTarget checkpoint replaceMessageId = some (index, offset)) :
    ∃ record, checkpoint.turnRecords[index]? = some record ∧
      record.userMessageId = replaceMessageId ∧ Marks record ∧ record.messagesOffset = offset ∧
      offset ≤ checkpoint.messages.length := by
  obtain ⟨found, isIndex, target⟩ := Option.bind_eq_some_iff.mp target
  obtain ⟨record, isRecord, target⟩ := Option.bind_eq_some_iff.mp target
  obtain ⟨position, isPosition, mayEdit⟩ := Option.bind_eq_some_iff.mp isIndex
  obtain ⟨named, isNamed, mayEdit⟩ := Option.bind_eq_some_iff.mp mayEdit
  split at target
  case isTrue within =>
    cases target
    split at mayEdit
    · cases mayEdit
    case isFalse plain =>
      cases mayEdit
      cases isNamed.symm.trans isRecord
      obtain ⟨notAnswer, notContinuation⟩ := not_or.mp plain
      obtain ⟨bound, owns, _⟩ := List.findIdx?_eq_some_iff_getElem.mp isPosition
      obtain ⟨_, here⟩ := List.getElem?_eq_some_iff.mp isRecord
      rw [here] at owns
      refine ⟨record, isRecord, of_decide_eq_true owns, Or.inl ⟨?_, ?_⟩, rfl, within⟩
      · simpa using notAnswer
      · simpa using notContinuation
  case isFalse => cases target

theorem Thread.Ok.rewrite (ok : thread.Ok) {replaceMessageId : String}
    (step : thread.rewrite replaceMessageId = some next) : next.Ok := by
  obtain ⟨⟨index, offset⟩, target, rfl⟩ := Option.map_eq_some_iff.mp step
  obtain ⟨record, isRecord, _, marks, rfl, within⟩ := resolveEditTarget_eq target
  apply Thread.Ok.close
  have length : (thread.checkpoint.messages.take record.messagesOffset).length =
      record.messagesOffset := by simpa using within
  apply (ok.anchors.sublist (List.take_sublist index _)).keep (Keeps.take _ _) (Keeps.refl _)
  intro earlier isEarlier isMark
  rw [length]
  have split : thread.checkpoint.turnRecords =
      thread.checkpoint.turnRecords.take index ++ thread.checkpoint.turnRecords.drop index :=
    (List.take_append_drop index _).symm
  have ordered := ok.anchors.ordered
  rw [split] at ordered
  have later : record ∈ thread.checkpoint.turnRecords.drop index := by
    have first : (thread.checkpoint.turnRecords.drop index)[0]? = some record := by
      simpa using isRecord
    exact List.mem_of_getElem? first
  exact (List.pairwise_append.mp ordered).2.2 earlier isEarlier record later isMark marks

theorem Thread.Ok.step {label : ThreadLabel} (ok : thread.Ok) (safe : thread.Safe label)
    (step : thread.step codec signature label = some next) : next.Ok := by
  cases label with
  | begin ids userText skills readable => exact ok.begin step
  | answer fresh request => exact ok.answer step
  | unpark =>
    simp only [Thread.step] at step
    split at step
    · cases step
    · exact ok.unpark step
  | edit replaceMessageId =>
    simp only [Thread.step] at step
    split at step
    · cases step
    · exact ok.rewrite step
  | prepare prompt sourceConfig =>
    obtain ⟨turn, isTurn, step⟩ := Option.bind_eq_some_iff.mp step
    exact ok.prepare isTurn step
  | land =>
    obtain ⟨turn, isTurn, step⟩ := Option.bind_eq_some_iff.mp step
    exact ok.land isTurn step
  | snapshot history emissionsLen =>
    obtain ⟨turn, isTurn, step⟩ := Option.bind_eq_some_iff.mp step
    split at step
    · cases step
      exact ok.snapshot isTurn safe
    · cases step
  | commit out emissions asks =>
    obtain ⟨turn, isTurn, step⟩ := Option.bind_eq_some_iff.mp step
    exact ok.commit isTurn (fun base turnOk => turnOk.stored.trans (Keeps.run safe.1 safe.2)) step
  | exhaust emissions =>
    obtain ⟨turn, isTurn, step⟩ := Option.bind_eq_some_iff.mp step
    exact ok.commit isTurn (fun base turnOk => anchorProse_keeps turnOk.stored _) step
  | park spec emissions =>
    obtain ⟨turn, isTurn, step⟩ := Option.bind_eq_some_iff.mp step
    exact ok.park isTurn step
  | fail emissions error =>
    obtain ⟨turn, isTurn, step⟩ := Option.bind_eq_some_iff.mp step
    exact ok.fail isTurn safe step
  | stop emissions error =>
    obtain ⟨turn, isTurn, step⟩ := Option.bind_eq_some_iff.mp step
    exact ok.stop isTurn safe step
  | lose =>
    obtain ⟨turn, isTurn, rfl⟩ := Option.map_eq_some_iff.mp step
    exact Thread.Ok.close _ ok.anchors

/-- Wherever an edit may slice, the messages before the slice are, one by one, those the
turn started from, the model gets the same history from them, and the edit leaves just
them and the records before that turn. The thinking in them, which no run hands to the
model again, may be gone. -/
def Thread.EditsExact (thread : Thread) : Prop :=
  ∀ replaceMessageId index offset,
    resolveEditTarget thread.checkpoint replaceMessageId = some (index, offset) →
    ∃ record start next, thread.checkpoint.turnRecords[index]? = some record ∧
      record.userMessageId = replaceMessageId ∧
      thread.starts.lookup replaceMessageId = some start ∧
      (thread.checkpoint.messages.take offset).map (·.quiet) = start.map (·.quiet) ∧
      stripThinking (thread.checkpoint.messages.take offset) = stripThinking start ∧
      thread.rewrite replaceMessageId = some next ∧
      next.checkpoint.turnRecords = thread.checkpoint.turnRecords.take index ∧
      next.checkpoint.messages = thread.checkpoint.messages.take offset

theorem Thread.Ok.editsExact (ok : thread.Ok) : thread.EditsExact := by
  intro replaceMessageId index offset target
  have rewritten : thread.rewrite replaceMessageId = some _ :=
    Option.map_eq_some_iff.mpr ⟨_, target, rfl⟩
  obtain ⟨record, isRecord, rfl, marks, rfl, _⟩ := resolveEditTarget_eq target
  obtain ⟨_, start, isStart, exact⟩ :=
    ok.anchors.anchored record (List.mem_of_getElem? isRecord) marks
  exact ⟨record, start, _, isRecord, rfl, isStart, exact, stripThinking_congr exact, rewritten, rfl,
    rfl⟩

/-- In every run whose steps are safe, every anchor an edit may use is exact. -/
theorem edit_anchors_exact (codec : Codec) (signature : Payload → String)
    (labels : List ThreadLabel) (thread : Thread)
    (path : run (Thread.step codec signature) {} labels = some thread)
    (safe : Meets (Thread.step codec signature) Thread.Safe {} labels) : thread.EditsExact := by
  have empty : ({} : Thread).Ok := by
    refine ⟨Anchors.nil _, fun turn isTurn => ?_⟩
    cases isTurn
  have ok := invariant_of_meets (P := Thread.Ok) (fun ok safe step => ok.step safe step) empty path
    safe
  exact ok.editsExact

section Example

def idsOf (messageId userMessageId : String) : Records.TurnIds := ⟨messageId, userMessageId, none, none⟩

def answeredTurn : List ThreadLabel :=
  [.begin (idsOf "a1" "u1") "hello" [] true, .prepare "hello" "", .land,
    .commit [.request "hello", .response [.text "hi"]] [.delta "hi"] none]

def cancelledTurn : List ThreadLabel :=
  answeredTurn ++
    [.begin (idsOf "a2" "u2") "more" [] true, .prepare "more" "", .land, .stop [.delta "mo"] none]

def unpreparedTurn : List ThreadLabel :=
  answeredTurn ++ [.begin (idsOf "a2" "u2") "more" [] true, .fail [] { message := "failed", traceId := "t" }]

end Example

theorem edit_anchors_exact_cancelled :
    ∃ thread, run (Thread.step plainCodec id) {} cancelledTurn = some thread ∧
      resolveEditTarget thread.checkpoint "u2" = some (1, 2) ∧ thread.EditsExact := by
  have ends : (run (Thread.step plainCodec id) {} cancelledTurn).any fun thread =>
      resolveEditTarget thread.checkpoint "u2" = some (1, 2) := by decide +kernel
  obtain ⟨thread, path, target⟩ := (Option.any_eq_true _ _).mp ends
  have safe : Meets (Thread.step plainCodec id) Thread.Safe {} cancelledTurn := by decide +kernel
  exact ⟨thread, path, of_decide_eq_true target,
    edit_anchors_exact plainCodec id cancelledTurn thread path safe⟩

theorem failed_turn_edit_drops_answer :
    ∃ thread, run (Thread.step plainCodec id) {} unpreparedTurn = some thread ∧
      thread.checkpoint.messages = [.request "hello", .response [.text "hi"]] ∧
      thread.starts.lookup "u2" = some thread.checkpoint.messages ∧
      resolveEditTarget thread.checkpoint "u2" = some (1, 1) ∧ ¬ thread.EditsExact := by
  have ends : (run (Thread.step plainCodec id) {} unpreparedTurn).any fun thread =>
      thread.checkpoint.messages = [.request "hello", .response [.text "hi"]] ∧
      thread.starts.lookup "u2" = some thread.checkpoint.messages ∧
      resolveEditTarget thread.checkpoint "u2" = some (1, 1) := by decide +kernel
  obtain ⟨thread, path, facts⟩ := (Option.any_eq_true _ _).mp ends
  obtain ⟨messages, start, target⟩ := of_decide_eq_true facts
  refine ⟨thread, path, messages, start, target, fun exact => ?_⟩
  obtain ⟨_, history, _, _, _, isStart, same, _⟩ := exact "u2" 1 1 target
  cases start.symm.trans isStart
  rw [messages] at same
  exact absurd (congrArg List.length same) (by decide)

end Counselle.Turns

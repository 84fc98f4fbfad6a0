import Counselle.Chat.Recorded

/-! A reload of a turn against what it showed live. -/
namespace Counselle.Chat
open Protocol Records Upsert

/-- What a segment shows: its kind and its text, step data or spec. -/
inductive Shown where
  | narration (text : String)
  | thinking (text : String)
  | user (text : String)
  | tool (step : StepData)
  | answer (text : String)
  | viz (spec : Payload)
  | clarify (spec : Payload)
deriving DecidableEq, Repr

/-- Nothing for an empty text or a user message that was never injected. -/
def Segment.shown : Segment → Option Shown
  | .narration _ text => if text = "" then none else some (.narration text)
  | .thinking _ text => if text = "" then none else some (.thinking text)
  | .user _ text injected => if injected = false ∨ text = "" then none else some (.user text)
  | .tool step => some (.tool step)
  | .answer text => if text = "" then none else some (.answer text)
  | .viz spec => some (.viz spec)
  | .clarify spec _ => some (.clarify spec)

def shownSegments (state : TurnState) : List Shown := state.segments.filterMap Segment.shown

def messageShown (message : UserMessage) : Option Shown :=
  if message.injected = false ∨ message.text = "" then none else some (.user message.text)

/-- What a shape shows once it is filled with the data of `events`. -/
def Shape.shown (events : List Event) : Shape → Option Shown
  | .narration text => if text = "" then none else some (.narration text)
  | .thinking text => if text = "" then none else some (.thinking text)
  | .user id => (mergedMessages (messagesOf events id)).bind messageShown
  | .tool id => (mergedFrames (framesOf events id)).map .tool
  | .answer text => if text = "" then none else some (.answer text)
  | .viz spec => some (.viz spec)
  | .clarify spec => some (.clarify spec)

variable {signature observed : Payload → String}

def shapesOf (signature : Payload → String) (events : List Event) : List Shape :=
  (play (settle signature (events.map beatOf))).shapes.reverse

theorem shownSegments_reduce (signature : Payload → String) (events : List Event) :
    shownSegments (reduceEvents signature events) =
      (shapesOf signature events).filterMap (Shape.shown events) := by
  have folded := folded_reduceEvents signature events
  rw [shapesOf, ← folded.shapes, List.filterMap_map]
  refine List.filterMap_congr fun segment present => ?_
  cases segment with
  | tool step => simp [Segment.shown, Segment.shape, Shape.shown, folded.tools step present]
  | user id text injected =>
    simp [Segment.shown, Segment.shape, Shape.shown, folded.users id text injected present,
      messageShown]
  | _ => rfl

theorem count_shapesOf (shape : Shape) (keyed : shape.keyed = true) (events : List Event) :
    (shapesOf signature events).count shape = if shape.beat ∈ events.map beatOf then 1 else 0 := by
  rw [shapesOf, List.count_reverse, count_play keyed, count_settle signature keyed]

theorem mem_shapesOf (shape : Shape) (keyed : shape.keyed = true) (events : List Event) :
    shape ∈ shapesOf signature events ↔ shape.beat ∈ events.map beatOf := by
  rw [← List.count_pos_iff, count_shapesOf shape keyed]
  split <;> simp_all

theorem settle_silent (events quiet : List Event) (silent : ∀ event ∈ quiet, beatOf event = .silent) :
    settle signature ((events ++ quiet).map beatOf) =
      settle signature (events.map beatOf) ++ List.replicate quiet.length .silent := by
  induction quiet using List.reverseRecOn with
  | nil => simp
  | append_singleton quiet event ih =>
    have earlier := ih fun other present => silent other (List.mem_append_left _ present)
    rw [← List.append_assoc, List.map_append, List.map_singleton, settle_snoc, earlier,
      silent event (by simp), List.length_append, List.length_singleton, List.replicate_succ',
      List.append_assoc]
    rfl

theorem play_silent (beats : List Beat) (n : Nat) :
    (play (beats ++ List.replicate n .silent)).shapes = (play beats).shapes := by
  induction n with
  | zero => simp
  | succ n ih => rw [List.replicate_succ', ← List.append_assoc, play_snoc, ← ih]; rfl

theorem filter_silent (injected : String → Bool) (n : Nat) :
    (List.replicate n Beat.silent).filter (persisted injected) = [] := by
  simp [persisted]

/-- Whether the last form of a user message is an injected one. -/
def endsInjected (emissions : List Emission) (userMessageId : String) : Bool :=
  ((userMessages emissions).filter (·.userMessageId = userMessageId)).getLast?.any (·.injected)

def StreamedTurn.replay (observed : Payload → String) (turn : StreamedTurn) : List Event :=
  transcriptEntryToEvents
    (assistantEntryForRecord (buildTurnRecord observed turn.emissions turn.context))

/-- The segments of the record before user messages never injected are dropped. -/
def StreamedTurn.built (observed : Payload → String) (turn : StreamedTurn) : SegmentsBuilder :=
  (turn.emissions.foldl (SegmentsBuilder.add observed) {}).flushDelta

def StreamedTurn.live (observed : Payload → String) (turn : StreamedTurn) : List Event :=
  .metadata turn.metadata :: turn.liveEvents observed

theorem recorded_built (signature observed : Payload → String) (turn : StreamedTurn) :
    Recorded signature turn.context.clarify turn.emissions (turn.live observed)
      (turn.built observed) :=
  (recorded_turn signature observed turn.context.clarify turn.metadata turn.emissions).1.flushDelta

theorem built_step {turn : StreamedTurn} {data : StepData}
    (present : .step data ∈ (turn.built observed).segments) :
    ((stepFrames turn.emissions).filter (·.stepId = data.stepId)).getLast? = some data := by
  have last := (recorded_built observed observed turn).frames data present
  rwa [StreamedTurn.live, StreamedTurn.liveEvents, framesOf_live] at last

theorem built_user {turn : StreamedTurn} {data : UserMessage}
    (present : .user data ∈ (turn.built observed).segments) :
    ((userMessages turn.emissions).filter (·.userMessageId = data.userMessageId)).getLast? =
      some data := by
  have last := (recorded_built observed observed turn).messages data present
  rwa [StreamedTurn.live, StreamedTurn.liveEvents, messagesOf_live] at last

theorem segments_beats (observed : Payload → String) (turn : StreamedTurn) :
    (buildSegments observed turn.emissions).map (segmentBeat turn.context.clarify) =
      ((turn.built observed).segments.map (segmentBeat turn.context.clarify)).filter
        (replays (endsInjected turn.emissions)) := by
  rw [List.filter_map]
  refine congrArg (List.map _) (List.filter_congr fun segment present => ?_)
  cases segment with
  | user data =>
    show data.injected = endsInjected turn.emissions data.userMessageId
    rw [endsInjected, built_user present]
    rfl
  | _ => rfl

theorem clarify_built (observed : Payload → String) (turn : StreamedTurn) :
    .clarify ∈ buildSegments observed turn.emissions ↔ .clarify ∈ turn.emissions := by
  rw [← (recorded_built observed observed turn).asked]
  exact List.mem_filter.trans (and_iff_left rfl)

theorem clarifyEvents_built (observed : Payload → String) (turn : StreamedTurn) :
    ∃ answered, (∀ event ∈ answered, beatOf event = .silent) ∧
      clarifyEvents
          (assistantEntryForRecord (buildTurnRecord observed turn.emissions turn.context)) =
        interruptEvents turn.emissions turn.context.clarify ++ answered := by
  have pointer : (buildSegments observed turn.emissions).any (· = .clarify) =
      decide (Emission.clarify ∈ turn.emissions) := by
    rw [Bool.eq_iff_iff, List.any_eq_true, decide_eq_true_iff, ← clarify_built observed]
    simp
  simp only [clarifyEvents, assistantEntryForRecord, buildTurnRecord, Option.getD_some, pointer,
    interruptEvents]
  cases turn.context.clarify with
  | none => exact ⟨[], by simp, rfl⟩
  | some question =>
    simp only [decide_eq_true_eq]
    cases question.response with
    | none => exact ⟨[], by simp, rfl⟩
    | some response => exact ⟨[_], by simp [beatOf], rfl⟩

theorem replay_events (observed : Payload → String) (turn : StreamedTurn) :
    ∃ quiet, (∀ event ∈ quiet, beatOf event = .silent) ∧
      turn.replay observed =
        (buildSegments observed turn.emissions).map (transcriptSegmentToEvent turn.context.clarify) ++
          interruptEvents turn.emissions turn.context.clarify ++ quiet := by
  obtain ⟨answered, silent, asked⟩ := clarifyEvents_built observed turn
  refine ⟨answered ++ (turn.context.usage.toList.map Event.usage ++
    [endingEvent turn.context.status (if turn.context.status = .error then turn.context.error
      else none)]), ?_, ?_⟩
  · intro event present
    simp only [List.mem_append, List.mem_map, List.mem_singleton] at present
    rcases present with earlier | ⟨_, _, rfl⟩ | rfl
    · exact silent event earlier
    · rfl
    · cases turn.context.status <;> rfl
  · rw [StreamedTurn.replay, transcriptEntryToEvents, asked]
    simp only [assistantEntryForRecord, buildTurnRecord, transcriptSegmentsToEvents,
      Option.getD_some, List.append_assoc]
    rfl

theorem shapesOf_replay (signature observed : Payload → String) (turn : StreamedTurn) :
    shapesOf signature (turn.replay observed) =
      (play ((settle signature ((turn.stream observed).map beatOf)).filter
        (persisted (endsInjected turn.emissions)))).shapes.reverse := by
  have recorded := (recorded_built signature observed turn).plays (endsInjected turn.emissions)
  have settled : pendingBeats (turn.built observed) = [] := if_pos (flushDelta_pending _)
  rw [← segments_beats, settled, List.append_nil] at recorded
  have beats : (buildSegments observed turn.emissions).map (segmentBeat turn.context.clarify) =
      ((buildSegments observed turn.emissions).map
        (transcriptSegmentToEvent turn.context.clarify)).map beatOf := by
    rw [List.map_map]
    rfl
  obtain ⟨quiet, silent, replay⟩ := replay_events observed turn
  have stream : turn.stream observed = turn.live observed ++
      interruptEvents turn.emissions turn.context.clarify ++
      (turn.sources.toList.map Event.sources ++ turn.context.usage.toList.map Event.usage ++
        [endingEvent turn.context.status turn.context.error]) := rfl
  rw [shapesOf, replay, settle_silent _ _ silent, play_silent, stream,
    settle_silent _ _ (fun _ present => closing_silent turn present), List.filter_append,
    filter_silent, List.append_nil]
  refine congrArg List.reverse (congrArg Stage.shapes ?_)
  rw [List.map_append, List.map_append, ← beats]
  unfold interruptEvents
  split
  · split
    · rw [List.map_nil, List.append_nil, List.append_nil, recorded]
    · rw [List.map_singleton, settle_snoc, settle_snoc, List.filter_append, List.filter_singleton]
      simp only [beatOf, settleOne, persisted, cond_true, play_snoc, recorded]
  · rw [List.map_nil, List.append_nil, List.append_nil, recorded]

def framesFor (emissions : List Emission) (stepId : String) : List StepData :=
  (stepFrames emissions).filter (·.stepId = stepId)

def messagesFor (emissions : List Emission) (userMessageId : String) : List UserMessage :=
  (userMessages emissions).filter (·.userMessageId = userMessageId)

/-- No last frame of a step lacks a key that an earlier frame had. -/
def KeepsKeys (emissions : List Emission) : Prop :=
  ∀ stepId last, (framesFor emissions stepId).getLast? = some last →
    ∀ frame ∈ framesFor emissions stepId, (frame.tool.isSome → last.tool.isSome) ∧
      (frame.sources.isSome → last.sources.isSome) ∧ (frame.ui.isSome → last.ui.isSome)

/-- A user message that was injected once and ends with text ends injected. -/
def KeepsInjected (emissions : List Emission) : Prop :=
  ∀ id last, (messagesFor emissions id).getLast? = some last → last.text ≠ "" →
    (∃ message ∈ messagesFor emissions id, message.injected = true) → last.injected = true

theorem mergedFrames_key_last (key : StepData → Option String)
    (merges : ∀ existing step, key (mergeStep existing step) = (key step <|> key existing))
    {frames : List StepData} {merged last : StepData} (isMerged : mergedFrames frames = some merged)
    (ends : frames.getLast? = some last) :
    key merged = key last ↔ ∀ frame ∈ frames, (key frame).isSome → (key last).isSome := by
  have once := mergedFrames_key merges isMerged
  constructor
  · intro same frame present has
    rw [← same]
    exact once.mpr ⟨frame, present, has⟩
  · intro kept
    cases has : key last with
    | none =>
      have unset : ¬ (key merged).isSome = true := by
        intro set
        obtain ⟨frame, present, has'⟩ := once.mp set
        have := kept frame present has'
        simp [has] at this
      simpa using unset
    | some value =>
      obtain ⟨last', ends', rfl | ⟨before, rfl⟩⟩ := mergedFrames_inv isMerged
      · cases ends.symm.trans ends'
        exact has
      · cases ends.symm.trans ends'
        rw [merges, has]
        rfl

theorem mergedFrames_eq_last {frames : List StepData} {merged last : StepData}
    (isMerged : mergedFrames frames = some merged) (ends : frames.getLast? = some last) :
    merged = last ↔ ∀ frame ∈ frames, (frame.tool.isSome → last.tool.isSome) ∧
      (frame.sources.isSome → last.sources.isSome) ∧ (frame.ui.isSome → last.ui.isSome) := by
  have tool := mergedFrames_key_last (·.tool) (fun _ _ => rfl) isMerged ends
  have sources := mergedFrames_key_last (·.sources) (fun _ _ => rfl) isMerged ends
  have ui := mergedFrames_key_last (·.ui) (fun _ _ => rfl) isMerged ends
  constructor
  · rintro rfl frame present
    exact ⟨tool.mp rfl frame present, sources.mp rfl frame present, ui.mp rfl frame present⟩
  · intro kept
    have sameTool := tool.mpr fun frame present => (kept frame present).1
    have sameSources := sources.mpr fun frame present => (kept frame present).2.1
    have sameUi := ui.mpr fun frame present => (kept frame present).2.2
    obtain ⟨last', ends', rfl | ⟨before, rfl⟩⟩ := mergedFrames_inv isMerged
    · exact Option.some.inj (ends'.symm.trans ends)
    · cases ends.symm.trans ends'
      simp only [mergeStep] at sameTool sameSources sameUi ⊢
      rw [sameTool, sameSources, sameUi]

theorem foldl_const {A : Type} {merge : A → A → A} {item : A} (idem : merge item item = item)
    {items : List A} (all : ∀ other ∈ items, other = item) : items.foldl merge item = item := by
  induction items with
  | nil => rfl
  | cons head rest ih =>
    rw [List.foldl_cons, all head (.head _), idem]
    exact ih fun other present => all other (.tail _ present)

theorem mergedFrames_const {frames : List StepData} {data : StepData} (nonempty : frames ≠ [])
    (all : ∀ frame ∈ frames, frame = data) : mergedFrames frames = some data := by
  cases frames with
  | nil => exact absurd rfl nonempty
  | cons first rest =>
    rw [all first (.head _)]
    refine congrArg some (foldl_const ?_ fun other present => all other (.tail _ present))
    rcases data with ⟨_, _, _, _, _, _, tool, sources, ui⟩
    cases tool <;> cases sources <;> cases ui <;> rfl

theorem mergedMessages_const {messages : List UserMessage} {data : UserMessage}
    (nonempty : messages ≠ []) (all : ∀ message ∈ messages, message = data) :
    mergedMessages messages = some data := by
  cases messages with
  | nil => exact absurd rfl nonempty
  | cons first rest =>
    rw [all first (.head _)]
    refine congrArg some (foldl_const ?_ fun other present => all other (.tail _ present))
    rcases data with ⟨_, _, injected⟩
    cases injected <;> rfl

theorem replay_segment {turn : StreamedTurn} {event : Event}
    (present : event ∈ turn.replay observed) (keyed : (beatOf event).keyed = true) :
    ∃ segment ∈ (turn.built observed).segments, segment.replayed = true ∧
      transcriptSegmentToEvent turn.context.clarify segment = event := by
  obtain ⟨quiet, silent, replay⟩ := replay_events observed turn
  rw [replay] at present
  rcases List.mem_append.mp present with earlier | last
  · rcases List.mem_append.mp earlier with recorded | asked
    · obtain ⟨segment, member, same⟩ := List.mem_map.mp recorded
      obtain ⟨member, replayed⟩ := List.mem_filter.mp member
      exact ⟨segment, member, replayed, same⟩
    · unfold interruptEvents at asked
      split at asked
      · split at asked
        · cases asked
        · cases List.mem_singleton.mp asked
          cases keyed
      · cases asked
  · rw [silent event last] at keyed
    cases keyed

theorem replay_frames {turn : StreamedTurn} {stepId : String} {frame : StepData}
    (present : frame ∈ framesOf (turn.replay observed) stepId) :
    (framesFor turn.emissions stepId).getLast? = some frame := by
  obtain ⟨event, member, picked⟩ := List.mem_filterMap.mp present
  cases event with
  | step data =>
    simp only [Option.ite_none_right_eq_some, Option.some.injEq] at picked
    obtain ⟨same, rfl⟩ := picked
    obtain ⟨segment, built, _, event⟩ := replay_segment member rfl
    cases segment <;> cases event
    rw [← same]
    exact built_step built
  | _ => cases picked

theorem replay_messages {turn : StreamedTurn} {id : String} {message : UserMessage}
    (present : message ∈ messagesOf (turn.replay observed) id) :
    (messagesFor turn.emissions id).getLast? = some message ∧ message.injected = true := by
  obtain ⟨event, member, picked⟩ := List.mem_filterMap.mp present
  cases event with
  | userMessage data =>
    simp only [Option.ite_none_right_eq_some, Option.some.injEq] at picked
    obtain ⟨same, rfl⟩ := picked
    obtain ⟨segment, built, replayed, event⟩ := replay_segment member rfl
    cases segment <;> cases event
    rw [← same]
    exact ⟨built_user built, replayed⟩
  | _ => cases picked

theorem framesOf_ne_nil {events : List Event} {stepId : String}
    (present : .tool stepId ∈ shapesOf signature events) : framesOf events stepId ≠ [] := by
  have beat := (mem_shapesOf (.tool stepId) rfl events).mp present
  obtain ⟨event, member, isStep⟩ := List.mem_map.mp beat
  cases event <;> cases isStep
  exact List.ne_nil_of_mem (List.mem_filterMap.mpr ⟨_, member, if_pos rfl⟩)

theorem replay_frames_merged {turn : StreamedTurn} {stepId : String}
    (present : .tool stepId ∈ shapesOf signature (turn.replay observed)) :
    ∃ last, (framesFor turn.emissions stepId).getLast? = some last ∧
      mergedFrames (framesOf (turn.replay observed) stepId) = some last := by
  have nonempty := framesOf_ne_nil present
  obtain ⟨last, ends⟩ : ∃ last, (framesFor turn.emissions stepId).getLast? = some last :=
    ⟨_, replay_frames (List.head_mem nonempty)⟩
  refine ⟨last, ends, mergedFrames_const nonempty fun frame member => ?_⟩
  exact Option.some.inj ((replay_frames member).symm.trans ends)

theorem replay_messages_merged {turn : StreamedTurn} {id : String}
    (present : .user id ∈ shapesOf signature (turn.replay observed)) :
    ∃ last, (messagesFor turn.emissions id).getLast? = some last ∧ last.injected = true ∧
      mergedMessages (messagesOf (turn.replay observed) id) = some last := by
  have beat := (mem_shapesOf (.user id) rfl _).mp present
  have nonempty : messagesOf (turn.replay observed) id ≠ [] := by
    obtain ⟨event, member, isUser⟩ := List.mem_map.mp beat
    cases event <;> cases isUser
    exact List.ne_nil_of_mem (List.mem_filterMap.mpr ⟨_, member, if_pos rfl⟩)
  obtain ⟨ends, injected⟩ := replay_messages (List.head_mem nonempty)
  refine ⟨_, ends, injected, mergedMessages_const nonempty fun message member => ?_⟩
  exact Option.some.inj ((replay_messages member).1.symm.trans ends)

theorem shown_replay {turn : StreamedTurn} (keeps : KeepsKeys turn.emissions) {shape : Shape}
    (present : shape ∈ shapesOf signature (turn.replay observed)) :
    shape.shown (turn.replay observed) = shape.shown (turn.stream observed) := by
  cases shape with
  | tool stepId =>
    obtain ⟨last, ends, merged⟩ := replay_frames_merged present
    cases live : mergedFrames (framesFor turn.emissions stepId) with
    | none =>
      cases frames : framesFor turn.emissions stepId with
      | nil => simp [frames] at ends
      | cons _ _ => simp [frames, mergedFrames] at live
    | some step =>
      have same := (mergedFrames_eq_last live ends).mpr (keeps stepId last ends)
      rw [Shape.shown, Shape.shown, merged, framesOf_stream, ← framesFor, live, same]
  | user id =>
    obtain ⟨last, ends, injected, merged⟩ := replay_messages_merged present
    cases live : mergedMessages (messagesFor turn.emissions id) with
    | none =>
      cases messages : messagesFor turn.emissions id with
      | nil => simp [messages] at ends
      | cons _ _ => simp [messages, mergedMessages] at live
    | some message =>
      obtain ⟨⟨last', ends', text⟩, once⟩ := mergedMessages_inv live
      cases ends.symm.trans ends'
      have also := once.mpr ⟨last, List.mem_of_getLast? ends, injected⟩
      rw [Shape.shown, Shape.shown, merged, messagesOf_stream, ← messagesFor, live]
      simp [messageShown, injected, also, text]
  | _ => rfl

def shownMass : Shown → Nat
  | .narration text => text.length + 3
  | .thinking text => text.length + 3
  | .user text => text.length + 3
  | .answer text => text.length + 3
  | _ => 3

def massOf (shown : Option Shown) : Nat := shown.elim 0 shownMass

def weightOf (events : List Event) (id : String) : Nat := massOf ((Shape.user id).shown events)

theorem massOf_shown (events : List Event) (shape : Shape)
    (framed : ∀ stepId, shape = .tool stepId → framesOf events stepId ≠ []) :
    shapeMass (weightOf events) shape = massOf (shape.shown events) := by
  cases shape with
  | tool stepId =>
    cases frames : framesOf events stepId with
    | nil => exact absurd frames (framed stepId rfl)
    | cons first rest => simp [shapeMass, Shape.shown, frames, mergedFrames, massOf, shownMass]
  | user id => rfl
  | viz spec => rfl
  | clarify spec => rfl
  | answer text => simp only [shapeMass, Shape.shown]; split <;> rfl
  | thinking text => simp only [shapeMass, Shape.shown]; split <;> rfl
  | narration text => simp only [shapeMass, Shape.shown]; split <;> rfl

theorem sum_filterMap {A : Type} (shown : A → Option Shown) (items : List A) :
    ((items.filterMap shown).map shownMass).sum = (items.map fun item => massOf (shown item)).sum := by
  induction items with
  | nil => rfl
  | cons item rest ih =>
    rw [List.filterMap_cons]
    cases here : shown item <;> simp [here, massOf, ih]

theorem invisible_shown {events : List Event} {shape : Shape}
    (invisible : visible (weightOf events) shape = false) : shape.shown events = none := by
  cases shape with
  | user id =>
    have weightless : weightOf events id = 0 := by simpa [visible] using invisible
    rw [weightOf] at weightless
    cases shown : (Shape.user id).shown events with
    | none => rfl
    | some item =>
      rw [shown] at weightless
      cases item <;> simp [massOf, shownMass] at weightless
  | _ => simp_all [visible, Shape.shown]

theorem filterMap_seen (events : List Event) (shapes : List Shape) :
    (seen (weightOf events) shapes).filterMap (Shape.shown events) =
      shapes.filterMap (Shape.shown events) := by
  induction shapes with
  | nil => rfl
  | cons shape rest ih =>
    rw [seen_cons]
    cases isVisible : visible (weightOf events) shape with
    | true => rw [if_pos rfl, List.filterMap_cons, List.filterMap_cons, ih]
    | false =>
      rw [if_neg Bool.false_ne_true, ih, List.filterMap_cons, invisible_shown isVisible]

theorem weightOf_uninjected (observed : Payload → String) {turn : StreamedTurn}
    (keeps : KeepsInjected turn.emissions) (id : String)
    (uninjected : endsInjected turn.emissions id = false) :
    weightOf (turn.stream observed) id = 0 := by
  rw [weightOf, Shape.shown, messagesOf_stream, ← messagesFor]
  cases merged : mergedMessages (messagesFor turn.emissions id) with
  | none => rfl
  | some message =>
    obtain ⟨⟨last, ends, text⟩, once⟩ := mergedMessages_inv merged
    have dropped : message.injected = false ∨ message.text = "" := by
      by_contra shown
      rw [not_or, Bool.not_eq_false] at shown
      have injected := keeps id last ends (by rw [← text]; exact shown.2) (once.mp shown.1)
      rw [endsInjected, ← messagesFor, ends] at uninjected
      exact Bool.false_ne_true (uninjected.symm.trans injected)
    rw [Option.bind_some, messageShown, if_pos dropped]
    rfl

theorem shown_alike {turn : StreamedTurn} (keys : KeepsKeys turn.emissions)
    (injected : KeepsInjected turn.emissions)
    (joins : AllJoin (endsInjected turn.emissions)
      (settle signature ((turn.stream observed).map beatOf))) :
    (shapesOf signature (turn.stream observed)).filterMap (Shape.shown (turn.stream observed)) =
      (shapesOf signature (turn.replay observed)).filterMap (Shape.shown (turn.replay observed)) := by
  have alike := plays_alike (weightOf_uninjected observed injected) joins
  have reversed : ∀ shapes : List Shape,
      seen (weightOf (turn.stream observed)) shapes.reverse =
        (seen (weightOf (turn.stream observed)) shapes).reverse := fun _ => List.filter_reverse
  calc
    _ = (seen (weightOf (turn.stream observed)) (shapesOf signature (turn.stream observed))).filterMap
          (Shape.shown (turn.stream observed)) := (filterMap_seen _ _).symm
    _ = (seen (weightOf (turn.stream observed)) (shapesOf signature (turn.replay observed))).filterMap
          (Shape.shown (turn.stream observed)) := by
        rw [shapesOf_replay, shapesOf, reversed, reversed, alike]
    _ = (shapesOf signature (turn.replay observed)).filterMap
          (Shape.shown (turn.stream observed)) := filterMap_seen _ _
    _ = _ := List.filterMap_congr fun _ present => (shown_replay keys present).symm

theorem keepsKeys_of_shown {turn : StreamedTurn}
    (same : (shapesOf signature (turn.stream observed)).filterMap (Shape.shown (turn.stream observed)) =
      (shapesOf signature (turn.replay observed)).filterMap (Shape.shown (turn.replay observed))) :
    KeepsKeys turn.emissions := by
  intro stepId last ends
  cases live : mergedFrames (framesFor turn.emissions stepId) with
  | none =>
    cases frames : framesFor turn.emissions stepId with
    | nil => simp [frames] at ends
    | cons _ _ => simp [frames, mergedFrames] at live
  | some step =>
    rw [← mergedFrames_eq_last live ends]
    have member := List.mem_of_getLast? ends
    have liveTool : .tool stepId ∈ shapesOf signature (turn.stream observed) := by
      refine (mem_shapesOf (.tool stepId) rfl _).mpr ?_
      by_contra absent
      have none := framesOf_eq_nil absent
      rw [framesOf_stream, ← framesFor] at none
      rw [none] at member
      cases member
    have liveShown : (Shape.tool stepId).shown (turn.stream observed) = some (.tool step) := by
      rw [Shape.shown, framesOf_stream, ← framesFor, live]
      rfl
    have shown := List.mem_filterMap.mpr ⟨_, liveTool, liveShown⟩
    rw [same] at shown
    obtain ⟨shape, present, isStep⟩ := List.mem_filterMap.mp shown
    have idOf : ∀ id frame, (framesFor turn.emissions id).getLast? = some frame →
        frame.stepId = id := by
      intro id frame isLast
      simpa using (List.mem_filter.mp (List.mem_of_getLast? isLast)).2
    cases shape with
    | tool other =>
      obtain ⟨recorded, recordedEnds, merged⟩ := replay_frames_merged present
      rw [Shape.shown, merged] at isStep
      cases isStep
      obtain ⟨last', ends', sameId, _⟩ := mergedFrames_last live
      have there : other = stepId := by
        rw [← idOf other _ recordedEnds, sameId, idOf stepId _ ends']
      rw [there] at recordedEnds
      exact Option.some.inj (recordedEnds.symm.trans ends)
    | user id =>
      obtain ⟨recorded, _, _, merged⟩ := replay_messages_merged present
      rw [Shape.shown, merged, Option.bind_some, messageShown] at isStep
      split at isStep <;> cases isStep
    | _ =>
      simp only [Shape.shown] at isStep
      first | cases isStep | (split at isStep <;> cases isStep)

def Shown.isUser : Shown → Bool
  | .user _ => true
  | _ => false

def Shape.showsUser (events : List Event) (shape : Shape) : Bool :=
  ((shape.shown events).map Shown.isUser).getD false

theorem showsUser_user {events : List Event} {shape : Shape}
    (shows : shape.showsUser events = true) : ∃ id, shape = .user id := by
  cases shape with
  | user id => exact ⟨id, rfl⟩
  | tool id => cases merged : mergedFrames (framesOf events id) <;>
      simp [Shape.showsUser, Shape.shown, merged, Shown.isUser] at shows
  | viz spec => cases shows
  | clarify spec => cases shows
  | _ => by_cases empty : ‹String› = "" <;>
      simp [Shape.showsUser, Shape.shown, empty, Shown.isUser] at shows

theorem nodup_usersShown (events : List Event) :
    ((shapesOf signature events).filter (Shape.showsUser events)).Nodup := by
  rw [List.nodup_iff_count_le_one]
  intro shape
  by_cases shows : shape.showsUser events = true
  · obtain ⟨id, rfl⟩ := showsUser_user shows
    refine (List.filter_sublist.count_le _).trans ?_
    rw [count_shapesOf (.user id) rfl]
    split <;> omega
  · rw [List.count_eq_zero_of_not_mem fun present => shows (List.mem_filter.mp present).2]
    exact Nat.zero_le _

theorem length_usersShown (signature : Payload → String) (events : List Event) :
    ((shapesOf signature events).filter (Shape.showsUser events)).length =
      ((shapesOf signature events).filterMap (Shape.shown events)).countP Shown.isUser := by
  rw [List.countP_filterMap, List.countP_eq_length_filter]
  rfl

theorem mem_stream_user {turn : StreamedTurn} {id : String} {message : UserMessage}
    (present : message ∈ messagesFor turn.emissions id) :
    .user id ∈ shapesOf signature (turn.stream observed) := by
  refine (mem_shapesOf (.user id) rfl _).mpr ?_
  by_contra absent
  have none := messagesOf_eq_nil absent
  rw [messagesOf_stream, ← messagesFor] at none
  rw [none] at present
  cases present

theorem keepsInjected_of_shown {turn : StreamedTurn} (keys : KeepsKeys turn.emissions)
    (same : (shapesOf signature (turn.stream observed)).filterMap (Shape.shown (turn.stream observed)) =
      (shapesOf signature (turn.replay observed)).filterMap (Shape.shown (turn.replay observed))) :
    KeepsInjected turn.emissions := by
  have subset : (shapesOf signature (turn.replay observed)).filter
        (Shape.showsUser (turn.replay observed)) ⊆
      (shapesOf signature (turn.stream observed)).filter
        (Shape.showsUser (turn.stream observed)) := by
    intro shape present
    obtain ⟨present, shows⟩ := List.mem_filter.mp present
    obtain ⟨id, rfl⟩ := showsUser_user shows
    obtain ⟨last, ends, _, _⟩ := replay_messages_merged present
    refine List.mem_filter.mpr ⟨mem_stream_user (List.mem_of_getLast? ends), ?_⟩
    rwa [Shape.showsUser, ← shown_replay keys present]
  have lengths := (length_usersShown signature (turn.stream observed)).trans
    ((congrArg (List.countP Shown.isUser) same).trans (length_usersShown signature (turn.replay observed)).symm)
  have perm := (List.subperm_of_subset (nodup_usersShown _) subset).perm_of_length_le
    (le_of_eq lengths)
  intro id last ends text once
  have shows : (Shape.user id).showsUser (turn.stream observed) = true := by
    cases live : mergedMessages (messagesFor turn.emissions id) with
    | none =>
      cases messages : messagesFor turn.emissions id with
      | nil => simp [messages] at ends
      | cons _ _ => simp [messages, mergedMessages] at live
    | some message =>
      obtain ⟨⟨last', ends', sameText⟩, injected⟩ := mergedMessages_inv live
      cases ends.symm.trans ends'
      rw [Shape.showsUser, Shape.shown, messagesOf_stream, ← messagesFor, live, Option.bind_some,
        messageShown, if_neg (by simp [injected.mpr once, sameText, text])]
      rfl
  have shown := perm.mem_iff.mpr
    (List.mem_filter.mpr ⟨mem_stream_user (List.mem_of_getLast? ends), shows⟩)
  obtain ⟨last', ends', injected, _⟩ := replay_messages_merged (List.mem_filter.mp shown).1
  cases ends.symm.trans ends'
  exact injected

theorem mass_shapesOf (signature : Payload → String) (events : List Event) :
    mass (weightOf events) (shapesOf signature events) =
      (((shapesOf signature events).filterMap (Shape.shown events)).map shownMass).sum := by
  rw [sum_filterMap, mass]
  refine congrArg List.sum (List.map_congr_left fun shape present => massOf_shown events shape ?_)
  rintro stepId rfl
  exact framesOf_ne_nil present

/-- A reload shows what streamed if and only if no step lost a key, no message with
text stopped being injected, and every beat joins its segment alike on both sides. -/
theorem reload_shows_iff (signature observed : Payload → String) (turn : StreamedTurn) :
    shownSegments (reduceEvents signature (turn.stream observed)) =
        shownSegments (reduceTranscriptEntry signature (assistantEntryForRecord
          (buildTurnRecord observed turn.emissions turn.context))) ↔
      KeepsKeys turn.emissions ∧ KeepsInjected turn.emissions ∧
        AllJoin (endsInjected turn.emissions)
          (settle signature ((turn.stream observed).map beatOf)) := by
  have replayed : shownSegments (reduceTranscriptEntry signature (assistantEntryForRecord
      (buildTurnRecord observed turn.emissions turn.context))) =
        shownSegments (reduceEvents signature (turn.replay observed)) := rfl
  rw [replayed, shownSegments_reduce, shownSegments_reduce]
  constructor
  · intro same
    have keys := keepsKeys_of_shown same
    have injected := keepsInjected_of_shown keys same
    refine ⟨keys, injected, allJoin_of_mass (weightOf_uninjected observed injected) ?_⟩
    have reversed : ∀ shapes : List Shape, mass (weightOf (turn.stream observed)) shapes.reverse =
        mass (weightOf (turn.stream observed)) shapes := fun shapes => by simp [mass, List.sum_reverse]
    have live := mass_shapesOf signature (turn.stream observed)
    have record : mass (weightOf (turn.stream observed)) (shapesOf signature (turn.replay observed)) =
        (((shapesOf signature (turn.replay observed)).filterMap
          (Shape.shown (turn.replay observed))).map shownMass).sum := by
      rw [sum_filterMap, mass]
      refine congrArg List.sum (List.map_congr_left fun shape present => ?_)
      rw [shown_replay keys present]
      refine massOf_shown _ shape ?_
      rintro stepId rfl
      obtain ⟨last, ends, _⟩ := replay_frames_merged present
      rw [framesOf_stream, ← framesFor]
      exact List.ne_nil_of_mem (List.mem_of_getLast? ends)
    rw [same, ← record, shapesOf_replay, shapesOf, reversed, reversed] at live
    exact live
  · rintro ⟨keys, injected, joins⟩
    exact shown_alike keys injected joins

/-- Two thoughts, with the end of an earlier step between them. -/
def partedThoughts : StreamedTurn where
  metadata := ⟨"t1", "s1", "m", "m1", "u1", some "quick"⟩
  emissions :=
    [.step { stepId := "a", status := .start, kind := .sql, label := "Query" }, .thinking "First",
      .step { stepId := "a", status := .ended, kind := .sql, label := "Query" }, .thinking "Second"]
  context := { ids := ⟨"m1", "u1", none, none⟩, status := .complete, messagesOffset := 0 }
  sources := none

/-- The end frame leaves no segment behind, so the replay joins the thoughts. -/
theorem parted_thoughts_replayed_joined :
    shownSegments (reduceEvents id (partedThoughts.stream id)) =
        [.tool { stepId := "a", status := .ended, kind := .sql, label := "Query" },
          .thinking "First", .thinking "Second"] ∧
      shownSegments (reduceTranscriptEntry id (assistantEntryForRecord
          (buildTurnRecord id partedThoughts.emissions partedThoughts.context))) =
        [.tool { stepId := "a", status := .ended, kind := .sql, label := "Query" },
          .thinking "First\n\nSecond"] := by
  decide

end Counselle.Chat

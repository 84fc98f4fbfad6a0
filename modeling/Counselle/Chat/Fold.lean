import Counselle.Chat.Beats
import Counselle.Chat.TurnReducer

/-! What `reduceTurn` makes of a stream: the shape its beats play, filled with the
data every step and user message was merged to. -/
namespace Counselle.Chat
open Protocol Upsert

def beatOf : Event → Beat
  | .delta text => .answer text
  | .thinking text => .thinking text
  | .narration text => .narration text
  | .userMessage data => .user data.userMessageId
  | .step data => .tool data.stepId
  | .viz spec => .viz spec
  | .clarify spec => .clarify spec
  | _ => .silent

/-- Later frames of a step or a user message merge in place, and a viz of a
signature already shown is muted. -/
def settleOne (signature : Payload → String) (before : List Beat) : Beat → Beat
  | .user id => if .user id ∈ before then .silent else .user id
  | .tool id => if .tool id ∈ before then .silent else .tool id
  | .viz spec =>
    if before.any (fun | .viz shown => signature shown == signature spec | _ => false) then .muted
    else .viz spec
  | beat => beat

def settleFrom (signature : Payload → String) (before : List Beat) : List Beat → List Beat
  | [] => []
  | beat :: rest => settleOne signature before beat :: settleFrom signature (before ++ [beat]) rest

def settle (signature : Payload → String) (beats : List Beat) : List Beat :=
  settleFrom signature [] beats

theorem settleFrom_append (signature : Payload → String) (before first second : List Beat) :
    settleFrom signature before (first ++ second) =
      settleFrom signature before first ++ settleFrom signature (before ++ first) second := by
  induction first generalizing before with
  | nil => simp [settleFrom]
  | cons beat rest ih => simp [settleFrom, ih]

@[simp] theorem settle_snoc (signature : Payload → String) (beats : List Beat) (beat : Beat) :
    settle signature (beats ++ [beat]) = settle signature beats ++ [settleOne signature beats beat] := by
  simp [settle, settleFrom_append, settleFrom]

def Segment.shape : Segment → Shape
  | .narration _ text => .narration text
  | .thinking _ text => .thinking text
  | .user id _ _ => .user id
  | .tool step => .tool step.stepId
  | .answer text => .answer text
  | .viz spec => .viz spec
  | .clarify spec _ => .clarify spec

/-- The only shapes whose number the prose does not change. -/
def Shape.keyed : Shape → Bool
  | .tool _ => true
  | .user _ => true
  | _ => false

def Shape.beat : Shape → Beat
  | .narration text => .narration text
  | .thinking text => .thinking text
  | .user id => .user id
  | .tool id => .tool id
  | .answer text => .answer text
  | .viz spec => .viz spec
  | .clarify spec => .clarify spec

theorem count_addAnswer {shape : Shape} (keyed : shape.keyed = true) (shapes : List Shape)
    (text : String) : (addAnswer shapes text).count shape = shapes.count shape := by
  have apart : ∀ text, Shape.answer text ≠ shape := by
    rintro text rfl
    cases keyed
  unfold addAnswer
  split <;> simp [apart]

theorem count_addThinking {shape : Shape} (keyed : shape.keyed = true) (shapes : List Shape)
    (coalesce : Bool) (text : String) :
    (addThinking shapes coalesce text).count shape = shapes.count shape := by
  have apart : ∀ text, Shape.thinking text ≠ shape := by
    rintro text rfl
    cases keyed
  unfold addThinking
  split <;> simp [apart]

theorem count_play {shape : Shape} (keyed : shape.keyed = true) (beats : List Beat) :
    (play beats).shapes.count shape = beats.count shape.beat := by
  induction beats using List.reverseRecOn with
  | nil => rfl
  | append_singleton beats beat ih =>
    rw [play_snoc, List.count_append, ← ih]
    cases beat with
    | answer text =>
      simp only [playStep, count_addAnswer keyed]
      cases shape <;> simp_all [Shape.keyed, Shape.beat]
    | thinking text =>
      simp only [playStep, count_addThinking keyed]
      cases shape <;> simp_all [Shape.keyed, Shape.beat]
    | _ =>
      cases shape <;> simp_all [Shape.keyed, Shape.beat, playStep, List.count_cons]

theorem count_settle (signature : Payload → String) {shape : Shape} (keyed : shape.keyed = true)
    (beats : List Beat) :
    (settle signature beats).count shape.beat = if shape.beat ∈ beats then 1 else 0 := by
  induction beats using List.reverseRecOn with
  | nil => rfl
  | append_singleton beats beat ih =>
    rw [settle_snoc, List.count_append, ih]
    by_cases same : beat = shape.beat
    · subst same
      by_cases before : shape.beat ∈ beats
      · have silent : settleOne signature beats shape.beat = .silent := by
          cases shape <;> simp_all [Shape.keyed, Shape.beat, settleOne]
        cases shape <;> simp_all [Shape.keyed, Shape.beat]
      · have kept : settleOne signature beats shape.beat = shape.beat := by
          cases shape <;> simp_all [Shape.keyed, Shape.beat, settleOne]
        simp [before, kept]
    · have apart : settleOne signature beats beat ≠ shape.beat := by
        cases beat <;> cases shape <;>
          simp_all [Shape.keyed, Shape.beat, settleOne] <;> split <;> simp_all
      simp [apart, Ne.symm same]

def framesOf (events : List Event) (stepId : String) : List StepData :=
  events.filterMap fun
    | .step data => if data.stepId = stepId then some data else none
    | _ => none

def messagesOf (events : List Event) (userMessageId : String) : List UserMessage :=
  events.filterMap fun
    | .userMessage data => if data.userMessageId = userMessageId then some data else none
    | _ => none

def mergedFrames : List StepData → Option StepData
  | [] => none
  | frame :: rest => some (rest.foldl mergeStep frame)

def mergeMessage (existing data : UserMessage) : UserMessage :=
  { data with injected := existing.injected || data.injected }

def mergedMessages : List UserMessage → Option UserMessage
  | [] => none
  | message :: rest => some (rest.foldl mergeMessage message)

theorem mergedFrames_snoc {frames : List StepData} {before : StepData}
    (merged : mergedFrames frames = some before) (frame : StepData) :
    mergedFrames (frames ++ [frame]) = some (mergeStep before frame) := by
  cases frames with
  | nil => cases merged
  | cons first rest =>
    simp only [mergedFrames, Option.some.injEq] at merged
    simp [mergedFrames, merged]

theorem mergedMessages_snoc {messages : List UserMessage} {before : UserMessage}
    (merged : mergedMessages messages = some before) (message : UserMessage) :
    mergedMessages (messages ++ [message]) = some (mergeMessage before message) := by
  cases messages with
  | nil => cases merged
  | cons first rest =>
    simp only [mergedMessages, Option.some.injEq] at merged
    simp [mergedMessages, merged]

theorem framesOf_snoc (events : List Event) (event : Event) (stepId : String) :
    framesOf (events ++ [event]) stepId = framesOf events stepId ++ framesOf [event] stepId :=
  List.filterMap_append

theorem messagesOf_snoc (events : List Event) (event : Event) (userMessageId : String) :
    messagesOf (events ++ [event]) userMessageId =
      messagesOf events userMessageId ++ messagesOf [event] userMessageId :=
  List.filterMap_append

theorem framesOf_eq_nil {events : List Event} {stepId : String}
    (absent : .tool stepId ∉ events.map beatOf) : framesOf events stepId = [] := by
  refine List.filterMap_eq_nil_iff.mpr ?_
  intro event present
  cases event with
  | step data =>
    have apart : data.stepId ≠ stepId := by
      rintro rfl
      exact absent (List.mem_map.mpr ⟨_, present, rfl⟩)
    simp [apart]
  | _ => rfl

theorem messagesOf_eq_nil {events : List Event} {userMessageId : String}
    (absent : .user userMessageId ∉ events.map beatOf) : messagesOf events userMessageId = [] := by
  refine List.filterMap_eq_nil_iff.mpr ?_
  intro event present
  cases event with
  | userMessage data =>
    have apart : data.userMessageId ≠ userMessageId := by
      rintro rfl
      exact absent (List.mem_map.mpr ⟨_, present, rfl⟩)
    simp [apart]
  | _ => rfl

/-- The state a stream is reduced to, in terms of its beats and frames. -/
structure Folded (signature : Payload → String) (events : List Event) (state : TurnState) :
    Prop where
  shapes : state.segments.map Segment.shape =
    (play (settle signature (events.map beatOf))).shapes.reverse
  thinking : state.lastWasThinking = (play (settle signature (events.map beatOf))).lastThinking
  viz : ∀ mark, mark ∈ state.vizSignatures ↔
    ∃ spec, .viz spec ∈ events.map beatOf ∧ signature spec = mark
  tools : ∀ step, .tool step ∈ state.segments → mergedFrames (framesOf events step.stepId) = some step
  users : ∀ id text injected, .user id text injected ∈ state.segments →
    mergedMessages (messagesOf events id) = some ⟨text, id, injected⟩

theorem Folded.initial (signature : Payload → String) : Folded signature [] initialTurnState := by
  constructor <;> simp [initialTurnState, settle, settleFrom]

variable {signature : Payload → String} {events : List Event} {state : TurnState}

theorem Folded.count (folded : Folded signature events state) (shape : Shape)
    (keyed : shape.keyed = true) :
    (state.segments.map Segment.shape).count shape =
      if shape.beat ∈ events.map beatOf then 1 else 0 := by
  rw [folded.shapes, List.count_reverse, count_play keyed, count_settle signature keyed]

theorem play_event (signature : Payload → String) (events : List Event) (event : Event) :
    play (settle signature ((events ++ [event]).map beatOf)) =
      playStep (play (settle signature (events.map beatOf)))
        (settleOne signature (events.map beatOf) (beatOf event)) := by
  rw [List.map_append, List.map_singleton, settle_snoc, play_snoc]

theorem countP_isTool (segments : List Segment) (stepId : String) :
    segments.countP (Segment.isTool stepId) = (segments.map Segment.shape).count (.tool stepId) := by
  rw [List.count, List.countP_map]
  refine List.countP_congr ?_
  intro segment _
  cases segment <;> simp [Segment.isTool, Segment.shape]

theorem countP_isUser (segments : List Segment) (userMessageId : String) :
    segments.countP (Segment.isUser userMessageId) =
      (segments.map Segment.shape).count (.user userMessageId) := by
  rw [List.count, List.countP_map]
  refine List.countP_congr ?_
  intro segment _
  cases segment <;> simp [Segment.isUser, Segment.shape]

theorem once_of_count {α : Type} {here : α → Bool} {items : List α} {present : Prop}
    [Decidable present] (counted : items.countP here = if present then 1 else 0) :
    items.countP here ≤ 1 ∧ (items.any here = true ↔ present) := by
  by_cases found : present
  · rw [if_pos found] at counted
    refine ⟨by omega, iff_of_true ?_ found⟩
    exact List.any_eq_true.mpr (List.countP_pos_iff.mp (by omega))
  · rw [if_neg found] at counted
    refine ⟨by omega, iff_of_false ?_ found⟩
    rw [List.any_eq_true]
    rintro ⟨item, member, isHere⟩
    exact List.countP_eq_zero.mp counted item member isHere

theorem Folded.tool_once (folded : Folded signature events state) (stepId : String) :
    state.segments.countP (Segment.isTool stepId) ≤ 1 ∧
      (state.segments.any (Segment.isTool stepId) = true ↔ .tool stepId ∈ events.map beatOf) := by
  refine once_of_count ?_
  rw [countP_isTool]
  exact folded.count (.tool stepId) rfl

theorem Folded.user_once (folded : Folded signature events state) (userMessageId : String) :
    state.segments.countP (Segment.isUser userMessageId) ≤ 1 ∧
      (state.segments.any (Segment.isUser userMessageId) = true ↔
        .user userMessageId ∈ events.map beatOf) := by
  refine once_of_count ?_
  rw [countP_isUser]
  exact folded.count (.user userMessageId) rfl

theorem mem_mergeTool_of_ne {segments : List Segment} {step : StepData} {other : Segment}
    (apart : other.isTool step.stepId = false) :
    other ∈ mergeToolSegment segments step ↔ other ∈ segments := by
  refine mem_upsert_of_ne apart ?_ ?_
  · rintro segment here rfl
    cases segment <;> simp_all [Segment.isTool, Segment.mergeTool, mergeStep]
  · rintro rfl
    simp [Segment.isTool] at apart

theorem mem_mergeUser_of_ne {segments : List Segment} {data : UserMessage} {other : Segment}
    (apart : other.isUser data.userMessageId = false) :
    other ∈ mergeUserSegment segments data ↔ other ∈ segments := by
  refine mem_upsert_of_ne apart ?_ ?_
  · rintro segment here rfl
    cases segment <;> simp_all [Segment.isUser, Segment.mergeUser]
  · rintro rfl
    simp [Segment.isUser] at apart

theorem Folded.step (folded : Folded signature events state) (data : StepData) :
    Folded signature (events ++ [.step data]) (reduceTurn signature state (.step data)) := by
  obtain ⟨single, found⟩ := folded.tool_once data.stepId
  constructor
  · have kept : ∀ segment : Segment, segment.isTool data.stepId = true →
        (segment.mergeTool data).shape = segment.shape := by
      intro segment here
      cases segment <;> simp_all [Segment.isTool, Segment.mergeTool, Segment.shape, mergeStep]
    rw [play_event]
    simp only [reduceTurn, mergeToolSegment, map_upsert kept, beatOf, settleOne]
    by_cases before : Beat.tool data.stepId ∈ events.map beatOf
    · rw [if_pos (found.mpr before), if_pos before]
      exact folded.shapes
    · rw [if_neg (fun h => before (found.mp h)), if_neg before]
      simp [playStep, folded.shapes, Segment.shape]
  · rw [play_event]
    simp only [reduceTurn, beatOf, settleOne]
    split <;> rfl
  · intro mark
    simp [reduceTurn, folded.viz, beatOf]
  · intro step present
    simp only [reduceTurn] at present
    rw [framesOf_snoc]
    by_cases same : step.stepId = data.stepId
    · have here : (Segment.tool step).isTool data.stepId = true := by simp [Segment.isTool, same]
      have one : framesOf [.step data] step.stepId = [data] := by simp [framesOf, same]
      rw [one]
      rcases mem_upsert_here single here present with ⟨old, member, oldHere, merged⟩ | ⟨absent, fresh⟩
      · cases old with
        | tool existing =>
          simp only [Segment.mergeTool, Segment.tool.injEq] at merged
          simp only [Segment.isTool, beq_iff_eq] at oldHere
          have before := folded.tools existing member
          rw [oldHere, ← same] at before
          rw [mergedFrames_snoc before, merged]
        | _ => cases oldHere
      · have unseen : Beat.tool data.stepId ∉ events.map beatOf := by
          intro seen
          simp [found.mpr seen] at absent
        cases fresh
        rw [framesOf_eq_nil unseen]
        rfl
    · have none : framesOf [.step data] step.stepId = [] := by simp [framesOf, Ne.symm same]
      rw [none, List.append_nil]
      refine folded.tools step ((mem_mergeTool_of_ne ?_).mp present)
      simp [Segment.isTool, same]
  · intro id text injected present
    rw [messagesOf_snoc, show messagesOf [.step data] id = [] from rfl, List.append_nil]
    exact folded.users id text injected ((mem_mergeTool_of_ne rfl).mp present)

theorem Folded.userMessage (folded : Folded signature events state) (data : UserMessage) :
    Folded signature (events ++ [.userMessage data])
      (reduceTurn signature state (.userMessage data)) := by
  obtain ⟨single, found⟩ := folded.user_once data.userMessageId
  constructor
  · have kept : ∀ segment : Segment, segment.isUser data.userMessageId = true →
        (segment.mergeUser data).shape = segment.shape := by
      intro segment here
      cases segment <;> simp_all [Segment.isUser, Segment.mergeUser, Segment.shape]
    rw [play_event]
    simp only [reduceTurn, mergeUserSegment, map_upsert kept, beatOf, settleOne]
    by_cases before : Beat.user data.userMessageId ∈ events.map beatOf
    · rw [if_pos (found.mpr before), if_pos before]
      exact folded.shapes
    · rw [if_neg (fun h => before (found.mp h)), if_neg before]
      simp [playStep, folded.shapes, Segment.shape]
  · rw [play_event]
    simp only [reduceTurn, beatOf, settleOne]
    split <;> rfl
  · intro mark
    have same : (reduceTurn signature state (.userMessage data)).vizSignatures =
        state.vizSignatures := by
      simp only [reduceTurn, TurnState.started]
      split <;> rfl
    simp [same, folded.viz, beatOf]
  · intro step present
    rw [framesOf_snoc, show framesOf [.userMessage data] step.stepId = [] from rfl, List.append_nil]
    exact folded.tools step ((mem_mergeUser_of_ne rfl).mp present)
  · intro id text injected present
    simp only [reduceTurn] at present
    rw [messagesOf_snoc]
    by_cases same : id = data.userMessageId
    · have here : (Segment.user id text injected).isUser data.userMessageId = true := by
        simp [Segment.isUser, same]
      have one : messagesOf [.userMessage data] id = [data] := by simp [messagesOf, same]
      rw [one]
      rcases mem_upsert_here single here present with ⟨old, member, oldHere, merged⟩ | ⟨absent, fresh⟩
      · cases old with
        | user oldId oldText oldInjected =>
          simp only [Segment.mergeUser, Segment.user.injEq] at merged
          simp only [Segment.isUser, beq_iff_eq] at oldHere
          have before := folded.users oldId oldText oldInjected member
          rw [oldHere, ← same] at before
          rw [mergedMessages_snoc before, mergeMessage, merged.2.1, merged.2.2, same]
        | _ => cases oldHere
      · have unseen : Beat.user data.userMessageId ∉ events.map beatOf := by
          intro seen
          simp [found.mpr seen] at absent
        cases fresh
        rw [messagesOf_eq_nil unseen]
        rfl
    · have none : messagesOf [.userMessage data] id = [] := by simp [messagesOf, Ne.symm same]
      rw [none, List.append_nil]
      refine folded.users id text injected ((mem_mergeUser_of_ne ?_).mp present)
      simp [Segment.isUser, same]

theorem Folded.extend (folded : Folded signature events state) {event : Event} {after : TurnState}
    (frameless : (∀ id, framesOf [event] id = []) ∧ ∀ id, messagesOf [event] id = [])
    (shapes : after.segments.map Segment.shape =
      (playStep (play (settle signature (events.map beatOf)))
        (settleOne signature (events.map beatOf) (beatOf event))).shapes.reverse)
    (thinking : after.lastWasThinking =
      (playStep (play (settle signature (events.map beatOf)))
        (settleOne signature (events.map beatOf) (beatOf event))).lastThinking)
    (viz : ∀ mark, mark ∈ after.vizSignatures ↔
      mark ∈ state.vizSignatures ∨ ∃ spec, beatOf event = .viz spec ∧ signature spec = mark)
    (kept : ∀ segment ∈ after.segments, segment.shape.keyed = true → segment ∈ state.segments) :
    Folded signature (events ++ [event]) after where
  shapes := by rw [play_event, shapes]
  thinking := by rw [play_event, thinking]
  viz := by
    intro mark
    rw [viz, folded.viz, List.map_append]
    constructor
    · rintro (⟨spec, before, same⟩ | ⟨spec, now, same⟩)
      · exact ⟨spec, List.mem_append_left _ before, same⟩
      · exact ⟨spec, List.mem_append_right _ (by simp [now]), same⟩
    · rintro ⟨spec, present, same⟩
      rcases List.mem_append.mp present with before | now
      · exact Or.inl ⟨spec, before, same⟩
      · simp only [List.map_cons, List.map_nil, List.mem_singleton] at now
        exact Or.inr ⟨spec, now.symm, same⟩
  tools := by
    intro step present
    rw [framesOf_snoc, frameless.1, List.append_nil]
    exact folded.tools step (kept _ present rfl)
  users := by
    intro id text injected present
    rw [messagesOf_snoc, frameless.2, List.append_nil]
    exact folded.users id text injected (kept _ present rfl)

theorem shape_appendAnswerText (segments : List Segment) (text : String) :
    (appendAnswerText segments text).map Segment.shape =
      (addAnswer (segments.map Segment.shape).reverse text).reverse := by
  rcases List.eq_nil_or_concat' segments with rfl | ⟨segments, last, rfl⟩
  · rfl
  · cases last <;> simp [appendAnswerText, addAnswer, Segment.shape]

theorem shape_appendThinkingSegment (segments : List Segment) (text : String) (coalesce : Bool) :
    (appendThinkingSegment segments text coalesce).map Segment.shape =
      (addThinking (segments.map Segment.shape).reverse coalesce text).reverse := by
  rcases List.eq_nil_or_concat' segments with rfl | ⟨segments, last, rfl⟩
  · cases coalesce <;> rfl
  · cases coalesce <;> cases last <;> simp [appendThinkingSegment, addThinking, Segment.shape]

theorem keyed_appendAnswerText {segments : List Segment} {text : String} {segment : Segment}
    (present : segment ∈ appendAnswerText segments text) (keyed : segment.shape.keyed = true) :
    segment ∈ segments := by
  unfold appendAnswerText at present
  split at present
  · rcases List.mem_append.mp present with old | new
    · exact (List.dropLast_sublist _).subset old
    · cases List.mem_singleton.mp new
      cases keyed
  · rcases List.mem_append.mp present with old | new
    · exact old
    · cases List.mem_singleton.mp new
      cases keyed

theorem keyed_appendThinkingSegment {segments : List Segment} {text : String} {coalesce : Bool}
    {segment : Segment} (present : segment ∈ appendThinkingSegment segments text coalesce)
    (keyed : segment.shape.keyed = true) : segment ∈ segments := by
  unfold appendThinkingSegment at present
  split at present
  · rcases List.mem_append.mp present with old | new
    · exact (List.dropLast_sublist _).subset old
    · cases List.mem_singleton.mp new
      cases keyed
  · rcases List.mem_append.mp present with old | new
    · exact old
    · cases List.mem_singleton.mp new
      cases keyed

theorem started_segments (state : TurnState) :
    state.started.segments = state.segments ∧ state.started.vizSignatures = state.vizSignatures := by
  unfold TurnState.started
  split <;> exact ⟨rfl, rfl⟩

theorem Folded.delta (folded : Folded signature events state) (text : String) :
    Folded signature (events ++ [.delta text]) (reduceTurn signature state (.delta text)) := by
  refine folded.extend ⟨fun _ => rfl, fun _ => rfl⟩ ?_ rfl ?_ ?_
  · simp only [reduceTurn, shape_appendAnswerText, folded.shapes, List.reverse_reverse, beatOf,
      settleOne, playStep]
  · intro mark
    simp [reduceTurn, (started_segments state).2, beatOf]
  · exact fun segment present keyed => keyed_appendAnswerText present keyed

theorem Folded.thought (folded : Folded signature events state) (text : String) :
    Folded signature (events ++ [.thinking text]) (reduceTurn signature state (.thinking text)) := by
  refine folded.extend ⟨fun _ => rfl, fun _ => rfl⟩ ?_ rfl ?_ ?_
  · simp only [reduceTurn, shape_appendThinkingSegment, folded.shapes, folded.thinking,
      List.reverse_reverse, beatOf, settleOne, playStep]
  · intro mark
    simp [reduceTurn, beatOf]
  · exact fun segment present keyed => keyed_appendThinkingSegment present keyed

theorem keyed_appended {segments : List Segment} {segment : Segment}
    (unkeyed : segment.shape.keyed = false) {other : Segment}
    (present : other ∈ segments ++ [segment]) (keyed : other.shape.keyed = true) :
    other ∈ segments := by
  rcases List.mem_append.mp present with old | new
  · exact old
  · cases List.mem_singleton.mp new
    rw [unkeyed] at keyed
    cases keyed

theorem Folded.narration (folded : Folded signature events state) (text : String) :
    Folded signature (events ++ [.narration text]) (reduceTurn signature state (.narration text)) := by
  refine folded.extend ⟨fun _ => rfl, fun _ => rfl⟩ ?_ rfl ?_ ?_
  · simp [reduceTurn, folded.shapes, beatOf, settleOne, playStep, Segment.shape]
  · intro mark
    simp [reduceTurn, beatOf]
  · exact fun segment present keyed => keyed_appended rfl present keyed

theorem Folded.clarify (folded : Folded signature events state) (spec : Payload) :
    Folded signature (events ++ [.clarify spec]) (reduceTurn signature state (.clarify spec)) := by
  refine folded.extend ⟨fun _ => rfl, fun _ => rfl⟩ ?_ rfl ?_ ?_
  · simp [reduceTurn, folded.shapes, beatOf, settleOne, playStep, Segment.shape]
  · intro mark
    simp [reduceTurn, beatOf]
  · exact fun segment present keyed => keyed_appended rfl present keyed

theorem Folded.shown (folded : Folded signature events state) (spec : Payload) :
    Folded signature (events ++ [.viz spec]) (reduceTurn signature state (.viz spec)) := by
  have seen : (events.map beatOf).any
      (fun | .viz shown => signature shown == signature spec | _ => false) = true ↔
      signature spec ∈ state.vizSignatures := by
    rw [folded.viz, List.any_eq_true]
    constructor
    · rintro ⟨beat, present, same⟩
      cases beat with
      | viz shown => exact ⟨shown, present, by simpa using same⟩
      | _ => cases same
    · rintro ⟨shown, present, same⟩
      exact ⟨.viz shown, present, by simpa using same⟩
  by_cases again : signature spec ∈ state.vizSignatures
  · have muted : settleOne signature (events.map beatOf) (.viz spec) = .muted :=
      if_pos (seen.mpr again)
    refine folded.extend ⟨fun _ => rfl, fun _ => rfl⟩ ?_ ?_ ?_ ?_
    · simp [reduceTurn, appendViz, again, beatOf, muted, playStep, folded.shapes]
    · simp [reduceTurn, beatOf, muted, playStep]
    · intro mark
      simp only [reduceTurn, appendViz, if_pos again, beatOf, Beat.viz.injEq, exists_eq_left',
        iff_self_or]
      rintro rfl
      exact again
    · intro segment present _
      simpa [reduceTurn, appendViz, again] using present
  · have kept : settleOne signature (events.map beatOf) (.viz spec) = .viz spec :=
      if_neg (fun h => again (seen.mp h))
    refine folded.extend ⟨fun _ => rfl, fun _ => rfl⟩ ?_ ?_ ?_ ?_
    · simp [reduceTurn, appendViz, again, beatOf, kept, playStep, folded.shapes, Segment.shape]
    · simp [reduceTurn, beatOf, kept, playStep]
    · intro mark
      simp only [reduceTurn, appendViz, if_neg again, beatOf, Beat.viz.injEq, exists_eq_left',
        List.mem_cons]
      rw [or_comm, eq_comm]
    · intro segment present keyed
      simp only [reduceTurn, appendViz, if_neg again] at present
      exact keyed_appended rfl present keyed

theorem shape_attach (segments : List Segment) (response : Payload) :
    (applyClarifyResponseToSegments.attach response segments).map Segment.shape =
      segments.map Segment.shape := by
  induction segments with
  | nil => rfl
  | cons segment rest ih =>
    cases segment <;> simp [applyClarifyResponseToSegments.attach, Segment.shape, ih]

theorem keyed_attach {segments : List Segment} {response : Payload} {segment : Segment}
    (present : segment ∈ applyClarifyResponseToSegments.attach response segments)
    (keyed : segment.shape.keyed = true) : segment ∈ segments := by
  induction segments with
  | nil => exact present
  | cons head rest ih =>
    cases head with
    | clarify spec before =>
      rcases List.mem_cons.mp present with rfl | later
      · cases keyed
      · exact List.mem_cons_of_mem _ later
    | _ =>
      rcases List.mem_cons.mp present with rfl | later
      · exact .head _
      · exact List.mem_cons_of_mem _ (ih later)

theorem Folded.clarifyResponse (folded : Folded signature events state)
    (clarifyMessageId continuationMessageId : String) (response : Payload) :
    Folded signature (events ++ [.clarifyResponse clarifyMessageId continuationMessageId response])
      (reduceTurn signature state
        (.clarifyResponse clarifyMessageId continuationMessageId response)) := by
  refine folded.extend ⟨fun _ => rfl, fun _ => rfl⟩ ?_ rfl ?_ ?_
  · simp [reduceTurn, applyClarifyResponseToSegments, List.map_reverse, shape_attach,
      folded.shapes, beatOf, settleOne, playStep]
  · intro mark
    simp [reduceTurn, beatOf]
  · intro segment present keyed
    simp only [reduceTurn, applyClarifyResponseToSegments, List.mem_reverse] at present
    simpa using keyed_attach present keyed

theorem Folded.quiet (folded : Folded signature events state) {event : Event} {after : TurnState}
    (silent : beatOf event = .silent) (segments : after.segments = state.segments)
    (signatures : after.vizSignatures = state.vizSignatures) (thinking : after.lastWasThinking = false)
    (frameless : (∀ id, framesOf [event] id = []) ∧ ∀ id, messagesOf [event] id = []) :
    Folded signature (events ++ [event]) after := by
  refine folded.extend frameless ?_ ?_ ?_ ?_
  · simp [segments, silent, settleOne, playStep, folded.shapes]
  · simp [thinking, silent, settleOne, playStep]
  · intro mark
    simp [signatures, silent]
  · intro segment present _
    rwa [segments] at present

theorem Folded.reduce (folded : Folded signature events state) (event : Event) :
    Folded signature (events ++ [event]) (reduceTurn signature state event) := by
  cases event with
  | step data => exact folded.step data
  | userMessage data => exact folded.userMessage data
  | delta text => exact folded.delta text
  | thinking text => exact folded.thought text
  | narration text => exact folded.narration text
  | clarify spec => exact folded.clarify spec
  | viz spec => exact folded.shown spec
  | clarifyResponse first second response => exact folded.clarifyResponse first second response
  | metadata data => exact folded.quiet rfl rfl rfl rfl ⟨fun _ => rfl, fun _ => rfl⟩
  | sources data => exact folded.quiet rfl rfl rfl rfl ⟨fun _ => rfl, fun _ => rfl⟩
  | usage data => exact folded.quiet rfl rfl rfl rfl ⟨fun _ => rfl, fun _ => rfl⟩
  | done status => exact folded.quiet rfl rfl rfl rfl ⟨fun _ => rfl, fun _ => rfl⟩
  | error data => exact folded.quiet rfl rfl rfl rfl ⟨fun _ => rfl, fun _ => rfl⟩

theorem folded_reduceEvents (signature : Payload → String) (events : List Event) :
    Folded signature events (reduceEvents signature events) := by
  induction events using List.reverseRecOn with
  | nil => exact Folded.initial signature
  | append_singleton events event ih =>
    rw [reduceEvents, List.foldl_append]
    exact ih.reduce event

end Counselle.Chat

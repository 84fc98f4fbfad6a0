import Counselle.Chat.Fold
import Counselle.Chat.Transcript

/-! The frames and user messages of a live stream, in terms of the emissions. -/
namespace Counselle.Chat
open Protocol Records

/-- Every step frame of a turn, `start` frames included. -/
def stepFrames (emissions : List Emission) : List StepData :=
  emissions.filterMap fun | .step data => some data | _ => none

def userMessages (emissions : List Emission) : List UserMessage :=
  emissions.filterMap fun | .user data => some data | _ => none

def eventOf (question : Payload) : Emission → Event
  | .delta text => .delta text
  | .narration text => .narration text
  | .thinking text => .thinking text
  | .step data => .step data
  | .user data => .userMessage data
  | .viz spec => .viz spec
  | .clarify => .clarify question

theorem observe_events (signature : Payload → String) (question : Payload) (observed : Observed)
    (emission : Emission) :
    (observe signature question observed emission).events =
        observed.events ++ [eventOf question emission] ∨
      (∃ spec, emission = .viz spec) ∧
        (observe signature question observed emission).events = observed.events := by
  cases emission with
  | viz spec =>
    simp only [observe]
    split
    · exact Or.inl rfl
    · exact Or.inr ⟨⟨spec, rfl⟩, rfl⟩
  | _ => exact Or.inl rfl

section Picked
variable {A : Type} {pick : Event → Option A}

def ReadsData (pick : Event → Option A) : Prop :=
  ∀ event, pick event = none ∨ (∃ data, event = .step data) ∨ ∃ data, event = .userMessage data

theorem ReadsData.none (reads : ReadsData pick) (event : Event)
    (kind : beatOf event = .silent ∨ (∃ spec, event = .clarify spec) ∨ ∃ spec, event = .viz spec) :
    pick event = none := by
  rcases reads event with unread | ⟨data, rfl⟩ | ⟨data, rfl⟩
  · exact unread
  · simp [beatOf] at kind
  · simp [beatOf] at kind

theorem live_filterMap (reads : ReadsData pick) (signature : Payload → String)
    (question : Payload) (metadata : MetaData) (emissions : List Emission) :
    (.metadata metadata :: (emissions.foldl (observe signature question) {}).events).filterMap pick =
      emissions.filterMap fun emission => pick (eventOf question emission) := by
  rw [List.filterMap_cons, reads.none _ (Or.inl rfl)]
  induction emissions using List.reverseRecOn with
  | nil => rfl
  | append_singleton emissions emission ih =>
    rw [List.foldl_append, List.filterMap_append, ← ih, List.foldl_cons, List.foldl_nil]
    rcases observe_events signature question
      (emissions.foldl (observe signature question) {}) emission with sent | ⟨⟨spec, rfl⟩, kept⟩
    · rw [sent]
      exact List.filterMap_append
    · rw [kept, List.filterMap_cons, List.filterMap_nil]
      simp [eventOf, reads.none _ (Or.inr (Or.inr ⟨spec, rfl⟩))]

theorem closing_silent (turn : StreamedTurn) {event : Event}
    (present : event ∈ turn.sources.toList.map Event.sources ++
      turn.context.usage.toList.map Event.usage ++
      [endingEvent turn.context.status turn.context.error]) : beatOf event = .silent := by
  simp only [List.mem_append, List.mem_map, List.mem_singleton] at present
  rcases present with (⟨_, _, rfl⟩ | ⟨_, _, rfl⟩) | rfl
  · rfl
  · rfl
  · cases turn.context.status <;> rfl

theorem stream_filterMap (reads : ReadsData pick) (signature : Payload → String)
    (turn : StreamedTurn) :
    (turn.stream signature).filterMap pick =
      turn.emissions.filterMap fun emission =>
        pick (eventOf (questionOf turn.context.clarify) emission) := by
  have asked : (interruptEvents turn.emissions turn.context.clarify).filterMap pick = [] := by
    unfold interruptEvents
    split
    · split
      · rfl
      · simp [reads.none (.clarify _) (Or.inr (Or.inl ⟨_, rfl⟩))]
    · rfl
  have closing : (turn.sources.toList.map Event.sources ++
      turn.context.usage.toList.map Event.usage ++
      [endingEvent turn.context.status turn.context.error]).filterMap pick = [] :=
    List.filterMap_eq_nil_iff.mpr fun _ present => reads.none _ (Or.inl (closing_silent turn present))
  rw [StreamedTurn.stream, List.filterMap_append, List.filterMap_append, asked, closing,
    List.append_nil, List.append_nil, ← live_filterMap reads signature _ turn.metadata]
  rfl

end Picked

theorem framesOf_live (signature : Payload → String) (question : Payload) (metadata : MetaData)
    (emissions : List Emission) (stepId : String) :
    framesOf (.metadata metadata :: (emissions.foldl (observe signature question) {}).events)
      stepId = (stepFrames emissions).filter (·.stepId = stepId) := by
  rw [framesOf, live_filterMap, stepFrames, List.filter_filterMap]
  · refine List.filterMap_congr fun emission _ => ?_
    cases emission <;> simp [eventOf, Option.filter]
  · intro event
    cases event <;> simp

theorem messagesOf_live (signature : Payload → String) (question : Payload) (metadata : MetaData)
    (emissions : List Emission) (userMessageId : String) :
    messagesOf (.metadata metadata :: (emissions.foldl (observe signature question) {}).events)
      userMessageId = (userMessages emissions).filter (·.userMessageId = userMessageId) := by
  rw [messagesOf, live_filterMap, userMessages, List.filter_filterMap]
  · refine List.filterMap_congr fun emission _ => ?_
    cases emission <;> simp [eventOf, Option.filter]
  · intro event
    cases event <;> simp

theorem framesOf_stream (signature : Payload → String) (turn : StreamedTurn) (stepId : String) :
    framesOf (turn.stream signature) stepId =
      (stepFrames turn.emissions).filter (·.stepId = stepId) := by
  rw [framesOf, stream_filterMap,
    ← framesOf_live signature (questionOf turn.context.clarify) turn.metadata, framesOf,
    live_filterMap]
  all_goals
    intro event
    cases event <;> simp

theorem messagesOf_stream (signature : Payload → String) (turn : StreamedTurn)
    (userMessageId : String) :
    messagesOf (turn.stream signature) userMessageId =
      (userMessages turn.emissions).filter (·.userMessageId = userMessageId) := by
  rw [messagesOf, stream_filterMap,
    ← messagesOf_live signature (questionOf turn.context.clarify) turn.metadata, messagesOf,
    live_filterMap]
  all_goals
    intro event
    cases event <;> simp

theorem mergedFrames_inv {frames : List StepData} {merged : StepData}
    (isMerged : mergedFrames frames = some merged) :
    ∃ last, frames.getLast? = some last ∧ (merged = last ∨ ∃ before, merged = mergeStep before last) := by
  rcases List.eq_nil_or_concat' frames with rfl | ⟨frames, last, rfl⟩
  · cases isMerged
  · refine ⟨last, by simp, ?_⟩
    cases before : mergedFrames frames with
    | none =>
      cases frames with
      | nil =>
        cases isMerged
        exact Or.inl rfl
      | cons _ _ => cases before
    | some earlier =>
      rw [mergedFrames_snoc before] at isMerged
      cases isMerged
      exact Or.inr ⟨earlier, rfl⟩

theorem mergedFrames_last {frames : List StepData} {merged : StepData}
    (isMerged : mergedFrames frames = some merged) :
    ∃ last, frames.getLast? = some last ∧ merged.stepId = last.stepId ∧ merged.kind = last.kind := by
  obtain ⟨last, ends, rfl | ⟨before, rfl⟩⟩ := mergedFrames_inv isMerged
  · exact ⟨merged, ends, rfl, rfl⟩
  · exact ⟨last, ends, rfl, rfl⟩

theorem mergedFrames_key {key : StepData → Option String}
    (merges : ∀ existing step, key (mergeStep existing step) = (key step <|> key existing))
    {frames : List StepData} {merged : StepData} (isMerged : mergedFrames frames = some merged) :
    (key merged).isSome ↔ ∃ frame ∈ frames, (key frame).isSome := by
  cases frames with
  | nil => cases isMerged
  | cons first rest =>
    cases isMerged
    induction rest generalizing first with
    | nil => simp
    | cons second rest ih =>
      rw [List.foldl_cons, ih]
      simp only [List.mem_cons, exists_eq_or_imp, merges]
      cases key first <;> cases key second <;> simp

theorem mergedMessages_inv {messages : List UserMessage} {merged : UserMessage}
    (isMerged : mergedMessages messages = some merged) :
    (∃ last, messages.getLast? = some last ∧ merged.text = last.text) ∧
      (merged.injected = true ↔ ∃ message ∈ messages, message.injected = true) := by
  induction messages using List.reverseRecOn generalizing merged with
  | nil => cases isMerged
  | append_singleton messages last ih =>
    cases before : mergedMessages messages with
    | none =>
      cases messages with
      | nil =>
        cases isMerged
        simp
      | cons _ _ => cases before
    | some earlier =>
      rw [mergedMessages_snoc before] at isMerged
      cases isMerged
      refine ⟨⟨last, by simp, rfl⟩, ?_⟩
      simp only [mergeMessage, Bool.or_eq_true, (ih before).2, List.mem_append, List.mem_singleton,
        or_and_right, exists_or, exists_eq_left]

end Counselle.Chat

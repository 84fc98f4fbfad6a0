import Counselle.Chat.Live

/-! What `build_segments` keeps of the events that streamed. -/
namespace Counselle.Chat
open Protocol Records Upsert

def segmentBeat (clarify : Option Clarification) (segment : TranscriptSegment) : Beat :=
  beatOf (transcriptSegmentToEvent clarify segment)

/-- The beats that are replayed when `injected` says which user messages are. -/
def replays (injected : String → Bool) : Beat → Bool
  | .user id => injected id
  | _ => true

def pendingBeats (builder : SegmentsBuilder) : List Beat :=
  if builder.deltaSegment = [] then [] else [.answer (String.join builder.deltaSegment)]

/-- The builder after the emissions whose events are `events`. -/
structure Recorded (signature : Payload → String) (clarify : Option Clarification)
    (emissions : List Emission) (events : List Event) (builder : SegmentsBuilder) : Prop where
  plays : ∀ injected, play ((settle signature (events.map beatOf)).filter (persisted injected)) =
    play (settle signature ((builder.segments.map (segmentBeat clarify)).filter (replays injected)) ++
      pendingBeats builder)
  steps : Indexed builder.stepIndexById Beat.tool (builder.segments.map (segmentBeat clarify))
  users : Indexed builder.userIndexById Beat.user (builder.segments.map (segmentBeat clarify))
  same : ∀ beat, (∃ id, beat = .tool id) ∨ (∃ id, beat = .user id) ∨ (∃ spec, beat = .viz spec) →
    (beat ∈ builder.segments.map (segmentBeat clarify) ↔ beat ∈ events.map beatOf)
  frames : ∀ data, .step data ∈ builder.segments →
    (framesOf events data.stepId).getLast? = some data
  messages : ∀ data, .user data ∈ builder.segments →
    (messagesOf events data.userMessageId).getLast? = some data
  asked : .clarify ∈ builder.segments ↔ .clarify ∈ emissions

variable {signature observed : Payload → String} {clarify : Option Clarification}
  {emissions : List Emission} {events : List Event} {builder : SegmentsBuilder}

theorem addAnswer_twice (shapes : List Shape) (first second : String) :
    addAnswer (addAnswer shapes first) second = addAnswer shapes (first ++ second) := by
  cases shapes with
  | nil => rfl
  | cons head rest => cases head <;> simp [addAnswer, String.append_assoc]

theorem join_snoc (texts : List String) (text : String) :
    String.join (texts ++ [text]) = String.join texts ++ text := by
  simp [String.join]

theorem play_pending (beats : List Beat) (builder : SegmentsBuilder) (text : String) :
    play (beats ++ pendingBeats { builder with deltaSegment := builder.deltaSegment ++ [text] }) =
      playStep (play (beats ++ pendingBeats builder)) (.answer text) := by
  simp only [pendingBeats, List.append_eq_nil_iff, List.cons_ne_self, and_false, if_false, join_snoc]
  rw [play_snoc]
  split
  case isTrue nothing => simp [nothing, String.join]
  case isFalse _ => simp [playStep, addAnswer_twice]

theorem segments_flushDelta (clarify : Option Clarification) (builder : SegmentsBuilder) :
    builder.flushDelta.segments.map (segmentBeat clarify) =
      builder.segments.map (segmentBeat clarify) ++ pendingBeats builder := by
  unfold SegmentsBuilder.flushDelta pendingBeats
  split <;> simp [segmentBeat, transcriptSegmentToEvent, beatOf]

theorem flushDelta_segment (builder : SegmentsBuilder) {segment : TranscriptSegment}
    (present : segment ∈ builder.flushDelta.segments) :
    segment ∈ builder.segments ∨ ∃ text, segment = .delta text := by
  unfold SegmentsBuilder.flushDelta at present
  split at present
  · exact Or.inl present
  · rcases List.mem_append.mp present with earlier | flushed
    · exact Or.inl earlier
    · exact Or.inr ⟨_, List.mem_singleton.mp flushed⟩

theorem flushDelta_pending (builder : SegmentsBuilder) : builder.flushDelta.deltaSegment = [] := by
  unfold SegmentsBuilder.flushDelta
  split <;> simp_all

theorem flushDelta_indexes (builder : SegmentsBuilder) :
    builder.flushDelta.stepIndexById = builder.stepIndexById ∧
      builder.flushDelta.userIndexById = builder.userIndexById ∧
      builder.flushDelta.seenViz = builder.seenViz := by
  unfold SegmentsBuilder.flushDelta
  split <;> exact ⟨rfl, rfl, rfl⟩

theorem pendingBeats_answer {builder : SegmentsBuilder} {beat : Beat}
    (present : beat ∈ pendingBeats builder) : ∃ text, beat = .answer text := by
  unfold pendingBeats at present
  split at present
  · cases present
  · exact ⟨_, List.mem_singleton.mp present⟩

theorem indexed_pending {index : List (String × Nat)} {make : String → Beat} {beats : List Beat}
    (indexed : Indexed index make beats) (prose : ∀ key text, Beat.answer text ≠ make key)
    (builder : SegmentsBuilder) : Indexed index make (beats ++ pendingBeats builder) := by
  unfold pendingBeats
  split
  · rwa [List.append_nil]
  · exact indexed.snoc_other fun key => prose key _

theorem Recorded.flushDelta (recorded : Recorded signature clarify emissions events builder) :
    Recorded signature clarify emissions events builder.flushDelta := by
  obtain ⟨stepIndex, userIndex, _⟩ := flushDelta_indexes builder
  have settled : pendingBeats builder.flushDelta = [] := by
    rw [pendingBeats, flushDelta_pending, if_pos rfl]
  constructor
  · intro injected
    rw [recorded.plays injected, segments_flushDelta, List.filter_append, settled, List.append_nil]
    by_cases nothing : builder.deltaSegment = []
    · simp [pendingBeats, nothing]
    · simp [pendingBeats, nothing, replays, settleOne, List.filter_cons]
  · rw [segments_flushDelta, stepIndex]
    exact indexed_pending recorded.steps (by simp) builder
  · rw [segments_flushDelta, userIndex]
    exact indexed_pending recorded.users (by simp) builder
  · intro beat kind
    rw [segments_flushDelta, List.mem_append, recorded.same beat kind]
    refine or_iff_left fun pending => ?_
    obtain ⟨text, rfl⟩ := pendingBeats_answer pending
    simp at kind
  · intro data present
    rcases flushDelta_segment builder present with earlier | ⟨_, bad⟩
    · exact recorded.frames data earlier
    · cases bad
  · intro data present
    rcases flushDelta_segment builder present with earlier | ⟨_, bad⟩
    · exact recorded.messages data earlier
    · cases bad
  · rw [← recorded.asked]
    constructor
    · intro present
      rcases flushDelta_segment builder present with earlier | ⟨_, bad⟩
      · exact earlier
      · cases bad
    · intro present
      unfold SegmentsBuilder.flushDelta
      split
      · exact present
      · exact List.mem_append_left _ present

theorem plays_snoc (recorded : Recorded signature clarify emissions events builder)
    (settled : builder.deltaSegment = []) {beat : Beat}
    (kept : ∀ injected, persisted injected (settleOne signature (events.map beatOf) beat) =
      replays injected beat)
    (alike : ∀ injected, replays injected beat = true →
      settleOne signature ((builder.segments.map (segmentBeat clarify)).filter (replays injected))
        beat = settleOne signature (events.map beatOf) beat) (injected : String → Bool) :
    play ((settle signature (events.map beatOf ++ [beat])).filter (persisted injected)) =
      play (settle signature
        ((builder.segments.map (segmentBeat clarify) ++ [beat]).filter (replays injected))) := by
  have before := recorded.plays injected
  rw [pendingBeats, if_pos settled, List.append_nil] at before
  rw [settle_snoc, List.filter_append, List.filter_append, List.filter_singleton,
    List.filter_singleton, kept injected]
  cases replayed : replays injected beat with
  | true =>
    rw [cond_true, cond_true, settle_snoc, play_snoc, play_snoc, alike injected replayed, before]
  | false => rw [cond_false, cond_false, List.append_nil, List.append_nil, before]

theorem append_beats (clarify : Option Clarification) (builder : SegmentsBuilder)
    (segment : TranscriptSegment) :
    (builder.append segment).segments.map (segmentBeat clarify) =
      builder.segments.map (segmentBeat clarify) ++ [segmentBeat clarify segment] := by
  simp [SegmentsBuilder.append]

theorem Recorded.append (recorded : Recorded signature clarify emissions events builder)
    (settled : builder.deltaSegment = []) {segment : TranscriptSegment} {emission : Emission}
    {event : Event} (beat : segmentBeat clarify segment = beatOf event)
    (untouched : (∀ id, beatOf event ≠ .tool id) ∧ ∀ id, beatOf event ≠ .user id)
    (kept : ∀ injected, persisted injected (settleOne signature (events.map beatOf) (beatOf event)) =
      replays injected (beatOf event))
    (alike : ∀ injected, replays injected (beatOf event) = true →
      settleOne signature ((builder.segments.map (segmentBeat clarify)).filter (replays injected))
        (beatOf event) = settleOne signature (events.map beatOf) (beatOf event))
    (asks : segment = .clarify ↔ emission = .clarify) :
    Recorded signature clarify (emissions ++ [emission]) (events ++ [event])
      (builder.append segment) := by
  constructor
  · intro injected
    rw [append_beats, beat, List.map_append, List.map_singleton]
    have pending : pendingBeats (builder.append segment) = [] := if_pos settled
    rw [pending, List.append_nil]
    exact plays_snoc recorded settled kept alike injected
  · rw [append_beats, beat]
    exact recorded.steps.snoc_other untouched.1
  · rw [append_beats, beat]
    exact recorded.users.snoc_other untouched.2
  · intro other kind
    rw [append_beats, beat, List.map_append, List.map_singleton, List.mem_append, List.mem_append,
      recorded.same other kind]
  · intro data present
    have frameless : framesOf [event] data.stepId = [] :=
      framesOf_eq_nil (by simpa using (untouched.1 data.stepId).symm)
    rw [framesOf_snoc, frameless, List.append_nil]
    rcases List.mem_append.mp present with earlier | here
    · exact recorded.frames data earlier
    · rw [← List.mem_singleton.mp here] at beat
      exact absurd beat.symm (untouched.1 data.stepId)
  · intro data present
    have frameless : messagesOf [event] data.userMessageId = [] :=
      messagesOf_eq_nil (by simpa using (untouched.2 data.userMessageId).symm)
    rw [messagesOf_snoc, frameless, List.append_nil]
    rcases List.mem_append.mp present with earlier | here
    · exact recorded.messages data earlier
    · rw [← List.mem_singleton.mp here] at beat
      exact absurd beat.symm (untouched.2 data.userMessageId)
  · simp only [SegmentsBuilder.append, List.mem_append, List.mem_singleton, recorded.asked]
    rw [eq_comm (a := TranscriptSegment.clarify), asks, eq_comm (a := emission)]

theorem Recorded.skip (recorded : Recorded signature clarify emissions events builder)
    {event : Event} {emission : Emission} (plain : emission ≠ .clarify)
    (empty : event = .delta "" ∨ event = .narration "" ∨ event = .thinking "") :
    Recorded signature clarify (emissions ++ [emission]) (events ++ [event]) builder := by
  have frameless : (∀ id, framesOf [event] id = []) ∧ ∀ id, messagesOf [event] id = [] := by
    rcases empty with rfl | rfl | rfl <;> exact ⟨fun _ => rfl, fun _ => rfl⟩
  constructor
  · intro injected
    have dropped : persisted injected (settleOne signature (events.map beatOf) (beatOf event)) =
        false := by
      rcases empty with rfl | rfl | rfl <;> rfl
    rw [List.map_append, List.map_singleton, settle_snoc, List.filter_append,
      List.filter_singleton, dropped, cond_false, List.append_nil]
    exact recorded.plays injected
  · exact recorded.steps
  · exact recorded.users
  · intro beat kind
    have apart : beat ≠ beatOf event := by
      rintro rfl
      rcases empty with rfl | rfl | rfl <;> simp [beatOf] at kind
    rw [recorded.same beat kind]
    simp [apart]
  · intro data present
    rw [framesOf_snoc, frameless.1, List.append_nil]
    exact recorded.frames data present
  · intro data present
    rw [messagesOf_snoc, frameless.2, List.append_nil]
    exact recorded.messages data present
  · simp [recorded.asked, plain.symm]

theorem Recorded.delta (recorded : Recorded signature clarify emissions events builder)
    {text : String} (nonempty : text ≠ "") :
    Recorded signature clarify (emissions ++ [.delta text]) (events ++ [.delta text])
      { builder with deltaSegment := builder.deltaSegment ++ [text] } := by
  constructor
  · intro injected
    have kept : persisted injected (.answer text) = true := by simp [persisted, nonempty]
    rw [play_pending, ← recorded.plays injected, List.map_append, List.map_singleton, settle_snoc,
      List.filter_append, List.filter_singleton]
    simp only [beatOf, kept, cond_true, settleOne]
    rw [play_snoc]
  · exact recorded.steps
  · exact recorded.users
  · intro beat kind
    have apart : beat ≠ .answer text := by
      rintro rfl
      simp at kind
    rw [List.map_append, List.mem_append, ← recorded.same beat kind]
    simp [beatOf, apart]
  · intro data present
    rw [framesOf_snoc, show framesOf [.delta text] data.stepId = [] from rfl, List.append_nil]
    exact recorded.frames data present
  · intro data present
    rw [messagesOf_snoc, show messagesOf [.delta text] data.userMessageId = [] from rfl,
      List.append_nil]
    exact recorded.messages data present
  · simp [recorded.asked]

theorem settleOne_viz {first second : List Beat}
    (same : ∀ shown, .viz shown ∈ first ↔ .viz shown ∈ second) (spec : String) :
    settleOne signature first (.viz spec) = settleOne signature second (.viz spec) := by
  simp only [settleOne]
  refine if_congr ?_ rfl rfl
  rw [List.any_eq_true, List.any_eq_true]
  refine exists_congr fun beat => ?_
  cases beat with
  | viz shown => rw [same shown]
  | _ => simp

theorem Recorded.viz (recorded : Recorded signature clarify emissions events builder)
    (settled : builder.deltaSegment = []) (spec : Payload) :
    Recorded signature clarify (emissions ++ [.viz spec]) (events ++ [.viz spec])
      (builder.append (.viz spec)) := by
  refine recorded.append settled rfl ⟨by simp [beatOf], by simp [beatOf]⟩ ?_ ?_ (by simp)
  · intro injected
    simp only [beatOf, settleOne, replays]
    split <;> rfl
  · intro injected _
    refine settleOne_viz (fun shown => ?_) spec
    rw [List.mem_filter, recorded.same (.viz shown) (Or.inr (Or.inr ⟨shown, rfl⟩))]
    exact and_iff_left rfl

def Beat.keyed : Beat → Bool
  | .tool _ => true
  | .user _ => true
  | _ => false

theorem settleOne_keyed {beat : Beat} (keyed : beat.keyed = true) (before : List Beat) :
    settleOne signature before beat = if beat ∈ before then .silent else beat := by
  cases beat <;> simp_all [Beat.keyed, settleOne]

theorem clarify_mem (clarify : Option Clarification) {segments : List TranscriptSegment} :
    .clarify ∈ segments ↔ .clarify (questionOf clarify) ∈ segments.map (segmentBeat clarify) := by
  rw [List.mem_map]
  constructor
  · intro present
    exact ⟨_, present, rfl⟩
  · rintro ⟨segment, present, isClarify⟩
    cases segment with
    | clarify => exact present
    | _ => cases isClarify

theorem Recorded.first (recorded : Recorded signature clarify emissions events builder)
    (settled : builder.deltaSegment = []) {segment : TranscriptSegment} {emission : Emission}
    {event : Event} {after : SegmentsBuilder}
    (segments : after.segments = builder.segments ++ [segment]) (delta : after.deltaSegment = [])
    (beat : segmentBeat clarify segment = beatOf event) (keyed : (beatOf event).keyed = true)
    (unseen : beatOf event ∉ events.map beatOf) (plain : emission ≠ .clarify)
    (steps : Indexed after.stepIndexById Beat.tool
      (builder.segments.map (segmentBeat clarify) ++ [beatOf event]))
    (users : Indexed after.userIndexById Beat.user
      (builder.segments.map (segmentBeat clarify) ++ [beatOf event]))
    (frames : ∀ data, .step data ∈ builder.segments ++ [segment] →
      (framesOf (events ++ [event]) data.stepId).getLast? = some data)
    (messages : ∀ data, .user data ∈ builder.segments ++ [segment] →
      (messagesOf (events ++ [event]) data.userMessageId).getLast? = some data) :
    Recorded signature clarify (emissions ++ [emission]) (events ++ [event]) after := by
  have beats : after.segments.map (segmentBeat clarify) =
      builder.segments.map (segmentBeat clarify) ++ [beatOf event] := by
    simp [segments, beat]
  have unsegmented : beatOf event ∉ builder.segments.map (segmentBeat clarify) := by
    rw [recorded.same]
    · exact unseen
    · revert keyed
      cases beatOf event <;> simp [Beat.keyed]
  constructor
  · intro injected
    rw [beats, pendingBeats, if_pos delta, List.append_nil, List.map_append, List.map_singleton]
    refine plays_snoc recorded settled ?_ ?_ injected
    · intro injected
      rw [settleOne_keyed keyed, if_neg unseen]
      revert keyed
      cases beatOf event <;> simp [Beat.keyed, persisted, replays]
    · intro injected _
      rw [settleOne_keyed keyed, settleOne_keyed keyed, if_neg unseen, if_neg]
      exact fun present => unsegmented (List.mem_filter.mp present).1
  · rwa [beats]
  · rwa [beats]
  · intro other kind
    rw [beats, List.map_append, List.mem_append, List.mem_append, recorded.same other kind]
    rfl
  · rwa [segments]
  · rwa [segments]
  · have apart : segment ≠ .clarify := by
      rintro rfl
      rw [← beat] at keyed
      cases keyed
    simp [segments, recorded.asked, apart.symm, plain.symm]

theorem Recorded.again (recorded : Recorded signature clarify emissions events builder)
    {segments : List TranscriptSegment} {emission : Emission}
    {event : Event} (beats : segments.map (segmentBeat clarify) =
      builder.segments.map (segmentBeat clarify)) (keyed : (beatOf event).keyed = true)
    (seen : beatOf event ∈ events.map beatOf) (plain : emission ≠ .clarify)
    (frames : ∀ data, .step data ∈ segments →
      (framesOf (events ++ [event]) data.stepId).getLast? = some data)
    (messages : ∀ data, .user data ∈ segments →
      (messagesOf (events ++ [event]) data.userMessageId).getLast? = some data) :
    Recorded signature clarify (emissions ++ [emission]) (events ++ [event])
      { builder with segments := segments } := by
  constructor
  · intro injected
    have muted : persisted injected (settleOne signature (events.map beatOf) (beatOf event)) =
        false := by
      rw [settleOne_keyed keyed, if_pos seen]
      rfl
    have before := recorded.plays injected
    rw [List.map_append, List.map_singleton, settle_snoc, List.filter_append,
      List.filter_singleton, muted, cond_false, List.append_nil, before, ← beats]
    rfl
  · show Indexed _ _ (segments.map _)
    rw [beats]
    exact recorded.steps
  · show Indexed _ _ (segments.map _)
    rw [beats]
    exact recorded.users
  · intro beat kind
    show beat ∈ segments.map _ ↔ _
    rw [beats, recorded.same beat kind, List.map_append, List.mem_append]
    refine ⟨Or.inl, fun either => either.elim id fun here => ?_⟩
    rwa [List.mem_singleton.mp here]
  · exact frames
  · exact messages
  · show .clarify ∈ segments ↔ _
    rw [clarify_mem clarify, beats, ← clarify_mem, recorded.asked]
    simp [plain.symm]

theorem framesOf_last (events : List Event) (data : StepData) (stepId : String) :
    (framesOf (events ++ [.step data]) stepId).getLast? =
      if data.stepId = stepId then some data else (framesOf events stepId).getLast? := by
  rw [framesOf_snoc]
  by_cases same : data.stepId = stepId
  · simp [framesOf, same]
  · simp [framesOf, same]

theorem messagesOf_last (events : List Event) (data : UserMessage) (id : String) :
    (messagesOf (events ++ [.userMessage data]) id).getLast? =
      if data.userMessageId = id then some data else (messagesOf events id).getLast? := by
  rw [messagesOf_snoc]
  by_cases same : data.userMessageId = id
  · simp [messagesOf, same]
  · simp [messagesOf, same]

theorem Recorded.step (recorded : Recorded signature clarify emissions events builder)
    (settled : builder.deltaSegment = []) (data : StepData) :
    Recorded signature clarify (emissions ++ [.step data]) (events ++ [.step data])
      (builder.addStep data) := by
  have seen := recorded.same (.tool data.stepId) (Or.inl ⟨_, rfl⟩)
  have listed := recorded.steps.mem data.stepId
  have earlier : ∀ other, .step other ∈ builder.segments →
      segmentBeat clarify (.step other) ≠ .tool data.stepId →
      (framesOf (events ++ [.step data]) other.stepId).getLast? = some other := by
    intro other present apart
    rw [framesOf_last, if_neg fun same => apart (by rw [same]; rfl)]
    exact recorded.frames other present
  have untouched : ∀ other, .user other ∈ builder.segments →
      (messagesOf (events ++ [.step data]) other.userMessageId).getLast? = some other := by
    intro other present
    rw [messagesOf_snoc, show messagesOf [.step data] other.userMessageId = [] from rfl,
      List.append_nil]
    exact recorded.messages other present
  unfold SegmentsBuilder.addStep
  cases found : builder.stepIndexById.lookup data.stepId with
  | none =>
    have unsegmented : .tool data.stepId ∉ builder.segments.map (segmentBeat clarify) :=
      fun present => listed.mp present found
    have fresh := recorded.steps.snoc_new (fun _ _ same => Beat.tool.inj same) found
    rw [List.length_map] at fresh
    refine recorded.first settled rfl settled rfl rfl (fun bad => unsegmented (seen.mpr bad))
      (by simp) fresh (recorded.users.snoc_other (by simp [beatOf])) ?_ ?_
    · intro other present
      rcases List.mem_append.mp present with before | here
      · exact earlier other before fun same => unsegmented (List.mem_map.mpr ⟨_, before, same⟩)
      · cases List.mem_singleton.mp here
        rw [framesOf_last, if_pos rfl]
    · intro other present
      rcases List.mem_append.mp present with before | here
      · exact untouched other before
      · cases List.mem_singleton.mp here
  | some place =>
    have here := (recorded.steps data.stepId place).mp found
    refine recorded.again (map_set_same here) rfl (seen.mp (listed.mpr (by simp [found])))
      (by simp) ?_ ?_
    · intro other present
      rcases recorded.steps.mem_set found present with same | ⟨before, apart⟩
      · cases same
        rw [framesOf_last, if_pos rfl]
      · exact earlier other before apart
    · intro other present
      rcases List.mem_or_eq_of_mem_set present with before | bad
      · exact untouched other before
      · cases bad

theorem Recorded.user (recorded : Recorded signature clarify emissions events builder)
    (settled : builder.deltaSegment = []) (data : UserMessage) :
    Recorded signature clarify (emissions ++ [.user data]) (events ++ [.userMessage data])
      (builder.addUser data) := by
  have seen := recorded.same (.user data.userMessageId) (Or.inr (Or.inl ⟨_, rfl⟩))
  have listed := recorded.users.mem data.userMessageId
  have earlier : ∀ other, .user other ∈ builder.segments →
      segmentBeat clarify (.user other) ≠ .user data.userMessageId →
      (messagesOf (events ++ [.userMessage data]) other.userMessageId).getLast? = some other := by
    intro other present apart
    rw [messagesOf_last, if_neg fun same => apart (by rw [same]; rfl)]
    exact recorded.messages other present
  have untouched : ∀ other, .step other ∈ builder.segments →
      (framesOf (events ++ [.userMessage data]) other.stepId).getLast? = some other := by
    intro other present
    rw [framesOf_snoc, show framesOf [.userMessage data] other.stepId = [] from rfl,
      List.append_nil]
    exact recorded.frames other present
  unfold SegmentsBuilder.addUser
  cases found : builder.userIndexById.lookup data.userMessageId with
  | none =>
    have unsegmented : .user data.userMessageId ∉ builder.segments.map (segmentBeat clarify) :=
      fun present => listed.mp present found
    have fresh := recorded.users.snoc_new (fun _ _ same => Beat.user.inj same) found
    rw [List.length_map] at fresh
    refine recorded.first settled rfl settled rfl rfl (fun bad => unsegmented (seen.mpr bad))
      (by simp) (recorded.steps.snoc_other (by simp [beatOf])) fresh ?_ ?_
    · intro other present
      rcases List.mem_append.mp present with before | here
      · exact untouched other before
      · cases List.mem_singleton.mp here
    · intro other present
      rcases List.mem_append.mp present with before | here
      · exact earlier other before fun same => unsegmented (List.mem_map.mpr ⟨_, before, same⟩)
      · cases List.mem_singleton.mp here
        rw [messagesOf_last, if_pos rfl]
  | some place =>
    have here := (recorded.users data.userMessageId place).mp found
    refine recorded.again (map_set_same here) rfl (seen.mp (listed.mpr (by simp [found])))
      (by simp) ?_ ?_
    · intro other present
      rcases List.mem_or_eq_of_mem_set present with before | bad
      · exact untouched other before
      · cases bad
    · intro other present
      rcases recorded.users.mem_set found present with same | ⟨before, apart⟩
      · cases same
        rw [messagesOf_last, if_pos rfl]
      · exact earlier other before apart

theorem Recorded.seenViz (recorded : Recorded signature clarify emissions events builder)
    (seen : List String) :
    Recorded signature clarify emissions events { builder with seenViz := seen } :=
  ⟨recorded.plays, recorded.steps, recorded.users, recorded.same, recorded.frames,
    recorded.messages, recorded.asked⟩

theorem Recorded.unseen (recorded : Recorded signature clarify emissions events builder)
    (spec : Payload) : Recorded signature clarify (emissions ++ [.viz spec]) events builder :=
  ⟨recorded.plays, recorded.steps, recorded.users, recorded.same, recorded.frames,
    recorded.messages, by simp [recorded.asked]⟩

theorem Recorded.add (recorded : Recorded signature clarify emissions events builder)
    {live : Observed} {head : Event} (streamed : events = head :: live.events)
    (seen : builder.seenViz = live.seenViz) (emission : Emission) :
    Recorded signature clarify (emissions ++ [emission])
        (head :: (observe observed (questionOf clarify) live emission).events)
        (builder.add observed emission) ∧
      (builder.add observed emission).seenViz =
        (observe observed (questionOf clarify) live emission).seenViz := by
  subst streamed
  have flushed := recorded.flushDelta
  have settled := flushDelta_pending builder
  obtain ⟨_, _, flushSeen⟩ := flushDelta_indexes builder
  rw [seen] at flushSeen
  cases emission with
  | delta text =>
    by_cases empty : text = ""
    · subst empty
      exact ⟨recorded.skip (by simp) (Or.inl rfl), seen⟩
    · simp only [SegmentsBuilder.add, if_neg empty, observe]
      exact ⟨recorded.delta empty, seen⟩
  | narration text =>
    by_cases empty : text = ""
    · subst empty
      exact ⟨flushed.skip (by simp) (Or.inr (Or.inl rfl)), flushSeen⟩
    · simp only [SegmentsBuilder.add, if_neg empty, observe]
      refine ⟨flushed.append settled rfl ⟨by simp [beatOf], by simp [beatOf]⟩ ?_ ?_ (by simp),
        flushSeen⟩
      · simp [beatOf, settleOne, persisted, replays, empty]
      · simp [beatOf, settleOne]
  | thinking text =>
    by_cases empty : text = ""
    · subst empty
      exact ⟨flushed.skip (by simp) (Or.inr (Or.inr rfl)), flushSeen⟩
    · simp only [SegmentsBuilder.add, if_neg empty, observe]
      refine ⟨flushed.append settled rfl ⟨by simp [beatOf], by simp [beatOf]⟩ ?_ ?_ (by simp),
        flushSeen⟩
      · simp [beatOf, settleOne, persisted, replays, empty]
      · simp [beatOf, settleOne]
  | step data =>
    refine ⟨flushed.step settled data, ?_⟩
    simp only [SegmentsBuilder.add, SegmentsBuilder.addStep]
    split <;> exact flushSeen
  | user data =>
    refine ⟨flushed.user settled data, ?_⟩
    simp only [SegmentsBuilder.add, SegmentsBuilder.addUser]
    split <;> exact flushSeen
  | viz spec =>
    simp only [SegmentsBuilder.add, observe, seen]
    cases kept : (keepViz observed live.seenViz spec).1 with
    | true => exact ⟨(flushed.viz settled spec).seenViz _, rfl⟩
    | false => exact ⟨(recorded.unseen spec).seenViz _, rfl⟩
  | clarify =>
    refine ⟨flushed.append settled rfl ⟨by simp [beatOf], by simp [beatOf]⟩ ?_ ?_ (by simp),
      flushSeen⟩
    · simp [beatOf, settleOne, persisted, replays]
    · simp [beatOf, settleOne]

theorem recorded_turn (signature observed : Payload → String) (clarify : Option Clarification)
    (metadata : MetaData) (emissions : List Emission) :
    Recorded signature clarify emissions
        (.metadata metadata :: (emissions.foldl (observe observed (questionOf clarify)) {}).events)
        (emissions.foldl (SegmentsBuilder.add observed) {}) ∧
      (emissions.foldl (SegmentsBuilder.add observed) {}).seenViz =
        (emissions.foldl (observe observed (questionOf clarify)) {}).seenViz := by
  induction emissions using List.reverseRecOn with
  | nil =>
    refine ⟨⟨?_, Indexed.empty, Indexed.empty, ?_, ?_, ?_, ?_⟩, rfl⟩
    · intro injected
      rfl
    · rintro beat (⟨id, rfl⟩ | ⟨id, rfl⟩ | ⟨spec, rfl⟩) <;> simp [beatOf]
    · intro data present
      cases present
    · intro data present
      cases present
    · constructor <;> intro present <;> cases present
  | append_singleton emissions emission ih =>
    rw [List.foldl_append, List.foldl_append]
    exact ih.1.add rfl ih.2 emission

end Counselle.Chat

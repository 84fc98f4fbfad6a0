import Counselle.Text
import Counselle.Turns.EmittedText

/-! The router starts and settles every step once, whatever order the events come in. -/
namespace Counselle.Turns.Emission
open Transition (run run_cons)
open Receipts (MutationFamily MutationAction)
variable {V : Type} {settings : Settings V} {r t : Router V}

def stepId (n : Nat) : String := "s" ++ toString n

theorem stepId_inj {n m : Nat} (same : stepId n = stepId m) : n = m := by
  have texts := congrArg String.toList same
  rw [stepId, stepId, String.toList_append, String.toList_append] at texts
  exact Nat.repr_inj.mp (String.toList_injective (List.append_cancel_left texts))

def statuses (id : String) (written : List (Chunk V)) : List StepStatus :=
  ((steps written).filter (·.stepId = id)).map (·.status)

def openIds (r : Router V) : List String := r.openSteps.map (·.2.stepId)

/-- Every open step was started, every other one was also settled, and no id is given out
that was given out before. -/
structure Ledger (r : Router V) : Prop where
  started : ∀ id ∈ openIds r, statuses id r.written = [.start]
  settled : ∀ id, id ∉ openIds r → statuses id r.written = [] ∨ ∃ status, status ≠ .start ∧ statuses id r.written = [.start, status]
  fresh : ∀ n, r.counter < n → statuses (stepId n) r.written = []
  ids : (openIds r).Nodup
  calls : (r.openSteps.map Prod.fst).Nodup

theorem Ledger.new : Ledger (Router.new : Router V) :=
  ⟨nofun, fun _ _ => Or.inl rfl, fun _ _ => rfl, List.nodup_nil, List.nodup_nil⟩

theorem Ledger.congr (ledger : Ledger r) (written : steps t.written = steps r.written)
    (openSteps : t.openSteps = r.openSteps) (counter : t.counter = r.counter) : Ledger t := by
  have same (id : String) : statuses id t.written = statuses id r.written := by rw [statuses, written, statuses]
  have ids : openIds t = openIds r := by rw [openIds, openSteps, openIds]
  refine ⟨fun id isIn => ?_, fun id absent => ?_, fun n later => ?_, ?_, ?_⟩
  · rw [same]
    exact ledger.started id (ids ▸ isIn)
  · rw [same]
    exact ledger.settled id (ids ▸ absent)
  · rw [same]
    exact ledger.fresh n (counter ▸ later)
  · exact ids ▸ ledger.ids
  · exact openSteps ▸ ledger.calls

theorem statuses_emitStep (data : StepData V) (id : String) : statuses id (emitStep r data).written =
    statuses id r.written ++ if data.stepId = id then [data.status] else [] := by
  rw [emitStep, Router.write, statuses, steps_append, List.filter_append, List.map_append]
  congr 1
  by_cases here : data.stepId = id
  · simp [steps, stepOf, here]
  · simp [steps, stepOf, here]

theorem stepId_fresh (ledger : Ledger r) : stepId (r.counter + 1) ∉ openIds r := by
  intro isOpen
  cases (ledger.started _ isOpen).symm.trans (ledger.fresh (r.counter + 1) (Nat.lt_succ_self _))

theorem Ledger.start (ledger : Ledger r) {toolCallId : String} {opened : OpenStep V} {data : StepData V}
    (noCall : r.openSteps.lookup toolCallId = none) (isNew : opened.stepId = stepId (r.counter + 1))
    (sameId : data.stepId = opened.stepId) (starts : data.status = .start) :
    Ledger (emitStep { r with counter := r.counter + 1, openSteps := r.openSteps ++ [(toolCallId, opened)] } data) := by
  have unseen := ledger.fresh (r.counter + 1) (Nat.lt_succ_self _)
  have ids : openIds (emitStep { r with
      counter := r.counter + 1, openSteps := r.openSteps ++ [(toolCallId, opened)] } data) =
      openIds r ++ [stepId (r.counter + 1)] := by
    simp [openIds, emitStep, Router.write, isNew]
  refine ⟨fun id isIn => ?_, fun id absent => ?_, fun n later => ?_, ?_, ?_⟩
  · rw [statuses_emitStep, sameId, isNew, starts]
    rw [ids] at isIn
    obtain isOpen | isNow := List.mem_append.mp isIn
    · have apart : stepId (r.counter + 1) ≠ id := fun same => stepId_fresh ledger (same ▸ isOpen)
      rw [if_neg apart, List.append_nil]
      exact ledger.started id isOpen
    · rw [List.mem_singleton.mp isNow, if_pos rfl]
      exact congrArg (· ++ [StepStatus.start]) unseen
  · rw [ids, List.mem_append, not_or, List.mem_singleton] at absent
    rw [statuses_emitStep, sameId, isNew, if_neg (Ne.symm absent.2), List.append_nil]
    exact ledger.settled id absent.1
  · have before : r.counter < n := Nat.lt_of_succ_lt later
    have apart : stepId (r.counter + 1) ≠ stepId n := fun same => Nat.ne_of_lt later (stepId_inj same)
    rw [statuses_emitStep, sameId, isNew, if_neg apart, List.append_nil]
    exact ledger.fresh n before
  · rw [ids, List.nodup_append]
    refine ⟨ledger.ids, List.nodup_singleton _, fun id isOpen other isNow same => ?_⟩
    rw [List.mem_singleton.mp isNow] at same
    exact stepId_fresh ledger (same ▸ isOpen)
  · change ((r.openSteps ++ [(toolCallId, opened)]).map Prod.fst).Nodup
    rw [List.map_append, List.nodup_append]
    refine ⟨ledger.calls, List.nodup_singleton _, fun call isOpen other isNow same => ?_⟩
    rw [List.mem_singleton.mp isNow] at same
    obtain ⟨entry, isIn, isCall⟩ := List.mem_map.mp isOpen
    have other := List.lookup_eq_none_iff.mp noCall entry isIn
    simp [isCall, same] at other

theorem Ledger.settle (ledger : Ledger r) {before behind : List (String × OpenStep V)} {entry : String × OpenStep V}
    {data : StepData V} (isOpen : r.openSteps = before ++ entry :: behind) (sameId : data.stepId = entry.2.stepId)
    (settles : data.status ≠ .start) : Ledger (emitStep { r with openSteps := before ++ behind } data) := by
  have ids := ledger.ids
  have calls := ledger.calls
  have isIn : entry.2.stepId ∈ openIds r := by simp [openIds, isOpen]
  have whole : ∀ id, id ∈ openIds r ↔ id = entry.2.stepId ∨ id ∈ (before ++ behind).map (·.2.stepId) := by
    intro id
    simp only [openIds, isOpen, List.map_append, List.map_cons, List.mem_append, List.mem_cons]
    exact or_left_comm
  rw [openIds, isOpen, List.map_append, List.map_cons, List.nodup_middle, List.nodup_cons, ← List.map_append] at ids
  rw [isOpen, List.map_append, List.map_cons, List.nodup_middle, List.nodup_cons, ← List.map_append] at calls
  refine ⟨fun id isLeft => ?_, fun id absent => ?_, fun n later => ?_, ids.2, calls.2⟩
  · have apart : entry.2.stepId ≠ id := fun same => ids.1 (same ▸ isLeft)
    rw [statuses_emitStep, sameId, if_neg apart, List.append_nil]
    exact ledger.started id ((whole id).mpr (Or.inr isLeft))
  · rw [statuses_emitStep, sameId]
    by_cases here : entry.2.stepId = id
    · rw [if_pos here, ← here]
      exact Or.inr ⟨data.status, settles, congrArg (· ++ [data.status]) (ledger.started _ isIn)⟩
    · rw [if_neg here, List.append_nil]
      exact ledger.settled id fun bad => ((whole id).mp bad).elim (fun same => here same.symm) absent
  · have unseen := ledger.fresh n later
    have apart : entry.2.stepId ≠ stepId n := by
      intro same
      rw [← same] at unseen
      cases (ledger.started _ isIn).symm.trans unseen
    rw [statuses_emitStep, sameId, if_neg apart, List.append_nil]
    exact unseen

theorem Ledger.finish (ledger : Ledger r) {toolCallId : String} {opened : OpenStep V} {data : StepData V}
    (isOpen : r.openSteps.lookup toolCallId = some opened) (sameId : data.stepId = opened.stepId)
    (settles : data.status ≠ .start) :
    Ledger (emitStep { r with openSteps := r.openSteps.filter (·.1 ≠ toolCallId) } data) := by
  obtain ⟨before, behind, whole, others⟩ := List.lookup_eq_some_iff.mp isOpen
  have calls := ledger.calls
  rw [whole, List.map_append, List.map_cons, List.nodup_middle, List.nodup_cons, ← List.map_append] at calls
  have left : r.openSteps.filter (·.1 ≠ toolCallId) = before ++ behind := by
    rw [whole, List.filter_append, List.filter_cons_of_neg (by simp), List.filter_eq_self.mpr, List.filter_eq_self.mpr]
    · intro entry isIn
      rw [decide_eq_true_eq]
      rintro rfl
      exact calls.1 (List.mem_map.mpr ⟨entry, List.mem_append_right _ isIn, rfl⟩)
    · intro entry isIn
      have other := others entry isIn
      rw [decide_eq_true_eq]
      rintro rfl
      simp at other
  rw [left]
  exact ledger.settle whole sameId settles

theorem foldl_emitStep (data : String × OpenStep V → StepData V) (entries : List (String × OpenStep V)) (r : Router V) :
    ∃ stepRecords, entries.foldl (fun r entry => emitStep r (data entry)) r =
      { r with stepRecords, written := r.written ++ (entries.map data).map Chunk.step } := by
  induction entries generalizing r with
  | nil => exact ⟨r.stepRecords, by simp⟩
  | cons entry rest ih =>
    obtain ⟨stepRecords, whole⟩ := ih (emitStep r (data entry))
    refine ⟨stepRecords, ?_⟩
    rw [List.foldl_cons, whole]
    simp [emitStep, Router.write]

theorem Ledger.settleAll {data : String × OpenStep V → StepData V} (ledger : Ledger r)
    (sameId : ∀ entry, (data entry).stepId = entry.2.stepId) (settles : ∀ entry, (data entry).status ≠ .start)
    (written : steps t.written = steps r.written ++ r.openSteps.map data) (none : t.openSteps = [])
    (counter : t.counter = r.counter) : Ledger t := by
  generalize isOpen : r.openSteps = entries at written
  induction entries generalizing r with
  | nil => exact ledger.congr (written.trans (List.append_nil _)) (none.trans isOpen.symm) counter
  | cons entry rest ih =>
    have ledger : Ledger (emitStep { r with openSteps := [] ++ rest } (data entry)) :=
      ledger.settle isOpen (sameId entry) (settles entry)
    refine ih ledger counter rfl ?_
    simpa [emitStep, Router.write, steps, stepOf] using written

theorem closedData_id (reason : CloseReason) (opened : OpenStep V) :
    (closedData settings reason opened).stepId = opened.stepId := by
  rw [closedData]
  split <;> rfl

theorem closedData_settles (reason : CloseReason) (opened : OpenStep V) :
    (closedData settings reason opened).status ≠ .start := by
  rw [closedData]
  split
  · nofun
  · simp only [stepData]
    by_cases well : reason = .complete ∨ reason = .interrupt
    · rw [if_pos well]
      nofun
    · rw [if_neg well]
      nofun

theorem finishedData_settles (opened : OpenStep V) (retry : Bool) (content : Option V) (durationMs : Nat) :
    (finishedData settings opened retry content durationMs).status ≠ .start := by
  simp only [finishedData, stepData]
  by_cases errored : settings.mapper.resultIsError retry (if retry then none else content) = true
  · rw [if_pos errored]
    nofun
  · rw [if_neg errored]
    nofun

theorem spoken_steps (chunks : List (StepData V)) : spoken (chunks.map Chunk.step) = [] := by
  induction chunks with
  | nil => rfl
  | cons data rest ih => exact ih

theorem steps_steps (chunks : List (StepData V)) : steps (chunks.map Chunk.step) = chunks := by
  induction chunks with
  | nil => rfl
  | cons data rest ih => exact congrArg (data :: ·) ih

/-- What a close writes: the text that is left, and how each open step is settled. -/
structure Closes (settings : Settings V) (reason : CloseReason) (r t : Router V) : Prop where
  text : solid (spoken t.written) = solid (spoken r.written) ++ solid r.textBuf
  steps : steps t.written = steps r.written ++ r.openSteps.map fun entry => closedData settings reason entry.2
  textBuf : t.textBuf = []
  openSteps : t.openSteps = []
  counter : t.counter = r.counter
  closed : t.closed = true
  streamed : t.narrationStreamedLen = 0

theorem close_closes (settings : Settings V) (tidy : Tidy r) (isOpen : r.closed = false) (reason : CloseReason) :
    Closes settings reason r (close settings r reason) := by
  have thought := flushThinking_moves settings (r := { r with closed := true }) ⟨tidy.streamed, tidy.answered⟩
  obtain ⟨texted, empty⟩ := closeText_moves thought.tidy reason
  have moves := thought.trans texted
  rw [close, if_neg (ne_true_of_eq_false isOpen)]
  simp only
  obtain ⟨stepRecords, whole⟩ := foldl_emitStep (fun entry => closedData settings reason entry.2)
    (closeText (flushThinking settings { r with closed := true }) reason).openSteps
    { closeText (flushThinking settings { r with closed := true }) reason with finalCandidate := false }
  rw [whole]
  refine ⟨?_, ?_, empty, rfl, moves.counter, moves.closed, moves.tidy.streamed⟩
  · have text := moves.text
    rw [empty] at text
    rw [spoken_append, spoken_steps, List.append_nil]
    simpa using text
  · rw [steps_append, steps_steps, moves.steps, moves.openSteps]

structure Kept (r : Router V) : Prop where
  tidy : Tidy r
  ledger : Ledger r
  shut : r.closed = true → r.textBuf = [] ∧ r.openSteps = []

theorem Kept.new : Kept (Router.new : Router V) := ⟨⟨rfl, fun _ => rfl⟩, .new, nofun⟩

def heardOf : StreamEvent V → Chars
  | .textStart content => content
  | .textDelta content => content
  | .finalResult | .runResult | .textEnd _ | .thinkingStart _ | .thinkingDelta _ | .thinkingEnd | .toolCall ..
  | .toolResult .. | .other => []

/-- The text parts that come between a begin and the next close. -/
def heard : Bool → List (Command V) → Chars
  | _, [] => []
  | _, .begin :: rest => heard false rest
  | _, .close _ :: rest => heard true rest
  | closed, .handle event :: rest => (if closed then [] else heardOf event) ++ heard closed rest

/-- The text is kept, whatever steps the router starts or settles. -/
structure Steps (heard : Chars) (r t : Router V) : Prop where
  text : solid (spoken t.written) ++ solid t.textBuf = solid (spoken r.written) ++ solid r.textBuf ++ solid heard
  closed : t.closed = r.closed
  kept : Kept t

theorem Moves.stepped {heard : Chars} (kept : Kept r) (isOpen : r.closed = false) (moves : Moves heard r t) :
    Steps heard r t :=
  ⟨moves.text, moves.closed, moves.tidy, kept.ledger.congr moves.steps moves.openSteps moves.counter,
    fun bad => absurd (moves.closed.symm.trans bad) (ne_true_of_eq_false isOpen)⟩

theorem emitStep_text (data : StepData V) : spoken (emitStep r data).written = spoken r.written := by
  rw [emitStep, Router.write, spoken_append]
  exact List.append_nil _

theorem insertKey_append {toolCallId : String} {opened : OpenStep V} {entries : List (String × OpenStep V)}
    (noCall : entries.lookup toolCallId = none) :
    Upsert.insertKey Prod.fst entries (toolCallId, opened) = entries ++ [(toolCallId, opened)] := by
  have others := List.lookup_eq_none_iff.mp noCall
  rw [Upsert.insertKey]
  induction entries with
  | nil => rfl
  | cons entry rest ih =>
    obtain ⟨here, later⟩ := List.forall_mem_cons.mp others
    have apart : (entry.1 == toolCallId) = false := by
      rw [beq_eq_false_iff_ne]
      exact fun same => bne_iff_ne.mp here same.symm
    rw [Upsert.upsert, apart, if_neg Bool.false_ne_true, ih (List.lookup_eq_none_iff.mpr later) later]
    rfl

theorem narrated_moves (tidy : Tidy r) :
    Moves [] r { (if r.textBuf = [] then r else flushTextAsNarration r) with finalCandidate := false } := by
  split
  case isTrue empty => exact ⟨by simp, rfl, rfl, rfl, rfl, ⟨tidy.streamed, tidy.answered⟩⟩
  case isFalse =>
    obtain ⟨moves, -⟩ := flushTextAsNarration_moves tidy.streamed
    exact ⟨moves.text, moves.steps, moves.openSteps, moves.counter, moves.closed, ⟨rfl, fun _ => rfl⟩⟩

theorem startStep_steps (kept : Kept r) (isOpen : r.closed = false) {toolCallId : String}
    (noCall : r.openSteps.lookup toolCallId = none) (toolName : String) (args : V) :
    Steps [] r (startStep settings r toolCallId toolName args) := by
  have moves := narrated_moves kept.tidy
  have narrated := moves.stepped kept isOpen
  simp only [startStep]
  split
  case isTrue => exact narrated
  case isFalse =>
    split
    case h_1 => exact narrated
    case h_2 mapped _ =>
      rw [insertKey_append (moves.openSteps.symm ▸ noCall)]
      have ledger := @Ledger.start _ _ narrated.kept.ledger _ ⟨stepId _, toolName, args, mapped⟩
        (stepData ⟨stepId _, toolName, args, mapped⟩ .start mapped.label none none none)
        (moves.openSteps.symm ▸ noCall) rfl rfl rfl
      refine ⟨?_, narrated.closed, ⟨⟨narrated.kept.tidy.streamed, narrated.kept.tidy.answered⟩, ledger, fun bad => ?_⟩⟩
      · rw [emitStep_text]
        exact narrated.text
      · exact absurd (narrated.closed.symm.trans bad) (ne_true_of_eq_false isOpen)

theorem finishStep_steps (kept : Kept r) (isOpen : r.closed = false) (toolCallId : String) (retry : Bool)
    (content : Option V) (durationMs : Nat) : Steps [] r (finishStep settings r toolCallId retry content durationMs) := by
  rw [finishStep]
  split
  case h_1 => exact (Moves.refl kept.tidy).stepped kept isOpen
  case h_2 opened isCall =>
    have ledger := @Ledger.finish _ _ kept.ledger _ _ (finishedData settings opened retry content durationMs) isCall rfl
      (finishedData_settles opened retry content durationMs)
    refine ⟨?_, rfl, ⟨⟨kept.tidy.streamed, kept.tidy.answered⟩, ledger, fun bad => ?_⟩⟩
    · rw [emitStep_text]
      simp [emitStep, Router.write]
    · exact absurd bad (ne_true_of_eq_false isOpen)

theorem handle_steps (settings : Settings V) (kept : Kept r) (isOpen : r.closed = false) {event : StreamEvent V}
    (distinct : ∀ toolCallId toolName args, event = .toolCall toolCallId toolName args → r.openSteps.lookup toolCallId = none) :
    Steps (heardOf event) r (handle settings r event) := by
  unfold handle
  rw [if_neg (ne_true_of_eq_false isOpen)]
  cases event with
  | finalResult => exact (handleFinalResult_moves kept.tidy).stepped kept isOpen
  | runResult => exact (handleRunResult_moves kept.tidy).stepped kept isOpen
  | textStart content => exact (feedText_moves kept.tidy content).stepped kept isOpen
  | textDelta content => exact (feedText_moves kept.tidy content).stepped kept isOpen
  | textEnd nextPartKind => exact (endTextPart_moves kept.tidy nextPartKind).stepped kept isOpen
  | thinkingStart content => exact (feedThinking_moves settings kept.tidy content).stepped kept isOpen
  | thinkingDelta content => exact (feedThinking_moves settings kept.tidy content).stepped kept isOpen
  | thinkingEnd => exact (flushThinking_moves settings kept.tidy).stepped kept isOpen
  | toolCall toolCallId toolName args =>
    exact startStep_steps kept isOpen (distinct toolCallId toolName args rfl) toolName args
  | toolResult toolCallId retry content durationMs =>
    exact finishStep_steps kept isOpen toolCallId retry content durationMs
  | other => exact (Moves.refl kept.tidy).stepped kept isOpen

theorem handle_closed (shut : r.closed = true) (event : StreamEvent V) : handle settings r event = r := by
  unfold handle
  rw [if_pos shut]

theorem close_closed (shut : r.closed = true) (reason : CloseReason) : close settings r reason = r := by
  rw [close, if_pos shut]

theorem close_kept (settings : Settings V) (kept : Kept r) (reason : CloseReason) : Kept (close settings r reason) := by
  cases shut : r.closed with
  | true => rwa [close_closed shut]
  | false =>
    have closes := close_closes settings kept.tidy shut reason
    exact ⟨⟨closes.streamed, fun _ => closes.textBuf⟩, kept.ledger.settleAll (fun _ => closedData_id reason _)
      (fun _ => closedData_settles reason _) closes.steps closes.openSteps closes.counter,
      fun _ => ⟨closes.textBuf, closes.openSteps⟩⟩

theorem handle_keeps (settings : Settings V) (kept : Kept r) {event : StreamEvent V}
    (distinct : ∀ toolCallId toolName args, event = .toolCall toolCallId toolName args →
      r.closed = false → r.openSteps.lookup toolCallId = none) (rest : List (Command V)) :
    Kept (handle settings r event) ∧
      solid (spoken (handle settings r event).written) ++ solid (handle settings r event).textBuf ++
        solid (heard (handle settings r event).closed rest) =
      solid (spoken r.written) ++ solid r.textBuf ++ solid (heard r.closed (.handle event :: rest)) := by
  cases shut : r.closed with
  | true =>
    rw [handle_closed shut, shut]
    exact ⟨kept, rfl⟩
  | false =>
    have steps := handle_steps settings kept shut fun call name args isCall => distinct call name args isCall shut
    refine ⟨steps.kept, ?_⟩
    have now : heard false (.handle event :: rest) = heardOf event ++ heard false rest := rfl
    rw [steps.text, steps.closed, shut, now, solid_append (heardOf event), List.append_assoc _ (solid (heardOf event))]

theorem step_keeps (kept : Kept r) {command : Command V} (taken : step settings r command = some t)
    (rest : List (Command V)) :
    Kept t ∧ solid (spoken t.written) ++ solid t.textBuf ++ solid (heard t.closed rest) =
      solid (spoken r.written) ++ solid r.textBuf ++ solid (heard r.closed (command :: rest)) := by
  cases command with
  | begin =>
    obtain ⟨idle, begun⟩ := Option.ite_none_right_eq_some.mp taken
    obtain rfl := Option.some.inj begun
    have empty : r.textBuf = [] := idle.elim (fun shut => (kept.shut shut).1) And.left
    refine ⟨⟨⟨rfl, fun _ => rfl⟩, kept.ledger.congr rfl rfl rfl, nofun⟩, ?_⟩
    rw [empty]
    rfl
  | close reason =>
    obtain rfl := Option.some.inj taken
    refine ⟨close_kept settings kept reason, ?_⟩
    cases shut : r.closed with
    | true =>
      rw [close_closed shut, shut]
      rfl
    | false =>
      have closes := close_closes settings kept.tidy shut reason
      rw [closes.text, closes.textBuf, closes.closed, solid_nil, List.append_nil]
      rfl
  | handle event =>
    have handled (distinct : ∀ toolCallId toolName args, event = .toolCall toolCallId toolName args →
        r.closed = false → r.openSteps.lookup toolCallId = none) (same : handle settings r event = t) :=
      same ▸ handle_keeps settings kept distinct rest
    cases event with
    | toolCall toolCallId toolName args =>
      obtain ⟨isNew, same⟩ := Option.ite_none_left_eq_some.mp taken
      refine handled (fun call name args isCall isOpen => ?_) (Option.some.inj same)
      obtain ⟨rfl, -, -⟩ := StreamEvent.toolCall.inj isCall
      exact Option.not_isSome_iff_eq_none.mp fun seen => isNew ⟨isOpen, seen⟩
    | finalResult | runResult | textStart | textDelta | textEnd | thinkingStart | thinkingDelta | thinkingEnd | toolResult
    | other => exact handled nofun (Option.some.inj taken)

theorem run_keeps (kept : Kept r) {commands : List (Command V)} (path : run (step settings) r commands = some t) :
    Kept t ∧ solid (spoken t.written) ++ solid t.textBuf =
      solid (spoken r.written) ++ solid r.textBuf ++ solid (heard r.closed commands) := by
  induction commands generalizing r with
  | nil =>
    obtain rfl := Option.some.inj path
    exact ⟨kept, (List.append_nil _).symm⟩
  | cons command rest ih =>
    obtain ⟨s, taken, later⟩ := run_cons path
    obtain ⟨here, text⟩ := step_keeps kept taken rest
    obtain ⟨ended, whole⟩ := ih here later
    exact ⟨ended, whole.trans text⟩

/-- A write tool that is open at the close may have committed or not. -/
structure SettledUnknown (settings : Settings V) (reason : CloseReason) (r : Router V) (opened : OpenStep V)
    (family : MutationFamily) (action : MutationAction) : Prop where
  errored : statuses opened.stepId (close settings r reason).written = [.start, .error]
  unknown : ∀ data ∈ steps (close settings r reason).written, data.stepId = opened.stepId → data.status = .error →
    data.detail = some ⟨some 1, some ⟨family, action, .unknown⟩, none⟩

theorem close_settlesUnknown (kept : Kept r) (reason : CloseReason) {entry : String × OpenStep V}
    (isIn : entry ∈ r.openSteps) {family : MutationFamily} {action : MutationAction}
    (isWrite : familyAction entry.2.toolName = some (family, action)) :
    SettledUnknown settings reason r entry.2 family action := by
  have isOpen : r.closed = false := by
    rw [← Bool.not_eq_true]
    intro shut
    rw [(kept.shut shut).2] at isIn
    cases isIn
  have closes := close_closes settings kept.tidy isOpen reason
  have opened : entry.2.stepId ∈ openIds r := List.mem_map_of_mem isIn
  constructor
  · have here : closedData settings reason entry.2 ∈ steps (close settings r reason).written := by
      rw [closes.steps]
      exact List.mem_append_right _ (List.mem_map_of_mem isIn)
    have settled : StepStatus.error ∈ statuses entry.2.stepId (close settings r reason).written := by
      refine List.mem_map.mpr ⟨closedData settings reason entry.2, ?_, ?_⟩
      · exact List.mem_filter.mpr ⟨here, decide_eq_true (closedData_id reason entry.2)⟩
      · simp only [closedData, isWrite]
        rfl
    have ledger := (close_kept settings kept reason).ledger
    have closed : entry.2.stepId ∉ openIds (close settings r reason) := by
      rw [openIds, closes.openSteps]
      exact List.not_mem_nil
    obtain none | ⟨status, settles, whole⟩ := ledger.settled _ closed
    · rw [none] at settled
      cases settled
    · rw [whole] at settled ⊢
      obtain ⟨⟩ | ⟨_, last⟩ := settled
      rw [List.mem_singleton.mp last]
  · intro data written sameId errored
    rw [closes.steps] at written
    obtain earlier | atClose := List.mem_append.mp written
    · have started := kept.ledger.started _ opened
      have only : data.status ∈ statuses entry.2.stepId r.written :=
        List.mem_map_of_mem (List.mem_filter.mpr ⟨earlier, decide_eq_true sameId⟩)
      rw [started, List.mem_singleton, errored] at only
      cases only
    · obtain ⟨other, isOther, rfl⟩ := List.mem_map.mp atClose
      rw [closedData_id] at sameId
      obtain rfl := List.inj_on_of_nodup_map kept.ledger.ids isOther isIn sameId
      simp only [closedData, isWrite]
      rfl

structure Emits (settings : Settings V) (commands : List (Command V)) (r : Router V) : Prop where
  text : solid (spoken r.written) ++ solid r.textBuf = solid (heard false commands)
  flushed : r.closed = true → r.textBuf = []
  once : ∀ id, statuses id r.written ∈ [[], [.start], [.start, .finish], [.start, .error]]
  ended : r.closed = true → ∀ id, statuses id r.written ≠ [.start]
  silent : r.closed = true → (∀ event, (handle settings r event).written = r.written) ∧
    ∀ reason, (close settings r reason).written = r.written
  unresolved : ∀ reason, ∀ entry ∈ r.openSteps, ∀ family action, familyAction entry.2.toolName = some (family, action) →
    SettledUnknown settings reason r entry.2 family action

theorem Kept.once (kept : Kept r) (id : String) :
    statuses id r.written ∈ [[], [.start], [.start, .finish], [.start, .error]] := by
  by_cases isOpen : id ∈ openIds r
  · rw [kept.ledger.started id isOpen]
    simp
  · obtain none | ⟨status, settles, whole⟩ := kept.ledger.settled id isOpen
    · simp [none]
    · rw [whole]
      cases status with
      | start => exact absurd rfl settles
      | finish | error => simp

theorem Kept.ended (kept : Kept r) (shut : r.closed = true) (id : String) : statuses id r.written ≠ [.start] := by
  have closed : id ∉ openIds r := by
    rw [openIds, (kept.shut shut).2]
    exact List.not_mem_nil
  obtain none | ⟨status, -, whole⟩ := kept.ledger.settled id closed
  · rw [none]
    nofun
  · rw [whole]
    nofun

/-- A mapper that labels every call with the name of its tool. -/
def namingMapper : StepMapper Unit where
  isVisible _ := true
  mapCall toolName _ := some ⟨"workspace", none, toolName, toolName⟩
  resultIsError retry _ := retry
  detailFor _ _ _ _ := ⟨none, none, none⟩
  terminalLabel mapped _ _ _ _ := mapped.label
  sourcesFor _ _ _ := none
  uiFor _ _ _ := none

/-- A turn that is stopped within a write, and the one after it. -/
def stoppedTurn : List (Command Unit) :=
  [.begin, .handle (.textStart "Let me add that. ".toList), .handle (.toolCall "a" "create_tasks" ()), .close .interrupt,
    .begin, .handle (.toolCall "a" "search_tasks" ()), .handle (.toolResult "a" false none 3),
    .handle (.textStart "Done".toList), .handle .finalResult, .handle (.textDelta " now.".toList),
    .handle (.textEnd none), .handle .runResult, .handle (.toolCall "b" "update_task" ()), .close .complete]

end Counselle.Turns.Emission

import Counselle.Turns.Router

/-! The router writes every text once: what was heard and not yet written is buffered. -/
namespace Counselle.Turns.Emission
open PyText (isSpace strip)

def solid (text : Chars) : Chars := text.filter fun c => !isSpace c

section Solid

@[simp] theorem solid_nil : solid [] = [] := rfl

@[simp] theorem solid_append (front back : Chars) : solid (front ++ back) = solid front ++ solid back :=
  List.filter_append front back

theorem solid_dropWhile (text : Chars) : solid (text.dropWhile isSpace) = solid text := by
  induction text with
  | nil => rfl
  | cons c rest ih =>
    rw [List.dropWhile_cons]
    split
    case isTrue blank =>
      rw [ih]
      exact (List.filter_cons_of_neg (by simp [blank])).symm
    case isFalse => rfl

theorem solid_rdropWhile (text : Chars) : solid (text.rdropWhile isSpace) = solid text := by
  induction text using List.reverseRecOn with
  | nil => rfl
  | append_singleton front c ih =>
    rw [List.rdropWhile_concat]
    split
    case isTrue blank =>
      have nothing : solid [c] = [] := List.filter_cons_of_neg (by simp [blank])
      rw [ih, solid_append, nothing, List.append_nil]
    case isFalse => rfl

theorem solid_strip (text : Chars) : solid (strip text) = solid text := by
  rw [PyText.strip_eq, solid_rdropWhile, solid_dropWhile]

end Solid

section Text
variable {V : Type} {r s t : Router V}

def said : Chunk V → Chars
  | .delta text => text
  | .narration text => text
  | .thinking _ => []
  | .step _ => []

def spoken (written : List (Chunk V)) : Chars := written.flatMap said

def stepOf : Chunk V → Option (StepData V)
  | .step data => some data
  | .delta _ | .narration _ | .thinking _ => none

def steps (written : List (Chunk V)) : List (StepData V) := written.filterMap stepOf

@[simp] theorem spoken_append (front back : List (Chunk V)) : spoken (front ++ back) = spoken front ++ spoken back :=
  List.flatMap_append

@[simp] theorem steps_append (front back : List (Chunk V)) : steps (front ++ back) = steps front ++ steps back :=
  List.filterMap_append

/-- No part of the buffer was streamed, and an answer that has started is not buffered. -/
structure Tidy (r : Router V) : Prop where
  streamed : r.narrationStreamedLen = 0
  answered : r.finalAnswerStarted = true → r.textBuf = []

/-- The router heard a text, and wrote or buffered it; no step was touched. -/
structure Moves (heard : Chars) (r t : Router V) : Prop where
  text : solid (spoken t.written) ++ solid t.textBuf = solid (spoken r.written) ++ solid r.textBuf ++ solid heard
  steps : steps t.written = steps r.written
  openSteps : t.openSteps = r.openSteps
  counter : t.counter = r.counter
  closed : t.closed = r.closed
  tidy : Tidy t

theorem Moves.refl (tidy : Tidy r) : Moves [] r r := ⟨by simp, rfl, rfl, rfl, rfl, tidy⟩

theorem Moves.trans {first second : Chars} (here : Moves first r s) (later : Moves second s t) :
    Moves (first ++ second) r t where
  text := by rw [later.text, here.text, solid_append, List.append_assoc _ (solid first)]
  steps := later.steps.trans here.steps
  openSteps := later.openSteps.trans here.openSteps
  counter := later.counter.trans here.counter
  closed := later.closed.trans here.closed
  tidy := later.tidy

theorem unstreamedText_eq (streamed : r.narrationStreamedLen = 0) : unstreamedText r = r.textBuf := by
  rw [unstreamedText, streamed, List.drop_zero]

theorem flushTextDelta_moves (streamed : r.narrationStreamedLen = 0) :
    Moves [] r (flushTextDelta r) ∧ (flushTextDelta r).textBuf = [] := by
  rw [flushTextDelta, unstreamedText_eq streamed]
  split
  case isTrue empty => exact ⟨.refl ⟨streamed, fun _ => empty⟩, empty⟩
  case isFalse =>
    refine ⟨⟨?_, ?_, rfl, rfl, rfl, ⟨rfl, fun _ => rfl⟩⟩, rfl⟩
    · simp [Router.write, clearTextBuffer, spoken, said]
    · simp [Router.write, clearTextBuffer, steps, stepOf]

theorem answerText_moves (streamed : r.narrationStreamedLen = 0) :
    Moves [] r (answerText r) ∧ (answerText r).textBuf = [] := by
  rw [answerText]
  split
  case isTrue starts =>
    rw [startFinalAnswer, if_neg (ne_true_of_eq_false starts.1)]
    obtain ⟨moves, empty⟩ := flushTextDelta_moves (r := { r with finalAnswerStarted := true, finalCandidate := false }) streamed
    exact ⟨⟨moves.text, moves.steps, moves.openSteps, moves.counter, moves.closed, moves.tidy⟩, empty⟩
  case isFalse => exact flushTextDelta_moves streamed

theorem emitNarration_written (r : Router V) (text : Chars) :
    solid (spoken (emitNarration r text).written) = solid (spoken r.written) ++ solid text ∧
      steps (emitNarration r text).written = steps r.written := by
  simp only [emitNarration]
  split
  case isTrue blank =>
    have nothing := solid_strip text
    rw [blank] at nothing
    rw [← nothing]
    simp
  case isFalse =>
    rw [← solid_strip text]
    simp [Router.write, spoken, said, steps, stepOf]

theorem emitNarration_same (r : Router V) (text : Chars) : (emitNarration r text).openSteps = r.openSteps ∧
    (emitNarration r text).counter = r.counter ∧ (emitNarration r text).closed = r.closed := by
  simp only [emitNarration]
  split <;> exact ⟨rfl, rfl, rfl⟩

theorem flushTextAsNarration_moves (streamed : r.narrationStreamedLen = 0) :
    Moves [] r (flushTextAsNarration r) ∧ (flushTextAsNarration r).textBuf = [] := by
  refine ⟨?_, rfl⟩
  have tidy : Tidy (flushTextAsNarration r) := ⟨rfl, fun _ => rfl⟩
  rw [flushTextAsNarration, emitUnstreamedTextAsNarration, unstreamedText_eq streamed] at *
  split
  case isTrue empty => exact ⟨by simp [empty], rfl, rfl, rfl, rfl, ⟨rfl, fun _ => rfl⟩⟩
  case isFalse =>
    obtain ⟨text, isSteps⟩ := emitNarration_written r r.textBuf
    obtain ⟨openSteps, counter, closed⟩ := emitNarration_same r r.textBuf
    exact ⟨by simp [text], isSteps, openSteps, counter, closed, ⟨rfl, fun _ => rfl⟩⟩

theorem feedText_moves (tidy : Tidy r) (text : Chars) : Moves text r (feedText r text) := by
  rw [feedText]
  split
  case isTrue none => exact none ▸ Moves.refl tidy
  case isFalse =>
    split
    case isTrue answering =>
      refine ⟨?_, ?_, rfl, rfl, rfl, ⟨tidy.streamed, tidy.answered⟩⟩
      · simp [Router.write, tidy.answered answering, spoken, said]
      · simp [Router.write, steps, stepOf]
    case isFalse buffering =>
      refine ⟨?_, rfl, rfl, rfl, rfl, ⟨tidy.streamed, fun answering => absurd answering buffering⟩⟩
      simp

theorem handleFinalResult_moves (tidy : Tidy r) : Moves [] r (handleFinalResult r) := by
  rw [handleFinalResult]
  split
  case isTrue => exact .refl tidy
  case isFalse buffering =>
    split
    case isTrue empty =>
      rw [startFinalAnswer, if_neg buffering]
      exact ⟨by simp, rfl, rfl, rfl, rfl, ⟨tidy.streamed, fun _ => empty⟩⟩
    case isFalse =>
      rw [if_pos tidy.streamed]
      exact ⟨by simp, rfl, rfl, rfl, rfl, ⟨tidy.streamed, tidy.answered⟩⟩

theorem handleRunResult_moves (tidy : Tidy r) : Moves [] r (handleRunResult r) := by
  rw [handleRunResult]
  split
  case isTrue => exact .refl tidy
  case isFalse pending =>
    rw [not_or] at pending
    rw [unstreamedText_eq tidy.streamed, if_neg pending.2]
    have starts : r.finalAnswerStarted = false ∧ unstreamedText r ≠ [] :=
      ⟨Bool.not_eq_true _ ▸ pending.1, (unstreamedText_eq tidy.streamed).symm ▸ pending.2⟩
    have answered := (answerText_moves tidy.streamed).1
    rwa [answerText, if_pos starts] at answered

theorem endTextPart_moves (tidy : Tidy r) (nextPartKind : Option String) : Moves [] r (endTextPart r nextPartKind) := by
  rw [endTextPart]
  split
  case isTrue => exact .refl tidy
  case isFalse =>
    split
    case isTrue => exact (answerText_moves tidy.streamed).1
    case isFalse =>
      obtain ⟨moves, -⟩ := flushTextAsNarration_moves tidy.streamed
      exact ⟨moves.text, moves.steps, moves.openSteps, moves.counter, moves.closed, ⟨rfl, fun _ => rfl⟩⟩

theorem emitThinking_moves (settings : Settings V) (tidy : Tidy r) (text : Chars) : Moves [] r (emitThinking settings r text) := by
  simp only [emitThinking]
  split
  case isTrue => exact .refl tidy
  case isFalse =>
    refine ⟨?_, ?_, rfl, rfl, rfl, ⟨tidy.streamed, tidy.answered⟩⟩
    · simp [Router.write, spoken, said]
    · simp [Router.write, steps, stepOf]

theorem foldl_emitThinking_moves (settings : Settings V) (tidy : Tidy r) (complete : List Chars) :
    Moves [] r (complete.foldl (emitThinking settings) r) := by
  induction complete generalizing r with
  | nil => exact .refl tidy
  | cons text rest ih =>
    have here := emitThinking_moves settings tidy text
    exact here.trans (ih here.tidy)

theorem feedThinking_moves (settings : Settings V) (tidy : Tidy r) (text : Chars) : Moves [] r (feedThinking settings r text) := by
  rw [feedThinking]
  split
  case isTrue => exact .refl tidy
  case isFalse =>
    have moves := foldl_emitThinking_moves settings tidy (paragraphs (r.thinkingBuf ++ text)).1
    exact ⟨moves.text, moves.steps, moves.openSteps, moves.counter, moves.closed, ⟨moves.tidy.streamed, moves.tidy.answered⟩⟩

theorem flushThinking_moves (settings : Settings V) (tidy : Tidy r) : Moves [] r (flushThinking settings r) := by
  rw [flushThinking]
  split
  case isTrue => exact .refl tidy
  case isFalse =>
    have moves := emitThinking_moves settings tidy r.thinkingBuf
    exact ⟨moves.text, moves.steps, moves.openSteps, moves.counter, moves.closed, ⟨moves.tidy.streamed, moves.tidy.answered⟩⟩

theorem closeText_moves (tidy : Tidy r) (reason : CloseReason) :
    Moves [] r (closeText r reason) ∧ (closeText r reason).textBuf = [] := by
  rw [closeText]
  split
  case isTrue empty => exact ⟨.refl tidy, empty⟩
  case isFalse =>
    split
    · exact answerText_moves tidy.streamed
    · exact flushTextAsNarration_moves tidy.streamed

end Text

end Counselle.Turns.Emission

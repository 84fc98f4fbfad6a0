import Counselle.Sat.Practice
import Mathlib.Data.List.Nodup

/-! The verdicts of a practice session belong to the answers that are shown, as long as no
answer changes while it is graded. -/
namespace Counselle.Sat.Practice
open Transition
open Function (update)

/-- Every attempt under way is the one that the session holds of its question, and a failed
attempt of this session stays bound. -/
structure Inv (s : State) : Prop where
  verdicts : Verdicts s
  inFlight : ∀ attempt ∈ s.outstanding, s.session.inFlight attempt.questionId = true
  ofLoad : ∀ attempt ∈ s.outstanding, attempt.load = s.loads
  held : ∀ attempt ∈ s.outstanding, s.session.answers attempt.questionId = some attempt.answer
  bound : ∀ attempt ∈ s.outstanding,
    s.session.attemptBindings attempt.questionId = some ⟨attempt.answer, attempt.clientAttemptId⟩
  single : (s.outstanding.map Attempt.questionId).Nodup
  past : ∀ questionId failed, lastFailed questionId s.log = some failed → failed.load ≤ s.loads
  kept : ∀ questionId failed, lastFailed questionId s.log = some failed → failed.load = s.loads →
    s.session.attemptBindings questionId = some ⟨failed.answer, failed.clientAttemptId⟩
  fresh : ∀ attempt, .submitted attempt ∈ s.log → attempt.clientAttemptId < s.minted
  known : ∀ questionId binding, s.session.attemptBindings questionId = some binding →
    ∃ attempt, .submitted attempt ∈ s.log ∧ attempt.questionId = questionId ∧ attempt.answer = binding.answer ∧
      attempt.clientAttemptId = binding.clientAttemptId

theorem Inv.start : Inv initial where
  verdicts := {
    shown := nofun
    reused := trivial
    distinct := nofun
    marked questionId := ⟨nofun, fun graded => by
      obtain ⟨_, _, bad, -⟩ | bad := graded
      · cases bad
      · cases bad⟩ }
  inFlight := nofun
  ofLoad := nofun
  held := nofun
  bound := nofun
  single := List.nodup_nil
  past := nofun
  kept := nofun
  fresh := nofun
  known := nofun

section Step
variable {s : State}

theorem Inv.shownOnly (inv : Inv s) (rows : List SatSessionRow) (index : Nat) (eliminations : String → List String)
    (loading : Bool) : Inv { s with session := { s.session with rows, index, eliminations }, loading } where
  verdicts := ⟨inv.verdicts.shown, inv.verdicts.reused, inv.verdicts.distinct, inv.verdicts.marked⟩
  inFlight := inv.inFlight
  ofLoad := inv.ofLoad
  held := inv.held
  bound := inv.bound
  single := inv.single
  past := inv.past
  kept := inv.kept
  fresh := inv.fresh
  known := inv.known

theorem Inv.indexChanged (inv : Inv s) (index : Int) : Inv (dispatch s (.indexChanged index)) := by
  rw [dispatch, satSessionReducer]
  split
  · exact inv
  · exact inv.shownOnly s.session.rows index.toNat s.session.eliminations s.loading

theorem Inv.eliminateToggled (inv : Inv s) (questionId label : String) :
    Inv (dispatch s (.eliminateToggled questionId label)) :=
  inv.shownOnly s.session.rows s.session.index _ s.loading

theorem Inv.bookmarkPatched (inv : Inv s) (questionId : String) (bookmarked : Bool) :
    Inv (dispatch s (.bookmarkPatched questionId bookmarked)) :=
  inv.shownOnly _ s.session.index s.session.eliminations s.loading

theorem Inv.answerChanged (inv : Inv s) {questionId value : String} (unseen : s.session.reveals questionId = none)
    (same : (∃ attempt ∈ s.outstanding, attempt.questionId = questionId) → s.session.answers questionId = some value) :
    Inv (dispatch s (.answerChanged questionId value)) where
  verdicts := {
    shown := fun other reveal isReveal => by
      obtain ⟨attempt, result, graded, isAnswer, isResult⟩ := inv.verdicts.shown other reveal isReveal
      refine ⟨attempt, result, graded, ?_, isResult⟩
      have apart : other ≠ questionId := by
        rintro rfl
        cases unseen.symm.trans isReveal
      exact (Function.update_of_ne apart _ _).trans isAnswer
    reused := inv.verdicts.reused
    distinct := inv.verdicts.distinct
    marked := inv.verdicts.marked }
  inFlight := inv.inFlight
  ofLoad := inv.ofLoad
  held attempt isIn := by
    have isAnswer := inv.held attempt isIn
    by_cases here : attempt.questionId = questionId
    · have unchanged := same ⟨attempt, isIn, here⟩
      rw [here] at isAnswer ⊢
      exact (Function.update_self questionId _ _).trans (unchanged.symm.trans isAnswer)
    · exact (Function.update_of_ne here _ _).trans isAnswer
  bound := inv.bound
  single := inv.single
  past := inv.past
  kept := inv.kept
  fresh := inv.fresh
  known := inv.known

theorem gradedCorrect_submitted (attempt : Attempt) (log : List Event) (questionId : String) :
    GradedCorrect (.submitted attempt :: log) questionId ↔ GradedCorrect log questionId := by
  simp [GradedCorrect, sinceLoad, loadedRows]

theorem gradedCorrect_failed (attempt : Attempt) (log : List Event) (questionId : String) :
    GradedCorrect (.failed attempt :: log) questionId ↔ GradedCorrect log questionId := by
  simp [GradedCorrect, sinceLoad, loadedRows]

theorem gradedCorrect_graded (attempt : Attempt) (result : SatSubmitResult) (log : List Event) (questionId : String) :
    GradedCorrect (.graded attempt result :: log) questionId ↔
      (attempt.questionId = questionId ∧ result.isCorrect = true) ∨ GradedCorrect log questionId := by
  have first : sinceLoad (.graded attempt result :: log) = .graded attempt result :: sinceLoad log := rfl
  have rows : loadedRows (.graded attempt result :: log) = loadedRows log := rfl
  rw [GradedCorrect, GradedCorrect, first, rows, ← or_assoc]
  apply or_congr_left
  constructor
  · rintro ⟨other, verdict, isIn, same, correct⟩
    obtain head | later := List.mem_cons.mp isIn
    · cases head
      exact Or.inl ⟨same, correct⟩
    · exact Or.inr ⟨other, verdict, later, same, correct⟩
  · rintro (⟨same, correct⟩ | ⟨other, verdict, isIn, same, correct⟩)
    · exact ⟨attempt, result, List.mem_cons_self, same, correct⟩
    · exact ⟨other, verdict, List.mem_cons_of_mem _ isIn, same, correct⟩

theorem Inv.clientAttemptId (inv : Inv s) (questionId value : String) :
    (∃ attempt, .submitted attempt ∈ s.log ∧ attempt.questionId = questionId ∧ attempt.answer = value ∧
      selectReusableAttemptId s.session questionId value = some attempt.clientAttemptId) ∨
    selectReusableAttemptId s.session questionId value = none := by
  cases reused : selectReusableAttemptId s.session questionId value with
  | none => exact Or.inr rfl
  | some id =>
    obtain ⟨binding, isBound, same⟩ := Option.bind_eq_some_iff.mp reused
    split at same
    case isFalse => cases same
    case isTrue isAnswer =>
      cases same
      obtain ⟨attempt, isIn, isQuestion, sameAnswer, sameId⟩ := inv.known questionId binding isBound
      exact Or.inl ⟨attempt, isIn, isQuestion, sameAnswer.trans isAnswer, by rw [sameId]⟩

theorem Inv.apart (inv : Inv s) {questionId : String} (idle : s.session.inFlight questionId = false) {other : Attempt}
    (isIn : other ∈ s.outstanding) : other.questionId ≠ questionId := by
  rintro rfl
  cases idle.symm.trans (inv.inFlight other isIn)

def sent (s : State) (attempt : Attempt) (minted : Nat) : State :=
  { dispatch s (.submitStarted attempt.questionId attempt.answer attempt.clientAttemptId) with
    outstanding := attempt :: s.outstanding
    minted
    log := .submitted attempt :: s.log }

theorem Inv.sent (inv : Inv s) {attempt : Attempt} {minted : Nat} (idle : s.session.inFlight attempt.questionId = false)
    (isAnswer : s.session.answers attempt.questionId = some attempt.answer) (isLoad : attempt.load = s.loads)
    (reused : ∀ failed, lastFailed attempt.questionId s.log = some failed → failed.answer = attempt.answer →
      attempt.clientAttemptId = failed.clientAttemptId)
    (distinct : ∀ other, .submitted other ∈ s.log → other.clientAttemptId = attempt.clientAttemptId →
      other.questionId = attempt.questionId ∧ other.answer = attempt.answer)
    (later : s.minted ≤ minted) (isMinted : attempt.clientAttemptId < minted) : Inv (sent s attempt minted) where
  verdicts := {
    shown := inv.verdicts.shown
    reused := ⟨reused, inv.verdicts.reused⟩
    distinct := fun first second isFirst isSecond same => by
      obtain head | isFirst := List.mem_cons.mp isFirst <;> obtain head' | isSecond := List.mem_cons.mp isSecond
      · cases head
        cases head'
        exact ⟨rfl, rfl⟩
      · cases head
        obtain ⟨isQuestion, sameAnswer⟩ := distinct second isSecond same.symm
        exact ⟨isQuestion.symm, sameAnswer.symm⟩
      · cases head'
        exact distinct first isFirst same
      · exact inv.verdicts.distinct first second isFirst isSecond same
    marked := fun questionId => (inv.verdicts.marked questionId).trans (gradedCorrect_submitted attempt s.log questionId).symm }
  inFlight other isIn := by
    obtain rfl | isIn := List.mem_cons.mp isIn
    · exact Function.update_self other.questionId _ _
    · exact (Function.update_of_ne (inv.apart idle isIn) _ _).trans (inv.inFlight other isIn)
  ofLoad := List.forall_mem_cons.mpr ⟨isLoad, inv.ofLoad⟩
  held := List.forall_mem_cons.mpr ⟨isAnswer, inv.held⟩
  bound other isIn := by
    obtain rfl | isIn := List.mem_cons.mp isIn
    · exact Function.update_self other.questionId _ _
    · exact (Function.update_of_ne (inv.apart idle isIn) _ _).trans (inv.bound other isIn)
  single := by
    refine List.nodup_cons.mpr ⟨fun isIn => ?_, inv.single⟩
    obtain ⟨other, isIn, same⟩ := List.mem_map.mp isIn
    exact inv.apart idle isIn same
  past questionId failed isLast := by
    rw [Practice.sent, lastFailed] at isLast
    split at isLast
    · cases isLast
    · exact inv.past questionId failed isLast
  kept questionId failed isLast sameLoad := by
    rw [Practice.sent, lastFailed] at isLast
    split at isLast
    case isTrue => cases isLast
    case isFalse other => exact (Function.update_of_ne (Ne.symm other) _ _).trans (inv.kept questionId failed isLast sameLoad)
  fresh other isIn := by
    obtain head | isIn := List.mem_cons.mp isIn
    · cases head
      exact isMinted
    · exact Nat.lt_of_lt_of_le (inv.fresh other isIn) later
  known questionId binding isBound := by
    by_cases here : questionId = attempt.questionId
    · subst here
      cases (Function.update_self attempt.questionId _ _).symm.trans isBound
      exact ⟨attempt, List.mem_cons_self, rfl, rfl, rfl⟩
    · obtain ⟨other, isIn, same⟩ := inv.known questionId binding ((Function.update_of_ne here _ _).symm.trans isBound)
      exact ⟨other, List.mem_cons_of_mem _ isIn, same⟩

theorem Inv.startSubmit (inv : Inv s) {questionId value : String} (idle : s.session.inFlight questionId = false)
    (isAnswer : s.session.answers questionId = some value)
    (ofLoad : ∀ failed, lastFailed questionId s.log = some failed → failed.answer = value → failed.load = s.loads) :
    Inv (startSubmit s questionId value) := by
  have reusable : ∀ failed, lastFailed questionId s.log = some failed → failed.answer = value →
      selectReusableAttemptId s.session questionId value = some failed.clientAttemptId := fun failed isLast same => by
    rw [selectReusableAttemptId, inv.kept questionId failed isLast (ofLoad failed isLast same)]
    exact if_pos same
  obtain ⟨known, isKnown, isQuestion, sameAnswer, isReused⟩ | isNew := inv.clientAttemptId questionId value
  · have whole : Practice.startSubmit s questionId value =
        Practice.sent s ⟨questionId, value, known.clientAttemptId, s.loads⟩ s.minted := by
      rw [Practice.startSubmit, isReused]
      rfl
    rw [whole]
    refine inv.sent idle isAnswer rfl (fun failed isLast same => ?_) (fun other isIn same => ?_) (Nat.le_refl _)
      (inv.fresh known isKnown)
    · exact Option.some.inj (isReused.symm.trans (reusable failed isLast same))
    · obtain ⟨question, answer⟩ := inv.verdicts.distinct other known isIn isKnown same
      exact ⟨question.trans isQuestion, answer.trans sameAnswer⟩
  · have whole : Practice.startSubmit s questionId value =
        Practice.sent s ⟨questionId, value, s.minted, s.loads⟩ (s.minted + 1) := by
      rw [Practice.startSubmit, isNew]
      rfl
    rw [whole]
    refine inv.sent idle isAnswer rfl (fun failed isLast same => ?_) (fun other isIn same => ?_) (Nat.le_succ _)
      (Nat.lt_succ_self _)
    · cases isNew.symm.trans (reusable failed isLast same)
    · exact absurd same (Nat.ne_of_lt (inv.fresh other isIn))

theorem selectHistory_succeeded (state : SatSessionState) (questionId other : String) (result : SatSubmitResult) :
    selectHistory (satSessionReducer state (.submitSucceeded questionId result)) other =
      if other = questionId then
        ⟨(selectHistory state questionId).everCorrect || result.isCorrect,
          (selectHistory state questionId).everIncorrect || !result.isCorrect⟩
      else selectHistory state other := by
  simp only [selectHistory, satSessionReducer, Function.update_apply]
  split <;> rfl

theorem Inv.left (inv : Inv s) {place : Nat} {attempt other : Attempt} (isAttempt : s.outstanding[place]? = some attempt)
    (isLeft : other ∈ s.outstanding.eraseIdx place) : other ∈ s.outstanding ∧ other.questionId ≠ attempt.questionId := by
  refine ⟨List.mem_of_mem_eraseIdx isLeft, fun same => ?_⟩
  obtain ⟨inside, rfl⟩ := List.getElem?_eq_some_iff.mp isAttempt
  have single := inv.single
  rw [← List.take_append_drop place s.outstanding, List.drop_eq_getElem_cons inside, List.map_append, List.map_cons,
    List.nodup_middle, List.nodup_cons, ← List.map_append, ← List.eraseIdx_eq_take_drop_succ] at single
  exact single.1 (List.mem_map.mpr ⟨other, isLeft, same⟩)

theorem Inv.fail (inv : Inv s) {place : Nat} {attempt : Attempt} (isAttempt : s.outstanding[place]? = some attempt) :
    Inv (fail s place attempt) where
  verdicts := {
    shown := inv.verdicts.shown
    reused := inv.verdicts.reused
    distinct := fun first second isFirst isSecond same => by
      obtain bad | isFirst := List.mem_cons.mp isFirst
      · cases bad
      obtain bad | isSecond := List.mem_cons.mp isSecond
      · cases bad
      exact inv.verdicts.distinct first second isFirst isSecond same
    marked := fun questionId => (inv.verdicts.marked questionId).trans (gradedCorrect_failed attempt s.log questionId).symm }
  inFlight other isIn := by
    obtain ⟨isIn, apart⟩ := inv.left isAttempt isIn
    exact (Function.update_of_ne apart _ _).trans (inv.inFlight other isIn)
  ofLoad other isIn := inv.ofLoad other (inv.left isAttempt isIn).1
  held other isIn := inv.held other (inv.left isAttempt isIn).1
  bound other isIn := inv.bound other (inv.left isAttempt isIn).1
  single := ((List.eraseIdx_sublist _ _).map _).nodup inv.single
  past questionId failed isLast := by
    rw [Practice.fail, lastFailed] at isLast
    split at isLast
    case isTrue =>
      cases isLast
      exact Nat.le_of_eq (inv.ofLoad attempt (List.mem_of_getElem? isAttempt))
    case isFalse => exact inv.past questionId failed isLast
  kept questionId failed isLast sameLoad := by
    rw [Practice.fail, lastFailed] at isLast
    split at isLast
    case isTrue here =>
      cases isLast
      exact here ▸ inv.bound attempt (List.mem_of_getElem? isAttempt)
    case isFalse => exact inv.kept questionId failed isLast sameLoad
  fresh other isIn := by
    obtain bad | isIn := List.mem_cons.mp isIn
    · cases bad
    · exact inv.fresh other isIn
  known questionId binding isBound := by
    obtain ⟨other, isIn, same⟩ := inv.known questionId binding isBound
    exact ⟨other, List.mem_cons_of_mem _ isIn, same⟩

theorem Inv.succeed (inv : Inv s) {place : Nat} {attempt : Attempt} (isAttempt : s.outstanding[place]? = some attempt)
    (result : SatSubmitResult) : Inv (succeed s place attempt result) where
  verdicts := {
    shown := fun questionId reveal isReveal => by
      by_cases here : questionId = attempt.questionId
      · subst here
        cases (Function.update_self attempt.questionId _ _).symm.trans isReveal
        exact ⟨attempt, result, if_pos rfl, inv.held attempt (List.mem_of_getElem? isAttempt), rfl⟩
      · obtain ⟨graded, verdict, isLast, isAnswer, isResult⟩ :=
          inv.verdicts.shown questionId reveal ((Function.update_of_ne here _ _).symm.trans isReveal)
        exact ⟨graded, verdict, (if_neg (Ne.symm here)).trans isLast, isAnswer, isResult⟩
    reused := inv.verdicts.reused
    distinct := fun first second isFirst isSecond same => by
      obtain bad | isFirst := List.mem_cons.mp isFirst
      · cases bad
      obtain bad | isSecond := List.mem_cons.mp isSecond
      · cases bad
      exact inv.verdicts.distinct first second isFirst isSecond same
    marked := fun questionId => by
      rw [Practice.succeed, gradedCorrect_graded, ← inv.verdicts.marked, dispatch, selectHistory_succeeded]
      by_cases here : questionId = attempt.questionId
      · subst here
        rw [if_pos rfl, Bool.or_eq_true, and_iff_right rfl, or_comm]
      · rw [if_neg here, or_iff_right fun bad => here bad.1.symm] }
  inFlight other isIn := by
    obtain ⟨isIn, apart⟩ := inv.left isAttempt isIn
    exact (Function.update_of_ne apart _ _).trans (inv.inFlight other isIn)
  ofLoad other isIn := inv.ofLoad other (inv.left isAttempt isIn).1
  held other isIn := inv.held other (inv.left isAttempt isIn).1
  bound other isIn := inv.bound other (inv.left isAttempt isIn).1
  single := ((List.eraseIdx_sublist _ _).map _).nodup inv.single
  past questionId failed isLast := by
    rw [Practice.succeed, lastFailed] at isLast
    split at isLast
    · cases isLast
    · exact inv.past questionId failed isLast
  kept questionId failed isLast sameLoad := by
    rw [Practice.succeed, lastFailed] at isLast
    split at isLast
    · cases isLast
    · exact inv.kept questionId failed isLast sameLoad
  fresh other isIn := by
    obtain bad | isIn := List.mem_cons.mp isIn
    · cases bad
    · exact inv.fresh other isIn
  known questionId binding isBound := by
    obtain ⟨other, isIn, same⟩ := inv.known questionId binding isBound
    exact ⟨other, List.mem_cons_of_mem _ isIn, same⟩

theorem Inv.load (inv : Inv s) (idle : s.outstanding = []) (rows : List SatSessionRow) : Inv (load s rows) where
  verdicts := {
    shown := nofun
    reused := inv.verdicts.reused
    distinct := fun first second isFirst isSecond same => by
      obtain bad | isFirst := List.mem_cons.mp isFirst
      · cases bad
      obtain bad | isSecond := List.mem_cons.mp isSecond
      · cases bad
      exact inv.verdicts.distinct first second isFirst isSecond same
    marked := fun questionId => by
      have isHistory : selectHistory (createInitialSatSessionState rows) questionId =
          (rowHistory rows questionId).getD ⟨false, false⟩ := rfl
      have isGraded : GradedCorrect (.loaded rows :: s.log) questionId ↔
          (rowHistory rows questionId).any (·.everCorrect) = true := by
        simp [GradedCorrect, sinceLoad, loadedRows]
      rw [Practice.load, isGraded, isHistory]
      cases rowHistory rows questionId with
      | none => exact Iff.rfl
      | some entry => exact Iff.rfl }
  inFlight other isIn := by
    rw [Practice.load, idle] at isIn
    cases isIn
  ofLoad other isIn := by
    rw [Practice.load, idle] at isIn
    cases isIn
  held other isIn := by
    rw [Practice.load, idle] at isIn
    cases isIn
  bound other isIn := by
    rw [Practice.load, idle] at isIn
    cases isIn
  single := inv.single
  past questionId failed isLast := Nat.le_succ_of_le (inv.past questionId failed isLast)
  kept questionId failed isLast sameLoad := by
    -- an attempt of an earlier session failed before this one was loaded
    have before := inv.past questionId failed isLast
    rw [sameLoad] at before
    exact absurd before (Nat.not_succ_le_self s.loads)
  fresh other isIn := by
    obtain bad | isIn := List.mem_cons.mp isIn
    · cases bad
    · exact inv.fresh other isIn
  known := nofun

end Step

theorem submission_spec {s : State} {questionId value : String} (sends : submission s = some (questionId, value)) :
    s.session.inFlight questionId = false ∧ s.session.answers questionId = some value := by
  obtain ⟨row, -, sends⟩ := Option.bind_eq_some_iff.mp sends
  split at sends
  case isTrue => cases sends
  case isFalse idle =>
    obtain ⟨answerValue, isAnswer, sends⟩ := Option.bind_eq_some_iff.mp sends
    split at sends
    · cases sends
    · cases sends
      exact ⟨Bool.not_eq_true _ ▸ idle, isAnswer⟩

theorem step_inv {s t : State} {label : Label} (inv : Inv s) (orderly : Orderly s label) (stepped : step s label = some t) :
    Inv t := by
  cases label with
  | answer value =>
    cases stepped
    rw [answer]
    split
    · exact inv
    case h_2 row isCurrent =>
      split
      · exact inv
      case isFalse noReveal =>
        exact inv.answerChanged (Option.not_isSome_iff_eq_none.mp noReveal) (orderly row isCurrent)
  | toggleEliminate label =>
    cases stepped
    split
    · exact inv
    · exact inv.eliminateToggled _ _
  | goTo index =>
    cases stepped
    exact inv.indexChanged index
  | submit =>
    cases stepped
    rw [submit]
    split
    · exact inv
    case h_2 questionId value sends =>
      obtain ⟨idle, isAnswer⟩ := submission_spec sends
      exact inv.startSubmit idle isAnswer (orderly (questionId, value) sends)
  | toggleBookmark =>
    cases stepped
    split
    · exact inv
    · exact inv.bookmarkPatched _ _
  | bookmarkFailed questionId bookmarked =>
    cases stepped
    exact inv.bookmarkPatched questionId bookmarked
  | succeeded place result =>
    obtain ⟨attempt, isAttempt, rfl⟩ := Option.map_eq_some_iff.mp stepped
    exact inv.succeed isAttempt result
  | failed place =>
    obtain ⟨attempt, isAttempt, rfl⟩ := Option.map_eq_some_iff.mp stepped
    exact inv.fail isAttempt
  | reload =>
    cases stepped
    exact inv.shownOnly s.session.rows s.session.index s.session.eliminations true
  | loaded rows =>
    rw [step] at stepped
    split at stepped
    · cases stepped
      exact inv.load orderly rows
    · cases stepped
  | loadFailed =>
    rw [step] at stepped
    split at stepped
    · cases stepped
      exact inv.shownOnly s.session.rows s.session.index s.session.eliminations false
    · cases stepped

/-- In a run where no answer changes and no session is loaded while an attempt is under way
for it, every verdict shown is about the answer shown. -/
theorem run_verdicts {labels : List Label} {s : State} (path : run step initial labels = some s)
    (orderly : Meets step Orderly initial labels) : Verdicts s :=
  (invariant_of_meets step_inv Inv.start path orderly).verdicts

def oneRow : SatSessionRow := ⟨"q", false, false, false⟩

def correct : SatSubmitResult := ⟨true, ["A"], "because"⟩

/-- A failed submit, tried again, and a reload after its verdict. -/
theorem retry_verdicts : ∃ s, run step initial
    [.loaded [oneRow], .answer "A", .submit, .failed 0, .submit, .succeeded 0 correct, .reload, .loaded [oneRow]] =
      some s ∧ Verdicts s := by
  obtain ⟨s, path⟩ := Option.isSome_iff_exists.mp (show (run step initial
    [.loaded [oneRow], .answer "A", .submit, .failed 0, .submit, .succeeded 0 correct, .reload, .loaded [oneRow]]).isSome
      by decide +kernel)
  exact ⟨s, path, run_verdicts path (by decide +kernel)⟩

/-- An answer changed while it is graded is shown with the verdict of the one before it. -/
theorem verdict_of_another : ∃ s, run step initial
    [.loaded [oneRow], .answer "A", .submit, .answer "B", .succeeded 0 correct] = some s ∧ ¬ Verdicts s := by
  have ends : (run step initial [.loaded [oneRow], .answer "A", .submit, .answer "B", .succeeded 0 correct]).any
      (fun s => (s.session.reveals "q").isSome && s.session.answers "q" = some "B" &&
        (lastGraded "q" s.log).map (·.1.answer) = some "A") = true := by decide +kernel
  obtain ⟨s, path, facts⟩ := (Option.any_eq_true _ _).mp ends
  simp only [Bool.and_eq_true, decide_eq_true_eq] at facts
  obtain ⟨⟨isShown, isAnswer⟩, isGraded⟩ := facts
  refine ⟨s, path, fun verdicts => ?_⟩
  obtain ⟨reveal, isReveal⟩ := Option.isSome_iff_exists.mp isShown
  obtain ⟨attempt, result, graded, shown, -⟩ := verdicts.shown "q" reveal isReveal
  rw [graded, Option.map_some, Option.some.injEq] at isGraded
  rw [isAnswer, isGraded, Option.some.injEq] at shown
  exact absurd shown (by decide)

end Counselle.Sat.Practice

import Counselle.Transition

/-! A practice session: the reducer of `sat-session-reducer.ts`, and the hook of
`use-sat-session.ts` with its submits under way. -/
namespace Counselle.Sat.Practice
open Function (update)

structure SatReveal where
  isCorrect : Bool
  correctAnswers : List String
  rationale : String

structure SatHistoryEntry where
  everCorrect : Bool
  everIncorrect : Bool

structure SatAttemptBinding where
  answer : String
  clientAttemptId : Nat

structure SatSessionRow where
  id : String
  bookmarked : Bool
  everCorrect : Bool
  everIncorrect : Bool

structure SatSubmitResult where
  isCorrect : Bool
  correctAnswers : List String
  rationale : String

structure SatSessionState where
  rows : List SatSessionRow
  index : Nat
  answers : String → Option String
  eliminations : String → List String
  reveals : String → Option SatReveal
  history : String → Option SatHistoryEntry
  inFlight : String → Bool
  attemptBindings : String → Option SatAttemptBinding

inductive SatSessionAction where
  | indexChanged (index : Int)
  | answerChanged (questionId answer : String)
  | eliminateToggled (questionId label : String)
  | submitStarted (questionId answer : String) (clientAttemptId : Nat)
  | submitSucceeded (questionId : String) (result : SatSubmitResult)
  | submitFailed (questionId : String)
  | bookmarkPatched (questionId : String) (bookmarked : Bool)

/-- The last of the rows with the id, as the map built from them holds it. -/
def rowHistory (rows : List SatSessionRow) (questionId : String) : Option SatHistoryEntry :=
  (rows.reverse.find? (·.id = questionId)).map fun row => ⟨row.everCorrect, row.everIncorrect⟩

def createInitialSatSessionState (rows : List SatSessionRow) : SatSessionState where
  rows
  index := 0
  answers _ := none
  eliminations _ := []
  reveals _ := none
  history := rowHistory rows
  inFlight _ := false
  attemptBindings _ := none

def selectHistory (state : SatSessionState) (questionId : String) : SatHistoryEntry :=
  (state.history questionId).getD ⟨false, false⟩

def selectReusableAttemptId (state : SatSessionState) (questionId answer : String) : Option Nat :=
  (state.attemptBindings questionId).bind fun binding =>
    if binding.answer = answer then some binding.clientAttemptId else none

def satSessionReducer (state : SatSessionState) : SatSessionAction → SatSessionState
  | .indexChanged index =>
    if index < 0 ∨ index ≥ state.rows.length then state else { state with index := index.toNat }
  | .answerChanged questionId answer => { state with answers := update state.answers questionId (some answer) }
  | .eliminateToggled questionId label =>
    let current := state.eliminations questionId
    let next := if current.contains label then current.filter (· ≠ label) else current ++ [label]
    { state with eliminations := update state.eliminations questionId next }
  | .submitStarted questionId answer clientAttemptId =>
    { state with
      attemptBindings := update state.attemptBindings questionId (some ⟨answer, clientAttemptId⟩)
      inFlight := update state.inFlight questionId true }
  | .submitSucceeded questionId result =>
    let previous := selectHistory state questionId
    { state with
      reveals := update state.reveals questionId (some ⟨result.isCorrect, result.correctAnswers, result.rationale⟩)
      history := update state.history questionId
        (some ⟨previous.everCorrect || result.isCorrect, previous.everIncorrect || !result.isCorrect⟩)
      inFlight := update state.inFlight questionId false }
  | .submitFailed questionId => { state with inFlight := update state.inFlight questionId false }
  | .bookmarkPatched questionId bookmarked =>
    { state with rows := state.rows.map fun row => if row.id = questionId then { row with bookmarked } else row }

/-- A submitted attempt, and the session that it was submitted in. -/
structure Attempt where
  questionId : String
  answer : String
  clientAttemptId : Nat
  load : Nat
  deriving DecidableEq

inductive Event where
  | submitted (attempt : Attempt)
  | graded (attempt : Attempt) (result : SatSubmitResult)
  | failed (attempt : Attempt)
  | loaded (rows : List SatSessionRow)

/-- The session that is shown, whether one is being fetched, the attempts without a
response, how many ids were minted and sessions loaded, and what has happened, the
newest first. -/
structure State where
  session : SatSessionState
  loading : Bool
  outstanding : List Attempt
  minted : Nat
  loads : Nat
  log : List Event

inductive Label where
  | answer (value : String)
  | toggleEliminate (label : String)
  | goTo (index : Int)
  | submit
  | toggleBookmark
  | bookmarkFailed (questionId : String) (bookmarked : Bool)
  | succeeded (place : Nat) (result : SatSubmitResult)
  | failed (place : Nat)
  | reload
  | loaded (rows : List SatSessionRow)
  | loadFailed

def initial : State where
  session := createInitialSatSessionState []
  loading := true
  outstanding := []
  minted := 0
  loads := 0
  log := []

def current (s : State) : Option SatSessionRow := s.session.rows[s.session.index]?

def dispatch (s : State) (action : SatSessionAction) : State := { s with session := satSessionReducer s.session action }

def answer (s : State) (value : String) : State :=
  match current s with
  | none => s
  | some row =>
    if (s.session.reveals row.id).isSome then s else dispatch s (.answerChanged row.id value)

def startSubmit (s : State) (questionId answerValue : String) : State :=
  let reused := selectReusableAttemptId s.session questionId answerValue
  let clientAttemptId := reused.getD s.minted
  let attempt := ⟨questionId, answerValue, clientAttemptId, s.loads⟩
  { dispatch s (.submitStarted questionId answerValue clientAttemptId) with
    outstanding := attempt :: s.outstanding
    minted := if reused.isSome then s.minted else s.minted + 1
    log := .submitted attempt :: s.log }

/-- The question and the answer that a submit would send. -/
def submission (s : State) : Option (String × String) :=
  (current s).bind fun row =>
    if s.session.inFlight row.id then none
    else (s.session.answers row.id).bind fun answerValue =>
      if answerValue = "" then none else some (row.id, answerValue)

def submit (s : State) : State :=
  match submission s with
  | none => s
  | some (questionId, answerValue) => startSubmit s questionId answerValue

def succeed (s : State) (place : Nat) (attempt : Attempt) (result : SatSubmitResult) : State :=
  { dispatch s (.submitSucceeded attempt.questionId result) with
    outstanding := s.outstanding.eraseIdx place
    log := .graded attempt result :: s.log }

def fail (s : State) (place : Nat) (attempt : Attempt) : State :=
  { dispatch s (.submitFailed attempt.questionId) with
    outstanding := s.outstanding.eraseIdx place
    log := .failed attempt :: s.log }

def load (s : State) (rows : List SatSessionRow) : State :=
  { s with
    session := createInitialSatSessionState rows
    loading := false
    loads := s.loads + 1
    log := .loaded rows :: s.log }

def step (s : State) : Label → Option State
  | .answer value => some (answer s value)
  | .toggleEliminate label =>
    some (match current s with | none => s | some row => dispatch s (.eliminateToggled row.id label))
  | .goTo index => some (dispatch s (.indexChanged index))
  | .submit => some (submit s)
  | .toggleBookmark =>
    some (match current s with | none => s | some row => dispatch s (.bookmarkPatched row.id !row.bookmarked))
  | .bookmarkFailed questionId bookmarked => some (dispatch s (.bookmarkPatched questionId bookmarked))
  | .succeeded place result => (s.outstanding[place]?).map fun attempt => succeed s place attempt result
  | .failed place => (s.outstanding[place]?).map fun attempt => fail s place attempt
  | .reload => some { s with loading := true }
  | .loaded rows => if s.loading then some (load s rows) else none
  | .loadFailed => if s.loading then some { s with loading := false } else none

/-- The attempt at the question that failed, where nothing has come after it. -/
def lastFailed (questionId : String) : List Event → Option Attempt
  | [] => none
  | .loaded _ :: rest => lastFailed questionId rest
  | .submitted attempt :: rest => if attempt.questionId = questionId then none else lastFailed questionId rest
  | .graded attempt _ :: rest => if attempt.questionId = questionId then none else lastFailed questionId rest
  | .failed attempt :: rest => if attempt.questionId = questionId then some attempt else lastFailed questionId rest

def lastGraded (questionId : String) : List Event → Option (Attempt × SatSubmitResult)
  | [] => none
  | .graded attempt result :: rest => if attempt.questionId = questionId then some (attempt, result) else lastGraded questionId rest
  | _ :: rest => lastGraded questionId rest

/-- A retry of an answer whose attempt failed goes out under the same id. -/
def RetriesReuse : List Event → Prop
  | [] => True
  | .submitted attempt :: rest =>
    (∀ failed, lastFailed attempt.questionId rest = some failed → failed.answer = attempt.answer →
      attempt.clientAttemptId = failed.clientAttemptId) ∧ RetriesReuse rest
  | _ :: rest => RetriesReuse rest

def sinceLoad (log : List Event) : List Event := log.takeWhile fun | .loaded _ => false | _ => true

def loadedRows : List Event → List SatSessionRow
  | [] => []
  | .loaded rows :: _ => rows
  | _ :: rest => loadedRows rest

/-- One of the attempts at the question was correct: in the session, or as the session's
rows say before it. -/
def GradedCorrect (log : List Event) (questionId : String) : Prop :=
  (∃ attempt result, .graded attempt result ∈ sinceLoad log ∧ attempt.questionId = questionId ∧ result.isCorrect = true) ∨
    (rowHistory (loadedRows log) questionId).any (·.everCorrect) = true

structure Verdicts (s : State) : Prop where
  shown : ∀ questionId reveal, s.session.reveals questionId = some reveal → ∃ attempt result,
    lastGraded questionId s.log = some (attempt, result) ∧ s.session.answers questionId = some attempt.answer ∧
      reveal = ⟨result.isCorrect, result.correctAnswers, result.rationale⟩
  reused : RetriesReuse s.log
  distinct : ∀ first second, .submitted first ∈ s.log → .submitted second ∈ s.log →
    first.clientAttemptId = second.clientAttemptId → first.questionId = second.questionId ∧ first.answer = second.answer
  marked : ∀ questionId, (selectHistory s.session questionId).everCorrect = true ↔ GradedCorrect s.log questionId

/-- No answer changes while its attempt is under way, no session is loaded while one is,
and no answer is tried again whose failed attempt was made in an earlier session. -/
def Orderly (s : State) : Label → Prop
  | .answer value => ∀ row ∈ current s, (∃ attempt ∈ s.outstanding, attempt.questionId = row.id) →
      s.session.answers row.id = some value
  | .loaded _ => s.outstanding = []
  | .submit => ∀ sent ∈ submission s, ∀ failed ∈ lastFailed sent.1 s.log, failed.answer = sent.2 → failed.load = s.loads
  | _ => True

instance (s : State) : (label : Label) → Decidable (Orderly s label)
  | .answer value => inferInstanceAs (Decidable (∀ row ∈ current s,
      (∃ attempt ∈ s.outstanding, attempt.questionId = row.id) → s.session.answers row.id = some value))
  | .loaded _ => inferInstanceAs (Decidable (s.outstanding = []))
  | .submit => inferInstanceAs (Decidable (∀ sent ∈ submission s, ∀ failed ∈ lastFailed sent.1 s.log,
      failed.answer = sent.2 → failed.load = s.loads))
  | .toggleEliminate _ | .goTo _ | .toggleBookmark | .bookmarkFailed _ _ | .succeeded _ _ | .failed _ | .reload
  | .loadFailed => isTrue trivial

end Counselle.Sat.Practice

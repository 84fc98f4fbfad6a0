import Counselle.Sat.ProgressFile
import Counselle.Sat.Refilings

/-! A student's attempts and bookmarks beside the bank syncs. A row is stored under the id
as it resolves when it is written, and every read resolves again. -/
namespace Counselle.Sat
open Calendar (Date)
open Transition (run Meets)

attribute [local instance] lawful_chars

inductive SatError where
  | notFound (questionId : List Char)
  | notAnOption (answer : List Char)
  | outsideMask
  | invalidLocalDate
  deriving DecidableEq

/-- What the student sends, the clock, and the next value of the identity column. -/
structure Submission where
  clientAttemptId : Nat
  answer : List Char
  timeSpentSeconds : Int
  localDate : Date
  now : Int
  identity : Int
  deriving DecidableEq

structure SatSubmitResult where
  isCorrect : Bool
  correctAnswers : List (List Char)
  rationale : List Char
  attempts : List Attempt
  deriving DecidableEq

structure SatSessionRow where
  id : List Char
  scoreBand : Int
  contentSha : String
  bookmarked : Bool
  everCorrect : Bool
  everIncorrect : Bool
  deriving DecidableEq

/-- The tables and the rows of one student, with a record of what the student did under
which spelling of an id: the attempts that were stored, and the bookmarks not cleared. -/
structure Desk where
  tables : BankTables
  attempts : List Attempt
  bookmarks : List (List Char)
  submitted : List (List Char × Attempt)
  marked : List (List Char)
  deriving DecidableEq

def Desk.start : Desk := ⟨.empty, [], [], [], []⟩

/-- `_SPR_ANSWER_RE`, whose `$` also matches before a last line break. -/
def isSprAnswer (answer : List Char) : Bool :=
  let body := if answer.getLast? = some '\n' then answer.dropLast else answer
  1 ≤ body.length && body.length ≤ 7 && body.all fun c => c.isDigit || c = '.' || c = '/' || c = '-'

def validateAnswer (question : SatQuestion) (answer : List Char) : Except SatError Unit :=
  match question.itemType with
  | .mcq => if answer ∈ question.answerOptions.map AnswerOption.label then .ok () else .error (.notAnOption answer)
  | .spr => if isSprAnswer answer then .ok () else .error .outsideMask

def validateLocalDate (localDate : Date) (now : Int) : Except SatError Unit :=
  let toordinal (d : Date) : Int := Calendar.ordinal d.year d.month d.day
  let utcDate := PyTime.utcDate now
  if toordinal utcDate - 1 ≤ toordinal localDate ∧ toordinal localDate ≤ toordinal utcDate + 1 then .ok ()
  else .error .invalidLocalDate

section Services
variable (casing : Casing)

def getQuestion (tables : BankTables) (questionId : List Char) : Except SatError QuestionRow :=
  match tables.questions.find? (·.id = resolveQuestionId casing tables questionId) with
  | none => .error (.notFound questionId)
  | some row => .ok row

/-- `_HISTORY_SQL` -/
def historyOf (attempts : List Attempt) (resolvedId : List Char) : List Attempt :=
  orderAttempts (attempts.filter (·.questionId = resolvedId))

def getAttemptHistory (desk : Desk) (questionId : List Char) : List Attempt :=
  historyOf desk.attempts (resolveQuestionId casing desk.tables questionId)

def getSessionRow (desk : Desk) (questionId : List Char) : Except SatError SatSessionRow :=
  let resolvedId := resolveQuestionId casing desk.tables questionId
  match desk.tables.questions.find? (·.id = resolvedId) with
  | none => .error (.notFound questionId)
  | some row => .ok {
      id := row.id
      scoreBand := row.question.scoreBand
      contentSha := row.question.contentSha256
      bookmarked := row.id ∈ desk.bookmarks
      everCorrect := desk.attempts.any fun a => a.questionId = row.id && a.isCorrect
      everIncorrect := desk.attempts.any fun a => a.questionId = row.id && !a.isCorrect }

variable (maxSeconds : Int) (userId : Nat)

def Submission.attempt (sent : Submission) (question : SatQuestion) : Attempt where
  id := some sent.identity
  userId := userId
  clientAttemptId := sent.clientAttemptId
  questionId := question.questionId
  module := question.module.code
  domainCd := question.domainCd
  skillCd := question.skillCd
  scoreBand := question.scoreBand
  userAnswer := sent.answer
  isCorrect := isCorrect casing question.itemType question.correctAnswers sent.answer
  timeSpentSeconds := clampSeconds sent.timeSpentSeconds maxSeconds
  solvedAt := sent.now
  localDate := sent.localDate

/-- A client attempt id that is stored already is a retry of that press. -/
def submit (desk : Desk) (questionId : List Char) (sent : Submission) :
    Except SatError (Desk × SatSubmitResult) := do
  let row ← getQuestion casing desk.tables questionId
  validateAnswer row.question sent.answer
  validateLocalDate sent.localDate sent.now
  let fresh := sent.attempt casing maxSeconds userId row.question
  let (desk, stored) := match desk.attempts.find? (·.clientAttemptId = sent.clientAttemptId) with
    | some stored => (desk, stored)
    | none => ({ desk with
        attempts := desk.attempts ++ [fresh]
        submitted := (questionId, fresh) :: desk.submitted }, fresh)
  .ok (desk, {
    isCorrect := stored.isCorrect
    correctAnswers := row.question.correctAnswers
    rationale := row.question.rationale
    attempts := historyOf desk.attempts row.id })

def setBookmark (desk : Desk) (questionId : List Char) : Desk :=
  { desk with
    bookmarks := desk.bookmarks.insert (resolveQuestionId casing desk.tables questionId)
    marked := questionId :: desk.marked }

/-- A bookmark is cleared under every spelling that resolves to the same question. -/
def clearBookmark (desk : Desk) (questionId : List Char) : Desk :=
  let resolvedId := resolveQuestionId casing desk.tables questionId
  { desk with
    bookmarks := desk.bookmarks.filter (· ≠ resolvedId)
    marked := desk.marked.filter fun other => resolveQuestionId casing desk.tables other ≠ resolvedId }

inductive DeskAction where
  | sync (sync : Sync)
  | submit (questionId : List Char) (sent : Submission)
  | setBookmark (questionId : List Char)
  | clearBookmark (questionId : List Char)

variable (uuid5 : List Char → Nat)

def Desk.step (desk : Desk) : DeskAction → Option Desk
  | .sync sync => some (match applySync uuid5 sync.now sync.bank desk.tables with
    | .ok tables => { desk with tables := tables }
    | .error _ => desk)
  | .submit questionId sent => some (match Sat.submit casing maxSeconds userId desk questionId sent with
    | .ok (next, _) => next
    | .error _ => desk)
  | .setBookmark questionId => some (Sat.setBookmark casing desk questionId)
  | .clearBookmark questionId => some (Sat.clearBookmark casing desk questionId)

end Services

/-- The ids under which the student has an attempt or a bookmark. -/
def Desk.usedIds (desk : Desk) : List (List Char) := desk.submitted.map Prod.fst ++ desk.marked

/-- Every attempt is in the history of the id it was submitted under, and every bookmark
is in the session row of the id it was set under. -/
structure Desk.Shows (casing : Casing) (desk : Desk) : Prop where
  attempts : ∀ entry ∈ desk.submitted, entry.2 ∈ getAttemptHistory casing desk entry.1
  bookmarks : ∀ id ∈ desk.marked, ∀ row, getSessionRow casing desk id = .ok row → row.bookmarked = true

/-- A sync files the ids that the student used where they resolve already. -/
def DeskAction.Leaves (casing : Casing) (desk : Desk) : DeskAction → Prop
  | .sync refresh => WellFormed refresh.bank ∧ ∀ id ∈ desk.usedIds,
      filedIn refresh.bank (lowered casing id) = none ∨
        filedIn refresh.bank (lowered casing id) = some (resolveQuestionId casing desk.tables id)
  | _ => True

variable {casing : Casing} {maxSeconds : Int} {userId : Nat} {uuid5 : List Char → Nat} {desk next : Desk}

theorem applySync_aliases {now : Int} {bank : List BankRow} {tables after : BankTables}
    (applied : applySync uuid5 now bank tables = .ok after) :
    after.aliases = aliasesAfter bank tables.aliases := by
  obtain ⟨-, -, applied⟩ := Fallible.bind_ok_iff.mp applied
  obtain ⟨released, -, applied⟩ := Fallible.bind_ok_iff.mp applied
  obtain ⟨upserted, -, applied⟩ := Fallible.bind_ok_iff.mp applied
  obtain rfl := Except.ok.inj applied
  rfl

theorem resolve_applySync {now : Int} {bank : List BankRow} {tables after : BankTables}
    (format : WellFormed bank) (applied : applySync uuid5 now bank tables = .ok after) (id : List Char) :
    resolveQuestionId casing after id =
      (filedIn bank (lowered casing id)).getD (resolveQuestionId casing tables id) := by
  rw [resolveQuestionId, applySync_aliases applied, find?_aliasesAfter format]
  cases filed : filedIn bank (lowered casing id) with
  | none => rfl
  | some target =>
    rw [Option.isSome_some, if_pos rfl, aliasEntry]
    split
    case isTrue same => exact same.symm
    case isFalse => rfl

structure Desk.Stored (casing : Casing) (desk : Desk) : Prop where
  attempts : ∀ entry ∈ desk.submitted, entry.2 ∈ desk.attempts ∧
    entry.2.questionId = resolveQuestionId casing desk.tables entry.1
  bookmarks : ∀ id ∈ desk.marked, resolveQuestionId casing desk.tables id ∈ desk.bookmarks

theorem stored_start : Desk.start.Stored casing := by
  constructor <;> simp [Desk.start]

theorem Desk.Stored.sync {sync : Sync} (stored : desk.Stored casing)
    (leaves : (DeskAction.sync sync).Leaves casing desk)
    (stepped : desk.step casing maxSeconds userId uuid5 (.sync sync) = some next) : next.Stored casing := by
  obtain rfl := Option.some.inj stepped
  cases applied : applySync uuid5 sync.now sync.bank desk.tables with
  | error => exact stored
  | ok tables =>
    have same : ∀ id ∈ desk.usedIds,
        resolveQuestionId casing tables id = resolveQuestionId casing desk.tables id := by
      intro id used
      rw [resolve_applySync leaves.1 applied]
      rcases leaves.2 id used with unfiled | filed
      · rw [unfiled, Option.getD_none]
      · rw [filed, Option.getD_some]
    constructor
    case attempts =>
      intro entry isIn
      rw [same entry.1 (List.mem_append_left _ (List.mem_map_of_mem isIn))]
      exact stored.attempts entry isIn
    case bookmarks =>
      intro id isIn
      rw [same id (List.mem_append_right _ isIn)]
      exact stored.bookmarks id isIn

theorem getQuestion_id {tables : BankTables} {id : List Char} {row : QuestionRow}
    (found : getQuestion casing tables id = .ok row) : row.id = resolveQuestionId casing tables id := by
  unfold getQuestion at found
  split at found
  case h_1 => cases found
  case h_2 other here =>
    obtain rfl := Except.ok.inj found
    simpa using List.find?_some here

theorem Desk.Stored.submit {questionId : List Char} {sent : Submission} {result : SatSubmitResult}
    (stored : desk.Stored casing)
    (submitted : Sat.submit casing maxSeconds userId desk questionId sent = .ok (next, result)) :
    next.Stored casing := by
  obtain ⟨row, found, submitted⟩ := Fallible.bind_ok_iff.mp submitted
  obtain ⟨-, -, submitted⟩ := Fallible.bind_ok_iff.mp submitted
  obtain ⟨-, -, submitted⟩ := Fallible.bind_ok_iff.mp submitted
  obtain ⟨rfl, -⟩ := Prod.mk.inj (Except.ok.inj submitted)
  split
  case h_1 => exact stored
  case h_2 =>
    constructor
    case bookmarks => exact stored.bookmarks
    case attempts =>
      intro entry isIn
      rcases List.mem_cons.mp isIn with rfl | isOld
      · exact ⟨by simp, getQuestion_id found⟩
      · obtain ⟨isIn, same⟩ := stored.attempts entry isOld
        exact ⟨List.mem_append_left _ isIn, same⟩

theorem Desk.Stored.setBookmark (stored : desk.Stored casing) (questionId : List Char) :
    (Sat.setBookmark casing desk questionId).Stored casing where
  attempts := stored.attempts
  bookmarks := by
    intro id isIn
    rcases List.mem_cons.mp isIn with rfl | isOld
    · exact List.mem_insert_self
    · exact List.mem_insert_of_mem (stored.bookmarks id isOld)

theorem Desk.Stored.clearBookmark (stored : desk.Stored casing) (questionId : List Char) :
    (Sat.clearBookmark casing desk questionId).Stored casing where
  attempts := stored.attempts
  bookmarks := by
    intro id isIn
    obtain ⟨isIn, apart⟩ := List.mem_filter.mp isIn
    exact List.mem_filter.mpr ⟨stored.bookmarks id isIn, apart⟩

theorem Desk.Stored.step {action : DeskAction} (stored : desk.Stored casing)
    (leaves : action.Leaves casing desk)
    (stepped : desk.step casing maxSeconds userId uuid5 action = some next) : next.Stored casing := by
  cases action with
  | sync sync => exact stored.sync leaves stepped
  | submit questionId sent =>
    obtain rfl := Option.some.inj stepped
    cases submitted : Sat.submit casing maxSeconds userId desk questionId sent with
    | error => exact stored
    | ok result => exact stored.submit submitted
  | setBookmark questionId =>
    obtain rfl := Option.some.inj stepped
    exact stored.setBookmark questionId
  | clearBookmark questionId =>
    obtain rfl := Option.some.inj stepped
    exact stored.clearBookmark questionId

theorem Desk.Stored.shows (stored : desk.Stored casing) : desk.Shows casing where
  attempts := by
    intro entry isIn
    obtain ⟨isStored, same⟩ := stored.attempts entry isIn
    apply (List.mergeSort_perm _ _).mem_iff.mpr
    exact List.mem_filter.mpr ⟨isStored, by simpa using same⟩
  bookmarks := by
    intro id isIn row found
    simp only [getSessionRow] at found
    split at found
    case h_1 => cases found
    case h_2 other here =>
      obtain rfl := Except.ok.inj found
      have sameId : other.id = resolveQuestionId casing desk.tables id := by simpa using List.find?_some here
      simpa only [sameId, decide_eq_true_eq] using stored.bookmarks id isIn

/-- A student's rows stay under every id they were stored under, in a run whose syncs file
the ids that the student used where they resolve already. -/
theorem refreshes_keep_work {actions : List DeskAction}
    (path : run (Desk.step casing maxSeconds userId uuid5) .start actions = some desk)
    (meets : Meets (Desk.step casing maxSeconds userId uuid5)
      (fun desk action => action.Leaves casing desk) .start actions) : desk.Shows casing :=
  (Transition.invariant_of_meets (fun stored leaves stepped => stored.step leaves stepped)
    stored_start path meets).shows

def sentAnswer : Submission where
  clientAttemptId := 7
  answer := "4".toList
  timeSpentSeconds := 30
  localDate := ⟨1970, 1, 1, by decide⟩
  now := 0
  identity := 1

def deskActions (bank : List BankRow) : List DeskAction :=
  [.sync ⟨0, firstBank⟩, .submit " CCC".toList sentAnswer, .setBookmark "aaa".toList, .sync ⟨1, bank⟩]

def sampleDesk (bank : List BankRow) : Desk :=
  (run (Desk.step letterCasing 3600 0 sampleUuid5) .start (deskActions bank)).getD .start

theorem run_deskActions (bank : List BankRow) :
    run (Desk.step letterCasing 3600 0 sampleUuid5) .start (deskActions bank) = some (sampleDesk bank) := rfl

theorem wellFormed_firstBank : WellFormed firstBank := wellFormed_single rfl (by decide)

theorem meets_unmoved : Meets (Desk.step letterCasing 3600 0 sampleUuid5)
    (fun desk action => action.Leaves letterCasing desk) .start (deskActions firstBank) := by
  refine ⟨⟨wellFormed_firstBank, by simp [Desk.start, Desk.usedIds]⟩, fun first stepped => ⟨trivial, ?_⟩⟩
  obtain rfl := Option.some.inj stepped
  refine fun second stepped => ⟨trivial, ?_⟩
  obtain rfl := Option.some.inj stepped
  refine fun third stepped => ⟨⟨wellFormed_firstBank, ?_⟩, fun _ _ => trivial⟩
  obtain rfl := Option.some.inj stepped
  decide +kernel

/-- The same bank again. -/
theorem refreshes_keep_work_unmoved : (sampleDesk firstBank).Shows letterCasing ∧
    (sampleDesk firstBank).submitted.length = 1 ∧ (sampleDesk firstBank).marked = ["aaa".toList] :=
  ⟨refreshes_keep_work (run_deskActions firstBank) meets_unmoved, by decide +kernel, by decide +kernel⟩

/-- The new bank files `aaa` as an alias of `bb`. The attempt and the bookmark stay under
`aaa`, and both spellings resolve past them. -/
theorem refiled_question_hides_work :
    run (Desk.step letterCasing 3600 0 sampleUuid5) .start (deskActions (secondBank ["aaa", "ccc"])) =
        some (sampleDesk (secondBank ["aaa", "ccc"])) ∧
      WellFormed firstBank ∧ WellFormed (secondBank ["aaa", "ccc"]) ∧
      ((sampleDesk (secondBank ["aaa", "ccc"])).submitted.map fun entry =>
        (entry.1, entry.2.questionId)) = [(" CCC".toList, "aaa".toList)] ∧
      getAttemptHistory letterCasing (sampleDesk (secondBank ["aaa", "ccc"])) " CCC".toList = [] ∧
      (getSessionRow letterCasing (sampleDesk (secondBank ["aaa", "ccc"])) "aaa".toList).map
        SatSessionRow.bookmarked = .ok false ∧
      ¬ (sampleDesk (secondBank ["aaa", "ccc"])).Shows letterCasing := by
  have hidden : getAttemptHistory letterCasing (sampleDesk (secondBank ["aaa", "ccc"])) " CCC".toList = [] := by
    have none : (sampleDesk (secondBank ["aaa", "ccc"])).attempts.filter (fun a => a.questionId =
        resolveQuestionId letterCasing (sampleDesk (secondBank ["aaa", "ccc"])).tables " CCC".toList) = [] := by
      decide +kernel
    rw [getAttemptHistory, historyOf, none]
    exact List.mergeSort_nil
  refine ⟨rfl, wellFormed_firstBank, wellFormed_single rfl (by decide), by decide +kernel, hidden,
    by decide +kernel, fun shows => ?_⟩
  have isIn : " CCC".toList ∈ (sampleDesk (secondBank ["aaa", "ccc"])).submitted.map Prod.fst := by
    decide +kernel
  obtain ⟨entry, isEntry, spelling⟩ := List.mem_map.mp isIn
  have shown := shows.attempts entry isEntry
  rw [spelling, hidden] at shown
  exact absurd shown List.not_mem_nil

end Counselle.Sat

import Counselle.Fallible
import Counselle.Protocol.Event

/-! The v2 clarification contracts of `domain/clarification.py`: the stored spec,
the student's answers and their validation against it. -/
namespace Counselle.Clarify
open Fallible Protocol

inductive Selection where
  | single
  | multiple
deriving DecidableEq, Repr

structure ClarifyOptionV2 where
  id : String
  label : String
  hint : Option String := none
deriving DecidableEq, Repr

structure ClarifyQuestionV2 where
  id : String
  question : String
  selection : Selection
  options : List ClarifyOptionV2
deriving DecidableEq, Repr

structure ClarifySpecV2 where
  questions : List ClarifyQuestionV2
deriving DecidableEq, Repr

structure ClarifyAnswerV2 where
  questionId : String
  optionIds : List String := []
  customText : Option String := none
deriving DecidableEq, Repr

inductive ClarifyResponseV2 where
  | widget (answers : List ClarifyAnswerV2)
  | reply (text userMessageId : String)
deriving DecidableEq, Repr

inductive ResponseOrigin where
  | widget
  | reply
deriving DecidableEq, Repr

inductive IntentPhase where
  | accepted
  | running
deriving DecidableEq, Repr

/-- The durable lifecycle of the run that continues after an answer. -/
structure ContinuationIntent where
  phase : IntentPhase
  rootMessageId : String
  continuationMessageId : String
  triggerRequestId : String
  responseOrigin : ResponseOrigin
  inheritedSkills : List String := []
  inheritedSourceConfig : Option Payload := none
deriving DecidableEq, Repr

def markContinuationRunning (intent : ContinuationIntent) : ContinuationIntent :=
  { intent with phase := .running }

def clarifyReplyMaxChars : Nat := 4000
def clarifyResponseMaxSerializedChars : Nat := 8000

/-- `str.isspace` on one character, as `str.strip` uses it. -/
def isSpace (c : Char) : Bool :=
  let n := c.toNat
  (9 ≤ n && n ≤ 13) || (28 ≤ n && n ≤ 32) || n == 0x85 || n == 0xa0 || n == 0x1680 ||
    (0x2000 ≤ n && n ≤ 0x200a) || n == 0x2028 || n == 0x2029 || n == 0x202f || n == 0x205f ||
    n == 0x3000

/-- `str.strip` -/
def strip (text : String) : String :=
  String.ofList ((text.toList.dropWhile isSpace).reverse.dropWhile isSpace).reverse

/-- `_bounded_nonblank`, its message left out: the only reader turns it into one code. -/
def boundedNonblank (value : String) (maxChars : Nat) : Bool :=
  strip value ≠ "" ∧ (strip value).length ≤ maxChars

structure ClarifyOptionDraft where
  label : String
  hint : Option String := none
deriving DecidableEq, Repr

structure ClarifyQuestionDraft where
  question : String
  selection : Selection
  options : List ClarifyOptionDraft
deriving DecidableEq, Repr

/-- The `ask_student` output; its validators are left out, as normalizing needs none. -/
structure ClarifyDraftV2 where
  questions : List ClarifyQuestionDraft
deriving DecidableEq, Repr

/-- `normalize_clarify_draft`: positional ids, trimmed text, no blank hints. -/
def normalizeClarifyDraft (draft : ClarifyDraftV2) : ClarifySpecV2 where
  questions := draft.questions.mapIdx fun q question =>
    { id := "q" ++ toString (q + 1)
      question := strip question.question
      selection := question.selection
      options := question.options.mapIdx fun o option =>
        { id := "q" ++ toString (q + 1) ++ "_o" ++ toString (o + 1)
          label := strip option.label
          hint := (option.hint.map strip).filter (· ≠ "") } }

/-- The custom text an answer carries, when it is not blank. -/
def ClarifyAnswerV2.custom (answer : ClarifyAnswerV2) : Option String :=
  (answer.customText.map strip).filter (· ≠ "")

def checkAnswer (question : ClarifyQuestionV2) (answer : ClarifyAnswerV2) : Except String Unit :=
  if ∃ id ∈ answer.optionIds, id ∉ question.options.map (·.id) then .error "unknown_option"
  else if ¬answer.optionIds.Nodup then .error "duplicate_option"
  else
    match question.selection with
    | .single =>
      if answer.custom.isSome ∧ 0 < answer.optionIds.length then .error "single_choice_exclusive"
      else if answer.custom.isNone ∧ answer.optionIds.length ≠ 1 then
        .error "single_choice_required"
      else .ok ()
    | .multiple =>
      if answer.custom.isNone ∧ answer.optionIds.length = 0 then .error "multiple_choice_required"
      else .ok ()

/-- `questions_by_id`: the last question of an id wins. -/
def ClarifySpecV2.question (spec : ClarifySpecV2) (id : String) : Option ClarifyQuestionV2 :=
  spec.questions.reverse.find? (·.id = id)

/-- `validate_clarify_response`; `dumpLength` is the length of `model_dump_json`. The
answers are checked in their order, which is the order of `answers_by_question`. -/
def validateClarifyResponse (dumpLength : ClarifyResponseV2 → Nat) (spec : ClarifySpecV2)
    (answers : List ClarifyAnswerV2) : Except String (List ClarifyAnswerV2) :=
  if clarifyResponseMaxSerializedChars < dumpLength (.widget answers) then
    .error "payload_too_large"
  else if ¬(answers.map (·.questionId)).Nodup then .error "duplicate_question"
  else if ¬((∀ answer ∈ answers, answer.questionId ∈ spec.questions.map (·.id)) ∧
      ∀ question ∈ spec.questions, question.id ∈ answers.map (·.questionId)) then
    .error "question_mismatch"
  else do
    answers.forM fun answer =>
      match spec.question answer.questionId with
      | some question => checkAnswer question answer
      | none => .ok ()
    return answers

/-- `_answer_labels`: a repeated option id resolves to its last label. -/
def answerLabels (question : ClarifyQuestionV2) (answer : ClarifyAnswerV2) : List String :=
  (answer.optionIds.filterMap fun id =>
    (question.options.reverse.find? (·.id = id)).map (·.label)) ++ answer.custom.toList

def renderClarifyModelPayload (spec : ClarifySpecV2) (answers : List ClarifyAnswerV2) : String :=
  "\n".intercalate (spec.questions.filterMap fun question =>
    (answers.reverse.find? (·.questionId = question.id)).map fun answer =>
      question.question ++ " -> " ++ ", ".intercalate (answerLabels question answer))

end Counselle.Clarify

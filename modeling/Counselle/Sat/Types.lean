import Counselle.Sat.Grading

/-! The question that the bank keeps. Texts are lists of characters. -/
namespace Counselle.Sat

/-- Named, so that the membership tests on texts share one proof. -/
theorem lawful_chars : LawfulBEq (List Char) := inferInstance

inductive Module where
  | reading
  | math
  deriving DecidableEq

inductive Difficulty where
  | e
  | m
  | h
  deriving DecidableEq

inductive Source where
  | qbank
  | disclosed
  deriving DecidableEq

structure AnswerOption where
  label : List Char
  content : List Char
  deriving DecidableEq

structure SatQuestion where
  questionId : List Char
  externalId : Option Nat
  ibn : Option (List Char)
  uId : Nat
  source : Source
  module : Module
  domainCd : List Char
  skillCd : List Char
  scoreBand : Int
  difficulty : Difficulty
  program : List Char
  itemType : ItemType
  inBluebook : Bool
  cbCreatedAt : Option Int
  cbUpdatedAt : Option Int
  contentSha256 : String
  stimulus : Option (List Char)
  stem : List Char
  answerOptions : List AnswerOption
  correctAnswers : List (List Char)
  rationale : List Char
  deriving DecidableEq

/-- What pydantic refuses: `Field(ge=1, le=7)`, `min_length=1`, and the model validator. -/
def SatQuestion.isValid (question : SatQuestion) : Bool :=
  1 ≤ question.scoreBand && question.scoreBand ≤ 7 && question.correctAnswers ≠ [] &&
    question.externalId.isNone != question.ibn.isNone

end Counselle.Sat

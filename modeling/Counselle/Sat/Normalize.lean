import Counselle.PyTime
import Counselle.Sat.Types
import Mathlib.Data.List.Sort

/-! The bank build's questions from the vendor's stubs, details and disclosed items. An
`int` here has a text, as one that the `json` module reads has at most 4300 digits. -/
namespace Counselle.Sat
open PyJson (JsonValue PyFloat)
open PyText (PyError strip)

def choiceLabels : List (List Char) := [['A'], ['B'], ['C'], ['D']]

/-- Why a question is refused, with the values that the message shows. -/
inductive Reason where
  | noQuestionId
  | notAnObject
  | noModule
  | noStem
  | optionCount (count : Nat)
  | correctCount (count : Nat)
  | notAnOption (letter : List Char) (labels : List (List Char))
  | noKeys
  | unknownKey (key0 : List Char)
  | wrongKey (letter keyLetter : List Char)
  | noCorrectAnswer
  | noReviewedKey
  | badUuid (fieldName : String)
  | notOneId
  | noUId
  | notAnInteger (fieldName : String)
  | badDifficulty (letter : List Char)
  | invalid

inductive Raised where
  | normalizeError (questionId : List Char) (reason : Reason)
  | python (error : PyError)

abbrev Normalized := Except Raised

def reject {α : Type} (questionId : List Char) (reason : Reason) : Normalized α :=
  .error (.normalizeError questionId reason)

abbrev Members := List (String × JsonValue)

/-- `d.get(key)`: `None` where there is no such key. -/
def field (members : Members) (key : String) : JsonValue := (JsonValue.get members key).getD .null

/-- `first or second` -/
def orElse (first second : JsonValue) : JsonValue := if first.truthy then first else second

def listOf : JsonValue → List JsonValue
  | .list items => items
  | _ => []

def asStr : JsonValue → List Char
  | .str s => strip s.toList
  | .bool b => (if b then "True" else "False").toList
  | .int n => (toString n).toList
  | .float x => PyNumber.floatRepr x
  | _ => []

/-- `int(value)` -/
def toInt : JsonValue → Except PyError Int
  | .bool b => .ok (if b then 1 else 0)
  | .int n => .ok n
  | .float (.finite q) => .ok (PyTime.truncated q)
  | .float .nan => .error .valueError
  | .float (.infinite _) => .error .overflowError
  | .str s => match PyNumber.intText s.toList with
    | some n => .ok n
    | none => .error .valueError
  | _ => .error .typeError

/-- `float(value)` -/
def toFloat : JsonValue → Except PyError PyFloat
  | .bool b => .ok (.finite (if b then 1 else 0))
  | .int n => match Binary64.ofRat n with
    | .infinite _ => .error .overflowError
    | x => .ok x
  | .float x => .ok x
  | .str s => match PyNumber.floatText s.toList with
    | some x => .ok x
    | none => .error .valueError
  | _ => .error .typeError

/-- `ms <= 0` -/
def notPositive : PyFloat → Bool
  | .finite q => q ≤ 0
  | .infinite negative => negative
  | .nan => false

/-- `ms / 1000` -/
def perThousand : PyFloat → PyFloat
  | .finite q => Binary64.ofRat (q / 1000)
  | x => x

def epochMsToDatetime (value : JsonValue) : Except PyError (Option Int) :=
  match value with
  | .null => .ok none
  | value => match toFloat value with
    | .error .typeError | .error .valueError => .ok none
    | .error e => .error e
    | .ok ms => if notPositive ms then .ok none else (PyTime.fromTimestamp (perThousand ms)).map some

/-- `text.replace(pattern, "")`; `skip` characters of a match are still to pass. -/
def removeText (pattern : List Char) : List Char → Nat → List Char
  | [], _ => []
  | _ :: rest, skip + 1 => removeText pattern rest skip
  | c :: rest, 0 =>
    if pattern.isPrefixOf (c :: rest) then removeText pattern rest (pattern.length - 1)
    else c :: removeText pattern rest 0

/-- `UUID(text)`; `none` is the `ValueError`. -/
def uuid (text : List Char) : Option Nat :=
  let hex := removeText "uuid:".toList (removeText "urn:".toList text 0) 0
  let isBrace (c : Char) : Bool := c = '{' || c = '}'
  let hex := ((hex.dropWhile isBrace).reverse.dropWhile isBrace).reverse.filter (· ≠ '-')
  if hex.length ≠ 32 then none
  else match PyNumber.hexText hex with
    | some n => if 0 ≤ n ∧ n < 2 ^ 128 then some n.toNat else none
    | none => none

/-- `str` of a UUID. -/
def uuidText (id : Nat) : List Char :=
  let digits := Nat.toDigits 16 id
  let hex := List.replicate (32 - digits.length) '0' ++ digits
  hex.take 8 ++ '-' :: (hex.drop 8).take 4 ++ '-' :: (hex.drop 12).take 4 ++
    '-' :: (hex.drop 16).take 4 ++ '-' :: hex.drop 20

def asUuid (questionId : List Char) (fieldName : String) : JsonValue → Normalized (Option Nat)
  | .null => .ok none
  | .str s =>
    let stripped := strip s.toList
    if stripped = [] then .ok none
    else match uuid stripped with
      | some id => .ok (some id)
      | none => reject questionId (.badUuid fieldName)
  | _ => reject questionId (.badUuid fieldName)

def moduleFromStub (stub : Members) (questionId : List Char) : Normalized Module :=
  let module := field stub "module"
  let test := field stub "test"
  if module.eq (.str "reading") then .ok .reading
  else if module.eq (.str "math") then .ok .math
  else if test.eq (.int 1) then .ok .reading
  else if test.eq (.int 2) then .ok .math
  else reject questionId .noModule

def asInt (questionId : List Char) (fieldName : String) (value : JsonValue) : Normalized Int :=
  match toInt value with
  | .ok n => .ok n
  | .error .typeError | .error .valueError => reject questionId (.notAnInteger fieldName)
  | .error e => .error (.python e)

def difficultyOf (questionId : List Char) (value : JsonValue) : Normalized Difficulty :=
  let letter := asStr value
  if letter = ['E'] then .ok .e
  else if letter = ['M'] then .ok .m
  else if letter = ['H'] then .ok .h
  else reject questionId (.badDifficulty letter)

def trimmedText : JsonValue → Option (List Char)
  | .str s => if strip s.toList = [] then none else some (strip s.toList)
  | _ => none

def idsFromStub (stub : Members) (questionId : List Char) :
    Normalized (Option Nat × Option (List Char)) := do
  let externalId ← asUuid questionId "external_id" (field stub "external_id")
  let ibn := trimmedText (field stub "ibn")
  if externalId.isNone = ibn.isNone then reject questionId .notOneId else .ok (externalId, ibn)

section Options
variable (casing : Casing)

/-- `key.upper()` of a one-letter key, else the letter or the number of the place. -/
def disclosedLabel (key : Option (List Char)) (index : Nat) : List Char :=
  match key with
  | some [c] => casing.upper [c]
  | _ => (choiceLabels[index]?).getD (toString (index + 1)).toList

def disclosedContent : JsonValue → List Char
  | .str s => strip s.toList
  | .dict members =>
    asStr (orElse (orElse (field members "body") (field members "content")) (field members "text"))
  | _ => []

/-- The entries of the choices, with the keys of an object in order. -/
def disclosedEntries : JsonValue → List (Option (List Char) × JsonValue)
  | .dict members =>
    (members.insertionSort fun first second => first.1 ≤ second.1).map fun (key, value) =>
      (some key.toList, value)
  | .list items => items.map fun item => (none, item)
  | _ => []

def disclosedOptions (choices : JsonValue) : List AnswerOption :=
  (disclosedEntries choices).zipIdx.filterMap fun ((key, value), index) =>
    let content := disclosedContent value
    if content = [] then none else some ⟨disclosedLabel casing key index, content⟩

def qbankLabel (index : Nat) : List Char :=
  (choiceLabels[index]?).getD (toString (index + 1)).toList

def qbankAnswerOptions (rawOptions : List JsonValue) : List AnswerOption :=
  rawOptions.zipIdx.filterMap fun (option, index) =>
    match option with
    | .dict members => some ⟨qbankLabel index, asStr (field members "content")⟩
    | _ => none

def spliceQbankStimulusStem (module : Module) (stem : List Char) (rawStimulus : JsonValue) :
    List Char × Option (List Char) :=
  let stimulus := match rawStimulus with
    | .str s => if strip s.toList = [] then none else some s.toList
    | _ => none
  match module, stimulus with
  | .math, some stimulus => (stimulus ++ '\n' :: stem, none)
  | .math, none => (stem, none)
  | .reading, some stimulus =>
    if (strip stimulus).isPrefixOf (strip stem) then
      (strip ((strip stem).drop (strip stimulus).length), some stimulus)
    else (stem, some stimulus)
  | .reading, none => (stem, none)

/-- `[_as_str(v) for v in values if _as_str(v)]` -/
def texts (values : List JsonValue) : List (List Char) := (values.map asStr).filter (· ≠ [])

/-- The letters of the options by their ids; a later option hides an earlier one. -/
def keyPositions (rawOptions : List JsonValue) : List (List Char × List Char) :=
  (rawOptions.zipIdx.filterMap fun (option, index) =>
    match option, choiceLabels[index]? with
    | .dict members, some label => some (asStr (field members "id"), label)
    | _, _ => none).reverse

def qbankMcqCorrectAnswers (questionId : List Char) (rawCorrect rawOptions : List JsonValue)
    (answerOptions : List AnswerOption) (rawKeys : List JsonValue) : Normalized (List (List Char)) :=
  if answerOptions.length ≠ 4 then reject questionId (.optionCount answerOptions.length)
  else match (texts rawCorrect).map casing.upper with
    | [letter] =>
      let labels := answerOptions.map AnswerOption.label
      if letter ∉ labels then reject questionId (.notAnOption letter labels)
      else match rawKeys with
        | [] => reject questionId .noKeys
        | key0 :: _ => match (keyPositions rawOptions).lookup (asStr key0) with
          | none => reject questionId (.unknownKey (asStr key0))
          | some keyLetter =>
            if keyLetter ≠ letter then reject questionId (.wrongKey letter keyLetter) else .ok [letter]
    | letters => reject questionId (.correctCount letters.length)

/-- `tuple(dict.fromkeys(values))` -/
def fromKeys (values : List (List Char)) : List (List Char) := (values.reverse.dedup).reverse

def qbankSprCorrectAnswers (questionId : List Char) (rawCorrect : List JsonValue)
    (sprAdditions : List (List Char)) : Normalized (List (List Char)) :=
  let values := texts rawCorrect
  if values = [] then reject questionId .noCorrectAnswer else .ok (fromKeys (values ++ sprAdditions))

end Options

structure QuestionContent where
  module : Module
  itemType : ItemType
  stimulus : Option (List Char)
  stem : List Char
  answerOptions : List AnswerOption
  correctAnswers : List (List Char)
  rationale : List Char

/-- `except` clauses around a conversion that lets its own exceptions out. -/
def unguarded {α : Type} (result : Except PyError α) : Normalized α :=
  result.mapError .python

/-- `_epoch_ms_to_datetime(updated) or _epoch_ms_to_datetime(created)` -/
def updatedAt (stub : Members) (createdAt : Option Int) : Except PyError (Option Int) :=
  (epochMsToDatetime (field stub "updateDate")).map fun updated => updated.or createdAt

section Build
variable (casing : Casing) (contentSha256 : QuestionContent → String)

def buildSatQuestion (questionId : List Char) (stub : Members) (externalId : Option Nat)
    (ibn : Option (List Char)) (source : Source) (inBluebook : Bool) (content : QuestionContent) :
    Normalized SatQuestion := do
  let some uId ← asUuid questionId "uId" (field stub "uId") | reject questionId .noUId
  let scoreBand ← asInt questionId "score_band_range_cd" (field stub "score_band_range_cd")
  let difficulty ← difficultyOf questionId (field stub "difficulty")
  let createdAt ← unguarded (epochMsToDatetime (field stub "createDate"))
  let updatedAt ← unguarded (updatedAt stub createdAt)
  let question : SatQuestion := {
    questionId, externalId, ibn, uId, source, scoreBand, difficulty, inBluebook
    domainCd := asStr (field stub "primary_class_cd")
    skillCd := asStr (field stub "skill_cd")
    program := asStr (field stub "program")
    cbCreatedAt := createdAt
    cbUpdatedAt := updatedAt
    contentSha256 := contentSha256 content
    module := content.module
    itemType := content.itemType
    stimulus := content.stimulus
    stem := content.stem
    answerOptions := content.answerOptions
    correctAnswers := content.correctAnswers
    rationale := content.rationale }
  if question.isValid then .ok question else reject questionId .invalid

/-- `stub.get("questionId")`, of a stub that has to be an object. -/
def questionIdOf (stub : JsonValue) : Normalized (Members × List Char) :=
  match stub with
  | .dict stub =>
    let questionId := asStr (field stub "questionId")
    if questionId = [] then reject "<unknown>".toList .noQuestionId else .ok (stub, questionId)
  | _ => .error (.python .attributeError)

def objectOf (questionId : List Char) : JsonValue → Normalized Members
  | .dict members => .ok members
  | _ => reject questionId .notAnObject

def qbankItemType (detail : Members) : ItemType :=
  if casing.lower (asStr (field detail "type")) = "spr".toList then .spr else .mcq

def qbankCorrectAnswers (questionId : List Char) (detail : Members) (sprAdditions : List (List Char)) :
    Normalized (List (List Char)) :=
  let rawOptions := listOf (field detail "answerOptions")
  let rawCorrect := listOf (field detail "correct_answer")
  match qbankItemType casing detail with
  | .mcq => qbankMcqCorrectAnswers casing questionId rawCorrect rawOptions
      (qbankAnswerOptions rawOptions) (listOf (field detail "keys"))
  | .spr => qbankSprCorrectAnswers questionId rawCorrect sprAdditions

def normalizeQbank (stub detail : JsonValue) (liveExternalIds sprAdditions : List (List Char)) :
    Normalized SatQuestion := do
  let (stub, questionId) ← questionIdOf stub
  let detail ← objectOf questionId detail
  let module ← moduleFromStub stub questionId
  let stem := asStr (field detail "stem")
  if stem = [] then reject questionId .noStem else
  let (stem, stimulus) := spliceQbankStimulusStem module stem (field detail "stimulus")
  let correctAnswers ← qbankCorrectAnswers casing questionId detail sprAdditions
  let (externalId, ibn) ← idsFromStub stub questionId
  let inBluebook := externalId.any fun id => liveExternalIds.contains (uuidText id)
  buildSatQuestion contentSha256 questionId stub externalId ibn .qbank inBluebook {
    module, stimulus, stem, correctAnswers
    itemType := qbankItemType casing detail
    answerOptions := qbankAnswerOptions (listOf (field detail "answerOptions"))
    rationale := asStr (field detail "rationale") }

def spliceDisclosedStimulusStem (module : Module) (bodyText promptText : List Char) :
    List Char × Option (List Char) :=
  let combine := bodyText ≠ [] ∧ promptText ≠ [] ∧ bodyText ≠ promptText
  let either := if promptText = [] then bodyText else promptText
  match module with
  | .math => (if combine then bodyText ++ '\n' :: promptText else either, none)
  | .reading => if combine then (promptText, some bodyText) else (either, none)

def disclosedMcqCorrectAnswers (questionId : List Char) (answer : Members)
    (answerOptions : List AnswerOption) : Normalized (List (List Char)) :=
  let rawCorrect := orElse (orElse (field answer "correct_choice") (field answer "correct_answer"))
    (field answer "correctChoice")
  let correctAnswers := match rawCorrect with
    | .str s => if strip s.toList = [] then [] else [casing.upper (strip s.toList)]
    | .list items => (texts items).map casing.upper
    | _ => []
  match correctAnswers with
  | [letter] =>
    let labels := answerOptions.map AnswerOption.label
    if letter ∉ labels then reject questionId (.notAnOption letter labels) else .ok [letter]
  | letters => reject questionId (.correctCount letters.length)

def multipleChoiceStyles : List (List Char) := ["multiple choice".toList, "mcq".toList]

def isDisclosedMcq (answer : Members) : Bool :=
  let choices := field answer "choices"
  let hasChoices := match choices with
    | .dict _ | .list _ => choices.truthy
    | _ => false
  multipleChoiceStyles.contains (casing.lower (asStr (field answer "style"))) || hasChoices

def disclosedAnswer (questionId : List Char) (answer : Members)
    (reviewedSprKeys : Option (List (List Char))) :
    Normalized (ItemType × List AnswerOption × List (List Char)) :=
  if isDisclosedMcq casing answer then do
    let answerOptions := disclosedOptions casing (field answer "choices")
    if answerOptions.length ≠ 4 then reject questionId (.optionCount answerOptions.length) else
    let correctAnswers ← disclosedMcqCorrectAnswers casing questionId answer answerOptions
    .ok (.mcq, answerOptions, correctAnswers)
  else match reviewedSprKeys with
    | none | some [] => reject questionId .noReviewedKey
    | some keys => .ok (.spr, [], keys)

/-- `item["answer"]`, or an empty object. -/
def answerOf (item : Members) : Members :=
  match field item "answer" with
  | .dict answer => answer
  | _ => []

def normalizeDisclosed (stub item : JsonValue) (reviewedSprKeys : Option (List (List Char))) :
    Normalized SatQuestion := do
  let (stub, questionId) ← questionIdOf stub
  let item ← objectOf questionId item
  let module ← moduleFromStub stub questionId
  let (stem, stimulus) :=
    spliceDisclosedStimulusStem module (asStr (field item "body")) (asStr (field item "prompt"))
  if stem = [] then reject questionId .noStem else
  let answer := answerOf item
  let (itemType, answerOptions, correctAnswers) ← disclosedAnswer casing questionId answer reviewedSprKeys
  let (externalId, ibn) ← idsFromStub stub questionId
  buildSatQuestion contentSha256 questionId stub externalId ibn .disclosed false {
    module, stimulus, stem, itemType, answerOptions, correctAnswers
    rationale := asStr (orElse (field answer "rationale") (field item "rationale")) }

end Build

end Counselle.Sat

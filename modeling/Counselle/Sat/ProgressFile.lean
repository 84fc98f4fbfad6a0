import Counselle.PyJsonText
import Counselle.PyTime
import Counselle.Sat.Stats

/-! The progress file: `encode` writes a student's rows, `decode` reads rows from any text. -/
namespace Counselle.Sat
open Calendar (Date)
open PyJson (JsonValue PyFloat)
open PyText (PyError strip)

structure Bookmark where
  userId : Nat
  questionId : List Char
  bookmarkedAt : Int
  deriving DecidableEq

structure ImportedAttempt where
  id : Int
  clientAttemptId : Nat
  questionId : List Char
  module : List Char
  domainCd : List Char
  skillCd : List Char
  scoreBand : Int
  userAnswer : List Char
  isCorrect : Bool
  timeSpentSeconds : Int
  solvedAt : Int
  localDate : Date
  deriving DecidableEq

structure ImportedBookmark where
  questionId : List Char
  bookmarkedAt : Int
  deriving DecidableEq

structure ProgressImport where
  attempts : List ImportedAttempt
  bookmarks : List ImportedBookmark
  deriving DecidableEq

inductive DecodeError where
  | progressFile (message : String)
  /-- An exception that `decode` does not catch. -/
  | escaped (error : PyError)
  deriving DecidableEq

/-- `round(value.timestamp() * 1000)` -/
def toEpochMs (time : Int) : Int :=
  Binary64.nearestEven (Binary64.rounded (PyTime.timestamp time * 1000))

def jsonText (text : List Char) : JsonValue := .str (String.ofList text)

def encodeAttempt (a : Attempt) : List (String × JsonValue) :=
  [("questionId", jsonText a.questionId), ("module", jsonText a.module),
    ("primary_class_cd", jsonText a.domainCd), ("skill_cd", jsonText a.skillCd),
    ("score_band_range_cd", .int a.scoreBand), ("userAnswer", jsonText a.userAnswer),
    ("isCorrect", .bool a.isCorrect), ("timeSpentSeconds", .int a.timeSpentSeconds),
    ("solvedAt", .int (toEpochMs a.solvedAt)), ("dateKey", jsonText a.localDate.isoformat)]

def encodeBookmark (b : Bookmark) : List (String × JsonValue) :=
  [("questionId", jsonText b.questionId), ("bookmarkedAt", .int (toEpochMs b.bookmarkedAt))]

def payload (attempts : List Attempt) (bookmarks : List Bookmark) (now : Int) : JsonValue :=
  .dict [("format", .str "LiPrep"), ("version", .int 1), ("exportedAt", .int (toEpochMs now)),
    ("exportDateStr", jsonText (PyTime.utcDate now).isoformat),
    ("data", .dict [("attempts", .list (attempts.map fun a => .dict (encodeAttempt a))),
      ("bookmarks", .list (bookmarks.map fun b => .dict (encodeBookmark b)))])]

def encode (attempts : List Attempt) (bookmarks : List Bookmark) (now : Int) : List Char :=
  PyJson.dumps 0 (payload attempts bookmarks now)

def asString : JsonValue → List Char
  | .str text => strip text.toList
  | .bool value => (if value then "true" else "false").toList
  | .int n => PyJson.intRepr n
  | .float (.finite q) => if q.den = 1 then PyJson.intRepr q.num else PyNumber.floatRepr (.finite q)
  | .float q => PyNumber.floatRepr q
  | _ => []

/-- `_as_string(row.get(key))` -/
def stringOf (row : List (String × JsonValue)) (key : String) : List Char :=
  asString ((JsonValue.get row key).getD .null)

def asNumberOrNone : JsonValue → Except PyError (Option ℚ)
  | .int n =>
    match Binary64.ofRat n with
    | .finite q => .ok (some q)
    | _ => .error .overflowError
  | .float (.finite q) => .ok (some q)
  | .str text =>
    if strip text.toList = [] then .ok (some 0)
    else
      match PyNumber.floatText (strip text.toList) with
      | some (.finite q) => .ok (some q)
      | _ => .ok none
  | _ => .ok none

def numberOrNone (row : List (String × JsonValue)) (key : String) : Except PyError (Option ℚ) :=
  asNumberOrNone ((JsonValue.get row key).getD .null)

def asNumber (row : List (String × JsonValue)) (key : String) (fallback : ℚ) : Except PyError ℚ :=
  (numberOrNone row key).map (·.getD fallback)

def clampSeconds (raw : ℚ) (maxSeconds : Int) : Int := min maxSeconds (max 1 (jsRound raw))

def clampBand (raw : ℚ) : Int := min 7 (max 1 (jsRound raw))

/-- `datetime.fromtimestamp(ms / 1000, tz=UTC)` -/
def msToDatetime (ms : ℚ) : Except PyError Int :=
  PyTime.fromTimestamp (Binary64.ofRat (ms / 1000))

def decodeTime (row : List (String × JsonValue)) (key : String) (now : Int) : Except PyError Int := do
  match ← numberOrNone row key with
  | none => return now
  | some ms => msToDatetime ms

def decodeLocalDate (raw : List Char) (solvedAt : Int) (today : Date) : Date :=
  if raw = [] then today else (Calendar.fromIsoformat raw).getD (PyTime.utcDate solvedAt)

/-- What an import is told: the day and the time of the caller, the configured maximum, and
the random ids that it draws, by the position of the row. -/
structure Importer where
  today : Date
  now : Int
  maxSeconds : Int
  uuid4 : Nat → Nat

variable (importer : Importer)

def buildAttempt (row : List (String × JsonValue)) (position : Nat) (questionId : String)
    (isCorrect : Bool) : Except PyError ImportedAttempt := do
  let module := stringOf row "module"
  let seconds ← asNumber row "timeSpentSeconds" 1
  let band ← asNumber row "score_band_range_cd" 3
  let solvedAt ← decodeTime row "solvedAt" importer.now
  return {
    id := position
    clientAttemptId := importer.uuid4 position
    questionId := strip questionId.toList
    module := if module = [] then "reading".toList else module
    domainCd := stringOf row "primary_class_cd"
    skillCd := stringOf row "skill_cd"
    scoreBand := clampBand band
    userAnswer := stringOf row "userAnswer"
    isCorrect
    timeSpentSeconds := clampSeconds seconds importer.maxSeconds
    solvedAt
    localDate := decodeLocalDate (stringOf row "dateKey") solvedAt importer.today }

def decodeAttempts : List JsonValue → List ImportedAttempt → Except PyError (List ImportedAttempt)
  | [], attempts => .ok attempts
  | .dict row :: rows, attempts =>
    match JsonValue.get row "questionId", JsonValue.get row "isCorrect" with
    | some (.str questionId), some (.bool isCorrect) => do
      let attempt ← buildAttempt importer row (attempts.length + 1) questionId isCorrect
      decodeAttempts rows (attempts ++ [attempt])
    | _, _ => decodeAttempts rows attempts
  | _ :: rows, attempts => decodeAttempts rows attempts

def decodeBookmarks : List JsonValue → Except PyError (List ImportedBookmark)
  | [] => .ok []
  | .dict row :: rows =>
    match JsonValue.get row "questionId" with
    | some (.str questionId) => do
      let bookmarkedAt ← decodeTime row "bookmarkedAt" importer.now
      let bookmarks ← decodeBookmarks rows
      return ⟨strip questionId.toList, bookmarkedAt⟩ :: bookmarks
    | _ => decodeBookmarks rows
  | _ :: rows => decodeBookmarks rows

/-- The truth of a value in JavaScript: empty arrays and objects count as true. -/
def isJsTruthy : JsonValue → Bool
  | .list _ | .dict _ => true
  | value => value.truthy

def itemsOf (data : List (String × JsonValue)) (key : String) : List JsonValue :=
  match JsonValue.get data key with
  | some (.list items) => items
  | _ => []

def uncaught {A : Type} : Except PyError A → Except DecodeError A
  | .ok a => .ok a
  | .error error => .error (.escaped error)

def parseJson (data : List Char) : Except DecodeError JsonValue :=
  match PyJson.loads data with
  | .ok value => .ok value
  | .error .decodeError =>
    .error (.progressFile "Invalid .liprep file. Could not parse JSON content.")
  | .error .longInteger => .error (.escaped .valueError)

def hasFormat (members : List (String × JsonValue)) : Bool :=
  match JsonValue.get members "format" with
  | some (.str format) => format == "LiPrep"
  | _ => false

def decode (data : List Char) : Except DecodeError ProgressImport := do
  match ← parseJson data with
  | .dict members =>
    if hasFormat members || isJsTruthy ((JsonValue.get members "data").getD .null) then
      let rawData :=
        match JsonValue.get members "data" with
        | some (.dict inner) => inner
        | _ => members
      let attempts ← uncaught (decodeAttempts importer (itemsOf rawData "attempts") [])
      let bookmarks ← uncaught (decodeBookmarks importer (itemsOf rawData "bookmarks"))
      return ⟨attempts, bookmarks⟩
    else .error (.progressFile "Invalid .liprep backup format.")
  | _ => .error (.progressFile "Invalid .liprep backup format.")

structure Progress where
  attempts : List Attempt
  bookmarks : List Bookmark

/-- `_RESOLVE_IDS_SQL` by the alias table and the database's `lower`. -/
def resolveId (lower : List Char → List Char) (aliases : List Char → Option (List Char))
    (rawId : List Char) : List Char :=
  (aliases (lower rawId)).getD (lower rawId)

def exportProgress (rows : Progress) (now : Int) : List Char :=
  encode (orderAttempts rows.attempts) rows.bookmarks now

/-- A decoded attempt as the table holds it, under the identity that it is given. -/
def insertedAttempt (userId : Nat) (resolve : List Char → List Char) (identity : Nat → Int)
    (place : Nat) (a : ImportedAttempt) : Attempt where
  id := some (identity place)
  userId := userId
  clientAttemptId := a.clientAttemptId
  questionId := resolve a.questionId
  module := a.module
  domainCd := a.domainCd
  skillCd := a.skillCd
  scoreBand := a.scoreBand
  userAnswer := a.userAnswer
  isCorrect := a.isCorrect
  timeSpentSeconds := a.timeSpentSeconds
  solvedAt := a.solvedAt
  localDate := a.localDate

/-- `INSERT … ON CONFLICT (user_id, question_id) DO NOTHING` -/
def insertBookmark (userId : Nat) (resolve : List Char → List Char) (bookmarks : List Bookmark)
    (b : ImportedBookmark) : List Bookmark :=
  if bookmarks.any fun old => old.questionId == resolve b.questionId then bookmarks
  else bookmarks ++ [⟨userId, resolve b.questionId, b.bookmarkedAt⟩]

/-- The student's rows after an import; the old ones are deleted. -/
def importProgress (userId : Nat) (resolve : List Char → List Char) (identity : Nat → Int)
    (data : List Char) : Except DecodeError Progress :=
  (decode importer data).map fun decoded =>
    { attempts := decoded.attempts.mapIdx (insertedAttempt userId resolve identity)
      bookmarks := decoded.bookmarks.foldl (insertBookmark userId resolve) [] }

end Counselle.Sat

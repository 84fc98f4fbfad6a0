import Counselle.Sat.EpochTimes
import Counselle.Fallible

/-! When an import of a progress file settles: with the message of a `ProgressFileError`, or
with rows that were each read by itself. -/
namespace Counselle.Sat
open Fallible (Yields)
open PyJson (JsonValue PyFloat)
open PyText (PyError strip)
open PyTime (IsDatetime minDatetime maxDatetime)

abbrev Row : Type := List (String × JsonValue)

theorem yields_ok {E A : Type} {a : A} {condition : Prop} {described : A → Prop} (holds : condition)
    (is : described a) : Yields (.ok a : Except E A) condition described :=
  (Yields.ok is).congr (iff_of_true trivial holds)

def valueOf (row : Row) (key : String) : JsonValue := (JsonValue.get row key).getD .null

def Doubled : JsonValue → Prop
  | .int n => |Binary64.rounded n| < 2 ^ 1024
  | _ => True

/-- The number that a value stands for, if it stands for one. -/
def numberIn : JsonValue → Option ℚ
  | .int n => some (Binary64.rounded n)
  | .float (.finite q) => some q
  | .str text =>
    if strip text.toList = [] then some 0
    else
      match PyNumber.floatText (strip text.toList) with
      | some (.finite q) => some q
      | _ => none
  | _ => none

theorem asNumberOrNone_int (n : Int) : asNumberOrNone (.int n) =
    match Binary64.ofRat n with
    | .finite q => .ok (some q)
    | _ => .error .overflowError := rfl

theorem asNumberOrNone_yields (value : JsonValue) :
    Yields (asNumberOrNone value) (Doubled value) (· = numberIn value) := by
  cases value with
  | int n =>
    cases read : Binary64.ofRat n with
    | finite q =>
      obtain ⟨rfl, small⟩ := PyNumber.ofRat_finite.mp read
      have finite : asNumberOrNone (.int n) = .ok (some (Binary64.rounded n)) := by
        rw [asNumberOrNone_int, read]
      rw [finite]
      exact yields_ok small rfl
    | _ =>
      have infinite : asNumberOrNone (.int n) = .error .overflowError := by
        rw [asNumberOrNone_int, read]
      rw [infinite]
      refine ⟨fun small => ?_, nofun, nofun⟩
      rw [PyNumber.ofRat_finite.mpr ⟨rfl, small⟩] at read
      cases read
  | float q => cases q <;> exact Yields.ok rfl
  | str text =>
    unfold asNumberOrNone numberIn
    dsimp only
    split
    · exact Yields.ok rfl
    · generalize PyNumber.floatText (strip text.toList) = read
      rcases read with _ | _ | _ | _ <;> exact Yields.ok rfl
  | _ => exact Yields.ok rfl

theorem numberOrNone_yields (row : Row) (key : String) :
    Yields (numberOrNone row key) (Doubled (valueOf row key)) (· = numberIn (valueOf row key)) :=
  asNumberOrNone_yields (valueOf row key)

theorem asNumber_yields (row : Row) (key : String) (fallback : ℚ) :
    Yields (asNumber row key fallback) (Doubled (valueOf row key))
      (· = (numberIn (valueOf row key)).getD fallback) :=
  (numberOrNone_yields row key).map fun _ same => same ▸ rfl

def timeOfMs (ms : ℚ) : Int := PyTime.microseconds (Binary64.rounded (ms / 1000))

theorem small_of_datetime {seconds : ℚ} (valid : IsDatetime (PyTime.microseconds seconds)) : |seconds| < 2 ^ 63 := by
  have error := abs_le.mp (PyTime.microseconds_error seconds)
  have low : ((minDatetime : Int) : ℚ) ≤ PyTime.microseconds seconds := by exact_mod_cast valid.1
  have high : (PyTime.microseconds seconds : ℚ) < ((maxDatetime : Int) : ℚ) := by exact_mod_cast valid.2
  norm_num [minDatetime, maxDatetime] at low high
  rw [abs_lt]
  constructor <;> norm_num <;> linarith

theorem msToDatetime_yields (ms : ℚ) : Yields (msToDatetime ms) (IsDatetime (timeOfMs ms)) (· = timeOfMs ms) := by
  by_cases valid : IsDatetime (timeOfMs ms)
  · have small := small_of_datetime valid
    have finite : Binary64.ofRat (ms / 1000) = .finite (Binary64.rounded (ms / 1000)) := by
      apply if_neg
      exact not_le.mpr (small.trans (pow_lt_pow_right₀ (by norm_num) (by norm_num)))
    have read : msToDatetime ms = .ok (timeOfMs ms) := by
      rw [msToDatetime, finite, PyTime.fromTimestamp]
      exact (if_neg (not_le.mpr small)).trans (if_pos valid)
    rw [read]
    exact yields_ok valid rfl
  · have refused : ∀ time, msToDatetime ms ≠ .ok time := by
      intro time read
      unfold msToDatetime Binary64.ofRat at read
      split at read
      · cases read
      · rw [PyTime.fromTimestamp] at read
        split at read
        · cases read
        · split at read
          case isTrue within => exact valid within
          case isFalse => cases read
    exact ⟨fun holds => absurd holds valid, fun time read => (refused time read).elim,
      fun time read => (refused time read).elim⟩

def Timed (value : JsonValue) : Prop :=
  Doubled value ∧ ∀ ms, numberIn value = some ms → IsDatetime (timeOfMs ms)

def timeIn (value : JsonValue) (now : Int) : Int :=
  match numberIn value with
  | some ms => timeOfMs ms
  | none => now

theorem decodeTime_yields (row : Row) (key : String) (now : Int) :
    Yields (decodeTime row key now) (Timed (valueOf row key)) (· = timeIn (valueOf row key) now) := by
  apply (numberOrNone_yields row key).bind
  rintro read rfl
  unfold timeIn
  cases numberIn (valueOf row key) with
  | none => exact yields_ok nofun rfl
  | some ms => exact (msToDatetime_yields ms).congr (by simp)

variable (importer : Importer)

structure KeptAttempt where
  row : Row
  questionId : String
  isCorrect : Bool

def keptAttempt : JsonValue → Option KeptAttempt
  | .dict row =>
    match JsonValue.get row "questionId", JsonValue.get row "isCorrect" with
    | some (.str questionId), some (.bool isCorrect) => some ⟨row, questionId, isCorrect⟩
    | _, _ => none
  | _ => none

structure KeptAttempt.Readable (kept : KeptAttempt) : Prop where
  seconds : Doubled (valueOf kept.row "timeSpentSeconds")
  band : Doubled (valueOf kept.row "score_band_range_cd")
  solvedAt : Timed (valueOf kept.row "solvedAt")

/-- The attempt of a row, from the row and its position alone. -/
def KeptAttempt.attempt (kept : KeptAttempt) (position : Nat) : ImportedAttempt :=
  let module := stringOf kept.row "module"
  let solvedAt := timeIn (valueOf kept.row "solvedAt") importer.now
  { id := position
    clientAttemptId := importer.uuid4 position
    questionId := strip kept.questionId.toList
    module := if module = [] then "reading".toList else module
    domainCd := stringOf kept.row "primary_class_cd"
    skillCd := stringOf kept.row "skill_cd"
    scoreBand := clampBand ((numberIn (valueOf kept.row "score_band_range_cd")).getD 3)
    userAnswer := stringOf kept.row "userAnswer"
    isCorrect := kept.isCorrect
    timeSpentSeconds := clampSeconds ((numberIn (valueOf kept.row "timeSpentSeconds")).getD 1) importer.maxSeconds
    solvedAt
    localDate := decodeLocalDate (stringOf kept.row "dateKey") solvedAt importer.today }

@[simp] theorem KeptAttempt.attempt_id (kept : KeptAttempt) (position : Nat) :
    (kept.attempt importer position).id = position := rfl

theorem buildAttempt_yields (kept : KeptAttempt) (position : Nat) :
    Yields (buildAttempt importer kept.row position kept.questionId kept.isCorrect) kept.Readable
      (· = kept.attempt importer position) := by
  have yields : Yields (buildAttempt importer kept.row position kept.questionId kept.isCorrect)
      (Doubled (valueOf kept.row "timeSpentSeconds") ∧ Doubled (valueOf kept.row "score_band_range_cd") ∧
        Timed (valueOf kept.row "solvedAt") ∧ True) (· = kept.attempt importer position) := by
    apply (asNumber_yields kept.row "timeSpentSeconds" 1).bind
    rintro seconds rfl
    apply (asNumber_yields kept.row "score_band_range_cd" 3).bind
    rintro band rfl
    apply (decodeTime_yields kept.row "solvedAt" importer.now).bind
    rintro solvedAt rfl
    exact Yields.ok rfl
  exact yields.congr ⟨fun ⟨seconds, band, solvedAt, _⟩ => ⟨seconds, band, solvedAt⟩,
    fun ⟨seconds, band, solvedAt⟩ => ⟨seconds, band, solvedAt, trivial⟩⟩

/-- The attempts of the kept rows, numbered on from a position. -/
def attemptsFrom : Nat → List KeptAttempt → List ImportedAttempt
  | _, [] => []
  | position, kept :: rest => kept.attempt importer position :: attemptsFrom (position + 1) rest

theorem decodeAttempts_yields (rows : List JsonValue) (attempts : List ImportedAttempt) :
    Yields (decodeAttempts importer rows attempts) (∀ kept ∈ rows.filterMap keptAttempt, kept.Readable)
      (· = attempts ++ attemptsFrom importer (attempts.length + 1) (rows.filterMap keptAttempt)) := by
  induction rows generalizing attempts with
  | nil => exact (Yields.ok (by simp [attemptsFrom])).congr (by simp)
  | cons value rows ih =>
    cases isKept : keptAttempt value with
    | none =>
      rw [List.filterMap_cons_none isKept]
      have dropped : decodeAttempts importer (value :: rows) attempts = decodeAttempts importer rows attempts := by
        unfold keptAttempt at isKept
        split at isKept
        case h_1 row =>
          rw [decodeAttempts]
          split
          case h_1 question correct =>
            rw [question, correct] at isKept
            cases isKept
          case h_2 => rfl
        case h_2 other =>
          cases value with
          | dict row => exact (other row rfl).elim
          | _ => rfl
      rw [dropped]
      exact ih attempts
    | some kept =>
      rw [List.filterMap_cons_some isKept]
      have step : decodeAttempts importer (value :: rows) attempts =
          buildAttempt importer kept.row (attempts.length + 1) kept.questionId kept.isCorrect >>= fun attempt =>
            decodeAttempts importer rows (attempts ++ [attempt]) := by
        unfold keptAttempt at isKept
        split at isKept
        case h_1 row =>
          split at isKept
          case h_1 question correct =>
            obtain rfl := Option.some.inj isKept
            rw [decodeAttempts, question, correct]
          case h_2 => cases isKept
        case h_2 => cases isKept
      rw [step, List.forall_mem_cons]
      apply (buildAttempt_yields importer kept (attempts.length + 1)).bind
      rintro attempt rfl
      apply (ih _).imp
      rintro result rfl
      simp [attemptsFrom]

structure KeptBookmark where
  row : Row
  questionId : String

def keptBookmark : JsonValue → Option KeptBookmark
  | .dict row =>
    match JsonValue.get row "questionId" with
    | some (.str questionId) => some ⟨row, questionId⟩
    | _ => none
  | _ => none

def KeptBookmark.bookmark (kept : KeptBookmark) : ImportedBookmark :=
  ⟨strip kept.questionId.toList, timeIn (valueOf kept.row "bookmarkedAt") importer.now⟩

theorem decodeBookmarks_yields (rows : List JsonValue) :
    Yields (decodeBookmarks importer rows)
      (∀ kept ∈ rows.filterMap keptBookmark, Timed (valueOf kept.row "bookmarkedAt"))
      (· = (rows.filterMap keptBookmark).map (·.bookmark importer)) := by
  induction rows with
  | nil => exact yields_ok (by simp) rfl
  | cons value rows ih =>
    cases isKept : keptBookmark value with
    | none =>
      rw [List.filterMap_cons_none isKept]
      have dropped : decodeBookmarks importer (value :: rows) = decodeBookmarks importer rows := by
        unfold keptBookmark at isKept
        split at isKept
        case h_1 row =>
          rw [decodeBookmarks]
          split
          case h_1 question =>
            rw [question] at isKept
            cases isKept
          case h_2 => rfl
        case h_2 other =>
          cases value with
          | dict row => exact (other row rfl).elim
          | _ => rfl
      rw [dropped]
      exact ih
    | some kept =>
      rw [List.filterMap_cons_some isKept]
      have step : decodeBookmarks importer (value :: rows) =
          decodeTime kept.row "bookmarkedAt" importer.now >>= fun bookmarkedAt =>
            (decodeBookmarks importer rows).map fun bookmarks =>
              ⟨strip kept.questionId.toList, bookmarkedAt⟩ :: bookmarks := by
        unfold keptBookmark at isKept
        split at isKept
        case h_1 row =>
          split at isKept
          case h_1 question =>
            obtain rfl := Option.some.inj isKept
            rw [decodeBookmarks, question]
            rfl
          case h_2 => cases isKept
        case h_2 => cases isKept
      rw [step, List.forall_mem_cons]
      apply (decodeTime_yields kept.row "bookmarkedAt" importer.now).bind
      rintro bookmarkedAt rfl
      apply (ih.map (g := fun bookmarks => kept.bookmark importer :: bookmarks) _).congr Iff.rfl
      rintro bookmarks rfl
      rfl

/-- What `json.loads` is given; the bytes are decoded as the encoding that they show. -/
inductive FileData where
  | text (chars : List Char)
  | bytes (encoded : List UInt8)

/-- The text of the data; `none` is a `UnicodeDecodeError`. -/
def FileData.read (codec : List UInt8 → Option (List Char)) : FileData → Option (List Char)
  | .text chars => some chars
  | .bytes encoded => codec encoded

inductive ImportError where
  | decode (error : DecodeError)
  | recursionError
  deriving DecidableEq

/-- `decode` in an interpreter that is `levels` calls below its recursion limit. -/
def decodeWithin (codec : List UInt8 → Option (List Char)) (levels : Nat) (data : FileData) :
    Except ImportError ProgressImport :=
  match data.read codec with
  | none => .error (.decode (.progressFile "Invalid .liprep file. Could not parse JSON content."))
  | some text =>
    if levels < PyJson.nesting text then .error .recursionError
    else (decode importer text).mapError .decode

/-- The dict that carries the rows, of a file that is one. -/
def progressOf : JsonValue → Option Row
  | .dict members =>
    if hasFormat members || isJsTruthy ((JsonValue.get members "data").getD .null) then
      some (match JsonValue.get members "data" with
        | some (.dict inner) => inner
        | _ => members)
    else none
  | _ => none

def keptAttempts (progress : Row) : List KeptAttempt := (itemsOf progress "attempts").filterMap keptAttempt

def keptBookmarks (progress : Row) : List KeptBookmark := (itemsOf progress "bookmarks").filterMap keptBookmark

/-- An import of each row by itself: the rows of another shape are dropped, and what a kept
row does not say is defaulted. -/
structure Imported (progress : Row) (result : ProgressImport) : Prop where
  attempts : result.attempts = (keptAttempts progress).mapIdx fun place kept => kept.attempt importer (place + 1)
  bookmarks : result.bookmarks = (keptBookmarks progress).map (·.bookmark importer)
  band : ∀ attempt ∈ result.attempts, 1 ≤ attempt.scoreBand ∧ attempt.scoreBand ≤ 7
  seconds : ∀ attempt ∈ result.attempts,
    1 ≤ attempt.timeSpentSeconds ∧ attempt.timeSpentSeconds ≤ importer.maxSeconds
  ids : result.attempts.map (·.id) = (List.range result.attempts.length).map fun place : Nat => (place : Int) + 1

/-- A refusal with the message of a `ProgressFileError`, or an import. -/
inductive Settled (text : Option (List Char)) : Except ImportError ProgressImport → Prop where
  | refused (message : String) : Settled text (.error (.decode (.progressFile message)))
  | imported {chars : List Char} {value : JsonValue} {progress : Row} {result : ProgressImport} :
      text = some chars → PyJson.loads chars = .ok value → progressOf value = some progress →
      Imported importer progress result → Settled text (.ok result)

/-- The rows of the file name numbers within the doubles, and times within the calendar. -/
structure ReadableRows (progress : Row) : Prop where
  attempts : ∀ kept ∈ keptAttempts progress, kept.Readable
  bookmarks : ∀ kept ∈ keptBookmarks progress, Timed (valueOf kept.row "bookmarkedAt")

/-- The text is nested within the levels, its integers are within the digits that Python
reads, and its rows can be read. -/
structure ReadableText (levels : Nat) (text : List Char) : Prop where
  nesting : PyJson.nesting text ≤ levels
  digits : PyJson.loads text ≠ .error .longInteger
  rows : ∀ value progress, PyJson.loads text = .ok value → progressOf value = some progress → ReadableRows progress

theorem clampBand_range (raw : ℚ) : 1 ≤ clampBand raw ∧ clampBand raw ≤ 7 := by
  unfold clampBand
  omega

theorem clampSeconds_range {maxSeconds : Int} (positive : 1 ≤ maxSeconds) (raw : ℚ) :
    1 ≤ clampSeconds raw maxSeconds ∧ clampSeconds raw maxSeconds ≤ maxSeconds := by
  unfold clampSeconds
  omega

theorem attemptsFrom_eq (position : Nat) (kept : List KeptAttempt) :
    attemptsFrom importer position kept = kept.mapIdx fun place kept => kept.attempt importer (place + position) := by
  induction kept generalizing position with
  | nil => rfl
  | cons first rest ih =>
    rw [attemptsFrom, ih, List.mapIdx_cons, Nat.zero_add]
    simp only [Nat.add_assoc, Nat.add_comm 1 position]

variable {importer}

theorem imported_of_rows (positive : 1 ≤ importer.maxSeconds) (progress : Row) :
    Imported importer progress ⟨attemptsFrom importer 1 (keptAttempts progress),
      (keptBookmarks progress).map (·.bookmark importer)⟩ := by
  have each : ∀ attempt ∈ attemptsFrom importer 1 (keptAttempts progress),
      ∃ kept position, attempt = KeptAttempt.attempt importer kept position := by
    rw [attemptsFrom_eq]
    intro attempt isIn
    obtain ⟨place, bound, rfl⟩ := List.mem_mapIdx.mp isIn
    exact ⟨_, _, rfl⟩
  refine ⟨attemptsFrom_eq importer 1 _, rfl, ?_, ?_, ?_⟩
  · intro attempt isIn
    obtain ⟨kept, position, rfl⟩ := each attempt isIn
    exact clampBand_range _
  · intro attempt isIn
    obtain ⟨kept, position, rfl⟩ := each attempt isIn
    exact clampSeconds_range positive _
  · rw [attemptsFrom_eq]
    apply List.ext_getElem
    · simp
    · intro place bound bound'
      simp

theorem decode_of_progress {text : List Char} {value : JsonValue} (loaded : PyJson.loads text = .ok value) :
    decode importer text = match progressOf value with
      | some progress => (do
        let attempts ← uncaught (decodeAttempts importer (itemsOf progress "attempts") [])
        let bookmarks ← uncaught (decodeBookmarks importer (itemsOf progress "bookmarks"))
        return ⟨attempts, bookmarks⟩)
      | none => .error (.progressFile "Invalid .liprep backup format.") := by
  have parsed : parseJson text = .ok value := by rw [parseJson, loaded]
  rw [decode, parsed]
  cases value with
  | dict members =>
    change (if _ then _ else _) = _
    by_cases accepted : (hasFormat members || isJsTruthy ((JsonValue.get members "data").getD .null)) = true
    · rw [if_pos accepted, progressOf, if_pos accepted] <;> rfl
    · rw [if_neg accepted, progressOf, if_neg accepted]
  | _ => rfl

theorem uncaught_yields {A : Type} {x : Except PyError A} {condition : Prop} {described : A → Prop}
    (yields : Yields x condition described) : Yields (uncaught x) condition described := by
  cases x with
  | ok a => exact ⟨fun _ => ⟨a, rfl⟩, fun b same => yields.needs b (by cases same; rfl),
      fun b same => yields.returns b (by cases same; rfl)⟩
  | error e =>
    refine ⟨fun holds => ?_, nofun, nofun⟩
    obtain ⟨a, bad⟩ := yields.succeeds holds
    cases bad

theorem decode_yields {text : List Char} {value : JsonValue} {progress : Row}
    (loaded : PyJson.loads text = .ok value) (isProgress : progressOf value = some progress)
    (positive : 1 ≤ importer.maxSeconds) :
    Yields (decode importer text) (ReadableRows progress) (Imported importer progress) := by
  rw [decode_of_progress loaded, isProgress]
  have yields : Yields (uncaught (decodeAttempts importer (itemsOf progress "attempts") []) >>= fun attempts =>
      uncaught (decodeBookmarks importer (itemsOf progress "bookmarks")) >>= fun bookmarks =>
        (.ok ⟨attempts, bookmarks⟩ : Except DecodeError ProgressImport))
      ((∀ kept ∈ keptAttempts progress, kept.Readable) ∧
        (∀ kept ∈ keptBookmarks progress, Timed (valueOf kept.row "bookmarkedAt")) ∧ True)
      (Imported importer progress) := by
    apply (uncaught_yields (decodeAttempts_yields importer _ [])).bind
    rintro attempts rfl
    apply (uncaught_yields (decodeBookmarks_yields importer _)).bind
    rintro bookmarks rfl
    exact Yields.ok (imported_of_rows positive progress)
  exact yields.congr ⟨fun ⟨attempts, bookmarks, _⟩ => ⟨attempts, bookmarks⟩,
    fun ⟨attempts, bookmarks⟩ => ⟨attempts, bookmarks, trivial⟩⟩

theorem uncaught_error {A : Type} {x : Except PyError A} {error : DecodeError} (failed : uncaught x = .error error) :
    ∃ escaped, error = .escaped escaped := by
  cases x with
  | ok a => cases failed
  | error escaped => exact ⟨escaped, (Except.error.inj failed).symm⟩

theorem decode_escapes {text : List Char} {value : JsonValue} {progress : Row} {error : DecodeError}
    (loaded : PyJson.loads text = .ok value) (isProgress : progressOf value = some progress)
    (failed : decode importer text = .error error) : ∃ escaped, error = .escaped escaped := by
  rw [decode_of_progress loaded, isProgress] at failed
  rcases Fallible.bind_error_iff.mp failed with failed | ⟨attempts, -, failed⟩
  · exact uncaught_error failed
  · rcases Fallible.bind_error_iff.mp failed with failed | ⟨bookmarks, -, failed⟩
    · exact uncaught_error failed
    · cases failed

theorem mapError_decode {A : Type} {x : Except DecodeError A} {error : DecodeError}
    (failed : x.mapError ImportError.decode = .error (.decode error)) : x = .error error := by
  cases x with
  | ok a => cases failed
  | error other => rw [ImportError.decode.inj (Except.error.inj failed)]

theorem mapError_eq_ok {E F A : Type} {x : Except E A} {f : E → F} {a : A} :
    x.mapError f = .ok a ↔ x = .ok a := by
  cases x <;> simp [Except.mapError]

theorem settled_iff {levels : Nat} {text : List Char} (positive : 1 ≤ importer.maxSeconds) :
    Settled importer (some text) (if levels < PyJson.nesting text then .error .recursionError
      else (decode importer text).mapError .decode) ↔ ReadableText levels text := by
  by_cases deep : levels < PyJson.nesting text
  · rw [if_pos deep]
    exact ⟨nofun, fun readable => absurd readable.nesting (not_le.mpr deep)⟩
  rw [if_neg deep]
  cases loaded : PyJson.loads text with
  | error problem =>
    cases problem with
    | decodeError =>
      have refused : decode importer text =
          .error (.progressFile "Invalid .liprep file. Could not parse JSON content.") := by
        rw [decode, parseJson, loaded]
        rfl
      rw [refused]
      refine iff_of_true (.refused _) ⟨not_lt.mp deep, ?_, ?_⟩
      · rw [loaded]
        nofun
      · intro value progress bad
        rw [loaded] at bad
        cases bad
    | longInteger =>
      have escaped : decode importer text = .error (.escaped .valueError) := by
        rw [decode, parseJson, loaded]
        rfl
      rw [escaped]
      exact ⟨nofun, fun readable => absurd loaded readable.digits⟩
  | ok value =>
    cases isProgress : progressOf value with
    | none =>
      rw [decode_of_progress loaded, isProgress]
      refine iff_of_true (.refused _) ⟨not_lt.mp deep, ?_, ?_⟩
      · rw [loaded]
        nofun
      · intro other progress isOther bad
        obtain rfl := Except.ok.inj (loaded.symm.trans isOther)
        rw [isProgress] at bad
        cases bad
    | some progress =>
      have yields := decode_yields loaded isProgress positive
      constructor
      · intro settled
        refine ⟨not_lt.mp deep, ?_, ?_⟩
        · rw [loaded]
          nofun
        · intro other progress' isOther isProgress'
          obtain rfl := Except.ok.inj (loaded.symm.trans isOther)
          obtain rfl := Option.some.inj (isProgress.symm.trans isProgress')
          generalize isResult : (decode importer text).mapError ImportError.decode = result at settled
          cases settled with
          | imported => exact yields.needs _ (mapError_eq_ok.mp isResult)
          | refused message =>
            obtain ⟨escaped, bad⟩ := decode_escapes loaded isProgress (mapError_decode isResult)
            cases bad
      · intro readable
        obtain ⟨result, isResult⟩ := yields.succeeds (readable.rows value progress loaded isProgress)
        rw [mapError_eq_ok.mpr isResult]
        exact .imported rfl loaded isProgress (yields.returns result isResult)

/-- The import of any data settles exactly when its text, if it decodes to one, can be read. -/
theorem import_settles_iff (codec : List UInt8 → Option (List Char)) (levels : Nat) (importer : Importer)
    (positive : 1 ≤ importer.maxSeconds) (data : FileData) :
    Settled importer (data.read codec) (decodeWithin importer codec levels data) ↔
      ∀ text, data.read codec = some text → ReadableText levels text := by
  rw [decodeWithin]
  cases data.read codec with
  | none => exact iff_of_true (.refused _) nofun
  | some text =>
    rw [settled_iff positive]
    constructor
    · rintro readable other same
      exact Option.some.inj same ▸ readable
    · exact fun readable => readable text rfl

def fileImporter : Importer where
  today := ⟨2025, 1, 1, by decide⟩
  now := 1735689600000000
  maxSeconds := 86400
  uuid4 := id

def bookmarkFile (time : String) : List Char :=
  "\x7b\"data\": \x7b\"bookmarks\": [\x7b\"questionId\": \"q\", \"bookmarkedAt\": ".toList ++ time.toList ++
    "\x7d]\x7d\x7d".toList

theorem import_settles_iff_sample :
    Settled fileImporter ((FileData.text (bookmarkFile "1735689600000")).read fun _ => none)
      (decodeWithin fileImporter (fun _ => none) 900 (.text (bookmarkFile "1735689600000"))) ↔
        ∀ text, (FileData.text (bookmarkFile "1735689600000")).read (fun _ => none) = some text →
          ReadableText 900 text :=
  import_settles_iff (fun _ => none) 900 fileImporter (by decide) (.text (bookmarkFile "1735689600000"))

theorem not_settled_escaped {importer : Importer} {text : Option (List Char)} {error : PyError} :
    ¬ Settled importer text (.error (.decode (.escaped error))) := nofun

theorem bookmark_time_refused : decodeWithin fileImporter (fun _ => none) 900
    (.text (bookmarkFile "253402300800000")) = .error (.decode (.escaped .valueError)) := by decide +kernel

/-- The first millisecond of year 10000 escapes as a `ValueError`. -/
theorem bookmark_time_escapes :
    ¬ Settled fileImporter (some (bookmarkFile "253402300800000"))
      (decodeWithin fileImporter (fun _ => none) 900 (.text (bookmarkFile "253402300800000"))) :=
  fun settled => not_settled_escaped (bookmark_time_refused ▸ settled)

end Counselle.Sat

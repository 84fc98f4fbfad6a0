import Counselle.Sat.EpochTimes
import Mathlib

/-! Export, then import: the student's rows come back under new ids, with their times at
whole milliseconds, in an order that the statistics do not tell apart from the old one. -/
namespace Counselle.Sat
open Calendar (Date)
open PyJson (JsonValue plain plainItems)
open PyText (PyError strip)
open PyTime (IsDatetime)

/-- An attempt as the table holds it; `integer` is the type of its column. -/
structure HeldAttempt (maxSeconds : Int) (resolve : List Char → List Char) (a : Attempt) : Prop where
  band : 1 ≤ a.scoreBand ∧ a.scoreBand ≤ 7
  seconds : 1 ≤ a.timeSpentSeconds ∧ a.timeSpentSeconds ≤ maxSeconds
  integer : a.timeSpentSeconds < 2 ^ 31
  questionId : strip a.questionId = a.questionId
  module : strip a.module = a.module
  domainCd : strip a.domainCd = a.domainCd
  skillCd : strip a.skillCd = a.skillCd
  userAnswer : strip a.userAnswer = a.userAnswer
  named : a.module ≠ []
  resolved : resolve a.questionId = a.questionId
  solved : IsDatetime a.solvedAt

structure HeldBookmark (resolve : List Char → List Char) (b : Bookmark) : Prop where
  questionId : strip b.questionId = b.questionId
  resolved : resolve b.questionId = b.questionId
  marked : IsDatetime b.bookmarkedAt

structure Held (maxSeconds : Int) (resolve : List Char → List Char) (rows : Progress) : Prop where
  attempts : ∀ a ∈ rows.attempts, HeldAttempt maxSeconds resolve a
  bookmarks : ∀ b ∈ rows.bookmarks, HeldBookmark resolve b
  distinct : (rows.bookmarks.map (·.questionId)).Nodup

/-- The time that the file names, as the import reads it. -/
def exportedTime (time : Int) : Int := reread (toEpochMs time)

theorem exportedTime_mono {s t : Int} (le : s ≤ t) : exportedTime s ≤ exportedTime t :=
  reread_mono (toEpochMs_mono le)

theorem plain_int {n : Int} (size : |n| < 2 ^ 53) : plain (.int n) := by
  rw [plain, Nat.length_toDigits_le_iff (by decide) (by decide)]
  have small : n.natAbs < 10 ^ 16 := by
    rw [abs_lt] at size
    omega
  exact small.trans_le (Nat.pow_le_pow_right (by decide) (by decide))

theorem toEpochMs_size {time : Int} (valid : IsDatetime time) : |toEpochMs time| < 2 ^ 53 := by
  have range := toEpochMs_range valid
  unfold yearOne year10000 at range
  rw [abs_lt]
  omega

theorem plainItems_map {A : Type} {f : A → JsonValue} {items : List A}
    (each : ∀ item ∈ items, plain (f item)) : plainItems (items.map f) := by
  induction items with
  | nil => trivial
  | cons item rest ih =>
    exact ⟨each item List.mem_cons_self, ih fun other isIn => each other (List.mem_cons_of_mem _ isIn)⟩

section
variable {maxSeconds : Int} {resolve : List Char → List Char}

theorem plain_encodeAttempt {a : Attempt} (held : HeldAttempt maxSeconds resolve a) :
    plain (.dict (encodeAttempt a)) := by
  have band : plain (.int a.scoreBand) := plain_int (by have := held.band; rw [abs_lt]; omega)
  have seconds : plain (.int a.timeSpentSeconds) := by
    have low := held.seconds.1
    have high := held.integer
    exact plain_int (by rw [abs_lt]; omega)
  have solved := plain_int (toEpochMs_size held.solved)
  exact ⟨by simp [encodeAttempt], trivial, trivial, trivial, trivial, band, trivial, trivial, seconds, solved, trivial,
    trivial⟩

theorem plain_encodeBookmark {b : Bookmark} (held : HeldBookmark resolve b) :
    plain (.dict (encodeBookmark b)) :=
  ⟨by simp [encodeBookmark], trivial, plain_int (toEpochMs_size held.marked), trivial⟩

theorem loads_encode {attempts : List Attempt} {bookmarks : List Bookmark} {now : Int}
    (heldAttempts : ∀ a ∈ attempts, HeldAttempt maxSeconds resolve a)
    (heldBookmarks : ∀ b ∈ bookmarks, HeldBookmark resolve b) (valid : IsDatetime now) :
    PyJson.loads (encode attempts bookmarks now) = .ok (payload attempts bookmarks now) := by
  have all := plainItems_map fun a isIn => plain_encodeAttempt (heldAttempts a isIn)
  have marks := plainItems_map fun b isIn => plain_encodeBookmark (heldBookmarks b isIn)
  exact PyJson.loads_dumps ⟨by simp, trivial, plain_int (by decide), plain_int (toEpochMs_size valid),
    trivial, ⟨by simp, all, marks, trivial⟩, trivial⟩

end

theorem numberOrNone_int {row : List (String × JsonValue)} {key : String} {n : Int}
    (found : JsonValue.get row key = some (.int n)) (size : |n| < 2 ^ 53) :
    numberOrNone row key = .ok (some (n : ℚ)) := by
  rw [numberOrNone, found, Option.getD_some, asNumberOrNone, ofRat_int size]

theorem stringOf_text {row : List (String × JsonValue)} {key : String} {text : List Char}
    (found : JsonValue.get row key = some (jsonText text)) (trimmed : strip text = text) :
    stringOf row key = text := by
  rw [stringOf, found, Option.getD_some, jsonText, asString, String.toList_ofList, trimmed]

theorem decodeTime_exported {row : List (String × JsonValue)} {key : String} {time : Int} (now : Int)
    (found : JsonValue.get row key = some (.int (toEpochMs time))) (valid : IsDatetime time) :
    decodeTime row key now =
      if time < roundsToYear10000 then .ok (exportedTime time) else .error .valueError := by
  have read : decodeTime row key now = msToDatetime (toEpochMs time) := by
    rw [decodeTime, numberOrNone_int found (toEpochMs_size valid)]
    rfl
  rw [read, msToDatetime_int (toEpochMs_range valid)]
  exact if_congr toEpochMs_lt_year10000 rfl rfl

theorem strip_isoformat (d : Date) : strip d.isoformat = d.isoformat := by
  obtain ⟨-, years, -, months, -, days⟩ := d.valid
  have short : Calendar.daysInMonth d.year d.month ≤ 31 := by
    unfold Calendar.daysInMonth
    split_ifs <;> omega
  have solid : ∀ n < 10, PyText.isSpace (Calendar.digitText n) = false := by decide
  have first := solid (d.year / 1000) (by omega)
  have last := solid (d.day % 10) (by omega)
  simp [strip, Calendar.Date.isoformat, first, last]

variable (importer : Importer)

/-- What `decode` makes of a row that was exported. -/
def decodedAttempt (position : Nat) (a : Attempt) : ImportedAttempt where
  id := position
  clientAttemptId := importer.uuid4 position
  questionId := a.questionId
  module := a.module
  domainCd := a.domainCd
  skillCd := a.skillCd
  scoreBand := a.scoreBand
  userAnswer := a.userAnswer
  isCorrect := a.isCorrect
  timeSpentSeconds := a.timeSpentSeconds
  solvedAt := exportedTime a.solvedAt
  localDate := a.localDate

theorem buildAttempt_exported {resolve : List Char → List Char} {a : Attempt} (position : Nat)
    (held : HeldAttempt importer.maxSeconds resolve a) :
    buildAttempt importer (encodeAttempt a) position (String.ofList a.questionId) a.isCorrect =
      if a.solvedAt < roundsToYear10000 then .ok (decodedAttempt importer position a)
      else .error .valueError := by
  have module := @stringOf_text (encodeAttempt a) "module" _ rfl held.module
  have domain := @stringOf_text (encodeAttempt a) "primary_class_cd" _ rfl held.domainCd
  have skill := @stringOf_text (encodeAttempt a) "skill_cd" _ rfl held.skillCd
  have answer := @stringOf_text (encodeAttempt a) "userAnswer" _ rfl held.userAnswer
  have day := @stringOf_text (encodeAttempt a) "dateKey" _ rfl (strip_isoformat a.localDate)
  have bands := held.band
  have times := held.seconds
  have limit := held.integer
  have band := @numberOrNone_int (encodeAttempt a) "score_band_range_cd" _ rfl
    (show |a.scoreBand| < 2 ^ 53 by rw [abs_lt]; omega)
  have seconds := @numberOrNone_int (encodeAttempt a) "timeSpentSeconds" _ rfl
    (show |a.timeSpentSeconds| < 2 ^ 53 by rw [abs_lt]; omega)
  have solved := @decodeTime_exported (encodeAttempt a) "solvedAt" _ importer.now rfl
    held.solved
  have clampedBand : clampBand (a.scoreBand : ℚ) = a.scoreBand := by
    rw [clampBand, jsRound_int (by rw [abs_lt]; omega)]
    omega
  have clampedSeconds : clampSeconds (a.timeSpentSeconds : ℚ) importer.maxSeconds = a.timeSpentSeconds := by
    rw [clampSeconds, jsRound_int (by rw [abs_lt]; omega)]
    omega
  have kept : ∀ time, decodeLocalDate a.localDate.isoformat time importer.today = a.localDate := by
    intro time
    rw [decodeLocalDate, Calendar.fromIsoformat_isoformat]
    rfl
  rw [buildAttempt, asNumber, asNumber, band, seconds, solved]
  split
  · simp only [bind, Except.bind, Except.map, module, domain, skill, answer, day, kept, clampedBand,
      clampedSeconds, Option.getD_some, String.toList_ofList, held.questionId, if_neg held.named]
    rfl
  · rfl

/-- By induction on the rows: each is read at its position, or the first late one stops the
import. -/
theorem decodeAttempts_exported {resolve : List Char → List Char} :
    ∀ (attempts : List Attempt) (before : List ImportedAttempt),
    (∀ a ∈ attempts, HeldAttempt importer.maxSeconds resolve a) →
    decodeAttempts importer (attempts.map fun a => .dict (encodeAttempt a)) before =
      if ∀ a ∈ attempts, a.solvedAt < roundsToYear10000 then
        .ok (before ++ attempts.mapIdx fun i a => decodedAttempt importer (before.length + i + 1) a)
      else .error .valueError
  | [], before, _ => by simp [decodeAttempts]
  | a :: rest, before, held => by
    have here := buildAttempt_exported importer (before.length + 1) (held a List.mem_cons_self)
    have step : decodeAttempts importer ((a :: rest).map fun a => .dict (encodeAttempt a)) before =
        (buildAttempt importer (encodeAttempt a) (before.length + 1) (String.ofList a.questionId)
          a.isCorrect) >>= fun attempt =>
            decodeAttempts importer (rest.map fun a => .dict (encodeAttempt a)) (before ++ [attempt]) := rfl
    rw [step, here]
    by_cases early : a.solvedAt < roundsToYear10000
    · have later := decodeAttempts_exported rest (before ++ [decodedAttempt importer (before.length + 1) a])
        fun b isIn => held b (List.mem_cons_of_mem _ isIn)
      simp only [early, if_true, bind, Except.bind, later, List.forall_mem_cons, true_and]
      simp [List.mapIdx_cons, Nat.add_comm, Nat.add_left_comm]
    · simp [early, bind, Except.bind]

theorem decodeBookmarks_exported {resolve : List Char → List Char} :
    ∀ bookmarks : List Bookmark, (∀ b ∈ bookmarks, HeldBookmark resolve b) →
    decodeBookmarks importer (bookmarks.map fun b => .dict (encodeBookmark b)) =
      if ∀ b ∈ bookmarks, b.bookmarkedAt < roundsToYear10000 then
        .ok (bookmarks.map fun b => ⟨b.questionId, exportedTime b.bookmarkedAt⟩)
      else .error .valueError
  | [], _ => by simp [decodeBookmarks]
  | b :: rest, held => by
    have heldHere := held b List.mem_cons_self
    have here := @decodeTime_exported (encodeBookmark b) "bookmarkedAt" _ importer.now rfl
      heldHere.marked
    have later := decodeBookmarks_exported rest fun c isIn => held c (List.mem_cons_of_mem _ isIn)
    have step : decodeBookmarks importer ((b :: rest).map fun b => .dict (encodeBookmark b)) =
        (decodeTime (encodeBookmark b) "bookmarkedAt" importer.now >>= fun bookmarkedAt =>
          decodeBookmarks importer (rest.map fun b => .dict (encodeBookmark b)) >>= fun bookmarks =>
            .ok (⟨strip (String.ofList b.questionId).toList, bookmarkedAt⟩ :: bookmarks)) := rfl
    rw [step, here, later, String.toList_ofList, heldHere.questionId]
    by_cases early : b.bookmarkedAt < roundsToYear10000
    · by_cases others : ∀ c ∈ rest, c.bookmarkedAt < roundsToYear10000
      · have all : ∀ c ∈ b :: rest, c.bookmarkedAt < roundsToYear10000 :=
          List.forall_mem_cons.mpr ⟨early, others⟩
        rw [if_pos early, if_pos others, if_pos all]
        rfl
      · rw [if_pos early, if_neg others, if_neg fun all => others (List.forall_mem_cons.mp all).2]
        rfl
    · simp [early, bind, Except.bind]

def AllEarly (attempts : List Attempt) (bookmarks : List Bookmark) : Prop :=
  (∀ a ∈ attempts, a.solvedAt < roundsToYear10000) ∧ ∀ b ∈ bookmarks, b.bookmarkedAt < roundsToYear10000

instance (attempts : List Attempt) (bookmarks : List Bookmark) : Decidable (AllEarly attempts bookmarks) :=
  inferInstanceAs (Decidable (_ ∧ _))

theorem decode_exported {resolve : List Char → List Char} {attempts : List Attempt}
    {bookmarks : List Bookmark} {now : Int}
    (heldAttempts : ∀ a ∈ attempts, HeldAttempt importer.maxSeconds resolve a)
    (heldBookmarks : ∀ b ∈ bookmarks, HeldBookmark resolve b) (valid : IsDatetime now) :
    decode importer (encode attempts bookmarks now) =
      if AllEarly attempts bookmarks then
        .ok ⟨attempts.mapIdx fun i a => decodedAttempt importer (i + 1) a,
          bookmarks.map fun b => ⟨b.questionId, exportedTime b.bookmarkedAt⟩⟩
      else .error (.escaped .valueError) := by
  have read : decode importer (encode attempts bookmarks now) =
      (uncaught (decodeAttempts importer (attempts.map fun a => .dict (encodeAttempt a)) []) >>= fun all =>
        uncaught (decodeBookmarks importer (bookmarks.map fun b => .dict (encodeBookmark b))) >>= fun marks =>
          .ok ⟨all, marks⟩) := by
    rw [decode, parseJson, loads_encode heldAttempts heldBookmarks valid]
    rfl
  rw [read, decodeAttempts_exported importer attempts [] heldAttempts,
    decodeBookmarks_exported importer bookmarks heldBookmarks]
  by_cases early : ∀ a ∈ attempts, a.solvedAt < roundsToYear10000
  · by_cases marked : ∀ b ∈ bookmarks, b.bookmarkedAt < roundsToYear10000
    · have both : AllEarly attempts bookmarks := ⟨early, marked⟩
      rw [if_pos early, if_pos marked, if_pos both]
      simp [uncaught, bind, Except.bind]
    · have late : ¬AllEarly attempts bookmarks := fun both => marked both.2
      rw [if_pos early, if_neg marked, if_neg late]
      rfl
  · have late : ¬AllEarly attempts bookmarks := fun both => early both.1
    rw [if_neg early, if_neg late]
    rfl

theorem allEarly_order (rows : Progress) :
    AllEarly (orderAttempts rows.attempts) rows.bookmarks ↔ AllEarly rows.attempts rows.bookmarks := by
  simp only [AllEarly, orderAttempts, List.mem_mergeSort]

section
variable (userId : Nat) (identity : Nat → Int)

def importedAttempt (place : Nat) (a : Attempt) : Attempt :=
  { a with
    id := some (identity place)
    userId := userId
    clientAttemptId := importer.uuid4 (place + 1)
    solvedAt := exportedTime a.solvedAt }

def importedBookmark (b : Bookmark) : Bookmark := ⟨userId, b.questionId, exportedTime b.bookmarkedAt⟩

theorem insertedAttempt_decoded {resolve : List Char → List Char} {a : Attempt} (place : Nat)
    (resolved : resolve a.questionId = a.questionId) :
    insertedAttempt userId resolve identity place (decodedAttempt importer (place + 1) a) =
      importedAttempt importer userId identity place a := by
  simp [insertedAttempt, decodedAttempt, importedAttempt, resolved]

theorem insertBookmarks {resolve : List Char → List Char} (bookmarks before : List Bookmark)
    (resolved : ∀ b ∈ bookmarks, resolve b.questionId = b.questionId)
    (distinct : ((before ++ bookmarks).map (·.questionId)).Nodup) :
    (bookmarks.map fun b => ⟨b.questionId, exportedTime b.bookmarkedAt⟩).foldl
        (insertBookmark userId resolve) (before.map (importedBookmark userId)) =
      (before ++ bookmarks).map (importedBookmark userId) := by
  induction bookmarks generalizing before with
  | nil => simp
  | cons b rest ih =>
    have here := resolved b List.mem_cons_self
    have absent : ((before.map (importedBookmark userId)).any fun old =>
        old.questionId == resolve b.questionId) = false := by
      rw [List.map_append, List.nodup_append] at distinct
      rw [List.any_eq_false, here]
      intro old isIn
      obtain ⟨c, member, rfl⟩ := List.mem_map.mp isIn
      have apart := distinct.2.2 _ (List.mem_map_of_mem member) b.questionId (by simp)
      simpa [importedBookmark] using apart
    have appended : before ++ b :: rest = (before ++ [b]) ++ rest := by simp
    have step : insertBookmark userId resolve (before.map (importedBookmark userId))
        ⟨b.questionId, exportedTime b.bookmarkedAt⟩ = (before ++ [b]).map (importedBookmark userId) := by
      rw [insertBookmark, absent, here]
      simp [importedBookmark]
    rw [appended] at distinct ⊢
    rw [List.map_cons, List.foldl_cons, step]
    exact ih (before ++ [b]) (fun c isIn => resolved c (List.mem_cons_of_mem _ isIn)) distinct

theorem map_importedAttempt {A : Type} {f : Attempt → A} {attempts : List Attempt}
    (same : ∀ place, ∀ a ∈ attempts, f (importedAttempt importer userId identity place a) = f a) :
    (attempts.mapIdx (importedAttempt importer userId identity)).map f = attempts.map f := by
  apply List.ext_getElem
  · simp
  · intro i _ _
    simp [same]

theorem orderAttempts_imported (increasing : StrictMono identity) (attempts : List Attempt) :
    orderAttempts ((orderAttempts attempts).mapIdx (importedAttempt importer userId identity)) =
      (orderAttempts attempts).mapIdx (importedAttempt importer userId identity) := by
  apply List.mergeSort_of_pairwise
  rw [List.pairwise_iff_getElem]
  intro i j first second less
  rw [List.length_mapIdx] at first second
  have before := notAfter_iff.mp
    (List.pairwise_iff_getElem.mp (pairwise_orderAttempts attempts) i j first second less)
  have earlier : (orderAttempts attempts)[i].solvedAt ≤ (orderAttempts attempts)[j].solvedAt := by omega
  have times := exportedTime_mono earlier
  have ids := increasing less
  rw [List.getElem_mapIdx, List.getElem_mapIdx, notAfter_iff]
  simp only [importedAttempt, sortId, Option.getD_some]
  omega

/-- What the claim of a lossless round trip comes to: the statistics and the heatmap are
those of the old rows, and so is every later export. -/
def Preserved (resolve : List Char → List Char) (rows : Progress) (now : Int) : Prop :=
  ∃ imported, importProgress importer userId resolve identity (exportProgress rows now) = .ok imported ∧
    (∀ today taxonomy,
      computeUserStats imported.attempts today taxonomy = computeUserStats rows.attempts today taxonomy) ∧
    (∀ day, (computeHeatmap imported.attempts).lookup day = (computeHeatmap rows.attempts).lookup day) ∧
    ∀ later, exportProgress imported later = exportProgress rows later

variable {importer} {userId} {identity} {resolve : List Char → List Char} {rows : Progress} {now : Int}

theorem importProgress_exported (held : Held importer.maxSeconds resolve rows) (valid : IsDatetime now) :
    importProgress importer userId resolve identity (exportProgress rows now) =
      if AllEarly rows.attempts rows.bookmarks then
        .ok ⟨(orderAttempts rows.attempts).mapIdx (importedAttempt importer userId identity),
          rows.bookmarks.map (importedBookmark userId)⟩
      else .error (.escaped .valueError) := by
  have ordered : ∀ a ∈ orderAttempts rows.attempts, HeldAttempt importer.maxSeconds resolve a :=
    fun a isIn => held.attempts a (List.mem_mergeSort.mp isIn)
  rw [importProgress, exportProgress, decode_exported importer ordered held.bookmarks valid]
  by_cases early : AllEarly rows.attempts rows.bookmarks
  · have marks := insertBookmarks userId rows.bookmarks [] (fun b isIn => (held.bookmarks b isIn).resolved)
      held.distinct
    have attempts : ((orderAttempts rows.attempts).mapIdx fun i a => decodedAttempt importer (i + 1) a).mapIdx
        (insertedAttempt userId resolve identity) =
          (orderAttempts rows.attempts).mapIdx (importedAttempt importer userId identity) := by
      apply List.ext_getElem
      · simp
      · intro i bound _
        simp only [List.getElem_mapIdx]
        exact insertedAttempt_decoded importer userId identity i
          (ordered _ (List.getElem_mem (by simpa using bound))).resolved
    rw [if_pos ((allEarly_order rows).mpr early), if_pos early]
    simp only [Except.map, attempts]
    rw [List.map_nil] at marks
    rw [marks, List.nil_append]
  · rw [if_neg fun all => early ((allEarly_order rows).mp all), if_neg early]
    rfl

theorem encodeAttempt_imported {a : Attempt} (place : Nat) (solved : IsDatetime a.solvedAt) :
    encodeAttempt (importedAttempt importer userId identity place a) = encodeAttempt a := by
  have again : toEpochMs (exportedTime a.solvedAt) = toEpochMs a.solvedAt :=
    toEpochMs_reread (toEpochMs_range solved)
  simp [encodeAttempt, importedAttempt, again]

theorem encodeBookmark_imported {b : Bookmark} (marked : IsDatetime b.bookmarkedAt) :
    encodeBookmark (importedBookmark userId b) = encodeBookmark b := by
  have again : toEpochMs (exportedTime b.bookmarkedAt) = toEpochMs b.bookmarkedAt :=
    toEpochMs_reread (toEpochMs_range marked)
  simp [encodeBookmark, importedBookmark, again]

theorem exportProgress_imported (increasing : StrictMono identity)
    (held : Held importer.maxSeconds resolve rows) (later : Int) :
    exportProgress ⟨(orderAttempts rows.attempts).mapIdx (importedAttempt importer userId identity),
        rows.bookmarks.map (importedBookmark userId)⟩ later = exportProgress rows later := by
  have attempts := map_importedAttempt importer userId identity
    (f := fun a => JsonValue.dict (encodeAttempt a))
    fun place a (isIn : a ∈ orderAttempts rows.attempts) => congrArg JsonValue.dict
      (encodeAttempt_imported place (held.attempts a (List.mem_mergeSort.mp isIn)).solved)
  have bookmarks : (rows.bookmarks.map (importedBookmark userId)).map
      (fun b => JsonValue.dict (encodeBookmark b)) =
        rows.bookmarks.map fun b => JsonValue.dict (encodeBookmark b) := by
    rw [List.map_map]
    exact List.map_congr_left fun b isIn => congrArg JsonValue.dict
      (encodeBookmark_imported (held.bookmarks b isIn).marked)
  rw [exportProgress, exportProgress, encode, encode, payload, payload,
    orderAttempts_imported importer userId identity increasing, attempts, bookmarks]

theorem preserved_of_early (increasing : StrictMono identity)
    (held : Held importer.maxSeconds resolve rows) (valid : IsDatetime now)
    (early : AllEarly rows.attempts rows.bookmarks) :
    Preserved importer userId identity resolve rows now := by
  refine ⟨_, (importProgress_exported held valid).trans (if_pos early), ?stats, ?heatmap,
    exportProgress_imported increasing held⟩
  case stats =>
    intro today taxonomy
    rw [computeUserStats, computeUserStats, orderAttempts_imported importer userId identity increasing]
    exact statsInOrder_congr (map_importedAttempt importer userId identity fun _ _ _ => rfl) today taxonomy
  case heatmap =>
    apply lookup_computeHeatmap_perm
    rw [map_importedAttempt importer userId identity (f := (·.localDate)) fun _ _ _ => rfl]
    exact (List.mergeSort_perm _ _).map _

theorem not_preserved_of_late (held : Held importer.maxSeconds resolve rows) (valid : IsDatetime now)
    (late : ¬AllEarly rows.attempts rows.bookmarks) :
    ¬Preserved importer userId identity resolve rows now := by
  rintro ⟨imported, ok, -⟩
  rw [importProgress_exported held valid, if_neg late] at ok
  cases ok

/-- The student's statistics survive an export and an import exactly when no time of the
student rounds to the year 10000. -/
theorem preserved_iff (increasing : StrictMono identity) (held : Held importer.maxSeconds resolve rows)
    (valid : IsDatetime now) :
    Preserved importer userId identity resolve rows now ↔
      (∀ a ∈ rows.attempts, a.solvedAt < roundsToYear10000) ∧
        ∀ b ∈ rows.bookmarks, b.bookmarkedAt < roundsToYear10000 := by
  constructor
  · intro preserved
    by_contra late
    exact not_preserved_of_late held valid late preserved
  · exact preserved_of_early increasing held valid

end

def leapDay : Date := ⟨2024, 2, 29, by decide⟩

def sampleImporter : Importer := ⟨leapDay, 1710000000000000, 86400, fun position => position⟩

def plainIds : List Char → List Char := resolveId (fun text => text.map Char.toLower) fun _ => none

def sampleAttempt (id solvedAt : Int) (isCorrect : Bool) : Attempt where
  id := some id
  userId := 1
  clientAttemptId := id.toNat
  questionId := "0a1b2c3d".toList
  module := "math".toList
  domainCd := "H".toList
  skillCd := "H.A.".toList
  scoreBand := 3
  userAnswer := "B".toList
  isCorrect := isCorrect
  timeSpentSeconds := 61
  solvedAt := solvedAt
  localDate := leapDay

theorem heldAttempt_sample {id solvedAt : Int} {isCorrect : Bool} (valid : IsDatetime solvedAt) :
    HeldAttempt sampleImporter.maxSeconds plainIds (sampleAttempt id solvedAt isCorrect) where
  band := (by decide : 1 ≤ (3 : Int) ∧ (3 : Int) ≤ 7)
  seconds := (by decide : 1 ≤ (61 : Int) ∧ (61 : Int) ≤ 86400)
  integer := (by decide : (61 : Int) < 2 ^ 31)
  questionId := (by decide : strip "0a1b2c3d".toList = "0a1b2c3d".toList)
  module := (by decide : strip "math".toList = "math".toList)
  domainCd := (by decide : strip "H".toList = "H".toList)
  skillCd := (by decide : strip "H.A.".toList = "H.A.".toList)
  userAnswer := (by decide : strip "B".toList = "B".toList)
  named := (by decide : "math".toList ≠ [])
  resolved := (by decide : plainIds "0a1b2c3d".toList = "0a1b2c3d".toList)
  solved := valid

/-- Two attempts within one millisecond, the later one listed first. -/
def tiedRows : Progress :=
  ⟨[sampleAttempt 9 1709200000000400 true, sampleAttempt 4 1709200000000100 false],
    [⟨1, "0a1b2c3d".toList, 1709200000000777⟩]⟩

theorem preserved_iff_tied : Preserved sampleImporter 1 (fun place => place + 10) plainIds tiedRows
    1710000000123456 := by
  have increasing : StrictMono fun place : Nat => (place : Int) + 10 := by
    intro i j less
    dsimp only
    omega
  have held : Held sampleImporter.maxSeconds plainIds tiedRows := by
    refine ⟨?_, ?_, by decide⟩
    · intro a isIn
      simp only [tiedRows, List.mem_cons, List.not_mem_nil, or_false] at isIn
      rcases isIn with rfl | rfl <;> exact heldAttempt_sample (by decide)
    · intro b isIn
      simp only [tiedRows, List.mem_singleton] at isIn
      subst isIn
      exact ⟨by decide, by decide, by decide⟩
  exact (preserved_iff increasing held (by decide)).mpr (by decide)

/-- Half a tenth of a millisecond before the year 10000, as the import of a file with a
fraction of a millisecond leaves it. -/
def lateRows : Progress := ⟨[sampleAttempt 1 253402300799999908 true], []⟩

theorem late_rows_refused :
    msToDatetime (Binary64.rounded (2534023007999999 / 10)) = .ok 253402300799999908 ∧
      Held sampleImporter.maxSeconds plainIds lateRows ∧
      ¬Preserved sampleImporter 1 (fun place => place + 10) plainIds lateRows 1710000000123456 := by
  have held : Held sampleImporter.maxSeconds plainIds lateRows := by
    refine ⟨?_, fun b isIn => absurd isIn List.not_mem_nil, by decide⟩
    intro a isIn
    simp only [lateRows, List.mem_singleton] at isIn
    subst isIn
    exact heldAttempt_sample (by decide)
  exact ⟨by decide +kernel, held, not_preserved_of_late held (by decide) (by decide)⟩

end Counselle.Sat

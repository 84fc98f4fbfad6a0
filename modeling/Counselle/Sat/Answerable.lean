import Counselle.Fallible
import Counselle.Sat.Normalize

/-! Which questions the bank build accepts: when they are whole and can be answered, and
when something other than a refusal comes out. -/
namespace Counselle.Sat
open PyJson (JsonValue)
open PyText (PyError strip isSpace strip_ne_nil strip_eq_nil)

structure Answerable (casing : Casing) (question : SatQuestion) : Prop where
  stem : strip question.stem ≠ []
  options : question.itemType = .mcq → question.answerOptions.length = 4 ∧
    (question.answerOptions.map AnswerOption.label).Nodup ∧
    (∀ option ∈ question.answerOptions, option.label ∈ choiceLabels ∧ strip option.content ≠ []) ∧
    ∃ letter ∈ question.answerOptions.map AnswerOption.label, question.correctAnswers = [letter]
  keys : question.itemType = .spr → ∀ key ∈ question.correctAnswers,
    isCorrect casing question.itemType question.correctAnswers key = true

/-- The correct letter is at the position of `keys[0]` among the raw options. -/
def AtFirstKey (detail : Members) (question : SatQuestion) : Prop :=
  question.itemType = .mcq → ∃ key0 rest, ∃ index : Nat, ∃ option label,
    listOf (field detail "keys") = key0 :: rest ∧
    (listOf (field detail "answerOptions"))[index]? = some (JsonValue.dict option) ∧
    asStr (field option "id") = asStr key0 ∧ choiceLabels[index]? = some label ∧
    question.correctAnswers = [label]

/-- A refusal, or a question as `sound` wants it; no other exception. -/
def Guarded (sound : SatQuestion → Prop) : Normalized SatQuestion → Prop
  | .ok question => sound question
  | .error (.normalizeError _ _) => True
  | .error (.python _) => False

section Text

theorem isSpace_digit {c : Char} (digit : c.isDigit = true) : isSpace c = false := by
  have bounds : 48 ≤ c.toNat ∧ c.toNat ≤ 57 := by
    simpa [Char.isDigit, UInt32.le_iff_toNat_le] using digit
  simp only [isSpace, Bool.or_eq_false_iff, Bool.and_eq_false_iff, decide_eq_false_iff_not,
    beq_eq_false_iff_ne]
  omega

theorem mem_natText (n : Nat) : ∃ c ∈ (toString n).toList, isSpace c = false := by
  obtain ⟨c, isIn⟩ := List.exists_mem_of_ne_nil (Nat.toDigits 10 n) Nat.toDigits_ne_nil
  refine ⟨c, by simpa [Nat.toString_eq_ofList_toDigits] using isIn, isSpace_digit ?_⟩
  exact Nat.isDigit_of_mem_toDigits (by decide) (by decide) isIn

theorem mem_intText (n : Int) : ∃ c ∈ (toString n).toList, isSpace c = false := by
  cases n with
  | ofNat n => exact mem_natText n
  | negSucc n => exact ⟨'-', by simp [toString, Int.repr], by decide⟩

theorem mem_numeral {fixed : Prop} [Decidable fixed] (sign digits : List Char) (point exponent : Int) :
    ∃ c ∈ sign ++ (if fixed then PyNumber.pointed digits point
        else PyNumber.exponential digits exponent), isSpace c = false := by
  split
  · refine ⟨'.', List.mem_append_right _ ?_, by decide⟩
    simp only [PyNumber.pointed]
    split <;> simp
  · exact ⟨'e', List.mem_append_right _ (by simp [PyNumber.exponential]), by decide⟩

theorem mem_floatRepr (x : PyJson.PyFloat) : ∃ c ∈ PyNumber.floatRepr x, isSpace c = false := by
  cases x with
  | nan => exact ⟨'n', by decide, by decide⟩
  | infinite negative => exact ⟨'n', by cases negative <;> decide, by decide⟩
  | finite q =>
    simp only [PyNumber.floatRepr]
    by_cases zero : q = 0
    · rw [if_pos zero]
      exact ⟨'.', by decide, by decide⟩
    · rw [if_neg zero]
      exact mem_numeral _ _ _ _

theorem strip_asStr {value : JsonValue} (some : asStr value ≠ []) : strip (asStr value) ≠ [] := by
  cases value with
  | null => exact absurd rfl some
  | bool b => cases b <;> decide
  | int n =>
    obtain ⟨c, isIn, solid⟩ := mem_intText n
    exact strip_ne_nil isIn solid
  | float x =>
    obtain ⟨c, isIn, solid⟩ := mem_floatRepr x
    exact strip_ne_nil isIn solid
  | str s =>
    simp only [asStr] at some ⊢
    rwa [PyText.strip_strip]
  | list items => exact absurd rfl some
  | dict members => exact absurd rfl some

end Text

section Tail
variable {stub : Members} {questionId : List Char}

/-- Both dates of a stub are dates of the calendar, or no dates at all. -/
def TimesFit (stub : Members) : Prop :=
  (∃ created, epochMsToDatetime (field stub "createDate") = .ok created) ∧
    ∃ updated, epochMsToDatetime (field stub "updateDate") = .ok updated

/-- What the shared tail needs of an identified stub: a band that is not infinite and, once
band and difficulty are read, its dates and, for a band that is kept, content to be shown. -/
def TailFits (stub : Members) (questionId : List Char) (shown : Prop) : Prop :=
  ∀ uId, asUuid questionId "uId" (field stub "uId") = .ok (some uId) →
    toInt (field stub "score_band_range_cd") ≠ .error .overflowError ∧
    ∀ band, toInt (field stub "score_band_range_cd") = .ok band →
      ∀ difficulty, difficultyOf questionId (field stub "difficulty") = .ok difficulty →
        TimesFit stub ∧ (1 ≤ band → band ≤ 7 → shown)

theorem asUuid_cases (fieldName : String) (value : JsonValue) :
    (∃ id, asUuid questionId fieldName value = .ok id) ∨
      ∃ reason, asUuid questionId fieldName value = reject questionId reason := by
  cases value with
  | null => exact Or.inl ⟨none, rfl⟩
  | str s =>
    simp only [asUuid]
    split
    · exact Or.inl ⟨none, rfl⟩
    · split
      · exact Or.inl ⟨_, rfl⟩
      · exact Or.inr ⟨_, rfl⟩
  | _ => exact Or.inr ⟨_, rfl⟩

theorem difficultyOf_cases (value : JsonValue) :
    (∃ difficulty, difficultyOf questionId value = .ok difficulty) ∨
      ∃ reason, difficultyOf questionId value = reject questionId reason := by
  simp only [difficultyOf]
  split
  · exact Or.inl ⟨_, rfl⟩
  · split
    · exact Or.inl ⟨_, rfl⟩
    · split
      · exact Or.inl ⟨_, rfl⟩
      · exact Or.inr ⟨_, rfl⟩

theorem toInt_error {value : JsonValue} {e : PyError} (raised : toInt value = .error e) :
    e = .typeError ∨ e = .valueError ∨ e = .overflowError := by
  cases value with
  | float x =>
    cases x with
    | finite q => simp [toInt] at raised
    | infinite negative => exact Or.inr (Or.inr (Except.error.inj raised).symm)
    | nan => exact Or.inr (Or.inl (Except.error.inj raised).symm)
  | str s =>
    simp only [toInt] at raised
    split at raised
    · contradiction
    · exact Or.inr (Or.inl (Except.error.inj raised).symm)
  | bool b => simp [toInt] at raised
  | int n => simp [toInt] at raised
  | _ => exact Or.inl (Except.error.inj raised).symm

theorem asInt_cases (fieldName : String) (value : JsonValue) :
    (∃ n, toInt value = .ok n ∧ asInt questionId fieldName value = .ok n) ∨
      (toInt value = .error .overflowError ∧
        asInt questionId fieldName value = .error (.python .overflowError)) ∨
      ((∀ n, toInt value ≠ .ok n) ∧ toInt value ≠ .error .overflowError ∧
        ∃ reason, asInt questionId fieldName value = reject questionId reason) := by
  cases read : toInt value with
  | ok n => exact Or.inl ⟨n, rfl, by simp [asInt, read]⟩
  | error e =>
    obtain rfl | rfl | rfl := toInt_error read
    · exact Or.inr (Or.inr ⟨nofun, nofun, _, by simp only [asInt, read]; rfl⟩)
    · exact Or.inr (Or.inr ⟨nofun, nofun, _, by simp only [asInt, read]; rfl⟩)
    · exact Or.inr (Or.inl ⟨rfl, by simp [asInt, read]⟩)

theorem build_guarded_iff {contentSha256 : QuestionContent → String} {externalId : Option Nat}
    {ibn : Option (List Char)} {source : Source} {inBluebook : Bool} {content : QuestionContent}
    {sound : SatQuestion → Prop} {shown : Prop} (identified : externalId.isNone ≠ ibn.isNone)
    (answers : content.correctAnswers ≠ [])
    (sound_iff : ∀ question : SatQuestion, question.itemType = content.itemType →
      question.stem = content.stem → question.answerOptions = content.answerOptions →
      question.correctAnswers = content.correctAnswers → (sound question ↔ shown)) :
    Guarded sound (buildSatQuestion contentSha256 questionId stub externalId ibn source inBluebook
      content) ↔ TailFits stub questionId shown := by
  obtain ⟨uId, uuid⟩ | ⟨reason, uuid⟩ := @asUuid_cases questionId "uId" (field stub "uId")
  case inr =>
    simp only [buildSatQuestion, uuid]
    exact iff_of_true trivial fun _ same => by rw [uuid] at same; contradiction
  cases uId with
  | none =>
    simp only [buildSatQuestion, uuid]
    exact iff_of_true trivial fun _ same => by simp [uuid] at same
  | some uId =>
  obtain ⟨band, read, int⟩ | ⟨read, int⟩ | ⟨unread, finite, reason, int⟩ :=
    @asInt_cases questionId "score_band_range_cd" (field stub "score_band_range_cd")
  case inr.inl =>
    simp only [buildSatQuestion, uuid, int]
    exact iff_of_false id fun fits => (fits uId uuid).1 read
  case inr.inr =>
    simp only [buildSatQuestion, uuid, int]
    exact iff_of_true trivial fun _ _ => ⟨finite, fun band read => absurd read (unread band)⟩
  obtain ⟨difficulty, graded⟩ | ⟨reason, graded⟩ :=
    @difficultyOf_cases questionId (field stub "difficulty")
  case inr =>
    simp only [buildSatQuestion, uuid, int, graded]
    refine iff_of_true trivial fun _ _ => ⟨by simp [read], fun _ _ _ same => ?_⟩
    rw [graded] at same
    contradiction
  cases created : epochMsToDatetime (field stub "createDate") with
  | error e =>
    simp only [buildSatQuestion, uuid, int, graded, created]
    refine iff_of_false id fun fits => ?_
    obtain ⟨_, same⟩ := ((fits uId uuid).2 band read difficulty graded).1.1
    rw [created] at same
    contradiction
  | ok createdAt =>
  cases updated : epochMsToDatetime (field stub "updateDate") with
  | error e =>
    simp only [buildSatQuestion, uuid, int, graded, created, updatedAt, updated]
    refine iff_of_false id fun fits => ?_
    obtain ⟨_, same⟩ := ((fits uId uuid).2 band read difficulty graded).1.2
    rw [updated] at same
    contradiction
  | ok updatedAt_ =>
  have fits_iff : TailFits stub questionId shown ↔ (1 ≤ band → band ≤ 7 → shown) := by
    constructor
    · exact fun fits => ((fits uId uuid).2 band read difficulty graded).2
    · intro kept _ _
      refine ⟨by simp [read], fun band' read' _ _ => ⟨⟨⟨_, created⟩, _, updated⟩, ?_⟩⟩
      cases read.symm.trans read'
      exact kept
  rw [fits_iff]
  simp only [buildSatQuestion, uuid, int, graded, created, updatedAt, updated]
  simp only [bind, Except.bind, unguarded, Except.mapError, Except.map]
  by_cases kept : 1 ≤ band ∧ band ≤ 7
  · rw [if_pos (by simp [SatQuestion.isValid, kept, answers, identified])]
    exact (sound_iff _ rfl rfl rfl rfl).trans ⟨fun here _ _ => here, fun here => here kept.1 kept.2⟩
  · rw [if_neg (by simp only [SatQuestion.isValid, Bool.and_eq_true, decide_eq_true_eq]; tauto)]
    exact iff_of_true trivial fun low high => absurd ⟨low, high⟩ kept

theorem moduleFromStub_cases : (∃ module, moduleFromStub stub questionId = .ok module) ∨
    moduleFromStub stub questionId = reject questionId .noModule := by
  simp only [moduleFromStub]
  repeat' split
  · exact Or.inl ⟨_, rfl⟩
  · exact Or.inl ⟨_, rfl⟩
  · exact Or.inl ⟨_, rfl⟩
  · exact Or.inl ⟨_, rfl⟩
  · exact Or.inr rfl

theorem idsFromStub_cases : (∃ externalId ibn, idsFromStub stub questionId = .ok (externalId, ibn) ∧
      externalId.isNone ≠ ibn.isNone) ∨
    ∃ reason, idsFromStub stub questionId = reject questionId reason := by
  obtain ⟨id, uuid⟩ | ⟨reason, uuid⟩ :=
    @asUuid_cases questionId "external_id" (field stub "external_id")
  · simp only [idsFromStub, uuid, bind, Except.bind]
    split
    next => exact Or.inr ⟨_, rfl⟩
    next one => exact Or.inl ⟨_, _, rfl, one⟩
  · simp only [idsFromStub, uuid]
    exact Or.inr ⟨reason, rfl⟩

end Tail

section Qbank
variable (casing : Casing)

/-- The text and options of a question bank item that can be shown: a reading stem is not
the stimulus over again, and the first four raw options are objects with a text. -/
def QbankShown (module : Module) (detail : Members) : Prop :=
  (module = .reading → ∀ s, field detail "stimulus" = .str s →
    strip s.toList ≠ strip (asStr (field detail "stem"))) ∧
  (qbankItemType casing detail = .mcq → ∀ index < 4, ∃ option,
    (listOf (field detail "answerOptions"))[index]? = some (JsonValue.dict option) ∧
    asStr (field option "content") ≠ [])

variable {casing}

theorem splice_solid {module : Module} {detail : Members} (stem : asStr (field detail "stem") ≠ []) :
    strip (spliceQbankStimulusStem module (asStr (field detail "stem")) (field detail "stimulus")).1 ≠ [] ↔
      (module = .reading → ∀ s, field detail "stimulus" = .str s →
        strip s.toList ≠ strip (asStr (field detail "stem"))) := by
  have solid := strip_asStr stem
  generalize asStr (field detail "stem") = text at solid
  generalize field detail "stimulus" = raw
  obtain ⟨c, isIn, dark⟩ : ∃ c ∈ text, isSpace c = false := by
    simpa [strip_eq_nil] using solid
  have plain : ∀ s : String, strip s.toList = [] → strip s.toList ≠ strip text := by
    intro s blank same
    exact solid (same ▸ blank)
  cases module with
  | math =>
    refine iff_of_true ?_ nofun
    simp only [spliceQbankStimulusStem]
    split
    · exact strip_ne_nil (List.mem_append_right _ (List.mem_cons_of_mem _ isIn)) dark
    · exact solid
    all_goals contradiction
  | reading =>
    cases raw with
    | str s =>
      simp only [spliceQbankStimulusStem]
      by_cases blank : strip s.toList = []
      · simp only [blank, if_true]
        exact iff_of_true solid fun _ t same => by cases same; exact plain s blank
      · simp only [blank, if_false]
        by_cases leads : (strip s.toList).isPrefixOf (strip text) = true
        · rw [if_pos leads]
          obtain ⟨rest, whole⟩ := List.isPrefixOf_iff_prefix.mp leads
          have left : strip ((strip text).drop (strip s.toList).length) = strip rest := by
            rw [← whole, List.drop_left]
          rw [PyText.strip_strip, left]
          constructor
          · rintro some - t same equal
            cases same
            have none : rest = [] := List.self_eq_append_right.mp (equal.trans whole.symm)
            exact some (by rw [none]; rfl)
          · intro differs blank
            have none := PyText.strip_end whole.symm (strip_eq_nil.mp blank)
            exact differs trivial s rfl (by rw [← whole, none, List.append_nil])
        · rw [if_neg leads]
          refine iff_of_true solid fun _ t same => ?_
          cases same
          rintro equal
          exact leads (by simp [equal])
    | _ => exact iff_of_true solid nofun

theorem qbankLabel_mem {index : Nat} : qbankLabel index ∈ choiceLabels ↔ index < 4 := by
  constructor
  · intro isIn
    by_contra far
    have beyond : choiceLabels[index]? = none := List.getElem?_eq_none (by simpa [choiceLabels] using far)
    simp only [qbankLabel, beyond, Option.getD_none] at isIn
    obtain ⟨c, first, digit⟩ : ∃ c, c ∈ (toString (index + 1)).toList ∧ c.isDigit = true := by
      obtain ⟨c, isIn⟩ := List.exists_mem_of_ne_nil (Nat.toDigits 10 (index + 1)) Nat.toDigits_ne_nil
      exact ⟨c, by simpa [Nat.toString_eq_ofList_toDigits] using isIn,
        Nat.isDigit_of_mem_toDigits (by decide) (by decide) isIn⟩
    have letters : ∀ label ∈ choiceLabels, ∀ c ∈ label, c.isDigit = false := by simp [choiceLabels]
    exact absurd digit (by simp [letters _ isIn c first])
  · intro near
    have all : ∀ index < 4, qbankLabel index ∈ choiceLabels := by decide
    exact all index near

def optionAt (entry : JsonValue × Nat) : Option AnswerOption :=
  match entry.1 with
  | .dict members => some ⟨qbankLabel entry.2, asStr (field members "content")⟩
  | _ => none

theorem qbankAnswerOptions_eq (rawOptions : List JsonValue) :
    qbankAnswerOptions rawOptions = rawOptions.zipIdx.filterMap optionAt := rfl

theorem optionAt_some {entry : JsonValue × Nat} {option : AnswerOption} (made : optionAt entry = some option) :
    ∃ members, entry.1 = .dict members ∧ option.label = qbankLabel entry.2 ∧
      option.content = asStr (field members "content") := by
  obtain ⟨value, index⟩ := entry
  cases value with
  | dict members =>
    cases made
    exact ⟨members, rfl, rfl, rfl⟩
  | _ => contradiction

theorem qbankOptions_iff {rawOptions : List JsonValue}
    (four : (qbankAnswerOptions rawOptions).length = 4) :
    (((qbankAnswerOptions rawOptions).map AnswerOption.label).Nodup ∧
      ∀ option ∈ qbankAnswerOptions rawOptions, option.label ∈ choiceLabels ∧ strip option.content ≠ []) ↔
    ∀ index < 4, ∃ option, rawOptions[index]? = some (JsonValue.dict option) ∧
      asStr (field option "content") ≠ [] := by
  rw [qbankAnswerOptions_eq] at four ⊢
  have enough : 4 ≤ rawOptions.length := by
    have fewer := List.length_filterMap_le optionAt rawOptions.zipIdx
    rw [four, List.length_zipIdx] at fewer
    exact fewer
  obtain ⟨first, later, rfl, count⟩ : ∃ first later, rawOptions = first ++ later ∧ first.length = 4 :=
    ⟨rawOptions.take 4, rawOptions.drop 4, (List.take_append_drop 4 rawOptions).symm, by simpa using enough⟩
  rw [List.zipIdx_append, List.filterMap_append] at four ⊢
  simp only [count, Nat.zero_add] at four ⊢
  have firstLength : first.zipIdx.length = 4 := by rw [List.length_zipIdx, count]
  constructor
  · rintro ⟨-, each⟩ index near
    have none : (later.zipIdx 4).filterMap optionAt = [] := by
      apply List.eq_nil_iff_forall_not_mem.mpr
      intro option isIn
      obtain ⟨⟨value, i⟩, there, made⟩ := List.mem_filterMap.mp isIn
      obtain ⟨_, _, label, _⟩ := optionAt_some made
      have lettered := (each option (List.mem_append_right _ isIn)).1
      rw [label, qbankLabel_mem] at lettered
      have far := List.le_snd_of_mem_zipIdx there
      simp only at lettered far
      omega
    rw [none, List.append_nil] at four each
    have all := List.filterMap_length_eq_length.mp (four.trans firstLength.symm)
    have inside : index < first.length := by omega
    have entry : (first[index], index) ∈ first.zipIdx := by
      simp [List.mem_zipIdx_iff_getElem?]
    obtain ⟨option, made⟩ := Option.isSome_iff_exists.mp (all _ entry)
    obtain ⟨members, value, _, content⟩ := optionAt_some made
    have texted := (each option (List.mem_filterMap.mpr ⟨_, entry, made⟩)).2
    refine ⟨members, ?_, fun blank => texted ?_⟩
    · rw [List.getElem?_append_left inside, List.getElem?_eq_getElem inside, ← value]
    · rw [content, blank]
      rfl
  · intro near
    obtain ⟨a, b, c, d, rfl⟩ : ∃ a b c d, first = [a, b, c, d] := by
      match first, count with
      | [a, b, c, d], _ => exact ⟨a, b, c, d, rfl⟩
    obtain ⟨a', rfl, aText⟩ : ∃ option, a = .dict option ∧ _ := by simpa using near 0 (by decide)
    obtain ⟨b', rfl, bText⟩ : ∃ option, b = .dict option ∧ _ := by simpa using near 1 (by decide)
    obtain ⟨c', rfl, cText⟩ : ∃ option, c = .dict option ∧ _ := by simpa using near 2 (by decide)
    obtain ⟨d', rfl, dText⟩ : ∃ option, d = .dict option ∧ _ := by simpa using near 3 (by decide)
    have none : (later.zipIdx 4).filterMap optionAt = [] := by
      simpa [optionAt] using four
    rw [none]
    constructor
    · simp [optionAt, qbankLabel, choiceLabels]
    · simp [optionAt, qbankLabel, choiceLabels, strip_asStr, aText, bText, cText, dText]

theorem qbankMcq_cases (questionId : List Char) (rawCorrect rawOptions : List JsonValue)
    (options : List AnswerOption) (rawKeys : List JsonValue) :
    (∃ letter key0 rest, qbankMcqCorrectAnswers casing questionId rawCorrect rawOptions options rawKeys =
        .ok [letter] ∧ options.length = 4 ∧ letter ∈ options.map AnswerOption.label ∧
        rawKeys = key0 :: rest ∧ (keyPositions rawOptions).lookup (asStr key0) = some letter) ∨
      ∃ reason, qbankMcqCorrectAnswers casing questionId rawCorrect rawOptions options rawKeys =
        reject questionId reason := by
  simp only [qbankMcqCorrectAnswers]
  split
  next => exact Or.inr ⟨_, rfl⟩
  next four =>
    split
    next letter _ =>
      split
      next => exact Or.inr ⟨_, rfl⟩
      next among =>
        cases rawKeys with
        | nil => exact Or.inr ⟨_, rfl⟩
        | cons key0 rest =>
          cases found : (keyPositions rawOptions).lookup (asStr key0) with
          | none => exact Or.inr ⟨_, by simp only [found]; rfl⟩
          | some keyLetter =>
            simp only [found]
            split
            next => exact Or.inr ⟨_, rfl⟩
            next same =>
              rw [not_not] at same four among
              exact Or.inl ⟨letter, key0, rest, rfl, four, among, rfl, same ▸ found⟩
    next => exact Or.inr ⟨_, rfl⟩

theorem keyPositions_some {rawOptions : List JsonValue} {key letter : List Char}
    (found : (keyPositions rawOptions).lookup key = some letter) :
    ∃ index : Nat, ∃ option, rawOptions[index]? = some (JsonValue.dict option) ∧
      asStr (field option "id") = key ∧ choiceLabels[index]? = some letter := by
  have isIn : (key, letter) ∈ keyPositions rawOptions := by
    obtain ⟨before, after, whole, _⟩ := List.lookup_eq_some_iff.mp found
    rw [whole]
    exact List.mem_append_right _ List.mem_cons_self
  simp only [keyPositions, List.mem_reverse, List.mem_filterMap] at isIn
  obtain ⟨⟨value, index⟩, there, made⟩ := isIn
  cases value with
  | dict members =>
    cases label : choiceLabels[index]? with
    | none => simp [label] at made
    | some label' =>
      simp only [label, Option.some.injEq, Prod.mk.injEq] at made
      obtain ⟨rfl, rfl⟩ := made
      exact ⟨index, members, List.mem_zipIdx_iff_getElem?.mp there, rfl, label⟩
  | _ => simp at made

theorem fromKeys_ne_nil {values : List (List Char)} (some : values ≠ []) : fromKeys values ≠ [] := by
  obtain ⟨value, isIn⟩ := List.exists_mem_of_ne_nil values some
  apply List.ne_nil_of_mem (a := value)
  simp [fromKeys, isIn]

theorem qbankAnswers_cases (questionId : List Char) (detail : Members)
    (sprAdditions : List (List Char)) :
    (∃ answers, qbankCorrectAnswers casing questionId detail sprAdditions = .ok answers ∧ answers ≠ [] ∧
      (qbankItemType casing detail = .mcq →
        (qbankAnswerOptions (listOf (field detail "answerOptions"))).length = 4 ∧
        (∃ letter ∈ (qbankAnswerOptions (listOf (field detail "answerOptions"))).map AnswerOption.label,
          answers = [letter]) ∧
        ∃ key0 rest, ∃ index : Nat, ∃ option label, listOf (field detail "keys") = key0 :: rest ∧
          (listOf (field detail "answerOptions"))[index]? = some (JsonValue.dict option) ∧
          asStr (field option "id") = asStr key0 ∧ choiceLabels[index]? = some label ∧
          answers = [label])) ∨
      ∃ reason, qbankCorrectAnswers casing questionId detail sprAdditions = reject questionId reason := by
  cases type : qbankItemType casing detail with
  | mcq =>
    simp only [qbankCorrectAnswers, type]
    obtain ⟨letter, key0, rest, answered, four, among, keys, found⟩ | refused :=
      @qbankMcq_cases casing questionId (listOf (field detail "correct_answer"))
        (listOf (field detail "answerOptions"))
        (qbankAnswerOptions (listOf (field detail "answerOptions"))) (listOf (field detail "keys"))
    · obtain ⟨index, option, there, id, label⟩ := keyPositions_some found
      exact Or.inl ⟨[letter], answered, List.cons_ne_nil _ _, fun _ => ⟨four, ⟨letter, among, rfl⟩,
        key0, rest, index, option, letter, keys, there, id, label, rfl⟩⟩
    · exact Or.inr refused
  | spr =>
    simp only [qbankCorrectAnswers, type, qbankSprCorrectAnswers]
    split
    next => exact Or.inr ⟨_, rfl⟩
    next some =>
      exact Or.inl ⟨_, rfl, fromKeys_ne_nil (by simp [some]), nofun⟩

variable (casing)

/-- The inputs on which `normalize_qbank` does not go wrong: a stub that is an object, and
once its checks are passed, a band, dates and content that fit. -/
def QbankFits (stub detail : JsonValue) (sprAdditions : List (List Char)) : Prop :=
  ∃ members, stub = .dict members ∧ ∀ questionId, asStr (field members "questionId") = questionId →
    questionId ≠ [] → ∀ item, detail = .dict item →
    ∀ module, moduleFromStub members questionId = .ok module → asStr (field item "stem") ≠ [] →
    ∀ answers, qbankCorrectAnswers casing questionId item sprAdditions = .ok answers →
    ∀ ids, idsFromStub members questionId = .ok ids →
      TailFits members questionId (QbankShown casing module item)

def QbankSound (detail : JsonValue) (question : SatQuestion) : Prop :=
  Answerable casing question ∧ ∀ item, detail = .dict item → AtFirstKey item question

variable {casing}

theorem qbankSound_iff {module : Module} {item : Members} {question : SatQuestion}
    {answers : List (List Char)} (stem : asStr (field item "stem") ≠ [])
    (type : question.itemType = qbankItemType casing item)
    (spliced : question.stem =
      (spliceQbankStimulusStem module (asStr (field item "stem")) (field item "stimulus")).1)
    (options : question.answerOptions = qbankAnswerOptions (listOf (field item "answerOptions")))
    (correct : question.correctAnswers = answers)
    (choice : qbankItemType casing item = .mcq →
      (qbankAnswerOptions (listOf (field item "answerOptions"))).length = 4 ∧
      (∃ letter ∈ (qbankAnswerOptions (listOf (field item "answerOptions"))).map AnswerOption.label,
        answers = [letter]) ∧
      ∃ key0 rest, ∃ index : Nat, ∃ option label, listOf (field item "keys") = key0 :: rest ∧
        (listOf (field item "answerOptions"))[index]? = some (JsonValue.dict option) ∧
        asStr (field option "id") = asStr key0 ∧ choiceLabels[index]? = some label ∧
        answers = [label]) :
    QbankSound casing (.dict item) question ↔ QbankShown casing module item := by
  constructor
  · rintro ⟨answerable, -⟩
    refine ⟨(splice_solid stem).mp (spliced ▸ answerable.stem), fun mcq => ?_⟩
    obtain ⟨_, distinct, each, _⟩ := answerable.options (type.trans mcq)
    rw [options] at distinct each
    exact (qbankOptions_iff (choice mcq).1).mp ⟨distinct, each⟩
  · rintro ⟨apart, near⟩
    refine ⟨⟨?_, fun mcq => ?_, fun _ key isIn => isCorrect_key casing _ isIn⟩, ?_⟩
    · rw [spliced]
      exact (splice_solid stem).mpr apart
    · have mcq := type.symm.trans mcq
      obtain ⟨four, lettered, _⟩ := choice mcq
      obtain ⟨distinct, each⟩ := (qbankOptions_iff four).mpr (near mcq)
      rw [options, correct]
      exact ⟨four, distinct, each, lettered⟩
    · rintro _ same mcq
      cases same
      rw [correct]
      exact (choice (type.symm.trans mcq)).2.2

theorem normalizeQbank_guarded_iff (contentSha256 : QuestionContent → String) (stub detail : JsonValue)
    (liveExternalIds sprAdditions : List (List Char)) :
    Guarded (QbankSound casing detail)
      (normalizeQbank casing contentSha256 stub detail liveExternalIds sprAdditions) ↔
    QbankFits casing stub detail sprAdditions := by
  cases stub with
  | dict members =>
    by_cases unnamed : asStr (field members "questionId") = []
    · simp only [normalizeQbank, questionIdOf, unnamed, if_true]
      refine iff_of_true trivial ⟨members, rfl, fun questionId same named => ?_⟩
      exact absurd (same ▸ unnamed) named
    generalize read : asStr (field members "questionId") = questionId at unnamed
    cases detail with
    | dict item =>
      have fits_iff : QbankFits casing (.dict members) (.dict item) sprAdditions ↔
          (∀ module, moduleFromStub members questionId = .ok module → asStr (field item "stem") ≠ [] →
            ∀ answers, qbankCorrectAnswers casing questionId item sprAdditions = .ok answers →
            ∀ ids, idsFromStub members questionId = .ok ids →
              TailFits members questionId (QbankShown casing module item)) := by
        constructor
        · rintro ⟨_, same, fits⟩
          cases same
          exact fits questionId read unnamed item rfl
        · intro fits
          refine ⟨members, rfl, ?_⟩
          rintro _ rfl _ _ same
          cases same
          rw [read]
          exact fits
      rw [fits_iff]
      obtain ⟨module, placed⟩ | placed := @moduleFromStub_cases members questionId
      case inr =>
        conv_lhs => simp only [normalizeQbank, questionIdOf, read, unnamed, if_false, objectOf, bind,
          Except.bind, placed]
        exact iff_of_true trivial fun _ same => by rw [placed] at same; contradiction
      by_cases blank : asStr (field item "stem") = []
      · conv_lhs => simp only [normalizeQbank, questionIdOf, read, unnamed, if_false, objectOf, bind,
          Except.bind, placed, blank, if_true]
        exact iff_of_true trivial fun _ _ some => absurd blank some
      obtain ⟨answers, answered, some, choice⟩ | ⟨reason, refused⟩ :=
        @qbankAnswers_cases casing questionId item sprAdditions
      case inr =>
        conv_lhs => simp only [normalizeQbank, questionIdOf, read, unnamed, if_false, objectOf, bind,
          Except.bind, placed, blank, refused]
        exact iff_of_true trivial fun _ _ _ _ same => by rw [refused] at same; contradiction
      obtain ⟨externalId, ibn, ids, identified⟩ | ⟨reason, ids⟩ :=
        @idsFromStub_cases members questionId
      case inr =>
        conv_lhs => simp only [normalizeQbank, questionIdOf, read, unnamed, if_false, objectOf, bind,
          Except.bind, placed, blank, answered, ids]
        exact iff_of_true trivial fun _ _ _ _ _ _ same => by rw [ids] at same; contradiction
      conv_lhs => simp only [normalizeQbank, questionIdOf, read, unnamed, if_false, objectOf, bind,
        Except.bind, placed, blank, answered, ids]
      refine (@build_guarded_iff _ _ _ _ _ _ _ _ _ (QbankShown casing module item) identified some ?_).trans ?_
      · intro question type stem options correct
        exact qbankSound_iff blank type stem options correct choice
      · constructor
        · intro fits module' same _ _ _ _ _
          cases placed.symm.trans same
          exact fits
        · exact fun fits => fits module placed blank answers answered _ ids
    | _ =>
      simp only [normalizeQbank, questionIdOf, read, unnamed, if_false]
      exact iff_of_true trivial ⟨members, rfl, fun _ _ _ _ same => by simp at same⟩
  | _ =>
    refine iff_of_false id ?_
    rintro ⟨_, same, _⟩
    contradiction

end Qbank

section Disclosed
variable (casing : Casing)

def entryLabel (entry : (Option (List Char) × JsonValue) × Nat) : List Char :=
  disclosedLabel casing entry.1.1 entry.2

def entryContent (entry : (Option (List Char) × JsonValue) × Nat) : List Char :=
  disclosedContent entry.1.2

/-- The choices with a text come under different letters of A to D, by their keys or by
their places. -/
def DisclosedShown (answer : Members) : Prop :=
  isDisclosedMcq casing answer = true →
    ((disclosedEntries (field answer "choices")).zipIdx.Pairwise fun first second =>
      entryContent first ≠ [] → entryContent second ≠ [] →
        entryLabel casing first ≠ entryLabel casing second) ∧
    ∀ entry ∈ (disclosedEntries (field answer "choices")).zipIdx, entryContent entry ≠ [] →
      entryLabel casing entry ∈ choiceLabels

variable {casing}

theorem strip_disclosedContent {value : JsonValue} (some : disclosedContent value ≠ []) :
    strip (disclosedContent value) ≠ [] := by
  cases value with
  | str s =>
    simp only [disclosedContent] at some ⊢
    rwa [PyText.strip_strip]
  | dict members => exact strip_asStr some
  | _ => exact absurd rfl some

theorem disclosedOptions_eq (choices : JsonValue) : disclosedOptions casing choices =
    (disclosedEntries choices).zipIdx.filterMap fun entry =>
      if entryContent entry = [] then none else some ⟨entryLabel casing entry, entryContent entry⟩ :=
  rfl

theorem disclosedOptions_iff (choices : JsonValue) :
    (((disclosedOptions casing choices).map AnswerOption.label).Nodup ∧
      ∀ option ∈ disclosedOptions casing choices,
        option.label ∈ choiceLabels ∧ strip option.content ≠ []) ↔
    ((disclosedEntries choices).zipIdx.Pairwise fun first second =>
      entryContent first ≠ [] → entryContent second ≠ [] →
        entryLabel casing first ≠ entryLabel casing second) ∧
    ∀ entry ∈ (disclosedEntries choices).zipIdx, entryContent entry ≠ [] →
      entryLabel casing entry ∈ choiceLabels := by
  rw [disclosedOptions_eq]
  apply and_congr
  · rw [List.Nodup, List.pairwise_map, List.pairwise_filterMap]
    apply iff_of_eq
    congr 1
    funext first second
    by_cases blank : entryContent first = [] <;> by_cases other : entryContent second = [] <;>
      simp [blank, other]
  · constructor
    · intro each entry isIn some
      exact (each ⟨entryLabel casing entry, entryContent entry⟩
        (List.mem_filterMap.mpr ⟨entry, isIn, if_neg some⟩)).1
    · intro each option isIn
      obtain ⟨entry, there, made⟩ := List.mem_filterMap.mp isIn
      simp only [Option.ite_none_left_eq_some, Option.some.injEq] at made
      obtain ⟨some, rfl⟩ := made
      exact ⟨each entry there some, strip_disclosedContent some⟩

theorem disclosedAnswer_cases (questionId : List Char) (answer : Members)
    (reviewedSprKeys : Option (List (List Char))) :
    (∃ itemType options answers, disclosedAnswer casing questionId answer reviewedSprKeys =
        .ok (itemType, options, answers) ∧ answers ≠ [] ∧
      (itemType = .mcq ↔ isDisclosedMcq casing answer = true) ∧
      (itemType = .mcq → options = disclosedOptions casing (field answer "choices") ∧
        options.length = 4 ∧ ∃ letter ∈ options.map AnswerOption.label, answers = [letter])) ∨
      ∃ reason, disclosedAnswer casing questionId answer reviewedSprKeys = reject questionId reason := by
  simp only [disclosedAnswer]
  split
  next mcq =>
    split
    next => exact Or.inr ⟨_, rfl⟩
    next four =>
      rw [not_not] at four
      simp only [disclosedMcqCorrectAnswers]
      split
      next letter _ =>
        split
        next => exact Or.inr ⟨_, rfl⟩
        next among =>
          rw [not_not] at among
          exact Or.inl ⟨.mcq, _, [letter], rfl, List.cons_ne_nil _ _, by simp [mcq],
            fun _ => ⟨rfl, four, letter, among, rfl⟩⟩
      next => exact Or.inr ⟨_, rfl⟩
  next free =>
    split
    next => exact Or.inr ⟨_, rfl⟩
    next => exact Or.inr ⟨_, rfl⟩
    next _ keys some =>
      exact Or.inl ⟨.spr, [], keys, rfl, fun none => some none, by simp [free], nofun⟩

theorem disclosed_stem_solid {module : Module} {item : Members}
    (some : (spliceDisclosedStimulusStem module (asStr (field item "body"))
      (asStr (field item "prompt"))).1 ≠ []) :
    strip (spliceDisclosedStimulusStem module (asStr (field item "body"))
      (asStr (field item "prompt"))).1 ≠ [] := by
  have either : ∀ combined, (if asStr (field item "prompt") = [] then asStr (field item "body")
      else asStr (field item "prompt")) = combined → combined ≠ [] → strip combined ≠ [] := by
    rintro _ rfl some
    by_cases blank : asStr (field item "prompt") = []
    · simp only [blank, if_true] at some ⊢
      exact strip_asStr some
    · rw [if_neg blank]
      exact strip_asStr blank
  cases module with
  | math =>
    simp only [spliceDisclosedStimulusStem] at some ⊢
    split at some
    next combine =>
      obtain ⟨c, isIn, dark⟩ : ∃ c ∈ asStr (field item "body"), isSpace c = false := by
        simpa [strip_eq_nil] using strip_asStr combine.1
      rw [if_pos combine]
      exact strip_ne_nil (List.mem_append_left _ isIn) dark
    next apart =>
      rw [if_neg apart]
      exact either _ rfl some
  | reading =>
    simp only [spliceDisclosedStimulusStem] at some ⊢
    split at some
    next combine =>
      rw [if_pos combine]
      exact strip_asStr combine.2.1
    next apart =>
      rw [if_neg apart]
      exact either _ rfl some

variable (casing)

/-- The inputs on which `normalize_disclosed` does not go wrong. -/
def DisclosedFits (stub item : JsonValue) (reviewedSprKeys : Option (List (List Char))) : Prop :=
  ∃ members, stub = .dict members ∧ ∀ questionId, asStr (field members "questionId") = questionId →
    questionId ≠ [] → ∀ entry, item = .dict entry →
    ∀ module, moduleFromStub members questionId = .ok module →
    (spliceDisclosedStimulusStem module (asStr (field entry "body")) (asStr (field entry "prompt"))).1 ≠ [] →
    ∀ built, disclosedAnswer casing questionId (answerOf entry) reviewedSprKeys = .ok built →
    ∀ ids, idsFromStub members questionId = .ok ids →
      TailFits members questionId (DisclosedShown casing (answerOf entry))

variable {casing}

theorem normalizeDisclosed_guarded_iff (contentSha256 : QuestionContent → String)
    (stub item : JsonValue) (reviewedSprKeys : Option (List (List Char))) :
    Guarded (Answerable casing) (normalizeDisclosed casing contentSha256 stub item reviewedSprKeys) ↔
    DisclosedFits casing stub item reviewedSprKeys := by
  cases stub with
  | dict members =>
    by_cases unnamed : asStr (field members "questionId") = []
    · simp only [normalizeDisclosed, questionIdOf, unnamed, if_true]
      refine iff_of_true trivial ⟨members, rfl, fun questionId same named => ?_⟩
      exact absurd (same ▸ unnamed) named
    generalize read : asStr (field members "questionId") = questionId at unnamed
    cases item with
    | dict entry =>
      have fits_iff : DisclosedFits casing (.dict members) (.dict entry) reviewedSprKeys ↔
          (∀ module, moduleFromStub members questionId = .ok module →
            (spliceDisclosedStimulusStem module (asStr (field entry "body"))
              (asStr (field entry "prompt"))).1 ≠ [] →
            ∀ built, disclosedAnswer casing questionId (answerOf entry) reviewedSprKeys = .ok built →
            ∀ ids, idsFromStub members questionId = .ok ids →
              TailFits members questionId (DisclosedShown casing (answerOf entry))) := by
        constructor
        · rintro ⟨_, same, fits⟩
          cases same
          exact fits questionId read unnamed entry rfl
        · intro fits
          refine ⟨members, rfl, ?_⟩
          rintro _ rfl _ _ same
          cases same
          rw [read]
          exact fits
      rw [fits_iff]
      obtain ⟨module, placed⟩ | placed := @moduleFromStub_cases members questionId
      case inr =>
        conv_lhs => simp only [normalizeDisclosed, questionIdOf, read, unnamed, if_false, objectOf, bind,
          Except.bind, placed]
        exact iff_of_true trivial fun _ same => by rw [placed] at same; contradiction
      by_cases blank : (spliceDisclosedStimulusStem module (asStr (field entry "body"))
          (asStr (field entry "prompt"))).1 = []
      · conv_lhs => simp only [normalizeDisclosed, questionIdOf, read, unnamed, if_false, objectOf, bind,
          Except.bind, placed, blank, if_true]
        refine iff_of_true trivial fun module' same some => ?_
        cases placed.symm.trans same
        exact absurd blank some
      obtain ⟨itemType, options, answers, built, some, mcq_iff, choice⟩ | ⟨reason, refused⟩ :=
        @disclosedAnswer_cases casing questionId (answerOf entry) reviewedSprKeys
      case inr =>
        conv_lhs => simp only [normalizeDisclosed, questionIdOf, read, unnamed, if_false, objectOf, bind,
          Except.bind, placed, blank, refused]
        exact iff_of_true trivial fun _ _ _ _ same => by rw [refused] at same; contradiction
      obtain ⟨externalId, ibn, ids, identified⟩ | ⟨reason, ids⟩ :=
        @idsFromStub_cases members questionId
      case inr =>
        conv_lhs => simp only [normalizeDisclosed, questionIdOf, read, unnamed, if_false, objectOf, bind,
          Except.bind, placed, blank, built, ids]
        exact iff_of_true trivial fun _ _ _ _ _ _ same => by rw [ids] at same; contradiction
      conv_lhs => simp only [normalizeDisclosed, questionIdOf, read, unnamed, if_false, objectOf, bind,
        Except.bind, placed, blank, built, ids]
      refine (@build_guarded_iff _ _ _ _ _ _ _ _ _ (DisclosedShown casing (answerOf entry)) identified some ?_).trans ?_
      · intro question type stem shown correct
        constructor
        · intro answerable mcq
          have chosen := mcq_iff.mpr mcq
          obtain ⟨rfl, _, _⟩ := choice chosen
          obtain ⟨_, distinct, each, _⟩ := answerable.options (type.trans chosen)
          rw [shown] at distinct each
          exact (disclosedOptions_iff _).mp ⟨distinct, each⟩
        · intro fits
          refine ⟨stem ▸ disclosed_stem_solid blank, fun mcq => ?_,
            fun _ key isIn => isCorrect_key casing _ isIn⟩
          have chosen := type.symm.trans mcq
          obtain ⟨rfl, four, lettered⟩ := choice chosen
          obtain ⟨distinct, each⟩ := (disclosedOptions_iff _).mpr (fits (mcq_iff.mp chosen))
          rw [shown, correct]
          exact ⟨four, distinct, each, lettered⟩
      · constructor
        · intro fits module' same _ _ _ _ _
          exact fits
        · exact fun fits => fits module placed blank _ built _ ids
    | _ =>
      simp only [normalizeDisclosed, questionIdOf, read, unnamed, if_false]
      exact iff_of_true trivial ⟨members, rfl, fun _ _ _ _ same => by simp at same⟩
  | _ =>
    refine iff_of_false id ?_
    rintro ⟨_, same, _⟩
    contradiction

end Disclosed

/-- Nothing but a refusal comes out, or a whole and answerable question, just when the
stub is an object and, behind the checks that refuse, the band is finite, the dates are in
the calendar, and the stem, options and labels are ones to be shown. -/
theorem accepted_answerable_iff (casing : Casing) (contentSha256 : QuestionContent → String)
    (stub detail item : JsonValue) (liveExternalIds sprAdditions : List (List Char))
    (reviewedSprKeys : Option (List (List Char))) :
    (Guarded (QbankSound casing detail)
        (normalizeQbank casing contentSha256 stub detail liveExternalIds sprAdditions) ↔
      QbankFits casing stub detail sprAdditions) ∧
    (Guarded (Answerable casing)
        (normalizeDisclosed casing contentSha256 stub item reviewedSprKeys) ↔
      DisclosedFits casing stub item reviewedSprKeys) :=
  ⟨normalizeQbank_guarded_iff contentSha256 stub detail liveExternalIds sprAdditions,
    normalizeDisclosed_guarded_iff contentSha256 stub item reviewedSprKeys⟩

def asciiCasing : Casing := ⟨List.map Char.toUpper, List.map Char.toLower⟩

def readingStub (created : JsonValue) : JsonValue :=
  .dict [("questionId", .str "0a1b2c3d"), ("module", .str "reading"),
    ("external_id", .str "00000000-0000-0000-0000-000000000001"),
    ("uId", .str "00000000-0000-0000-0000-000000000002"),
    ("score_band_range_cd", .int 4), ("difficulty", .str "M"), ("createDate", created)]

def repeatedStimulus : JsonValue :=
  .dict [("type", .str "spr"), ("stem", .str "Read the text."), ("stimulus", .str "Read the text."),
    ("correct_answer", .list [.str "7"])]

theorem Guarded.stem {detail : JsonValue} {outcome : Normalized SatQuestion} {stem : List Char}
    (guarded : Guarded (QbankSound asciiCasing detail) outcome)
    (built : outcome.toOption.map SatQuestion.stem = some stem) : strip stem ≠ [] := by
  cases outcome with
  | error raised => contradiction
  | ok question =>
    cases built
    exact guarded.1.stem

def escaping : Normalized SatQuestion → Option PyError
  | .error (.python e) => some e
  | _ => none

theorem not_guarded {sound : SatQuestion → Prop} {outcome : Normalized SatQuestion} {e : PyError}
    (escaped : escaping outcome = some e) : ¬ Guarded sound outcome := by
  cases outcome with
  | ok question => contradiction
  | error raised =>
    cases raised with
    | normalizeError questionId reason => contradiction
    | python _ => exact id

/-- A reading stem that is its stimulus is accepted empty, and a creation date in the year
10000 comes out as a `ValueError`. -/
theorem emptied_stem_accepted :
    ¬ Guarded (QbankSound asciiCasing repeatedStimulus)
        (normalizeQbank asciiCasing (fun _ => "") (readingStub .null) repeatedStimulus [] []) ∧
    ¬ Guarded (QbankSound asciiCasing repeatedStimulus)
        (normalizeQbank asciiCasing (fun _ => "") (readingStub (.int 253402300800000))
          repeatedStimulus [] []) := by
  constructor
  · intro guarded
    exact @Guarded.stem _ _ [] guarded (by decide +kernel) rfl
  · exact not_guarded (e := .valueError) (by decide +kernel)

end Counselle.Sat

import Counselle.Sat.BankSync
import Counselle.Transition

/-! Runs of bank syncs. The alias table keeps the newest filing of each id, and one hop of
it is the whole chain of re-filings as long as no sync moves a question away under aliases
that the new bank does not list. -/
namespace Counselle.Sat
open PyText (strip)
open Transition (run Meets)
open Upsert (insertKey)

attribute [local instance] lawful_chars

/-- Where a bank files an id: under itself, or under the question whose alias it is. -/
def filedIn (bank : List BankRow) (id : List Char) : Option (List Char) :=
  if id ∈ bank.map BankRow.id then some id
  else (bank.find? fun row => id ∈ row.aliases).map BankRow.id

/-- The newest bank that lists the id says where it is filed. -/
def lastFiled (banks : List (List BankRow)) (id : List Char) : Option (List Char) :=
  banks.findSome? fun bank => filedIn bank id

/-- Following the newest filings to a question that is filed under itself. -/
inductive Chain (banks : List (List BankRow)) : List Char → List Char → Prop
  | ends {id} : lastFiled banks id = some id → Chain banks id id
  | hop {id next last} : lastFiled banks id = some next → Chain banks next last → Chain banks id last

/-- The tables, and the banks that were accepted, newest first. -/
structure BankHistory where
  tables : BankTables
  banks : List (List BankRow)
  deriving DecidableEq

def BankHistory.start : BankHistory := ⟨.empty, []⟩

def BankHistory.current (history : BankHistory) : List BankRow := history.banks.headD []

structure Sync where
  now : Int
  bank : List BankRow

section
variable (uuid5 : List Char → Nat)

/-- `run_bank_sync` logs an error and leaves the tables as they are. -/
def BankHistory.sync (history : BankHistory) (sync : Sync) : Option BankHistory :=
  some (match applySync uuid5 sync.now sync.bank history.tables with
    | .ok tables => ⟨tables, sync.bank :: history.banks⟩
    | .error _ => history)

end

def resolvesWell (casing : Casing) (history : BankHistory) (id : List Char) : Prop :=
  let resolved := resolveQuestionId casing history.tables id
  resolveQuestionId casing history.tables resolved = resolved ∧
    ∃ row ∈ history.tables.questions, row.id = resolved ∧
      ∀ last, Chain history.banks id last → last ∈ history.current.map BankRow.id → row.retiredAt = none

/-- The live rows are the current bank's questions, and every id ever filed resolves. -/
structure BankHistory.Exact (casing : Casing) (history : BankHistory) : Prop where
  live : ((history.tables.questions.filter fun row => row.retiredAt = none).map
    QuestionRow.question).Perm (history.current.map BankRow.question)
  resolves : ∀ bank ∈ history.banks, ∀ id, (filedIn bank id).isSome = true → resolvesWell casing history id

/-- No sentinel stands in the bank for a key, its ids are stripped and lower case, and it
lists every alias of a question that it files under another. -/
structure Sync.Keeps (casing : Casing) (uuid5 : List Char → Nat) (history : BankHistory) (sync : Sync) :
    Prop where
  format : WellFormed sync.bank
  unsentinel : Unsentinel uuid5 history.tables.questions sync.bank
  plain : ∀ id, (filedIn sync.bank id).isSome = true → lowered casing id = id
  refiled : ∀ entry ∈ history.tables.aliases, (∃ row ∈ sync.bank, entry.2 ∈ row.aliases) →
    (filedIn sync.bank entry.1).isSome = true

variable {bank : List BankRow} {banks : List (List BankRow)} {id target : List Char}

theorem filedIn_cases (filed : filedIn bank id = some target) :
    id ∈ bank.map BankRow.id ∧ target = id ∨
      id ∉ bank.map BankRow.id ∧ ∃ row ∈ bank, id ∈ row.aliases ∧ target = row.id := by
  rw [filedIn] at filed
  split at filed
  case isTrue isId => exact Or.inl ⟨isId, (Option.some.inj filed).symm⟩
  case isFalse other =>
    obtain ⟨row, found, same⟩ := Option.map_eq_some_iff.mp filed
    exact Or.inr ⟨other, row, List.mem_of_find?_eq_some found, by simpa using List.find?_some found, same.symm⟩

theorem filedIn_id (isId : id ∈ bank.map BankRow.id) : filedIn bank id = some id := if_pos isId

theorem filedIn_target (filed : filedIn bank id = some target) : filedIn bank target = some target := by
  apply filedIn_id
  rcases filedIn_cases filed with ⟨isId, rfl⟩ | ⟨-, row, isIn, -, rfl⟩
  · exact isId
  · exact List.mem_map_of_mem isIn

theorem filedIn_alias (format : WellFormed bank) {row : BankRow} (isIn : row ∈ bank)
    (listed : id ∈ row.aliases) : filedIn bank id = some row.id := by
  rw [filedIn, if_neg (format.apart row isIn id listed)]
  cases found : bank.find? fun row => id ∈ row.aliases with
  | none => exact absurd listed (by simpa using List.find?_eq_none.mp found row isIn)
  | some other =>
    have alsoListed : id ∈ other.aliases := by simpa using List.find?_some found
    exact congrArg some (format.filedOnce other (List.mem_of_find?_eq_some found) row isIn id alsoListed listed)

theorem lastFiled_cons : lastFiled (bank :: banks) id = (filedIn bank id).or (lastFiled banks id) := by
  rw [lastFiled, List.findSome?_cons]
  cases filedIn bank id <;> rfl

theorem filedIn_of_lastFiled (filed : lastFiled banks id = some target) :
    ∃ bank ∈ banks, filedIn bank id = some target := by
  obtain ⟨before, bank, after, rfl, found, -⟩ := List.findSome?_eq_some_iff.mp filed
  exact ⟨bank, by simp, found⟩

theorem lastFiled_isSome (isIn : bank ∈ banks) (filed : (filedIn bank id).isSome = true) :
    (lastFiled banks id).isSome = true := by
  rw [lastFiled, List.findSome?_isSome_iff]
  exact ⟨bank, isIn, filed⟩

def aliasEntry (id : List Char) : Option (List Char) → Option (List Char × List Char)
  | some target => if target = id then none else some (id, target)
  | none => none

theorem mem_filed {entry : List Char × List Char} :
    entry ∈ bank.flatMap (fun row => row.aliases.map (·, row.id)) ↔
      ∃ row ∈ bank, entry.1 ∈ row.aliases ∧ entry.2 = row.id := by
  simp only [List.mem_flatMap, List.mem_map]
  constructor
  · rintro ⟨row, isIn, name, listed, rfl⟩
    exact ⟨row, isIn, listed, rfl⟩
  · rintro ⟨row, isIn, listed, same⟩
    exact ⟨row, isIn, entry.1, listed, by rw [← same]⟩

theorem find?_kept (aliases : List (List Char × List Char)) :
    (aliases.filter fun entry => entry.1 ∉ bank.map BankRow.id).find? (fun entry => entry.1 = id) =
      if id ∈ bank.map BankRow.id then none else aliases.find? fun entry => entry.1 = id := by
  rw [List.find?_filter]
  split
  case isTrue isId =>
    rw [List.find?_eq_none]
    intro entry _ bad
    obtain ⟨absent, rfl⟩ : entry.1 ∉ bank.map BankRow.id ∧ entry.1 = id := by simpa using bad
    exact absent isId
  case isFalse other =>
    apply congrArg (aliases.find? ·)
    funext entry
    by_cases same : entry.1 = id
    · simp [same, other]
    · simp [same]

theorem find?_aliasesAfter (format : WellFormed bank) (aliases : List (List Char × List Char)) :
    ((aliasesAfter bank aliases).find? fun entry => entry.1 = id) =
      if (filedIn bank id).isSome then aliasEntry id (filedIn bank id)
      else aliases.find? fun entry => entry.1 = id := by
  rw [aliasesAfter, Upsert.find?_inserted, find?_kept]
  cases found : (bank.flatMap fun row => row.aliases.map (·, row.id)).reverse.find? fun entry => entry.1 = id with
  | some entry =>
    obtain rfl : entry.1 = id := by simpa using List.find?_some found
    obtain ⟨row, isIn, listed, target⟩ := mem_filed.mp (List.mem_reverse.mp (List.mem_of_find?_eq_some found))
    have isQuestion : row.id ∈ bank.map BankRow.id := List.mem_map_of_mem isIn
    have apart : row.id ≠ entry.1 := fun same => format.apart row isIn _ listed (same ▸ isQuestion)
    rw [filedIn_alias format isIn listed, Option.isSome_some, if_pos rfl, aliasEntry, if_neg apart, ← target]
    rfl
  | none =>
    have unlisted : ∀ row ∈ bank, id ∉ row.aliases := by
      intro row isIn listed
      have isFiled : (id, row.id) ∈ bank.flatMap fun row => row.aliases.map (·, row.id) :=
        mem_filed.mpr ⟨row, isIn, listed, rfl⟩
      simpa using List.find?_eq_none.mp found _ (List.mem_reverse.mpr isFiled)
    rw [Option.none_or, filedIn]
    split
    case isTrue => simp only [Option.isSome_some, if_true, aliasEntry]
    case isFalse =>
      have absent : (bank.find? fun row => id ∈ row.aliases) = none := by
        rw [List.find?_eq_none]
        intro row isIn
        simpa using unlisted row isIn
      rw [absent, Option.map_none, Option.isSome_none, if_neg (by decide)]

variable {casing : Casing} {uuid5 : List Char → Nat} {history : BankHistory}

structure BankHistory.Follows (casing : Casing) (uuid5 : List Char → Nat) (history : BankHistory) : Prop where
  sound : Sound uuid5 history.tables.questions
  live : ∀ row, row ∈ history.tables.questions ∧ row.retiredAt = none ↔
    ∃ incoming ∈ history.current, row = live incoming
  stored : ∀ bank ∈ history.banks, ∀ id ∈ bank.map BankRow.id, id ∈ history.tables.questions.map QuestionRow.id
  aliases : ∀ id, (history.tables.aliases.find? fun entry => entry.1 = id) =
    aliasEntry id (lastFiled history.banks id)
  plain : ∀ bank ∈ history.banks, ∀ id, (filedIn bank id).isSome = true → lowered casing id = id
  /-- No target of a filing was filed away since. -/
  flat : ∀ id target, lastFiled history.banks id = some target → lastFiled history.banks target = some target
  ids : (history.current.map BankRow.id).Nodup

theorem follows_start : BankHistory.start.Follows casing uuid5 := by
  constructor <;> simp [BankHistory.start, BankTables.empty, BankHistory.current, lastFiled, aliasEntry]
  constructor <;> simp

theorem applySync_error {now : Int} {tables : BankTables} (refused : ¬ Accepted bank tables) :
    ∃ retireCount liveCount, applySync uuid5 now bank tables = .error (.retirementRefused retireCount liveCount) := by
  unfold Accepted checkRetirementIsSafe at refused
  simp only [applySync, checkRetirementIsSafe]
  split at refused
  case isTrue => exact absurd rfl refused
  case isFalse notSmall =>
    split at refused
    case isFalse => exact absurd rfl refused
    case isTrue large =>
      rw [if_neg notSmall, if_pos large]
      exact ⟨_, _, rfl⟩

theorem BankHistory.Follows.alias_mem (follows : history.Follows casing uuid5)
    (filed : lastFiled history.banks id = some target) (apart : target ≠ id) :
    (id, target) ∈ history.tables.aliases := by
  apply List.mem_of_find?_eq_some (p := fun entry => entry.1 = id)
  rw [follows.aliases, filed, aliasEntry, if_neg apart]

theorem BankHistory.Follows.sync {next : BankHistory} {sync : Sync} (follows : history.Follows casing uuid5)
    (keeps : sync.Keeps casing uuid5 history) (stepped : history.sync uuid5 sync = some next) :
    next.Follows casing uuid5 := by
  obtain rfl := Option.some.inj stepped
  by_cases accepted : Accepted sync.bank history.tables
  case neg =>
    obtain ⟨retireCount, liveCount, refused⟩ := applySync_error accepted
    rw [refused]
    exact follows
  case pos =>
  obtain ⟨questions, applied, sound, live, ids⟩ :=
    applySync_ok follows.sound keeps.format keeps.unsentinel accepted
  rw [applied]
  constructor
  case sound => exact sound
  case live => exact live
  case ids => exact keeps.format.ids
  case stored =>
    intro bank isIn id isId
    rw [ids]
    rcases List.mem_cons.mp isIn with rfl | isOld
    · exact Or.inr isId
    · exact Or.inl (follows.stored bank isOld id isId)
  case aliases =>
    intro id
    rw [find?_aliasesAfter keeps.format, lastFiled_cons, follows.aliases]
    cases filedIn sync.bank id <;> rfl
  case plain =>
    intro bank isIn id filed
    rcases List.mem_cons.mp isIn with rfl | isOld
    · exact keeps.plain id filed
    · exact follows.plain bank isOld id filed
  case flat =>
    intro id target filed
    rw [lastFiled_cons] at filed ⊢
    cases here : filedIn sync.bank id with
    | some first =>
      rw [here] at filed
      obtain rfl := Option.some.inj filed
      rw [filedIn_target here]
      rfl
    | none =>
      rw [here, Option.none_or] at filed
      cases moved : filedIn sync.bank target with
      | none => exact follows.flat id target filed
      | some other =>
        -- a target that moves takes the ids filed under it along
        rcases filedIn_cases moved with ⟨-, rfl⟩ | ⟨-, row, isIn, listed, rfl⟩
        · rfl
        · have apart : target ≠ id := by
            rintro rfl
            rw [here] at moved
            cases moved
          have taken := keeps.refiled (id, target) (follows.alias_mem filed apart) ⟨row, isIn, listed⟩
          rw [here] at taken
          cases taken

theorem BankHistory.Follows.resolve (follows : history.Follows casing uuid5) (plain : lowered casing id = id) :
    resolveQuestionId casing history.tables id = (lastFiled history.banks id).getD id := by
  rw [resolveQuestionId, plain, follows.aliases]
  cases lastFiled history.banks id with
  | none => rfl
  | some target =>
    rw [aliasEntry]
    split
    case isTrue same => exact same.symm
    case isFalse => rfl

theorem BankHistory.Follows.chain (follows : history.Follows casing uuid5) {last : List Char}
    (chain : Chain history.banks id last) : lastFiled history.banks id = some last := by
  induction chain with
  | ends filed => exact filed
  | hop filed _ ih =>
    rw [follows.flat _ _ filed] at ih
    rw [filed, ih]

theorem BankHistory.Follows.exact (follows : history.Follows casing uuid5) : history.Exact casing where
  live := by
    have rows : (history.tables.questions.filter fun row => row.retiredAt = none).Perm
        (history.current.map Sat.live) := by
      apply (List.perm_ext_iff_of_nodup ?_ ?_).mpr
      · intro row
        rw [List.mem_filter, decide_eq_true_eq, follows.live, List.mem_map]
        simp only [eq_comm]
      · exact (List.Nodup.of_map QuestionRow.id follows.sound.ids).filter _
      · exact List.Nodup.of_map QuestionRow.id (by rw [List.map_map]; exact follows.ids)
    have questions := rows.map QuestionRow.question
    rw [List.map_map] at questions
    exact questions
  resolves := by
    intro bank isIn id filed
    obtain ⟨target, isTarget⟩ := Option.isSome_iff_exists.mp (lastFiled_isSome isIn filed)
    obtain ⟨other, isOther, filedThere⟩ := filedIn_of_lastFiled isTarget
    have here : resolveQuestionId casing history.tables id = target := by
      rw [follows.resolve (follows.plain bank isIn id filed), isTarget]
      rfl
    have questionThere := filedIn_target filedThere
    have again : resolveQuestionId casing history.tables target = target := by
      rw [follows.resolve (follows.plain other isOther target (by rw [questionThere]; rfl)),
        follows.flat id target isTarget]
      rfl
    have isStored : target ∈ history.tables.questions.map QuestionRow.id := by
      apply follows.stored other isOther
      rcases filedIn_cases questionThere with ⟨isId, -⟩ | ⟨-, row, isRow, -, rfl⟩
      · exact isId
      · exact List.mem_map_of_mem isRow
    obtain ⟨row, isRow, sameId⟩ := List.mem_map.mp isStored
    rw [resolvesWell, here]
    refine ⟨again, row, isRow, sameId, fun last chain isCurrent => ?_⟩
    obtain rfl := Option.some.inj ((follows.chain chain).symm.trans isTarget)
    obtain ⟨incoming, isIncoming, sameId'⟩ := List.mem_map.mp isCurrent
    obtain ⟨isLive, unretired⟩ := (follows.live (Sat.live incoming)).mpr ⟨incoming, isIncoming, rfl⟩
    have only : row = Sat.live incoming := follows.sound.eq_of_id isRow isLive (sameId.trans sameId'.symm)
    rw [only]
    exact unretired

theorem follows_run {syncs : List Sync} (path : run (BankHistory.sync uuid5) .start syncs = some history)
    (meets : Meets (BankHistory.sync uuid5) (fun history sync => sync.Keeps casing uuid5 history)
      .start syncs) : history.Follows casing uuid5 :=
  Transition.invariant_of_meets (fun follows keeps stepped => follows.sync keeps stepped) follows_start path meets

/-- In a run of syncs that list every alias of a question which they file under another,
each sync that the retirement guard lets through is carried out, the live rows are the new
bank, and the ids ever filed resolve to the end of their chain. -/
theorem syncs_land_on_bank {syncs : List Sync}
    (path : run (BankHistory.sync uuid5) .start syncs = some history)
    (meets : Meets (BankHistory.sync uuid5) (fun history sync => sync.Keeps casing uuid5 history)
      .start syncs) :
    history.Exact casing ∧ ∀ sync : Sync, sync.Keeps casing uuid5 history →
      Accepted sync.bank history.tables →
      ∃ tables, applySync uuid5 sync.now sync.bank history.tables = .ok tables := by
  have follows := follows_run path meets
  refine ⟨follows.exact, fun sync keeps accepted => ?_⟩
  obtain ⟨questions, applied, -⟩ := applySync_ok follows.sound keeps.format keeps.unsentinel accepted
  exact ⟨_, applied⟩

def bankQuestion (questionId : String) (externalId : Nat) : SatQuestion where
  questionId := questionId.toList
  externalId := some externalId
  ibn := none
  uId := 0
  source := .qbank
  module := .math
  domainCd := "H".toList
  skillCd := "H.A.".toList
  scoreBand := 3
  difficulty := .e
  program := "SAT".toList
  itemType := .spr
  inBluebook := false
  cbCreatedAt := none
  cbUpdatedAt := none
  contentSha256 := ""
  stimulus := none
  stem := "2 + 2".toList
  answerOptions := []
  correctAnswers := ["4".toList]
  rationale := []

/-- The bank files `ccc` under `aaa`. -/
def firstBank : List BankRow := [⟨bankQuestion "aaa" 1, ["ccc".toList]⟩]

/-- The question is now `bb`, and the aliases that the bank lists for it are `names`. -/
def secondBank (names : List String) : List BankRow := [⟨bankQuestion "bb" 1, names.map String.toList⟩]

def letterCasing : Casing := ⟨List.map Char.toUpper, List.map Char.toLower⟩

/-- A `uuid5` for the samples. -/
def sampleUuid5 (id : List Char) : Nat := 1000 + id.length

def sampleSyncs (names : List String) : List Sync := [⟨0, firstBank⟩, ⟨1, secondBank names⟩]

theorem wellFormed_single {question : SatQuestion} {names : List (List Char)} (oneKey : question.oneKey = true)
    (apart : question.questionId ∉ names) : WellFormed [⟨question, names⟩] := by
  constructor
  case ids => simp
  case oneKey => simpa using oneKey
  case keys => simp
  case apart =>
    intro row isIn name listed isId
    obtain rfl := List.mem_singleton.mp isIn
    obtain rfl : name = question.questionId := by simpa [BankRow.id] using isId
    exact apart listed
  case filedOnce => simp

theorem unsentinel_sample {questionId : String} {table : List QuestionRow} {names : List (List Char)}
    (distinct : ∀ id ∈ table.map QuestionRow.id ++ [questionId.toList],
      ∀ other ∈ table.map QuestionRow.id ++ [questionId.toList], id.length = other.length → id = other) :
    Unsentinel sampleUuid5 table [⟨bankQuestion questionId 1, names⟩] := by
  constructor
  case ibn => simp [bankQuestion]
  case externalId =>
    intro row isIn id held
    obtain rfl := List.mem_singleton.mp isIn
    have same : 1 = 1000 + id.length := Option.some.inj held
    omega
  case distinguished =>
    intro id isIn other isOther same
    exact distinct id isIn other isOther (Nat.add_left_cancel same)

theorem synced_first : BankHistory.start.sync sampleUuid5 ⟨0, firstBank⟩ =
    some ⟨⟨[⟨bankQuestion "aaa" 1, none⟩], [("ccc".toList, "aaa".toList)]⟩, [firstBank]⟩ := by
  decide +kernel

theorem filedIn_single {question : SatQuestion} {names : List (List Char)}
    (filed : (filedIn [⟨question, names⟩] id).isSome = true) : id = question.questionId ∨ id ∈ names := by
  obtain ⟨target, filed⟩ := Option.isSome_iff_exists.mp filed
  rcases filedIn_cases filed with ⟨isId, -⟩ | ⟨-, row, isIn, listed, -⟩
  · exact Or.inl (by simpa [BankRow.id] using isId)
  · obtain rfl := List.mem_singleton.mp isIn
    exact Or.inr listed

theorem keeps_first : Sync.Keeps letterCasing sampleUuid5 .start ⟨0, firstBank⟩ where
  format := wellFormed_single rfl (by decide)
  unsentinel := unsentinel_sample (by simp [BankHistory.start, BankTables.empty])
  plain := by
    intro id filed
    rcases filedIn_single filed with rfl | listed
    · decide
    · obtain rfl := List.mem_singleton.mp listed
      decide
  refiled := by simp [BankHistory.start, BankTables.empty]

theorem keeps_second : Sync.Keeps letterCasing sampleUuid5
    ⟨⟨[⟨bankQuestion "aaa" 1, none⟩], [("ccc".toList, "aaa".toList)]⟩, [firstBank]⟩
    ⟨1, secondBank ["aaa", "ccc"]⟩ where
  format := wellFormed_single rfl (by decide)
  unsentinel := unsentinel_sample (by decide)
  plain := by
    intro id filed
    rcases filedIn_single filed with rfl | listed
    · decide
    · rcases List.mem_pair.mp listed with rfl | rfl <;> decide
  refiled := by decide

def sampleHistory (names : List String) : BankHistory :=
  (run (BankHistory.sync sampleUuid5) .start (sampleSyncs names)).getD .start

theorem run_sampleSyncs (names : List String) :
    run (BankHistory.sync sampleUuid5) .start (sampleSyncs names) = some (sampleHistory names) := rfl

theorem meets_moved : Meets (BankHistory.sync sampleUuid5)
    (fun history sync => sync.Keeps letterCasing sampleUuid5 history) .start
    (sampleSyncs ["aaa", "ccc"]) := by
  refine ⟨keeps_first, fun next stepped => ⟨?_, fun _ _ => trivial⟩⟩
  rw [synced_first] at stepped
  obtain rfl := Option.some.inj stepped
  exact keeps_second

/-- `ccc` moves along when the question it is filed under moves. -/
theorem syncs_land_on_bank_moved : (sampleHistory ["aaa", "ccc"]).Exact letterCasing ∧
    resolveQuestionId letterCasing (sampleHistory ["aaa", "ccc"]).tables "ccc".toList = "bb".toList :=
  ⟨(syncs_land_on_bank (run_sampleSyncs _) meets_moved).1, by decide +kernel⟩

/-- A new bank that lists `aaa` as an alias of `bb` but no longer `ccc`: `ccc` still
resolves to the retired `aaa`, and that to `bb`. -/
theorem moved_question_leaves_alias_behind :
    run (BankHistory.sync sampleUuid5) .start (sampleSyncs ["aaa"]) = some (sampleHistory ["aaa"]) ∧
      (∀ sync ∈ sampleSyncs ["aaa"], WellFormed sync.bank) ∧
      resolveQuestionId letterCasing (sampleHistory ["aaa"]).tables "ccc".toList = "aaa".toList ∧
      resolveQuestionId letterCasing (sampleHistory ["aaa"]).tables "aaa".toList = "bb".toList ∧
      ¬ (sampleHistory ["aaa"]).Exact letterCasing := by
  have first : resolveQuestionId letterCasing (sampleHistory ["aaa"]).tables "ccc".toList = "aaa".toList := by
    decide +kernel
  have second : resolveQuestionId letterCasing (sampleHistory ["aaa"]).tables "aaa".toList = "bb".toList := by
    decide +kernel
  refine ⟨rfl, ?_, first, second, fun exact => ?_⟩
  · intro sync isIn
    rcases List.mem_pair.mp isIn with rfl | rfl
    · exact wellFormed_single rfl (by decide)
    · exact wellFormed_single rfl (by decide)
  · have isIn : firstBank ∈ (sampleHistory ["aaa"]).banks := by decide +kernel
    have again := (exact.resolves firstBank isIn "ccc".toList (by decide)).1
    rw [first, second] at again
    exact absurd again (by decide)

end Counselle.Sat

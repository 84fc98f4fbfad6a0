import Counselle.Binary64
import Counselle.Fallible
import Counselle.Sat.Types
import Counselle.Upsert

/-! The bank sync: the stored questions and aliases become those of a new bank file. An id
that the new bank does not list is retired, and its row is never deleted. -/
namespace Counselle.Sat
open PyText (strip)
open Upsert (insertKey)

attribute [local instance] lawful_chars

/-- A row of `sat_questions` with its row of `sat_question_content`. -/
structure QuestionRow where
  question : SatQuestion
  retiredAt : Option Int
  deriving DecidableEq

structure BankRow where
  question : SatQuestion
  aliases : List (List Char)
  deriving DecidableEq

def QuestionRow.id (row : QuestionRow) : List Char := row.question.questionId

def BankRow.id (row : BankRow) : List Char := row.question.questionId

structure BankTables where
  questions : List QuestionRow
  /-- `alias_id` and the question it is filed under. -/
  aliases : List (List Char × List Char)
  deriving DecidableEq

def BankTables.empty : BankTables := ⟨[], []⟩

inductive SyncError where
  | retirementRefused (retireCount liveCount : Nat)
  | uniqueViolation
  | checkViolation
  deriving DecidableEq

/-- SQL's `=`, which holds of no NULL. -/
def sameKey {A : Type} [DecidableEq A] : Option A → Option A → Bool
  | some a, some b => a = b
  | _, _ => false

def SatQuestion.clash (q other : SatQuestion) : Bool :=
  sameKey q.externalId other.externalId || sameKey q.ibn other.ibn

/-- `CHECK ((external_id IS NULL) <> (ibn IS NULL))` -/
def SatQuestion.oneKey (q : SatQuestion) : Bool := q.externalId.isNone != q.ibn.isNone

/-- The row passes the check and both unique indexes beside the rows of other ids. -/
def admitRow (table : List QuestionRow) (row : QuestionRow) : Except SyncError Unit :=
  if row.question.oneKey = false then .error .checkViolation
  else if table.any fun other => other.id ≠ row.id && row.question.clash other.question then
    .error .uniqueViolation
  else .ok ()

/-- `INSERT … ON CONFLICT (question_id) DO UPDATE` of every column -/
def upsertQuestion (table : List QuestionRow) (row : QuestionRow) : Except SyncError (List QuestionRow) := do
  admitRow table row
  .ok (insertKey QuestionRow.id table row)

/-- `UPDATE … WHERE question_id = $1` -/
def updateQuestion (set : QuestionRow → QuestionRow) (table : List QuestionRow) (id : List Char) :
    Except SyncError (List QuestionRow) := do
  match table.find? (·.id = id) with
  | none => .ok table
  | some row =>
    admitRow table (set row)
    .ok (table.map fun row => if row.id = id then set row else row)

def BankTables.existingLiveIds (tables : BankTables) : List (List Char) :=
  (tables.questions.filter fun row => row.retiredAt = none).map QuestionRow.id

def planRetirements (existingLiveIds newIds : List (List Char)) : List (List Char) :=
  existingLiveIds.filter (· ∉ newIds)

def retirementGuardMinLiveRows : Nat := 50
def retirementGuardMaxRatio : ℚ := Binary64.rounded (3 / 10)

def checkRetirementIsSafe (liveCount retireCount : Nat) : Except SyncError Unit :=
  if liveCount < retirementGuardMinLiveRows ∨ retireCount = 0 then .ok ()
  else if retirementGuardMaxRatio < Binary64.rounded (retireCount / liveCount) then
    .error (.retirementRefused retireCount liveCount)
  else .ok ()

def retiredIbnSentinel (questionId : List Char) : List Char :=
  "sat-bank-sync:retired:".toList ++ questionId

section Sync
-- `uuid.uuid5` in the namespace of the sentinels
variable (uuid5 : List Char → Nat)

def releaseExternalId (row : QuestionRow) : QuestionRow :=
  { row with question := { row.question with externalId := none, ibn := some (retiredIbnSentinel row.id) } }

def releaseIbn (row : QuestionRow) : QuestionRow :=
  { row with question := { row.question with ibn := none, externalId := some (uuid5 row.id) } }

/-- The ids of the rows that hold a key which the bank files under another id. -/
def colliding {A : Type} [DecidableEq A] (key : SatQuestion → Option A) (bank : List BankRow)
    (table : List QuestionRow) : List (List Char) :=
  (table.filter fun row => bank.any fun incoming =>
    sameKey (key row.question) (key incoming.question) && row.id ≠ incoming.id).map QuestionRow.id

def releaseCollidingNaturalKeys (bank : List BankRow) (table : List QuestionRow) :
    Except SyncError (List QuestionRow) := do
  let table ← (colliding (·.externalId) bank table).foldlM (updateQuestion releaseExternalId) table
  (colliding (·.ibn) bank table).foldlM (updateQuestion (releaseIbn uuid5)) table

def applySync (now : Int) (bank : List BankRow) (tables : BankTables) : Except SyncError BankTables := do
  let newIds := bank.map BankRow.id
  let toRetire := planRetirements tables.existingLiveIds newIds
  checkRetirementIsSafe tables.existingLiveIds.length toRetire.length
  let released ← releaseCollidingNaturalKeys uuid5 bank tables.questions
  let upserted ← (bank.map fun row => ⟨row.question, none⟩).foldlM upsertQuestion released
  let kept := tables.aliases.filter fun entry => entry.1 ∉ newIds
  let filed := bank.flatMap fun row => row.aliases.map (·, row.id)
  .ok {
    questions := upserted.map fun row =>
      if row.id ∈ toRetire then { row with retiredAt := some now } else row
    aliases := filed.foldl (insertKey Prod.fst) kept }

end Sync

/-- `raw_id.strip().lower()` -/
def lowered (casing : Casing) (rawId : List Char) : List Char := casing.lower (strip rawId)

def resolveQuestionId (casing : Casing) (tables : BankTables) (rawId : List Char) : List Char :=
  ((tables.aliases.find? fun entry => entry.1 = lowered casing rawId).map Prod.snd).getD
    (lowered casing rawId)

theorem sameKey_iff {A : Type} [DecidableEq A] {a b : Option A} :
    sameKey a b = true ↔ ∃ key, a = some key ∧ b = some key := by
  cases a <;> cases b <;> simp [sameKey, eq_comm]

theorem clash_iff {q other : SatQuestion} : q.clash other = true ↔
    (∃ key, q.externalId = some key ∧ other.externalId = some key) ∨
      ∃ key, q.ibn = some key ∧ other.ibn = some key := by
  rw [SatQuestion.clash, Bool.or_eq_true, sameKey_iff, sameKey_iff]

theorem clash_comm {q other : SatQuestion} : q.clash other = true ↔ other.clash q = true := by
  simp only [clash_iff, and_comm]

theorem admit_ok {table : List QuestionRow} {row : QuestionRow} (oneKey : row.question.oneKey = true)
    (free : ∀ other ∈ table, row.question.clash other.question = true → row.id = other.id) :
    admitRow table row = .ok () := by
  have clear : (table.any fun other => other.id ≠ row.id && row.question.clash other.question) = false := by
    rw [List.any_eq_false]
    intro other isIn bad
    simp only [Bool.and_eq_true, decide_eq_true_eq] at bad
    exact bad.1 (free other isIn bad.2).symm
  rw [admitRow, if_neg (by simp [oneKey]), clear, if_neg (by decide)]

/-- The indexes hold, and a sentinel stands in the row of its own id only. -/
structure Sound (uuid5 : List Char → Nat) (table : List QuestionRow) : Prop where
  ids : (table.map QuestionRow.id).Nodup
  oneKey : ∀ row ∈ table, row.question.oneKey = true
  keys : ∀ row ∈ table, ∀ other ∈ table, row.question.clash other.question = true → row.id = other.id
  ownIbn : ∀ row ∈ table, ∀ id, row.question.ibn = some (retiredIbnSentinel id) → id = row.id
  ownExternalId : ∀ row ∈ table, ∀ id, row.question.externalId = some (uuid5 id) → uuid5 id = uuid5 row.id
  sentinels : ∀ row ∈ table, ∀ other ∈ table, uuid5 row.id = uuid5 other.id → row.id = other.id

variable {uuid5 : List Char → Nat} {table : List QuestionRow}

theorem Sound.eq_of_id (sound : Sound uuid5 table) {row other : QuestionRow} (isIn : row ∈ table)
    (isOther : other ∈ table) (same : row.id = other.id) : row = other :=
  List.inj_on_of_nodup_map sound.ids isIn isOther same

theorem Sound.map (sound : Sound uuid5 table) {set : QuestionRow → QuestionRow}
    (sameId : ∀ row, (set row).id = row.id) (oneKey : ∀ row ∈ table, (set row).question.oneKey = true)
    (keys : ∀ row ∈ table, ∀ other ∈ table, (set row).question.clash (set other).question = true →
      row.id = other.id)
    (ownIbn : ∀ row ∈ table, ∀ id, (set row).question.ibn = some (retiredIbnSentinel id) → id = row.id)
    (ownExternalId : ∀ row ∈ table, ∀ id, (set row).question.externalId = some (uuid5 id) →
      uuid5 id = uuid5 row.id) : Sound uuid5 (table.map set) := by
  have ids : (table.map set).map QuestionRow.id = table.map QuestionRow.id := by
    rw [List.map_map]
    exact List.map_congr_left fun row _ => sameId row
  constructor
  case ids => rw [ids]; exact sound.ids
  all_goals
    intro row isIn
    obtain ⟨old, isOld, rfl⟩ := List.mem_map.mp isIn
  case oneKey => exact oneKey old isOld
  case keys =>
    intro other isOther
    obtain ⟨before, isBefore, rfl⟩ := List.mem_map.mp isOther
    rw [sameId, sameId]
    exact keys old isOld before isBefore
  case ownIbn => rw [sameId]; exact ownIbn old isOld
  case ownExternalId => rw [sameId]; exact ownExternalId old isOld
  case sentinels =>
    intro other isOther
    obtain ⟨before, isBefore, rfl⟩ := List.mem_map.mp isOther
    rw [sameId, sameId]
    exact sound.sentinels old isOld before isBefore

/-- A change of a row to a key that no other row has or can be given. -/
structure Releases (uuid5 : List Char → Nat) (set : QuestionRow → QuestionRow) : Prop where
  sameId : ∀ row, (set row).id = row.id
  sameRetirement : ∀ row, (set row).retiredAt = row.retiredAt
  again : ∀ row, set (set row) = set row
  oneKey : ∀ row, (set row).question.oneKey = true
  free : ∀ {table}, Sound uuid5 table → ∀ row ∈ table, ∀ other ∈ table,
    (set row).question.clash other.question = true → row.id = other.id
  ownIbn : ∀ row id, (set row).question.ibn = some (retiredIbnSentinel id) → id = row.id
  ownExternalId : ∀ row id, (set row).question.externalId = some (uuid5 id) → uuid5 id = uuid5 row.id

theorem retiredIbnSentinel_inj {id other : List Char}
    (same : retiredIbnSentinel id = retiredIbnSentinel other) : id = other :=
  List.append_cancel_left same

theorem releases_externalId : Releases uuid5 releaseExternalId where
  sameId _ := rfl
  sameRetirement _ := rfl
  again _ := rfl
  oneKey _ := rfl
  free sound row isIn other isOther clash := by
    rcases clash_iff.mp clash with ⟨key, none, -⟩ | ⟨key, own, held⟩
    · cases none
    · exact sound.ownIbn other isOther row.id (held.trans own.symm)
  ownIbn row id held := (retiredIbnSentinel_inj (Option.some.inj held)).symm
  ownExternalId row id held := by cases held

theorem releases_ibn : Releases uuid5 (releaseIbn uuid5) where
  sameId _ := rfl
  sameRetirement _ := rfl
  again _ := rfl
  oneKey _ := rfl
  free sound row isIn other isOther clash := by
    rcases clash_iff.mp clash with ⟨key, own, held⟩ | ⟨key, none, -⟩
    · exact sound.sentinels row isIn other isOther
        (sound.ownExternalId other isOther row.id (held.trans own.symm))
    · cases none
  ownIbn row id held := by cases held
  ownExternalId row id held := (Option.some.inj held).symm

def setAll (set : QuestionRow → QuestionRow) (ids : List (List Char)) (table : List QuestionRow) :
    List QuestionRow :=
  table.map fun row => if row.id ∈ ids then set row else row

variable {set : QuestionRow → QuestionRow}

theorem Releases.sound (releases : Releases uuid5 set) (sound : Sound uuid5 table) (id : List Char) :
    Sound uuid5 (setAll set [id] table) := by
  apply sound.map
  · intro row
    split
    · exact releases.sameId row
    · rfl
  · intro row isIn
    split
    · exact releases.oneKey row
    · exact sound.oneKey row isIn
  · intro row isIn other isOther clash
    split at clash
    case isTrue here =>
      split at clash
      case isTrue there => rw [List.mem_singleton.mp here, List.mem_singleton.mp there]
      case isFalse => exact releases.free sound row isIn other isOther clash
    case isFalse =>
      split at clash
      case isTrue => exact (releases.free sound other isOther row isIn (clash_comm.mp clash)).symm
      case isFalse => exact sound.keys row isIn other isOther clash
  · intro row isIn
    split
    · exact releases.ownIbn row
    · exact sound.ownIbn row isIn
  · intro row isIn
    split
    · exact releases.ownExternalId row
    · exact sound.ownExternalId row isIn

theorem Releases.update (releases : Releases uuid5 set) (sound : Sound uuid5 table) (id : List Char) :
    updateQuestion set table id = .ok (setAll set [id] table) := by
  unfold updateQuestion setAll
  cases found : table.find? (·.id = id) with
  | none =>
    have absent : ∀ row ∈ table, row.id ≠ id := by simpa using found
    have same : (table.map fun row => if row.id ∈ [id] then set row else row) = table := by
      refine (List.map_congr_left fun row isIn => ?_).trans (List.map_id table)
      exact if_neg (by simpa using absent row isIn)
    rw [same]
  | some row =>
    have isIn : row ∈ table := List.mem_of_find?_eq_some found
    have admitted : admitRow table (set row) = .ok () :=
      admit_ok (releases.oneKey row) fun other isOther clash =>
        (releases.sameId row).trans (releases.free sound row isIn other isOther clash)
    simp only [admitted, List.mem_singleton]
    rfl

theorem setAll_setAll (releases : Releases uuid5 set) (ids : List (List Char)) (id : List Char) :
    setAll set ids (setAll set [id] table) = setAll set (id :: ids) table := by
  unfold setAll
  rw [List.map_map]
  apply List.map_congr_left
  intro row _
  simp only [Function.comp_apply, List.mem_cons, List.not_mem_nil, or_false]
  by_cases here : row.id = id
  · simp only [here, if_true, true_or, releases.sameId, releases.again, ite_self]
  · simp only [here, if_false, false_or]

theorem Releases.updates (releases : Releases uuid5 set) (ids : List (List Char))
    (sound : Sound uuid5 table) :
    ids.foldlM (updateQuestion set) table = .ok (setAll set ids table) ∧
      Sound uuid5 (setAll set ids table) := by
  induction ids generalizing table with
  | nil =>
    have same : setAll set [] table = table := List.map_id'' (fun row => if_neg List.not_mem_nil) table
    rw [same]
    exact ⟨rfl, sound⟩
  | cons id ids ih =>
    have rest := ih (releases.sound sound id)
    rw [setAll_setAll releases] at rest
    refine ⟨?_, rest.2⟩
    rw [List.foldlM_cons, releases.update sound id]
    exact rest.1

structure WellFormed (bank : List BankRow) : Prop where
  ids : (bank.map BankRow.id).Nodup
  oneKey : ∀ row ∈ bank, row.question.oneKey = true
  keys : ∀ row ∈ bank, ∀ other ∈ bank, row.question.clash other.question = true → row.id = other.id
  apart : ∀ row ∈ bank, ∀ name ∈ row.aliases, name ∉ bank.map BankRow.id
  filedOnce : ∀ row ∈ bank, ∀ other ∈ bank, ∀ name ∈ row.aliases, name ∈ other.aliases → row.id = other.id

/-- No key of the bank is a sentinel, and the sentinels of two ids differ. -/
structure Unsentinel (uuid5 : List Char → Nat) (table : List QuestionRow) (bank : List BankRow) : Prop where
  ibn : ∀ row ∈ bank, ∀ id, row.question.ibn ≠ some (retiredIbnSentinel id)
  externalId : ∀ row ∈ bank, ∀ id, row.question.externalId ≠ some (uuid5 id)
  distinguished : ∀ id ∈ table.map QuestionRow.id ++ bank.map BankRow.id,
    ∀ other ∈ table.map QuestionRow.id ++ bank.map BankRow.id, uuid5 id = uuid5 other → id = other

variable {bank : List BankRow}

theorem mem_colliding {A : Type} [DecidableEq A] {key : SatQuestion → Option A} {id : List Char} :
    id ∈ colliding key bank table ↔ ∃ row ∈ table, row.id = id ∧
      ∃ incoming ∈ bank, sameKey (key row.question) (key incoming.question) = true ∧
        row.id ≠ incoming.id := by
  simp only [colliding, List.mem_map, List.mem_filter, List.any_eq_true, Bool.and_eq_true,
    decide_eq_true_eq]
  constructor
  · rintro ⟨row, ⟨isIn, incoming, isIncoming, collides⟩, rfl⟩
    exact ⟨row, isIn, rfl, incoming, isIncoming, collides⟩
  · rintro ⟨row, isIn, rfl, incoming, isIncoming, collides⟩
    exact ⟨row, ⟨isIn, incoming, isIncoming, collides⟩, rfl⟩

theorem mem_setAll {ids : List (List Char)} {row : QuestionRow} (isIn : row ∈ setAll set ids table) :
    (∃ old ∈ table, old.id ∈ ids ∧ row = set old) ∨ row ∈ table ∧ row.id ∉ ids := by
  obtain ⟨old, isOld, rfl⟩ := List.mem_map.mp isIn
  split
  case isTrue here => exact Or.inl ⟨old, isOld, here, rfl⟩
  case isFalse there => exact Or.inr ⟨isOld, there⟩

theorem ids_setAll (releases : Releases uuid5 set) (ids : List (List Char)) :
    (setAll set ids table).map QuestionRow.id = table.map QuestionRow.id := by
  rw [setAll, List.map_map]
  apply List.map_congr_left
  intro row _
  rw [Function.comp_apply]
  split
  · exact releases.sameId row
  · rfl

theorem setAll_older (releases : Releases uuid5 set) {ids : List (List Char)} {row : QuestionRow}
    (isIn : row ∈ setAll set ids table) :
    ∃ old ∈ table, old.id = row.id ∧ old.retiredAt = row.retiredAt := by
  rcases mem_setAll isIn with ⟨old, isOld, -, rfl⟩ | ⟨isOld, -⟩
  · exact ⟨old, isOld, (releases.sameId old).symm, (releases.sameRetirement old).symm⟩
  · exact ⟨row, isOld, rfl, rfl⟩

theorem release_ok (sound : Sound uuid5 table) (unsentinel : Unsentinel uuid5 table bank) :
    ∃ released, releaseCollidingNaturalKeys uuid5 bank table = .ok released ∧ Sound uuid5 released ∧
      released.map QuestionRow.id = table.map QuestionRow.id ∧
      (∀ row ∈ released, ∃ old ∈ table, old.id = row.id ∧ old.retiredAt = row.retiredAt) ∧
      ∀ incoming ∈ bank, ∀ row ∈ released, row.question.clash incoming.question = true →
        row.id = incoming.id := by
  have first := (@releases_externalId uuid5).updates (colliding (·.externalId) bank table) sound
  have second := releases_ibn.updates
    (colliding (·.ibn) bank (setAll releaseExternalId (colliding (·.externalId) bank table) table)) first.2
  refine ⟨_, ?_, second.2, ?_, ?_, ?_⟩
  · simp only [releaseCollidingNaturalKeys, first.1]
    exact second.1
  · rw [ids_setAll releases_ibn, ids_setAll (@releases_externalId uuid5)]
  · intro row isIn
    obtain ⟨middle, isMiddle, sameId, sameRetirement⟩ := setAll_older releases_ibn isIn
    rw [← sameId, ← sameRetirement]
    exact setAll_older (@releases_externalId uuid5) isMiddle
  · intro incoming isIncoming row isIn clash
    by_contra apart
    rcases mem_setAll isIn with ⟨old, -, -, rfl⟩ | ⟨isFirst, ibnKept⟩
    · rcases clash_iff.mp clash with ⟨key, own, held⟩ | ⟨key, none, -⟩
      · exact unsentinel.externalId incoming isIncoming old.id (held.trans own.symm)
      · cases none
    · rcases clash_iff.mp clash with external | ibn
      · rcases mem_setAll isFirst with ⟨old, -, -, rfl⟩ | ⟨isOld, externalKept⟩
        · obtain ⟨key, none, -⟩ := external
          cases none
        · exact externalKept (mem_colliding.mpr
            ⟨row, isOld, rfl, incoming, isIncoming, sameKey_iff.mpr external, apart⟩)
      · exact ibnKept (mem_colliding.mpr
          ⟨row, isFirst, rfl, incoming, isIncoming, sameKey_iff.mpr ibn, apart⟩)

theorem Sound.insert (sound : Sound uuid5 table) {row : QuestionRow} (oneKey : row.question.oneKey = true)
    (free : ∀ other ∈ table, row.question.clash other.question = true → row.id = other.id)
    (ibn : ∀ id, row.question.ibn ≠ some (retiredIbnSentinel id))
    (externalId : ∀ id, row.question.externalId ≠ some (uuid5 id))
    (sentinels : ∀ other ∈ table, uuid5 row.id = uuid5 other.id → row.id = other.id) :
    Sound uuid5 (insertKey QuestionRow.id table row) := by
  have mem := @Upsert.mem_insertKey _ _ _ QuestionRow.id table sound.ids row
  refine ⟨Upsert.nodup_insertKey sound.ids row, ?_, ?_, ?_, ?_, ?_⟩
  · intro other isIn
    rcases mem.mp isIn with rfl | ⟨isOld, -⟩
    · exact oneKey
    · exact sound.oneKey other isOld
  · intro first isFirst second isSecond clash
    rcases mem.mp isFirst with rfl | ⟨firstOld, -⟩ <;> rcases mem.mp isSecond with rfl | ⟨secondOld, -⟩
    · rfl
    · exact free second secondOld clash
    · exact (free first firstOld (clash_comm.mp clash)).symm
    · exact sound.keys first firstOld second secondOld clash
  · intro other isIn id held
    rcases mem.mp isIn with rfl | ⟨isOld, -⟩
    · exact absurd held (ibn id)
    · exact sound.ownIbn other isOld id held
  · intro other isIn id held
    rcases mem.mp isIn with rfl | ⟨isOld, -⟩
    · exact absurd held (externalId id)
    · exact sound.ownExternalId other isOld id held
  · intro first isFirst second isSecond same
    rcases mem.mp isFirst with rfl | ⟨firstOld, -⟩ <;> rcases mem.mp isSecond with rfl | ⟨secondOld, -⟩
    · rfl
    · exact sentinels second secondOld same
    · exact (sentinels first firstOld same.symm).symm
    · exact sound.sentinels first firstOld second secondOld same

def live (row : BankRow) : QuestionRow := ⟨row.question, none⟩

theorem upserts_ok {before : List QuestionRow} (unsentinel : Unsentinel uuid5 before bank)
    (format : WellFormed bank) {rest : List BankRow} (isPart : ∀ row ∈ rest, row ∈ bank)
    (distinct : (rest.map BankRow.id).Nodup) (sound : Sound uuid5 table)
    (known : ∀ row ∈ table, row.id ∈ before.map QuestionRow.id ++ bank.map BankRow.id)
    (free : ∀ incoming ∈ bank, ∀ row ∈ table, row.question.clash incoming.question = true →
      row.id = incoming.id) :
    ∃ next, (rest.map live).foldlM upsertQuestion table = .ok next ∧ Sound uuid5 next ∧
      ∀ row, row ∈ next ↔ (∃ incoming ∈ rest, row = live incoming) ∨
        row ∈ table ∧ row.id ∉ rest.map BankRow.id := by
  induction rest generalizing table with
  | nil => exact ⟨table, rfl, sound, by simp⟩
  | cons first rest ih =>
    have isFirst : first ∈ bank := isPart first List.mem_cons_self
    have freeFirst : ∀ other ∈ table, (live first).question.clash other.question = true →
        (live first).id = other.id :=
      fun other isOther clash => (free first isFirst other isOther (clash_comm.mp clash)).symm
    have mem := @Upsert.mem_insertKey _ _ _ QuestionRow.id table sound.ids (live first)
    have knownFirst : first.id ∈ before.map QuestionRow.id ++ bank.map BankRow.id :=
      List.mem_append_right _ (List.mem_map_of_mem isFirst)
    have inserted : Sound uuid5 (insertKey QuestionRow.id table (live first)) :=
      sound.insert (format.oneKey first isFirst) freeFirst (unsentinel.ibn first isFirst)
        (unsentinel.externalId first isFirst) fun other isOther =>
          unsentinel.distinguished first.id knownFirst other.id (known other isOther)
    obtain ⟨next, ran, nextSound, nextMem⟩ := ih (fun row isIn => isPart row (List.mem_cons_of_mem _ isIn))
      (List.nodup_cons.mp distinct).2 inserted
      (by
        intro row isIn
        rcases mem.mp isIn with rfl | ⟨isOld, -⟩
        · exact knownFirst
        · exact known row isOld)
      (by
        intro incoming isIncoming row isIn clash
        rcases mem.mp isIn with rfl | ⟨isOld, -⟩
        · exact format.keys first isFirst incoming isIncoming clash
        · exact free incoming isIncoming row isOld clash)
    refine ⟨next, ?_, nextSound, fun row => ?_⟩
    · rw [List.map_cons, List.foldlM_cons, upsertQuestion,
        admit_ok (format.oneKey first isFirst) freeFirst]
      exact ran
    · rw [nextMem, mem]
      have firstLater : first.id ∉ rest.map BankRow.id := (List.nodup_cons.mp distinct).1
      constructor
      · rintro (⟨incoming, isIncoming, rfl⟩ | ⟨rfl | ⟨isOld, apart⟩, later⟩)
        · exact Or.inl ⟨incoming, List.mem_cons_of_mem _ isIncoming, rfl⟩
        · exact Or.inl ⟨first, List.mem_cons_self, rfl⟩
        · refine Or.inr ⟨isOld, ?_⟩
          rw [List.map_cons, List.mem_cons, not_or]
          exact ⟨apart, later⟩
      · rintro (⟨incoming, isIncoming, rfl⟩ | ⟨isOld, absent⟩)
        · rcases List.mem_cons.mp isIncoming with rfl | isLater
          · exact Or.inr ⟨Or.inl rfl, firstLater⟩
          · exact Or.inl ⟨incoming, isLater, rfl⟩
        · rw [List.map_cons, List.mem_cons, not_or] at absent
          exact Or.inr ⟨Or.inr ⟨isOld, absent.1⟩, absent.2⟩

def Accepted (bank : List BankRow) (tables : BankTables) : Prop :=
  checkRetirementIsSafe tables.existingLiveIds.length
    (planRetirements tables.existingLiveIds (bank.map BankRow.id)).length = .ok ()

def aliasesAfter (bank : List BankRow) (aliases : List (List Char × List Char)) :
    List (List Char × List Char) :=
  (bank.flatMap fun row => row.aliases.map (·, row.id)).foldl (insertKey Prod.fst)
    (aliases.filter fun entry => entry.1 ∉ bank.map BankRow.id)

variable {tables : BankTables} {now : Int}

theorem mem_toRetire {id : List Char} :
    id ∈ planRetirements tables.existingLiveIds (bank.map BankRow.id) ↔
      (∃ row ∈ tables.questions, row.retiredAt = none ∧ row.id = id) ∧ id ∉ bank.map BankRow.id := by
  simp only [planRetirements, BankTables.existingLiveIds, List.mem_filter, List.mem_map,
    decide_eq_true_eq, and_assoc]

theorem applySync_ok (sound : Sound uuid5 tables.questions) (format : WellFormed bank)
    (unsentinel : Unsentinel uuid5 tables.questions bank) (accepted : Accepted bank tables) :
    ∃ questions, applySync uuid5 now bank tables = .ok ⟨questions, aliasesAfter bank tables.aliases⟩ ∧
      Sound uuid5 questions ∧
      (∀ row, row ∈ questions ∧ row.retiredAt = none ↔ ∃ incoming ∈ bank, row = live incoming) ∧
      ∀ id, id ∈ questions.map QuestionRow.id ↔
        id ∈ tables.questions.map QuestionRow.id ∨ id ∈ bank.map BankRow.id := by
  obtain ⟨released, releasing, soundReleased, sameIds, older, free⟩ := release_ok sound unsentinel
  have known : ∀ row ∈ released, row.id ∈ tables.questions.map QuestionRow.id ++ bank.map BankRow.id := by
    intro row isIn
    exact List.mem_append_left _ (sameIds ▸ List.mem_map_of_mem isIn)
  obtain ⟨upserted, writing, soundUpserted, mem⟩ :=
    upserts_ok unsentinel format (fun _ isIn => isIn) format.ids soundReleased known free
  refine ⟨setAll (fun row => { row with retiredAt := some now })
    (planRetirements tables.existingLiveIds (bank.map BankRow.id)) upserted, ?_, ?_, ?_, ?_⟩
  · rw [Accepted] at accepted
    simp only [applySync, accepted, releasing]
    change (List.foldlM upsertQuestion released (bank.map live) >>= _) = _
    rw [writing]
    rfl
  · apply soundUpserted.map
    · intro row
      split <;> rfl
    · intro row isIn
      split <;> exact soundUpserted.oneKey row isIn
    · intro row isIn other isOther
      split <;> split <;> exact soundUpserted.keys row isIn other isOther
    · intro row isIn
      split <;> exact soundUpserted.ownIbn row isIn
    · intro row isIn
      split <;> exact soundUpserted.ownExternalId row isIn
  · intro row
    constructor
    · rintro ⟨isIn, isLive⟩
      obtain ⟨old, isOld, rfl⟩ := List.mem_map.mp isIn
      split at isLive
      case isTrue => cases isLive
      case isFalse stays =>
        rw [if_neg stays]
        rcases (mem old).mp isOld with isBank | ⟨isReleased, absent⟩
        · exact isBank
        · obtain ⟨first, isFirst, sameId, sameRetirement⟩ := older old isReleased
          exact absurd (mem_toRetire.mpr ⟨⟨first, isFirst, sameRetirement.trans isLive, sameId⟩, absent⟩) stays
    · rintro ⟨incoming, isIncoming, rfl⟩
      have stays : (live incoming).id ∉ planRetirements tables.existingLiveIds (bank.map BankRow.id) :=
        fun bad => (mem_toRetire.mp bad).2 (List.mem_map_of_mem isIncoming)
      exact ⟨List.mem_map.mpr ⟨live incoming, (mem _).mpr (Or.inl ⟨incoming, isIncoming, rfl⟩), if_neg stays⟩, rfl⟩
  · intro id
    have kept : (setAll (fun row => { row with retiredAt := some now })
        (planRetirements tables.existingLiveIds (bank.map BankRow.id)) upserted).map QuestionRow.id =
          upserted.map QuestionRow.id := by
      rw [setAll, List.map_map]
      apply List.map_congr_left
      intro row _
      rw [Function.comp_apply]
      split <;> rfl
    rw [kept, ← sameIds]
    constructor
    · intro isIn
      obtain ⟨row, isRow, rfl⟩ := List.mem_map.mp isIn
      rcases (mem row).mp isRow with ⟨incoming, isIncoming, rfl⟩ | ⟨isReleased, -⟩
      · exact Or.inr (List.mem_map.mpr ⟨incoming, isIncoming, rfl⟩)
      · exact Or.inl (List.mem_map_of_mem isReleased)
    · intro either
      by_cases isBank : id ∈ bank.map BankRow.id
      · obtain ⟨incoming, isIncoming, rfl⟩ := List.mem_map.mp isBank
        exact List.mem_map.mpr ⟨live incoming, (mem _).mpr (Or.inl ⟨incoming, isIncoming, rfl⟩), rfl⟩
      · obtain ⟨row, isReleased, rfl⟩ := List.mem_map.mp (either.resolve_right isBank)
        exact List.mem_map_of_mem ((mem row).mpr (Or.inr ⟨isReleased, isBank⟩))

end Counselle.Sat

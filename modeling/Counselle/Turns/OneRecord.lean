import Counselle.Turns.Persistence

/-! One assistant message, one record: what each way of committing keeps. -/
namespace Counselle.Turns
open Records

def messageIds (records : List TurnRecord) : List String := records.map (·.messageId)

/-- No id twice, and nothing but the last record waits for the student. -/
structure OneRecord (records : List TurnRecord) : Prop where
  ids : (messageIds records).Nodup
  awaits : ∀ record ∈ records.dropLast, record.status ≠ .awaitingInput

variable {records : List TurnRecord} {record last : TurnRecord}

theorem OneRecord.nil : OneRecord [] := ⟨List.nodup_nil, by simp⟩

theorem dropLast_snoc_last (isLast : records.getLast? = some last) :
    records.dropLast ++ [last] = records := by
  obtain ⟨front, rfl⟩ := List.getLast?_eq_some_iff.mp isLast
  simp

theorem not_parked_snoc (record : TurnRecord) (settled : record.status ≠ .awaitingInput) :
    isParked (records ++ [record]) = false := by
  simp [isParked, settled]

theorem OneRecord.settled (one : OneRecord records) (idle : isParked records = false) :
    ∀ record ∈ records, record.status ≠ .awaitingInput := by
  intro record isIn
  cases isLast : records.getLast? with
  | none =>
    rw [List.getLast?_eq_none_iff.mp isLast] at isIn
    cases isIn
  | some last =>
    rw [← dropLast_snoc_last isLast] at isIn
    obtain before | here := List.mem_append.mp isIn
    · exact one.awaits record before
    · cases List.mem_singleton.mp here
      simpa [isParked, isLast] using idle

theorem OneRecord.replace (one : OneRecord records) (isLast : records.getLast? = some last)
    (same : record.messageId = last.messageId) : OneRecord (records.dropLast ++ [record]) := by
  have ids := one.ids
  rw [← dropLast_snoc_last isLast] at ids
  refine ⟨?_, ?_⟩
  · simpa [messageIds, same] using ids
  · rw [List.dropLast_concat]
    exact one.awaits

theorem OneRecord.append (one : OneRecord records) (idle : isParked records = false)
    (fresh : record.messageId ∉ messageIds records) : OneRecord (records ++ [record]) := by
  refine ⟨?_, ?_⟩
  · simp only [messageIds, List.map_append, List.map_cons, List.map_nil]
    exact List.nodup_append.mpr ⟨one.ids, List.nodup_singleton _,
      fun a isIn b isHere same => fresh (by simp_all [messageIds])⟩
  · rw [List.dropLast_concat]
    exact one.settled idle

theorem OneRecord.take (one : OneRecord records) (count : Nat) : OneRecord (records.take count) := by
  refine ⟨?_, ?_⟩
  · rw [messageIds, List.map_take]
    exact one.ids.sublist (List.take_sublist _ _)
  · intro record isIn
    apply one.awaits record
    rw [List.dropLast_eq_take, List.take_take, List.length_take] at isIn
    rw [List.dropLast_eq_take]
    exact (List.take_prefix_take_left (by omega)).subset isIn

/-- The list a record with this id may be put into: the parked legacy record it
resumes is the tail, or nothing is parked and the id is new. -/
def Fits (id : String) (base : List TurnRecord) : Prop :=
  (∃ last, base.getLast? = some last ∧ last.status = .awaitingInput ∧ last.messageId = id ∧
    last.isV2Clarify = false) ∨
  (isParked base = false ∧ id ∉ messageIds base)

theorem OneRecord.commit {base : List TurnRecord} (one : OneRecord base)
    (fits : Fits record.messageId base) : OneRecord (appendOrReplace base record) := by
  obtain ⟨last, isLast, awaits, same, legacy⟩ | ⟨idle, fresh⟩ := fits
  · rw [appendOrReplace, isLast]
    simp only [awaits, same, legacy, and_self, if_true]
    exact one.replace isLast same.symm
  · have appended : appendOrReplace base record = base ++ [record] := by
      unfold appendOrReplace
      split
      case h_1 last isLast =>
        have settled : last.status ≠ .awaitingInput := by simpa [isParked, isLast] using idle
        rw [if_neg fun both => settled both.1]
      · rfl
    rw [appended]
    exact one.append idle fresh

theorem messageIds_commit (base : List TurnRecord) (record : TurnRecord) :
    ∀ id ∈ messageIds (appendOrReplace base record), id = record.messageId ∨ id ∈ messageIds base := by
  intro id isIn
  have split : appendOrReplace base record = base ++ [record] ∨
      appendOrReplace base record = base.dropLast ++ [record] := by
    unfold appendOrReplace
    split
    · split
      · exact Or.inr rfl
      · exact Or.inl rfl
    · exact Or.inl rfl
  obtain same | same := split
  · rw [same, messageIds, List.map_append, List.mem_append] at isIn
    obtain before | here := isIn
    · exact Or.inr before
    · exact Or.inl (by simpa using here)
  · rw [same, messageIds, List.map_append, List.mem_append] at isIn
    obtain before | here := isIn
    · exact Or.inr (List.map_subset _ (List.dropLast_subset base) before)
    · exact Or.inl (by simpa using here)

theorem getLast?_commit (base : List TurnRecord) (record : TurnRecord) :
    (appendOrReplace base record).getLast? = some record := by
  unfold appendOrReplace
  split
  · split <;> simp
  · simp

end Counselle.Turns

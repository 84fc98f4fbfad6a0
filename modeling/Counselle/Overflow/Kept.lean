import Counselle.Overflow.Budget
import Counselle.Fallible
import Mathlib

/-! What a spilled write keeps: its receipt and its marker in the stand-in, and the whole value
behind the handle, over any number of turns. -/
namespace Counselle.Overflow
open CompactJson (quote bytes quoted)
open PyJson (JsonValue)

section Entries
variable {key other : String} {value : JsonValue} {receipt : Members}

theorem lookup_setKey (key : String) (value : JsonValue) (receipt : Members) :
    (setKey key value receipt).lookup key = some value := by
  unfold setKey
  induction receipt with
  | nil => simp [Upsert.upsert]
  | cons entry receipt ih =>
    obtain ⟨first, held⟩ := entry
    by_cases here : first = key
    · simp [Upsert.upsert, here]
    · have apart : (key == first) = false := beq_false_of_ne (Ne.symm here)
      simp only [Upsert.upsert, beq_false_of_ne here, Bool.false_eq_true, if_false, List.lookup_cons, apart]
      exact ih

theorem lookup_setKey_ne (apart : other ≠ key) : (setKey key value receipt).lookup other = receipt.lookup other := by
  unfold setKey
  induction receipt with
  | nil => simp [Upsert.upsert, beq_false_of_ne apart, List.lookup_cons]
  | cons entry receipt ih =>
    obtain ⟨first, held⟩ := entry
    by_cases here : first = key
    · subst here
      simp [Upsert.upsert, List.lookup_cons, beq_false_of_ne apart]
    · simp only [Upsert.upsert, beq_false_of_ne here, Bool.false_eq_true, if_false, List.lookup_cons, ih]

theorem lookup_filter_filled (isHeld : receipt.lookup key = some value) (filled : isFilled value = true) :
    (receipt.filter fun entry => isFilled entry.2).lookup key = some value := by
  induction receipt with
  | nil => cases isHeld
  | cons entry receipt ih =>
    obtain ⟨first, held⟩ := entry
    rw [List.lookup_cons] at isHeld
    by_cases here : key = first
    · subst here
      rw [beq_self_eq_true] at isHeld
      obtain rfl := Option.some.inj isHeld
      rw [List.filter_cons_of_pos (by exact filled), List.lookup_cons, beq_self_eq_true]
    · rw [beq_false_of_ne here] at isHeld
      rw [List.filter_cons]
      split
      · rw [List.lookup_cons, beq_false_of_ne here]
        exact ih isHeld
      · exact ih isHeld

theorem weights_of_lookups {members : Members} {one : JsonValue} (weight : String × JsonValue → Nat)
    (isHeld : members.lookup key = some value) (isOther : members.lookup other = some one) (apart : key ≠ other) :
    weight (key, value) + weight (other, one) ≤ (members.map weight).sum := by
  have single : ∀ (k : String) (v : JsonValue) (given : Members), given.lookup k = some v →
      weight (k, v) ≤ (given.map weight).sum := by
    intro k v given isIn
    obtain ⟨before, after, rfl, -⟩ := List.lookup_eq_some_iff.mp isIn
    rw [List.map_append, List.sum_append, List.map_cons, List.sum_cons]
    omega
  induction members with
  | nil => cases isHeld
  | cons entry members ih =>
    obtain ⟨first, held⟩ := entry
    rw [List.lookup_cons] at isHeld isOther
    rw [List.map_cons, List.sum_cons]
    by_cases here : key = first
    · subst here
      rw [beq_self_eq_true] at isHeld
      rw [beq_false_of_ne apart.symm] at isOther
      obtain rfl := Option.some.inj isHeld
      have rest := single other one members isOther
      omega
    · rw [beq_false_of_ne here] at isHeld
      by_cases there : other = first
      · subst there
        rw [beq_self_eq_true] at isOther
        obtain rfl := Option.some.inj isOther
        have rest := single key value members isHeld
        omega
      · rw [beq_false_of_ne there] at isOther
        have rest := ih isHeld isOther
        omega

end Entries

/-- `value["public_receipt"]["mutation"]`, where both are mappings. -/
def mutationOf (value : Members) : Option Members :=
  match value.lookup "public_receipt" with
  | some (.dict existing) =>
    match existing.lookup "mutation" with
    | some (.dict mutation) => some mutation
    | _ => none
  | _ => none

section Receipt
variable (value receipt : Members)

theorem copySchool_mutation : (copySchool value receipt).lookup "mutation" = receipt.lookup "mutation" := by
  unfold copySchool
  split
  · split
    · split
      · rfl
      · exact lookup_setKey_ne (by decide)
    · rfl
  · rfl

theorem copyAvailability_mutation :
    (copyAvailability value receipt).lookup "mutation" = receipt.lookup "mutation" := by
  unfold copyAvailability
  split
  · split
    · exact lookup_setKey_ne (by decide)
    · exact lookup_setKey_ne (by decide)
    · rfl
  · rfl

theorem copyResults_mutation : (copyResults value receipt).lookup "mutation" = receipt.lookup "mutation" := by
  unfold copyResults
  split
  · dsimp only
    split
    · exact lookup_setKey_ne (by decide)
    · rw [lookup_setKey_ne (by decide), lookup_setKey_ne (by decide)]
  · rfl

theorem copyCandidates_mutation :
    (copyCandidates value receipt).lookup "mutation" = receipt.lookup "mutation" := by
  unfold copyCandidates
  split
  · dsimp only
    split
    · exact lookup_setKey_ne (by decide)
    · rw [lookup_setKey_ne (by decide), lookup_setKey_ne (by decide)]
  · rfl

theorem copyRows_mutation : (copyRows value receipt).lookup "mutation" = receipt.lookup "mutation" := by
  unfold copyRows
  split
  · exact lookup_setKey_ne (by decide)
  · rfl

end Receipt

theorem mutationOf_some {value mutation : Members} (isReceipt : mutationOf value = some mutation) :
    ∃ existing, value.lookup "public_receipt" = some (.dict existing) ∧
      existing.lookup "mutation" = some (.dict mutation) := by
  unfold mutationOf at isReceipt
  split at isReceipt
  case h_2 => cases isReceipt
  case h_1 existing isExisting =>
    split at isReceipt
    case h_2 => cases isReceipt
    case h_1 isMutation => exact ⟨existing, isExisting, Option.some.inj isReceipt ▸ isMutation⟩

theorem publicReceipt_mutation {value mutation : Members} (isReceipt : mutationOf value = some mutation) :
    (publicReceipt (.json (.dict value))).lookup "mutation" = some (.dict mutation) := by
  apply lookup_filter_filled _ rfl
  rw [mappingReceipt, copyRows_mutation, copyCandidates_mutation, copyResults_mutation, copyAvailability_mutation,
    copySchool_mutation]
  obtain ⟨existing, isExisting, isMutation⟩ := mutationOf_some isReceipt
  rw [copyExisting, isExisting]
  dsimp only
  rw [copyMutation, isMutation]
  exact lookup_setKey _ _ _

theorem mutationOf_members {envelope : Envelope} {mutation : Members}
    (isReceipt : envelope.publicReceipt.lookup "mutation" = some (.dict mutation)) :
    mutationOf envelope.members = some mutation := by
  have found : envelope.members.lookup "public_receipt" = some (.dict envelope.publicReceipt) := rfl
  rw [mutationOf, found]
  dsimp only
  rw [isReceipt]

section Length
variable (floats : FloatText)

def memberText (entry : String × JsonValue) : List Char := quote entry.1 ++ ':' :: toJson floats entry.2

theorem toJsonMembers_eq (members : Members) : toJsonMembers floats members = members.map (memberText floats) := by
  induction members with
  | nil => rfl
  | cons entry members ih =>
    obtain ⟨key, value⟩ := entry
    rw [toJsonMembers, ih]
    rfl

theorem length_joined (parts : List (List Char)) : (parts.map List.length).sum ≤ (joined parts).length := by
  induction parts using joined.induct with
  | case1 => exact Nat.le_refl _
  | case2 part => simp [joined]
  | case3 part next rest ih =>
    rw [joined, List.map_cons, List.sum_cons, List.length_append, List.length_cons]
    omega

theorem length_dict (members : Members) :
    (members.map fun entry => (memberText floats entry).length).sum + 2 ≤ (toJson floats (.dict members)).length := by
  have inner := length_joined (toJsonMembers floats members)
  rw [toJsonMembers_eq, List.map_map] at inner
  simp only [toJson, List.length_cons, List.length_append, List.length_nil, toJsonMembers_eq]
  exact Nat.add_le_add_right inner 2

theorem length_member (key : String) (value : JsonValue) :
    key.toList.length + 3 + (toJson floats value).length ≤ (memberText floats (key, value)).length := by
  have name := length_quote key
  simp only [memberText, List.length_append, List.length_cons]
  omega

theorem write_is_long {value mutation : Members} {marker : JsonValue} (isReceipt : mutationOf value = some mutation)
    (isMarker : value.lookup "mutation_contract" = some marker) : 45 ≤ (toJson floats (.dict value)).length := by
  obtain ⟨existing, isExisting, isMutation⟩ := mutationOf_some isReceipt
  have whole := length_dict floats value
  have two := weights_of_lookups (fun entry => (memberText floats entry).length) isExisting isMarker (by decide)
  have outer := length_member floats "public_receipt" (.dict existing)
  have marked := length_member floats "mutation_contract" marker
  have inner := length_dict floats existing
  obtain ⟨before, after, isIn, -⟩ := List.lookup_eq_some_iff.mp isMutation
  have receipt := length_member floats "mutation" (.dict mutation)
  have atLeast : (memberText floats ("mutation", .dict mutation)).length ≤
      (existing.map fun entry => (memberText floats entry).length).sum := by
    rw [isIn, List.map_append, List.sum_append, List.map_cons, List.sum_cons]
    omega
  have lengths : "public_receipt".toList.length = 14 ∧ "mutation_contract".toList.length = 17 ∧
      "mutation".toList.length = 8 := by decide
  omega

end Length

def Stable (payload : Payload) : Prop := decodeStoredPayload (encodeStoredPayload payload) = some payload

theorem stable_binary (data : List UInt8) : Stable (.binary data) := by
  have isData : encodedData (encodeStoredPayload (.binary data)) = some (String.ofList (Base64.encode data)) := rfl
  rw [Stable, decodeStoredPayload, isData]
  dsimp only
  rw [String.toList_ofList, Base64.decode_encode]
  rfl

theorem stable_json_iff {value : JsonValue} : Stable (.json value) ↔ encodedData value = none := by
  rw [Stable, encodeStoredPayload, decodeStoredPayload]
  cases encodedData value with
  | none => exact iff_of_true rfl rfl
  | some data =>
    dsimp only
    cases Base64.decode data.toList with
    | none => simp
    | some bytes => simp

theorem stable_of_decode {value : JsonValue} {payload : Payload} (isRead : decodeStoredPayload value = some payload) :
    Stable payload := by
  unfold decodeStoredPayload at isRead
  split at isRead
  case h_1 data isData =>
    obtain ⟨bytes, -, rfl⟩ := Option.map_eq_some_iff.mp isRead
    exact stable_binary bytes
  case h_2 isPlain =>
    obtain rfl := Option.some.inj isRead
    exact stable_json_iff.mpr isPlain

def ToolResultStore.Restorable (store : ToolResultStore) : Prop :=
  ∀ entry ∈ store.payloads, decodeStoredPayload (encodeStoredPayload entry.2) ≠ none

def Restores (before after : String × Payload) : Prop :=
  after.1 = before.1 ∧ decodeStoredPayload (encodeStoredPayload before.2) = some after.2

theorem restore_dump_iff {store restored : ToolResultStore} :
    restore store.dump = some restored ↔ List.Forall₂ Restores store.payloads restored.payloads := by
  have each : ∀ before after : String × Payload,
      ((decodeStoredPayload (encodeStoredPayload before.2)).map fun decoded => (before.1, decoded)) = some after ↔
        Restores before after := by
    intro before after
    obtain ⟨handle, payload⟩ := after
    rw [Option.map_eq_some_iff]
    constructor
    · rintro ⟨decoded, isDecoded, same⟩
      obtain ⟨rfl, rfl⟩ := Prod.mk.injEq _ _ _ _ ▸ same
      exact ⟨rfl, isDecoded⟩
    · rintro ⟨rfl, isDecoded⟩
      exact ⟨payload, isDecoded, rfl⟩
  obtain ⟨payloads⟩ := restored
  rw [restore, ToolResultStore.dump, Option.map_eq_some_iff]
  constructor
  · rintro ⟨read, isRead, same⟩
    cases same
    rw [Fallible.mapM_some_iff, List.forall₂_map_left_iff] at isRead
    exact isRead.imp fun before after => (each before after).mp
  · intro pairs
    refine ⟨payloads, ?_, rfl⟩
    rw [Fallible.mapM_some_iff, List.forall₂_map_left_iff]
    exact pairs.imp fun before after => (each before after).mpr

theorem restorable_iff {store : ToolResultStore} :
    store.Restorable ↔ ∃ restored, restore store.dump = some restored := by
  constructor
  · intro isRestorable
    have each : ∀ payloads : List (String × Payload),
        (∀ entry ∈ payloads, decodeStoredPayload (encodeStoredPayload entry.2) ≠ none) →
          ∃ restored, List.Forall₂ Restores payloads restored := by
      intro payloads
      induction payloads with
      | nil => exact fun _ => ⟨[], .nil⟩
      | cons entry payloads ih =>
        intro decodes
        rw [List.forall_mem_cons] at decodes
        obtain ⟨decoded, isDecoded⟩ := Option.ne_none_iff_exists'.mp decodes.1
        obtain ⟨restored, pairs⟩ := ih decodes.2
        exact ⟨(entry.1, decoded) :: restored, .cons ⟨rfl, isDecoded⟩ pairs⟩
    obtain ⟨restored, pairs⟩ := each store.payloads isRestorable
    exact ⟨⟨restored⟩, restore_dump_iff.mpr pairs⟩
  · rintro ⟨restored, isRestored⟩ entry isIn
    have pairs := restore_dump_iff.mp isRestored
    obtain ⟨after, -, isRead⟩ := Fallible.forall₂_mem_left pairs entry isIn
    rw [isRead.2]
    nofun

theorem restore_stable {store : ToolResultStore} (areStable : ∀ entry ∈ store.payloads, Stable entry.2) :
    restore store.dump = some store := by
  rw [restore_dump_iff, List.forall₂_same]
  exact fun entry isIn => ⟨rfl, areStable entry isIn⟩

theorem stable_of_restored {store restored : ToolResultStore} (isRestored : restore store.dump = some restored) :
    ∀ entry ∈ restored.payloads, Stable entry.2 := by
  intro entry isIn
  obtain ⟨before, -, isRead⟩ := Fallible.forall₂_mem_left (restore_dump_iff.mp isRestored).flip entry isIn
  exact stable_of_decode isRead.2

theorem afterRounds_succ {store restored : ToolResultStore} (isRestored : restore store.dump = some restored)
    (rounds : Nat) : store.afterRounds (rounds + 1) = some restored := by
  induction rounds with
  | zero => exact isRestored
  | succ rounds ih =>
    rw [ToolResultStore.afterRounds, ih, Option.bind_some]
    exact restore_stable (stable_of_restored isRestored)

theorem lookup_restored {store restored : List (String × Payload)} (pairs : List.Forall₂ Restores store restored)
    {handle : String} {payload : Payload} (isHeld : store.lookup handle = some payload) :
    ∃ decoded, restored.lookup handle = some decoded ∧
      decodeStoredPayload (encodeStoredPayload payload) = some decoded := by
  induction pairs with
  | nil => cases isHeld
  | @cons before after _ _ isRead _ ih =>
    obtain ⟨key, held⟩ := before
    obtain ⟨other, decoded⟩ := after
    obtain ⟨same, isDecoded⟩ := isRead
    dsimp only at same isDecoded
    subst same
    rw [List.lookup_cons] at isHeld ⊢
    cases here : handle == other with
    | true =>
      rw [here] at isHeld
      obtain rfl := Option.some.inj isHeld
      exact ⟨decoded, rfl, isDecoded⟩
    | false =>
      rw [here] at isHeld
      exact ih isHeld

theorem freshHandle_some {keys : List String} {draws : List Uuid} {handle : String}
    (isFresh : freshHandle keys draws = some handle) : handle ∉ keys ∧ ∃ uuid, handle = handleOf uuid := by
  induction draws with
  | nil => cases isFresh
  | cons uuid draws ih =>
    rw [freshHandle] at isFresh
    split at isFresh
    case isTrue => exact ih isFresh
    case isFalse isNew =>
      obtain rfl := Option.some.inj isFresh
      exact ⟨isNew, uuid, rfl⟩

theorem freshHandle_isSome {keys : List String} {draws : List Uuid}
    (comes : ∃ uuid ∈ draws, handleOf uuid ∉ keys) : ∃ handle, freshHandle keys draws = some handle := by
  induction draws with
  | nil => simp at comes
  | cons uuid draws ih =>
    rw [freshHandle]
    split
    case isFalse => exact ⟨_, rfl⟩
    case isTrue isHeld =>
      obtain ⟨other, isIn, isNew⟩ := comes
      rcases List.mem_cons.mp isIn with rfl | isIn
      · exact absurd isHeld isNew
      · exact ih ⟨other, isIn, isNew⟩

theorem lookup_snoc {K V : Type} [BEq K] [LawfulBEq K] {entries : List (K × V)} {key : K} {value : V}
    (isNew : key ∉ entries.map Prod.fst) : (entries ++ [(key, value)]).lookup key = some value := by
  have before : entries.lookup key = none := by
    rw [List.lookup_eq_none_iff]
    intro entry isIn
    apply bne_iff_ne.mpr
    rintro rfl
    exact isNew (List.mem_map_of_mem isIn)
  rw [List.lookup_append, before, List.lookup_cons, beq_self_eq_true]
  rfl

section Spill
variable (floats : FloatText) (repr : String → String)

/-- What the stand-in of a write and the store behind it keep. -/
structure Kept (value : Members) (envelope : Envelope) (after : ToolResultStore) : Prop where
  budget : envelope.bytes floats ≤ compactResultMaxBytes
  receipt : mutationOf envelope.members = mutationOf value
  marker : envelope.members.lookup "mutation_contract" = some (.int 1)
  readBack : ∀ rounds, ∃ restored, after.afterRounds rounds = some restored ∧
    restored.read envelope.handle = .json (.dict value)

theorem zero_hex : '0' ∈ "0123456789abcdef".toList := by decide

def zeroUuid : Uuid := ⟨List.replicate 32 '0', List.length_replicate, fun c isIn => by
  rw [List.eq_of_mem_replicate isIn]
  exact zero_hex⟩

/-- The bytes of a stand-in with nothing of the result but the number of its characters. -/
def standInBytes (chars : Nat) : Nat := (frame (handleOf zeroUuid) chars true).cut.bytes floats

/-- The fields of the result that its public receipt copies leave the room for the rest of the
stand-in. -/
def Room (value : Members) : Prop :=
  standInBytes floats (toJson floats (.dict value)).length +
    size floats (.dict (publicReceipt (.json (.dict value)))) ≤ compactResultMaxBytes + 2

theorem cut_fits_iff {envelope : Envelope} (uuid : Uuid) (isHandle : envelope.handle = handleOf uuid)
    (marked : envelope.contract = true) : fitsBudget floats envelope.cut = true ↔
      standInBytes floats envelope.chars + size floats (.dict envelope.publicReceipt) ≤ compactResultMaxBytes + 2 := by
  have nothing : size floats (.dict []) = 2 := by
    simp only [size, toJson, toJsonMembers, joined]
    decide
  have whole := bytes_eq floats envelope.cut
  have bare := bytes_eq floats (frame (handleOf zeroUuid) envelope.chars true).cut
  have frames := frame_handle floats uuid zeroUuid envelope.chars true
  simp only [Envelope.cut, isHandle, marked] at whole
  simp only [Envelope.cut, frame, nothing] at bare whole frames
  simp only [fitsBudget, standInBytes, Envelope.cut, frame, decide_eq_true_eq, isHandle, marked]
  omega

structure Spilled (value : Members) (overflowed : Envelope) : Prop where
  chars : overflowed.chars = (toJson floats (.dict value)).length
  preview : 200 ≤ overflowed.preview.length ∨ overflowed.preview = toJson floats (.dict value)
  receipt : overflowed.publicReceipt = publicReceipt (.json (.dict value))
  marked : overflowed.contract = true

theorem reduce_overflow {value : Members} {draws : List Uuid} {store after : ToolResultStore} {maxChars : Int}
    {envelope : Envelope} (isWrite : isContract (.json (.dict value)) = true)
    (spilled : reduceToolResult repr floats draws (.json (.dict value)) store maxChars = some (.overflow envelope after)) :
    ∃ overflowed, freshHandle (store.payloads.map Prod.fst) draws = some overflowed.handle ∧
      after = ⟨store.payloads ++ [(overflowed.handle, .json (.dict value))]⟩ ∧ Spilled floats value overflowed ∧
      envelope = shrinkToCompactBudget floats overflowed := by
  unfold reduceToolResult at spilled
  dsimp only at spilled
  split at spilled
  · cases spilled
  · obtain ⟨⟨handle, stored⟩, isPut, isOverflow⟩ := Option.map_eq_some_iff.mp spilled
    obtain ⟨fresh, isFresh, same⟩ := Option.map_eq_some_iff.mp isPut
    obtain ⟨rfl, rfl⟩ := Prod.mk.injEq _ _ _ _ ▸ same
    dsimp only at isOverflow
    rw [Reduced.overflow.injEq] at isOverflow
    obtain ⟨isCut, isStored⟩ := isOverflow
    have text : textOf floats (.json (.dict value)) = toJson floats (.dict value) :=
      stripAnsi_toJson floats (.dict value)
    refine ⟨_, isFresh, isStored.symm, ⟨?_, ?_, rfl, isWrite⟩, isCut.symm⟩
    · rw [← text]
      rfl
    · dsimp only
      rw [text]
      by_cases short : (toJson floats (.dict value)).length ≤ max 200 (min (maxChars.toNat / 2) 2000)
      · right
        rw [truncateText, if_pos short]
      · left
        exact le_length_truncate (by omega) (by omega) .headTail

theorem isContract_marker {value : Members} (isWrite : isContract (.json (.dict value)) = true) :
    ∃ marker, value.lookup "mutation_contract" = some marker := by
  cases isHeld : value.lookup "mutation_contract" with
  | none =>
    rw [isContract, isHeld] at isWrite
    cases isWrite
  | some marker => exact ⟨marker, rfl⟩

theorem reads_back_iff {value : JsonValue} {store : ToolResultStore} {handle : String}
    (isNew : handle ∉ store.payloads.map Prod.fst) :
    (∀ rounds, ∃ restored, (ToolResultStore.mk (store.payloads ++ [(handle, Payload.json value)])).afterRounds rounds =
        some restored ∧ restored.read handle = .json value) ↔
      encodedData value = none ∧ store.Restorable := by
  have isHeld : (store.payloads ++ [(handle, Payload.json value)]).lookup handle = some (.json value) := lookup_snoc isNew
  constructor
  · intro reads
    obtain ⟨restored, isRestored, isRead⟩ := reads 1
    have restorable := restorable_iff.mpr ⟨restored, isRestored⟩
    obtain ⟨decoded, isDecoded, comes⟩ := lookup_restored (restore_dump_iff.mp isRestored) isHeld
    rw [ToolResultStore.read, isDecoded, Option.getD_some] at isRead
    subst isRead
    refine ⟨stable_json_iff.mp comes, fun entry isIn => ?_⟩
    exact restorable entry (List.mem_append_left _ isIn)
  · rintro ⟨isPlain, isRestorable⟩ rounds
    have all : (ToolResultStore.mk (store.payloads ++ [(handle, Payload.json value)])).Restorable := by
      intro entry isIn
      rcases List.mem_append.mp isIn with isIn | isIn
      · exact isRestorable entry isIn
      · rw [List.mem_singleton.mp isIn, show _ = some _ from stable_json_iff.mpr isPlain]
        nofun
    obtain ⟨restored, isRestored⟩ := restorable_iff.mp all
    cases rounds with
    | zero => exact ⟨_, rfl, by rw [ToolResultStore.read, isHeld, Option.getD_some]⟩
    | succ rounds =>
      obtain ⟨decoded, isDecoded, comes⟩ := lookup_restored (restore_dump_iff.mp isRestored) isHeld
      refine ⟨restored, afterRounds_succ isRestored rounds, ?_⟩
      rw [ToolResultStore.read, isDecoded, Option.getD_some]
      exact (Option.some.inj ((stable_json_iff.mpr isPlain).symm.trans comes)).symm

variable {value mutation : Members} {draws : List Uuid} {store after : ToolResultStore} {maxChars : Int}
  {envelope : Envelope}

theorem reduce_spills (isWrite : isContract (.json (.dict value)) = true) (positive : 0 < maxChars)
    (isAbove : maxChars < (toJson floats (.dict value)).length)
    (comes : ∃ uuid ∈ draws, handleOf uuid ∉ store.payloads.map Prod.fst) : ∃ envelope after,
      reduceToolResult repr floats draws (.json (.dict value)) store maxChars = some (.overflow envelope after) := by
  obtain ⟨handle, isFresh⟩ := freshHandle_isSome comes
  have text : charsOf floats (.json (.dict value)) = (toJson floats (.dict value)).length :=
    congrArg List.length (stripAnsi_toJson floats (.dict value))
  have above : ¬ (maxChars ≤ 0 ∨ (charsOf floats (.json (.dict value)) : Int) ≤ maxChars) := by
    rw [text]
    omega
  unfold reduceToolResult
  dsimp only
  rw [if_neg above, ToolResultStore.put, isFresh, isWrite]
  exact ⟨_, _, rfl⟩

theorem spilled_fits_iff (isWrite : isContract (.json (.dict value)) = true) (isReceipt : mutationOf value = some mutation)
    (spilled : reduceToolResult repr floats draws (.json (.dict value)) store maxChars = some (.overflow envelope after)) :
    envelope.bytes floats ≤ compactResultMaxBytes ↔ Room floats value := by
  obtain ⟨overflowed, isFresh, isStored, isSpilled, isCut⟩ := reduce_overflow floats repr isWrite spilled
  obtain ⟨isNew, uuid, isHandle⟩ := freshHandle_some isFresh
  obtain ⟨marker, isMarker⟩ := isContract_marker isWrite
  have isLong : 45 ≤ overflowed.preview.length := by
    rcases isSpilled.preview with long | whole
    · omega
    · rw [whole]
      exact write_is_long floats isReceipt isMarker
  have cuts := shrink_fits_iff floats isLong
  rw [← isCut, fitsBudget, decide_eq_true_iff, cut_fits_iff floats uuid isHandle isSpilled.marked,
    isSpilled.chars, isSpilled.receipt] at cuts
  exact cuts

theorem spilled_keeps (isWrite : isContract (.json (.dict value)) = true) (isReceipt : mutationOf value = some mutation)
    (spilled : reduceToolResult repr floats draws (.json (.dict value)) store maxChars = some (.overflow envelope after)) :
    mutationOf envelope.members = some mutation ∧ envelope.members.lookup "mutation_contract" = some (.int 1) := by
  obtain ⟨overflowed, -, -, isSpilled, isCut⟩ := reduce_overflow floats repr isWrite spilled
  obtain ⟨sameReceipt, -, sameContract⟩ := @shrink_keeps floats overflowed
  rw [← isCut] at sameReceipt sameContract
  constructor
  · apply mutationOf_members
    rw [sameReceipt, isSpilled.receipt]
    exact publicReceipt_mutation isReceipt
  · rw [Envelope.members, sameContract, isSpilled.marked]
    rfl

theorem spilled_reads_iff (isWrite : isContract (.json (.dict value)) = true)
    (spilled : reduceToolResult repr floats draws (.json (.dict value)) store maxChars = some (.overflow envelope after)) :
    (∀ rounds, ∃ restored, after.afterRounds rounds = some restored ∧
        restored.read envelope.handle = .json (.dict value)) ↔
      encodedData (.dict value) = none ∧ store.Restorable := by
  obtain ⟨overflowed, isFresh, isStored, -, isCut⟩ := reduce_overflow floats repr isWrite spilled
  obtain ⟨-, sameHandle, -⟩ := @shrink_keeps floats overflowed
  rw [isCut, sameHandle, isStored]
  exact reads_back_iff (freshHandle_some isFresh).1

end Spill

/-- A spilled write always keeps its receipt and its marker. Its stand-in is within the budget
and its value comes back after any number of turns exactly when the copied fields leave the room,
the value does not look like encoded bytes, and no other payload that looks like them fails to
decode. -/
theorem spilled_write_kept_iff (floats : FloatText) (repr : String → String) {value mutation : Members}
    {draws : List Uuid} {store after : ToolResultStore} {maxChars : Int} {envelope : Envelope}
    (isWrite : isContract (.json (.dict value)) = true) (isReceipt : mutationOf value = some mutation)
    (spilled : reduceToolResult repr floats draws (.json (.dict value)) store maxChars = some (.overflow envelope after)) :
    (mutationOf envelope.members = some mutation ∧ envelope.members.lookup "mutation_contract" = some (.int 1)) ∧
      (Kept floats value envelope after ↔
        Room floats value ∧ encodedData (.dict value) = none ∧ store.Restorable) := by
  have keeps := spilled_keeps floats repr isWrite isReceipt spilled
  have fits := spilled_fits_iff floats repr isWrite isReceipt spilled
  have reads := spilled_reads_iff floats repr isWrite spilled
  refine ⟨keeps, fun kept => ⟨fits.mp kept.budget, reads.mp kept.readBack⟩, ?_⟩
  rintro ⟨room, comesBack⟩
  exact ⟨fits.mpr room, keeps.1.trans isReceipt.symm, keeps.2, reads.mpr comesBack⟩

/-- A write whose own receipt has a summary beside the mutation, and other members. -/
def wordyWrite (text : String) (others : Members) : Members :=
  [("mutation_contract", .int 1), ("public_receipt", .dict [("summary", .str text), ("mutation", .dict [])])] ++ others

theorem isContract_wordy (text : String) (others : Members) :
    isContract (.json (.dict (wordyWrite text others))) = true := by
  have isMarker : (wordyWrite text others).lookup "mutation_contract" = some (.int 1) := rfl
  rw [isContract, isMarker]
  decide +kernel

theorem mutationOf_wordy (text : String) (others : Members) : mutationOf (wordyWrite text others) = some [] := rfl

theorem publicReceipt_wordy {text : String} (some : text ≠ "") :
    publicReceipt (.json (.dict (wordyWrite text []))) = [("summary", .str text), ("mutation", .dict [])] := by
  simp [publicReceipt, mappingReceipt, wordyWrite, copyText, copyExisting, existingKeys, copyGiven, copyUi,
    copyMutation, toolUi, given, some, List.lookup, setKey, Upsert.upsert, copySchool, copyAvailability, copyResults,
    copyCandidates, copyRows, isFilled]

def plainFloats : FloatText := ⟨fun _ => ['0'], fun _ c isIn => by
  rw [List.mem_singleton.mp isIn]
  decide⟩

def emptyStore : ToolResultStore := ⟨[]⟩

theorem wordy_spills (text : String) (others : Members) : ∃ envelope after,
    reduceToolResult id plainFloats [zeroUuid] (.json (.dict (wordyWrite text others))) emptyStore 1 =
      some (.overflow envelope after) := by
  have isLong := @write_is_long plainFloats _ _ (.int 1) (mutationOf_wordy text others) rfl
  exact reduce_spills plainFloats id (isContract_wordy text others) (by decide) (by omega)
    ⟨zeroUuid, List.mem_cons_self, by simp [emptyStore]⟩

theorem spilled_write_kept_short : ∃ envelope after,
    reduceToolResult id plainFloats [zeroUuid] (.json (.dict (wordyWrite "Added" []))) emptyStore 1 =
        some (.overflow envelope after) ∧ mutationOf envelope.members = some [] ∧
      (Kept plainFloats (wordyWrite "Added" []) envelope after ↔ Room plainFloats (wordyWrite "Added" [])) := by
  obtain ⟨envelope, after, spilled⟩ := wordy_spills "Added" []
  obtain ⟨keeps, isKept⟩ := spilled_write_kept_iff plainFloats id (isContract_wordy "Added" [])
    (mutationOf_wordy "Added" []) spilled
  have comesBack : encodedData (.dict (wordyWrite "Added" [])) = none ∧ emptyStore.Restorable :=
    ⟨rfl, by simp [ToolResultStore.Restorable, emptyStore]⟩
  refine ⟨envelope, after, spilled, keeps.1, ?_⟩
  rw [isKept]
  exact and_iff_left comesBack

theorem not_room_of_long {text : String} (isLong : 10300 ≤ text.toList.length) :
    ¬ Room plainFloats (wordyWrite text []) := by
  intro room
  have some : text ≠ "" := by
    rintro rfl
    exact absurd isLong (by decide)
  rw [Room, publicReceipt_wordy some] at room
  have atLeast := bytes_length (toJson plainFloats (.dict [("summary", .str text), ("mutation", .dict [])]))
  have whole := length_dict plainFloats [("summary", .str text), ("mutation", .dict [])]
  have summaryText := length_member plainFloats "summary" (.str text)
  have quotedText := length_quote text
  rw [List.map_cons, List.sum_cons] at whole
  simp only [toJson] at summaryText
  unfold size compactResultMaxBytes at room
  omega

def longText : String := String.ofList (List.replicate 10300 'x')

theorem longText_length : longText.toList.length = 10300 := by
  unfold longText
  generalize 10300 = n
  rw [String.toList_ofList, List.length_replicate]

def disguised : Members := [("kind", .str binaryPayloadKind), ("data", .str "")]

/-- A long summary in the copied fields goes over the budget, and a write that looks like
encoded bytes does not come back from the next turn. -/
theorem spilled_write_not_kept :
    (∃ envelope after, reduceToolResult id plainFloats [zeroUuid] (.json (.dict (wordyWrite longText []))) emptyStore 1 =
        some (.overflow envelope after) ∧ compactResultMaxBytes < envelope.bytes plainFloats) ∧
      ∃ envelope after, reduceToolResult id plainFloats [zeroUuid] (.json (.dict (wordyWrite "Added" disguised)))
          emptyStore 1 = some (.overflow envelope after) ∧
        ¬ ∀ rounds, ∃ restored, after.afterRounds rounds = some restored ∧
          restored.read envelope.handle = .json (.dict (wordyWrite "Added" disguised)) := by
  constructor
  · obtain ⟨envelope, after, spilled⟩ := wordy_spills longText []
    refine ⟨envelope, after, spilled, ?_⟩
    by_contra fits
    exact not_room_of_long (Nat.le_of_eq longText_length.symm) ((spilled_fits_iff plainFloats id
      (isContract_wordy longText []) (mutationOf_wordy longText []) spilled).mp (Nat.not_lt.mp fits))
  · obtain ⟨envelope, after, spilled⟩ := wordy_spills "Added" disguised
    refine ⟨envelope, after, spilled, ?_⟩
    rw [spilled_reads_iff plainFloats id (isContract_wordy "Added" disguised) spilled]
    rintro ⟨isPlain, -⟩
    have looksEncoded : encodedData (.dict (wordyWrite "Added" disguised)) = some "" := rfl
    rw [looksEncoded] at isPlain
    cases isPlain

end Counselle.Overflow

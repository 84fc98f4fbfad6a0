import Mathlib.Data.List.Count
import Mathlib.Data.List.Induction
import Mathlib.Data.List.Nodup

/-! Replace the first matching item of a list in place, or append a fresh one; the
match is searched for, or its place is kept in a dict. -/
namespace Counselle.Upsert
universe u v
variable {A : Type u} {B : Type v}

def upsert (here : A → Bool) (merge : A → A) (fresh : A) : List A → List A
  | [] => [fresh]
  | item :: rest =>
    if here item then merge item :: rest else item :: upsert here merge fresh rest

variable {here : A → Bool} {merge : A → A} {fresh : A}

theorem map_upsert {f : A → B} (kept : ∀ item, here item = true → f (merge item) = f item)
    (items : List A) :
    (upsert here merge fresh items).map f =
      if items.any here then items.map f else items.map f ++ [f fresh] := by
  induction items with
  | nil => rfl
  | cons item rest ih =>
    rw [upsert]
    cases found : here item with
    | true => simp [found, kept item found]
    | false =>
      simp only [Bool.false_eq_true, if_false, List.map_cons, ih, List.any_cons, found,
        Bool.false_or]
      split <;> rfl

theorem mem_upsert_of_ne {items : List A} {other : A} (apart : here other = false)
    (merged : ∀ item, here item = true → merge item ≠ other) (unfresh : other ≠ fresh) :
    other ∈ upsert here merge fresh items ↔ other ∈ items := by
  induction items with
  | nil => simp [upsert, unfresh]
  | cons item rest ih =>
    rw [upsert]
    cases found : here item with
    | true =>
      have distinct : item ≠ other := by
        rintro rfl
        simp [found] at apart
      have distinct' : merge item ≠ other := merged item found
      simp [distinct.symm, distinct'.symm]
    | false => simp [ih]

theorem mem_upsert_here {items : List A} {result : A} (single : items.countP here ≤ 1)
    (stays : here result = true) (present : result ∈ upsert here merge fresh items) :
    (∃ item ∈ items, here item = true ∧ result = merge item) ∨
      (items.any here = false ∧ result = fresh) := by
  induction items with
  | nil =>
    simp only [upsert, List.mem_singleton] at present
    exact Or.inr ⟨rfl, present⟩
  | cons item rest ih =>
    rw [upsert] at present
    cases found : here item with
    | true =>
      simp only [found, if_true, List.mem_cons] at present
      rcases present with rfl | later
      · exact Or.inl ⟨item, .head _, found, rfl⟩
      · rw [List.countP_cons_of_pos found] at single
        have none : rest.countP here = 0 := by omega
        exact absurd stays (List.countP_eq_zero.mp none result later)
    | false =>
      simp only [found, Bool.false_eq_true, if_false, List.mem_cons] at present
      rw [List.countP_cons_of_neg (by simp [found])] at single
      rcases present with rfl | later
      · simp [found] at stays
      · rcases ih single later with ⟨old, member, oldHere, same⟩ | ⟨absent, same⟩
        · exact Or.inl ⟨old, List.mem_cons_of_mem _ member, oldHere, same⟩
        · exact Or.inr ⟨by simp [found, absent], same⟩

section Dict
variable {K : Type} [DecidableEq K] (key : A → K)

def insertKey (byKey : List A) (item : A) : List A :=
  upsert (fun old => key old == key item) (fun _ => item) item byKey

def dictOf (items : List A) : List A := items.foldl (insertKey key) []

theorem dictOf_snoc (items : List A) (item : A) :
    dictOf key (items ++ [item]) = insertKey key (dictOf key items) item := by
  simp [dictOf]

variable {key}

theorem find?_insertKey (byKey : List A) (item : A) (k : K) :
    (insertKey key byKey item).find? (fun other => key other = k) =
      if key item = k then some item else byKey.find? fun other => key other = k := by
  unfold insertKey
  induction byKey with
  | nil => by_cases here : key item = k <;> simp [upsert, here]
  | cons first rest ih =>
    rw [upsert]
    by_cases same : key first = key item
    · simp only [same, beq_self_eq_true, if_true, List.find?_cons]
      split <;> simp_all
    · simp only [same, beq_iff_eq, if_false, List.find?_cons, ih]
      by_cases here : key first = k
      · have apart : key item ≠ k := fun bad => same (here.trans bad.symm)
        simp [here, apart]
      · simp [here]

theorem nodup_insertKey {items : List A} (distinct : (items.map key).Nodup) (item : A) :
    ((insertKey key items item).map key).Nodup := by
  have keeps : ∀ old, (key old == key item) = true → key item = key old :=
    fun old same => (beq_iff_eq.mp same).symm
  rw [insertKey, map_upsert keeps]
  split
  case isTrue _ => exact distinct
  case isFalse absent =>
    rw [Bool.not_eq_true, List.any_eq_false] at absent
    refine List.Nodup.append distinct (by simp) fun k isIn isNew => ?_
    obtain ⟨old, member, rfl⟩ := List.mem_map.mp isIn
    exact absurd (by simpa using isNew) (absent old member)

theorem nodup_inserted {items : List A} (distinct : (items.map key).Nodup) (later : List A) :
    ((later.foldl (insertKey key) items).map key).Nodup := by
  induction later generalizing items with
  | nil => exact distinct
  | cons item later ih => exact ih (nodup_insertKey distinct item)

theorem find?_inserted (items later : List A) (k : K) :
    (later.foldl (insertKey key) items).find? (fun other => key other = k) =
      (later.reverse.find? fun other => key other = k).or (items.find? fun other => key other = k) := by
  induction later using List.reverseRecOn with
  | nil => rfl
  | append_singleton later item ih =>
    rw [List.foldl_append, List.foldl_cons, List.foldl_nil, find?_insertKey, ih, List.reverse_append]
    simp only [List.reverse_singleton, List.singleton_append, List.find?_cons]
    split <;> simp_all

theorem find?_dictOf (items : List A) (k : K) :
    (dictOf key items).find? (fun other => key other = k) =
      items.reverse.find? fun other => key other = k := by
  rw [dictOf, find?_inserted, List.find?_nil, Option.or_none]

theorem nodup_dictOf (items : List A) : ((dictOf key items).map key).Nodup :=
  @nodup_inserted A K _ key [] List.nodup_nil items

theorem mem_keys_dictOf {items : List A} {k : K} : k ∈ (dictOf key items).map key ↔ k ∈ items.map key := by
  have isKey (items : List A) : k ∈ items.map key ↔ (items.find? fun other => key other = k).isSome = true := by simp
  have reversed : k ∈ items.reverse.map key ↔ k ∈ items.map key := by simp
  rw [isKey, find?_dictOf, ← isKey, reversed]

theorem mem_dictOf_id {keys : List K} {k : K} : k ∈ dictOf id keys ↔ k ∈ keys := by
  have found : ∀ keys : List K, (keys.find? fun other => id other = k).isSome ↔ k ∈ keys := by simp
  rw [← found, find?_dictOf, found, List.mem_reverse]

theorem find?_key_iff {items : List A} (distinct : (items.map key).Nodup) {item : A} {k : K} :
    items.find? (fun other => key other = k) = some item ↔ item ∈ items ∧ key item = k := by
  constructor
  · intro found
    exact ⟨List.mem_of_find?_eq_some found, by simpa using List.find?_some found⟩
  · rintro ⟨isIn, rfl⟩
    have found : items.find? (fun other => key other = key item) ≠ none := by
      simpa using ⟨item, isIn, rfl⟩
    obtain ⟨other, isOther⟩ := Option.ne_none_iff_exists'.mp found
    have same : key other = key item := by simpa using List.find?_some isOther
    have only : other = item :=
      List.inj_on_of_nodup_map distinct (List.mem_of_find?_eq_some isOther) isIn same
    rw [isOther, only]

theorem mem_insertKey {items : List A} (distinct : (items.map key).Nodup) {item other : A} :
    other ∈ insertKey key items item ↔ other = item ∨ other ∈ items ∧ key other ≠ key item := by
  have here := @find?_insertKey A K _ key items item (key other)
  have after := @find?_key_iff A K _ key _ (nodup_insertKey distinct item) other (key other)
  have before := @find?_key_iff A K _ key _ distinct other (key other)
  simp only [and_true] at after before
  rw [← after, here]
  split
  case isTrue same =>
    simp only [Option.some.injEq, same, ne_eq, not_true_eq_false, and_false, or_false]
    exact eq_comm
  case isFalse apart =>
    rw [before]
    constructor
    · exact fun isIn => Or.inr ⟨isIn, fun same => apart same.symm⟩
    · rintro (rfl | ⟨isIn, -⟩)
      · exact absurd rfl apart
      · exact isIn

theorem mem_map_insertKey {items : List A} (item : A) (k : K) :
    k ∈ (insertKey key items item).map key ↔ k = key item ∨ k ∈ items.map key := by
  have here := @find?_insertKey A K _ key items item k
  have isKey (items : List A) : k ∈ items.map key ↔ (items.find? fun other => key other = k).isSome = true := by simp
  rw [isKey, isKey, here]
  split
  case isTrue same => simp [same]
  case isFalse apart => simp [Ne.symm apart]

theorem dictOf_of_nodup {items : List A} (distinct : (items.map key).Nodup) :
    dictOf key items = items := by
  induction items using List.reverseRecOn with
  | nil => rfl
  | append_singleton items item ih =>
    rw [List.map_append, List.nodup_append] at distinct
    rw [dictOf_snoc, ih distinct.1, insertKey]
    have absent : ∀ old ∈ items, (key old == key item) = false := fun old isIn =>
      beq_false_of_ne (distinct.2.2 _ (List.mem_map_of_mem isIn) _ (by simp))
    clear ih distinct
    induction items with
    | nil => rfl
    | cons first rest ih =>
      rw [List.cons_append, upsert, absent first List.mem_cons_self, if_neg (by decide)]
      exact congrArg _ (ih fun old isIn => absent old (List.mem_cons_of_mem _ isIn))

end Dict

/-- `index` maps a key to the one place of its item. -/
def Indexed {K : Type} [BEq K] (index : List (K × Nat)) (make : K → A) (items : List A) : Prop :=
  ∀ key place, index.lookup key = some place ↔ items[place]? = some (make key)

variable {K : Type} [BEq K] {index : List (K × Nat)} {make : K → A} {items : List A}

theorem Indexed.empty : Indexed ([] : List (K × Nat)) make [] := by
  intro key place
  simp

theorem Indexed.mem (indexed : Indexed index make items) (key : K) :
    make key ∈ items ↔ index.lookup key ≠ none := by
  rw [List.mem_iff_getElem?, Option.ne_none_iff_exists']
  exact exists_congr fun place => (indexed key place).symm

theorem getElem?_snoc (items : List A) (item other : A) (place : Nat) :
    (items ++ [item])[place]? = some other ↔
      items[place]? = some other ∨ place = items.length ∧ item = other := by
  rcases Nat.lt_trichotomy place items.length with inside | rfl | outside
  · rw [List.getElem?_append_left inside]
    exact ⟨Or.inl, fun either => either.elim id fun at_end => absurd at_end.1 (Nat.ne_of_lt inside)⟩
  · simp
  · have beyond : items.length ≤ place := Nat.le_of_lt outside
    rw [List.getElem?_eq_none (by simp; omega), List.getElem?_eq_none beyond]
    refine iff_of_false (by simp) ?_
    rintro (bad | ⟨rfl, _⟩)
    · cases bad
    · exact Nat.lt_irrefl _ outside

theorem Indexed.snoc_other (indexed : Indexed index make items) {item : A}
    (other : ∀ key, item ≠ make key) : Indexed index make (items ++ [item]) := by
  intro key place
  rw [getElem?_snoc, indexed]
  exact ⟨Or.inl, fun either => either.elim id fun at_end => absurd at_end.2 (other key)⟩

theorem Indexed.snoc_new [LawfulBEq K] (indexed : Indexed index make items)
    (injective : ∀ first second, make first = make second → first = second) {key : K}
    (unseen : index.lookup key = none) :
    Indexed ((key, items.length) :: index) make (items ++ [make key]) := by
  intro other place
  rw [getElem?_snoc, List.lookup_cons]
  by_cases same : other = key
  · subst same
    have absent : items[place]? ≠ some (make other) := by
      rw [Ne, ← indexed, unseen]
      simp
    simp [absent, eq_comm]
  · have apart : make key ≠ make other := fun bad => same (injective _ _ bad).symm
    rw [show (other == key) = false by simpa using same]
    simp [apart, indexed other place]

theorem map_set_same {f : A → B} {items : List A} {item : A} {place : Nat}
    (same : (items.map f)[place]? = some (f item)) : (items.set place item).map f = items.map f := by
  rw [List.map_set]
  refine List.ext_getElem? fun other => ?_
  rw [List.getElem?_set]
  split
  case isTrue here =>
    subst here
    obtain ⟨inside, _⟩ := List.getElem?_eq_some_iff.mp same
    rw [if_pos inside, same]
  case isFalse _ => rfl

theorem Indexed.mem_set {f : B → A} {items : List B} {key : K} {item other : B} {place : Nat}
    (indexed : Indexed index make (items.map f)) (found : index.lookup key = some place)
    (present : other ∈ items.set place item) :
    other = item ∨ other ∈ items ∧ f other ≠ make key := by
  obtain ⟨there, isOther⟩ := List.mem_iff_getElem?.mp present
  rw [List.getElem?_set] at isOther
  split at isOther
  case isTrue _ =>
    split at isOther
    · exact Or.inl (Option.some.inj isOther).symm
    · cases isOther
  case isFalse apart =>
    refine Or.inr ⟨List.mem_iff_getElem?.mpr ⟨there, isOther⟩, fun same => apart ?_⟩
    have indexedThere := (indexed key there).mpr (by rw [List.getElem?_map, isOther, ← same]; rfl)
    rw [found] at indexedThere
    exact Option.some.inj indexedThere

theorem lookup_of_mem {K : Type u} [BEq K] [LawfulBEq K] {entries : List (K × B)} (distinct : (entries.map Prod.fst).Nodup)
    {entry : K × B} (isIn : entry ∈ entries) : entries.lookup entry.1 = some entry.2 := by
  induction entries with
  | nil => cases isIn
  | cons first rest ih =>
    rw [List.map_cons, List.nodup_cons] at distinct
    rw [List.lookup_cons]
    obtain rfl | later := List.mem_cons.mp isIn
    · rw [beq_self_eq_true]
    · have apart : (entry.1 == first.1) = false :=
        beq_false_of_ne fun same => distinct.1 (same ▸ List.mem_map_of_mem later)
      rw [apart]
      exact ih distinct.2 later

theorem mem_of_lookup {K : Type u} [BEq K] [LawfulBEq K] {entries : List (K × B)} {key : K} {value : B}
    (found : entries.lookup key = some value) : (key, value) ∈ entries := by
  obtain ⟨before, after, rfl, -⟩ := List.lookup_eq_some_iff.mp found
  exact List.mem_append_right _ List.mem_cons_self

end Counselle.Upsert

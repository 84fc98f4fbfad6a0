import Mathlib.Data.List.Nodup

/-! A list that is sorted by a key, with a number of each row behind the key, and read page by
page: the order is total, it is the only one, and the pages follow each other without a gap. -/
namespace Paging

variable {α Row : Type}

structure TotalLe (le : α → α → Bool) : Prop where
  total : ∀ x y, le x y = true ∨ le y x = true
  trans : ∀ x y z, le x y = true → le y z = true → le x z = true

namespace TotalLe
variable {le : α → α → Bool}

theorem flip (isTotal : TotalLe le) : TotalLe fun x y => le y x where
  total x y := isTotal.total y x
  trans x y z first second := isTotal.trans z y x second first

theorem ofKey (isTotal : TotalLe le) (key : Row → α) : TotalLe fun a b => le (key a) (key b) where
  total a b := isTotal.total (key a) (key b)
  trans a b c := isTotal.trans (key a) (key b) (key c)

end TotalLe

/-- `NULLS LAST`: a missing value stands behind every other, in either direction. -/
def nullsLast (le : α → α → Bool) : Option α → Option α → Bool
  | _, none => true
  | none, some _ => false
  | some x, some y => le x y

theorem TotalLe.nullsLast {le : α → α → Bool} (isTotal : TotalLe le) : TotalLe (nullsLast le) where
  total x y := by
    cases x with
    | none => exact .inr (by cases y <;> rfl)
    | some x =>
      cases y with
      | none => exact .inl rfl
      | some y => exact isTotal.total x y
  trans x y z first second := by
    cases z with
    | none => cases x <;> rfl
    | some z =>
      cases y with
      | none => cases second
      | some y =>
        cases x with
        | none => cases first
        | some x => exact isTotal.trans x y z first second

/-- The rows by `le`, and those that `le` does not part by their number. -/
def thenBy (le : Row → Row → Bool) (number : Row → Nat) (a b : Row) : Bool :=
  le a b && (!le b a || decide (number a ≤ number b))

theorem thenBy_iff {le : Row → Row → Bool} {number : Row → Nat} {a b : Row} :
    thenBy le number a b = true ↔ le a b = true ∧ (le b a = true → number a ≤ number b) := by
  unfold thenBy
  cases le a b <;> cases le b a <;> simp

theorem TotalLe.thenBy {le : Row → Row → Bool} (isTotal : TotalLe le) (number : Row → Nat) :
    TotalLe (thenBy le number) where
  total a b := by
    rw [thenBy_iff, thenBy_iff]
    by_cases forward : le a b = true
    · by_cases back : le b a = true
      · rcases Nat.le_total (number a) (number b) with isLe | isLe
        · exact .inl ⟨forward, fun _ => isLe⟩
        · exact .inr ⟨back, fun _ => isLe⟩
      · exact .inl ⟨forward, fun other => absurd other back⟩
    · exact .inr ⟨(isTotal.total a b).resolve_left forward, fun other => absurd other forward⟩
  trans a b c first second := by
    rw [thenBy_iff] at first second ⊢
    refine ⟨isTotal.trans a b c first.1 second.1, fun back => ?_⟩
    -- A cycle of the key makes all three ties, and the numbers decide.
    have toFirst : le b a = true := isTotal.trans b c a second.1 back
    have toSecond : le c b = true := isTotal.trans c a b back first.1
    exact Nat.le_trans (first.2 toFirst) (second.2 toSecond)

section Rows
variable {le : Row → Row → Bool} {number : Row → Nat} {rows : List Row}

theorem eq_of_thenBy (distinct : (rows.map number).Nodup) {a b : Row} (isIn : a ∈ rows)
    (isOther : b ∈ rows) (first : thenBy le number a b = true) (second : thenBy le number b a = true) :
    a = b := by
  rw [thenBy_iff] at first second
  have same : number a = number b :=
    Nat.le_antisymm (first.2 second.1) (second.2 first.1)
  exact List.inj_on_of_nodup_map distinct isIn isOther same

theorem unique_order (distinct : (rows.map number).Nodup) {one other : List Row}
    (isOne : one.Perm rows) (isOther : other.Perm rows)
    (sorted : one.Pairwise fun a b => thenBy le number a b = true)
    (sortedOther : other.Pairwise fun a b => thenBy le number a b = true) : one = other := by
  refine List.Perm.eq_of_pairwise ?_ sorted sortedOther (isOne.trans isOther.symm)
  intro a b isIn isOtherIn first second
  exact eq_of_thenBy distinct (isOne.mem_iff.mp isIn) (isOther.mem_iff.mp isOtherIn) first second

theorem pairwise_of_thenBy (sorted : rows.Pairwise fun a b => thenBy le number a b = true) :
    rows.Pairwise fun a b => le a b = true :=
  sorted.imp fun isBefore => (thenBy_iff.mp isBefore).1

end Rows

theorem missing_of_nullsLast {le : α → α → Bool} {x y : Option α} (isLe : nullsLast le x y = true)
    (isMissing : x = none) : y = none := by
  subst isMissing
  cases y with
  | none => rfl
  | some y => cases isLe

theorem missing_last {rows : List Row} {before : Row → Row → Prop} {missing : Row → Bool}
    (sorted : rows.Pairwise before) (behind : ∀ a b, before a b → missing a = true → missing b = true) :
    rows = (rows.filter fun row => !missing row) ++ rows.filter missing := by
  induction rows with
  | nil => rfl
  | cons row rows ih =>
    obtain ⟨isFirst, sorted⟩ := List.pairwise_cons.mp sorted
    cases isMissing : missing row with
    | false =>
      rw [List.filter_cons_of_pos (by simp [isMissing]), List.filter_cons_of_neg (by simp [isMissing]),
        List.cons_append, ← ih sorted]
    | true =>
      have all : ∀ other ∈ rows, missing other = true :=
        fun other isIn => behind row other (isFirst other isIn) isMissing
      have nothing : rows.filter (fun other => !missing other) = [] :=
        List.filter_eq_nil_iff.mpr fun other isIn => by simp [all other isIn]
      rw [List.filter_cons_of_neg (by simp [isMissing]), List.filter_cons_of_pos isMissing, nothing,
        List.nil_append, List.filter_eq_self.mpr all]

/-- `LIMIT size OFFSET (number - 1) * size` -/
def page (size : Nat) (rows : List Row) (number : Nat) : List Row :=
  (rows.drop ((number - 1) * size)).take size

def pages (size : Nat) (rows : List Row) (count : Nat) : List Row :=
  (List.range count).flatMap fun i => page size rows (i + 1)

theorem pages_eq (size : Nat) (rows : List Row) (count : Nat) :
    pages size rows count = rows.take (count * size) := by
  induction count with
  | zero => simp [pages]
  | succ count ih =>
    have split : pages size rows (count + 1) = pages size rows count ++ page size rows (count + 1) := by
      simp [pages, List.range_succ]
    rw [split, ih, page, Nat.add_sub_cancel, Nat.succ_mul, List.take_add]

theorem page_eq_nil_iff {size : Nat} (isPositive : 0 < size) {rows : List Row} {number : Nat} :
    page size rows number = [] ↔ rows.length ≤ (number - 1) * size := by
  rw [page, List.take_eq_nil_iff, List.drop_eq_nil_iff]
  constructor
  · rintro (isZero | isEnd)
    · omega
    · exact isEnd
  · exact .inr

end Paging

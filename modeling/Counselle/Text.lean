import Mathlib

/-! Reading joined text back: items set apart by a separator they do not contain,
and a number in front of a word. -/
namespace Counselle.Text

theorem append_mark_inj {mark : Char} {first second rest tail : List Char} (left : mark ∉ first)
    (right : mark ∉ second) (same : first ++ mark :: rest = second ++ mark :: tail) :
    first = second ∧ rest = tail := by
  induction first generalizing second with
  | nil =>
    cases second with
    | nil => exact ⟨rfl, (List.cons.inj same).2⟩
    | cons c second => exact absurd (List.cons.inj same).1 (fun bad => right (by simp [bad]))
  | cons c first ih =>
    cases second with
    | nil => exact absurd (List.cons.inj same).1 (fun bad => left (by simp [bad]))
    | cons d second =>
      obtain ⟨head, tails⟩ := List.cons.inj same
      obtain ⟨fronts, rests⟩ := ih (fun m => left (List.mem_cons_of_mem _ m))
        (fun m => right (List.mem_cons_of_mem _ m)) tails
      exact ⟨by rw [head, fronts], rests⟩

variable {separator : String} {mark : Char} {front back : List Char}

theorem toList_intercalate_cons (split : separator.toList = front ++ mark :: back)
    (item next : String) (rest : List String) :
    (separator.intercalate (item :: next :: rest)).toList =
      (item.toList ++ front) ++ mark :: (back ++ (separator.intercalate (next :: rest)).toList) := by
  rw [String.intercalate_cons_cons, String.toList_append, String.toList_append, split]
  simp

theorem intercalate_inj (split : separator.toList = front ++ mark :: back) (unmarked : mark ∉ front)
    {first second : List String} (left : ∀ item ∈ first, mark ∉ item.toList ∧ item ≠ "")
    (right : ∀ item ∈ second, mark ∉ item.toList ∧ item ≠ "")
    (same : separator.intercalate first = separator.intercalate second) : first = second := by
  have marked : ∀ (item next : String) (rest : List String),
      mark ∈ (separator.intercalate (item :: next :: rest)).toList := by
    intro item next rest
    rw [toList_intercalate_cons split]
    simp
  induction first generalizing second with
  | nil =>
    match second with
    | [] => rfl
    | [item] =>
      rw [String.intercalate_nil, String.intercalate_singleton] at same
      exact absurd same.symm (right item (by simp)).2
    | item :: next :: rest =>
      have bad := marked item next rest
      rw [← same, String.intercalate_nil] at bad
      simp at bad
  | cons item rest ih =>
    cases rest with
    | nil =>
      rw [String.intercalate_singleton] at same
      match second with
      | [] =>
        rw [String.intercalate_nil] at same
        exact absurd same (left item (by simp)).2
      | [other] => rw [same, String.intercalate_singleton]
      | other :: next :: tail =>
        have bad := marked other next tail
        rw [← same] at bad
        exact absurd bad (left item (by simp)).1
    | cons next rest =>
      match second with
      | [] =>
        have bad := marked item next rest
        rw [same, String.intercalate_nil] at bad
        simp at bad
      | [other] =>
        have bad := marked item next rest
        rw [same, String.intercalate_singleton] at bad
        exact absurd bad (right other (by simp)).1
      | other :: next' :: tail =>
        have texts := congrArg String.toList same
        rw [toList_intercalate_cons split, toList_intercalate_cons split] at texts
        obtain ⟨heads, tails⟩ := append_mark_inj
          (by simp [(left item (by simp)).1, unmarked])
          (by simp [(right other (by simp)).1, unmarked]) texts
        have item_eq : item = other := String.toList_injective (List.append_cancel_right heads)
        have rest_eq : separator.intercalate (next :: rest) = separator.intercalate (next' :: tail) :=
          String.toList_injective (List.append_cancel_left tails)
        rw [item_eq, ih (fun i m => left i (List.mem_cons_of_mem _ m))
          (fun i m => right i (List.mem_cons_of_mem _ m)) rest_eq]

theorem not_mem_repr {mark : Char} (other : mark.isDigit = false) (n : Nat) :
    mark ∉ (toString n).toList := by
  intro present
  have digits : mark ∈ Nat.toDigits 10 n := by simpa using present
  rw [Nat.isDigit_of_mem_toDigits (by decide) (by decide) digits] at other
  cases other

theorem numbered_inj {n m : Nat} {word other : String}
    (same : toString n ++ " " ++ word = toString m ++ " " ++ other) : n = m ∧ word = other := by
  have texts := congrArg String.toList same
  simp only [String.toList_append] at texts
  have blank : " ".toList = [' '] := by decide
  rw [blank, List.append_assoc, List.append_assoc] at texts
  obtain ⟨numbers, words⟩ := append_mark_inj (not_mem_repr (by decide) n)
    (not_mem_repr (by decide) m) texts
  exact ⟨Nat.repr_inj.mp (String.toList_injective numbers), String.toList_injective words⟩

end Counselle.Text

import Mathlib.Tactic.Ring

/-! Numbers in positional notation, the most significant digit first. Digits that do not
start with zero are the only ones of their value; so are those of a fixed length. -/
namespace Counselle.Positional
variable {base : Nat} {first second front front' back back' : List Nat}

def value (base : Nat) (digits : List Nat) : Nat := digits.foldl (fun n d => base * n + d) 0

theorem foldl_digits (start : Nat) (digits : List Nat) :
    digits.foldl (fun n d => base * n + d) start = start * base ^ digits.length + value base digits := by
  induction digits generalizing start with
  | nil => simp [value]
  | cons d rest ih =>
    rw [value, List.foldl_cons, List.foldl_cons, ih, ih (base * 0 + d), List.length_cons]
    ring

theorem value_cons (d : Nat) (rest : List Nat) :
    value base (d :: rest) = d * base ^ rest.length + value base rest := by
  rw [value, List.foldl_cons, foldl_digits, Nat.mul_zero, Nat.zero_add]

theorem value_append (front back : List Nat) :
    value base (front ++ back) = value base front * base ^ back.length + value base back := by
  rw [value, List.foldl_append, foldl_digits]
  rfl

theorem value_lt (small : ∀ d ∈ first, d < base) : value base first < base ^ first.length := by
  induction first with
  | nil => exact Nat.one_pos
  | cons d rest ih =>
    obtain ⟨here, later⟩ := List.forall_mem_cons.mp small
    have behind := ih later
    rw [value_cons, List.length_cons, Nat.pow_succ, Nat.mul_comm _ base]
    calc d * base ^ rest.length + value base rest
        < d * base ^ rest.length + base ^ rest.length := Nat.add_lt_add_left behind _
      _ = (d + 1) * base ^ rest.length := (Nat.succ_mul _ _).symm
      _ ≤ base * base ^ rest.length := Nat.mul_le_mul_right _ here

theorem parts_inj {unit n n' r r' : Nat} (small : r < unit) (small' : r' < unit)
    (same : n * unit + r = n' * unit + r') : n = n' ∧ r = r' := by
  have positive : 0 < unit := Nat.lt_of_le_of_lt (Nat.zero_le r) small
  constructor
  · have quotients := congrArg (· / unit) same
    simpa [Nat.mul_comm _ unit, Nat.mul_add_div positive, Nat.div_eq_of_lt small, Nat.div_eq_of_lt small'] using quotients
  · have rests := congrArg (· % unit) same
    simpa [Nat.mul_comm _ unit, Nat.mul_add_mod, Nat.mod_eq_of_lt small, Nat.mod_eq_of_lt small'] using rests

theorem value_inj_of_length (small : ∀ d ∈ first, d < base) (small' : ∀ d ∈ second, d < base)
    (length : first.length = second.length) (same : value base first = value base second) : first = second := by
  induction first generalizing second with
  | nil => exact (List.eq_nil_of_length_eq_zero length.symm).symm
  | cons d rest ih =>
    cases second with
    | nil => cases length
    | cons d' rest' =>
      have lengths := Nat.succ.inj length
      have behind := (List.forall_mem_cons.mp small).2
      have behind' := (List.forall_mem_cons.mp small').2
      rw [value_cons, value_cons, lengths] at same
      obtain ⟨rfl, values⟩ := parts_inj (lengths ▸ value_lt behind) (value_lt behind') same
      rw [ih behind behind' lengths values]

theorem le_value (nonzero : first.head? ≠ some 0) (filled : first ≠ []) : base ^ (first.length - 1) ≤ value base first := by
  cases first with
  | nil => exact absurd rfl filled
  | cons d rest =>
    have positive : 0 < d := Nat.pos_of_ne_zero fun zero => nonzero (congrArg some zero)
    rw [value_cons, List.length_cons, Nat.add_sub_cancel]
    exact Nat.le_add_right_of_le (Nat.le_mul_of_pos_left _ positive)

theorem length_le (positive : 0 < base) (small : ∀ d ∈ first, d < base) (nonzero : second.head? ≠ some 0)
    (same : value base first = value base second) : second.length ≤ first.length := by
  by_contra longer
  rw [Nat.not_le] at longer
  have filled : second ≠ [] := List.ne_nil_of_length_pos (Nat.zero_lt_of_lt longer)
  have below : value base first < value base second :=
    calc value base first < base ^ first.length := value_lt small
      _ ≤ base ^ (second.length - 1) := Nat.pow_le_pow_right positive (Nat.le_sub_one_of_lt longer)
      _ ≤ value base second := le_value nonzero filled
  exact Nat.ne_of_lt below same

theorem value_inj (positive : 0 < base) (small : ∀ d ∈ first, d < base) (small' : ∀ d ∈ second, d < base)
    (nonzero : first.head? ≠ some 0) (nonzero' : second.head? ≠ some 0)
    (same : value base first = value base second) : first = second :=
  value_inj_of_length small small'
    (Nat.le_antisymm (length_le positive small' nonzero same.symm) (length_le positive small nonzero' same)) same

theorem point_inj (positive : 0 < base) (small : ∀ d ∈ front ++ back, d < base) (small' : ∀ d ∈ front' ++ back', d < base)
    (nonzero : front.head? ≠ some 0) (nonzero' : front'.head? ≠ some 0) (places : back.length = back'.length)
    (same : value base (front ++ back) = value base (front' ++ back')) : front = front' ∧ back = back' := by
  have inBack (d : Nat) (isIn : d ∈ back) : d < base := small d (List.mem_append_right _ isIn)
  have inBack' (d : Nat) (isIn : d ∈ back') : d < base := small' d (List.mem_append_right _ isIn)
  rw [value_append, value_append, places] at same
  obtain ⟨fronts, backs⟩ := parts_inj (places ▸ value_lt inBack) (value_lt inBack') same
  refine ⟨value_inj positive (fun d isIn => small d (List.mem_append_left _ isIn))
    (fun d isIn => small' d (List.mem_append_left _ isIn)) nonzero nonzero' fronts, ?_⟩
  exact value_inj_of_length inBack inBack' places backs

end Counselle.Positional

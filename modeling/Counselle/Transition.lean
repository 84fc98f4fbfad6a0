import Mathlib.Data.List.Basic

/-! Labelled transition functions and their finite runs. Every choice the
environment makes is a label, so a run is a list of labels and can be evaluated.
Conditional runs carry a side condition on each label in the state it is taken in. -/
namespace Counselle.Transition
universe u v w
variable {S : Type u} {T : Type w} {A : Type v}

theorem guarded {guard : Prop} [Decidable guard] {s t : S} (taken : (if guard then some s else none) = some t) :
    guard ∧ s = t := by simpa using taken

/-- Take the labels in order; `none` as soon as one of them is not enabled. -/
def run (step : S → A → Option S) : S → List A → Option S
  | s, [] => some s
  | s, a :: rest => (step s a).bind fun t => run step t rest

/-- Every label of the run from `s` meets `ok` in the state it is taken in. -/
def Meets (step : S → A → Option S) (ok : S → A → Prop) : S → List A → Prop
  | _, [] => True
  | s, a :: rest => ok s a ∧ ∀ t, step s a = some t → Meets step ok t rest

def Reachable (step : S → A → Option S) (s t : S) : Prop := ∃ labels, run step s labels = some t

variable {step : S → A → Option S} {ok : S → A → Prop} {P : S → Prop}

@[simp] theorem run_nil (s : S) : run step s [] = some s := rfl

theorem run_cons_some {s t u : S} {a : A} {rest : List A} (first : step s a = some t) :
    run step s (a :: rest) = some u ↔ run step t rest = some u := by
  simp only [run, first, Option.bind_some]

theorem run_cons {s u : S} {a : A} {rest : List A} (path : run step s (a :: rest) = some u) :
    ∃ t, step s a = some t ∧ run step t rest = some u :=
  Option.bind_eq_some_iff.mp path

theorem run_append (s : S) (first second : List A) :
    run step s (first ++ second) = (run step s first).bind fun t => run step t second := by
  induction first generalizing s with
  | nil => rfl
  | cons a rest ih =>
    simp only [List.cons_append, run, Option.bind_assoc]
    exact congrArg (Option.bind (step s a)) (funext ih)

theorem run_snoc {s u : S} {labels : List A} {a : A} (path : run step s (labels ++ [a]) = some u) :
    ∃ t, run step s labels = some t ∧ step t a = some u := by
  rw [run_append] at path
  obtain ⟨t, before, last⟩ := Option.bind_eq_some_iff.mp path
  obtain ⟨u', stepped, ended⟩ := run_cons last
  cases ended
  exact ⟨t, before, stepped⟩

/-- A concrete run can be checked against a decidable condition. -/
instance Meets.decidable [∀ s a, Decidable (ok s a)] :
    ∀ (s : S) (labels : List A), Decidable (Meets step ok s labels)
  | _, [] => isTrue trivial
  | s, a :: rest =>
    match first : step s a with
    | none => decidable_of_iff (ok s a) ⟨fun here => ⟨here, by simp [first]⟩, And.left⟩
    | some t =>
      have := Meets.decidable t rest
      decidable_of_iff (ok s a ∧ Meets step ok t rest) (by simp [Meets, first])

theorem invariant_of_meets (preserves : ∀ {s a t}, P s → ok s a → step s a = some t → P t)
    {s t : S} {labels : List A} (initial : P s) (path : run step s labels = some t)
    (meets : Meets step ok s labels) : P t := by
  induction labels generalizing s with
  | nil =>
    cases path
    exact initial
  | cons a rest ih =>
    obtain ⟨middle, first, tail⟩ := run_cons path
    exact ih (preserves initial meets.1 first) tail (meets.2 middle first)

theorem meets_congr {other : S → A → Prop} (same : ∀ {s a}, P s → (ok s a ↔ other s a))
    (preserves : ∀ {s a t}, P s → other s a → step s a = some t → P t) {s : S} {labels : List A} (initial : P s) :
    Meets step ok s labels ↔ Meets step other s labels := by
  induction labels generalizing s with
  | nil => exact Iff.rfl
  | cons a rest ih =>
    apply and_congr_right_iff.mpr _ |>.trans (and_congr_left fun _ => same initial)
    intro here
    have kept {t : S} (first : step s a = some t) := ih (preserves initial ((same initial).mp here) first)
    exact forall_congr' fun t => forall_congr' fun first => kept first

theorem meets_true (s : S) (labels : List A) : Meets step (fun _ _ => True) s labels := by
  induction labels generalizing s with
  | nil => trivial
  | cons a rest ih => exact ⟨trivial, fun t _ => ih t⟩

theorem Meets.snoc {s t : S} {labels : List A} {a : A} (path : run step s labels = some t)
    (meets : Meets step ok s (labels ++ [a])) : Meets step ok s labels ∧ ok t a := by
  induction labels generalizing s with
  | nil =>
    cases path
    exact ⟨trivial, meets.1⟩
  | cons b rest ih =>
    obtain ⟨middle, first, tail⟩ := run_cons path
    obtain ⟨later, last⟩ := ih tail (meets.2 middle first)
    refine ⟨⟨meets.1, ?_⟩, last⟩
    intro u also
    cases first.symm.trans also
    exact later

theorem Meets.and_labels {allowed : A → Prop} {s : S} {labels : List A}
    (meets : Meets step ok s labels) (all : ∀ a ∈ labels, allowed a) :
    Meets step (fun s a => allowed a ∧ ok s a) s labels := by
  induction labels generalizing s with
  | nil => trivial
  | cons a rest ih =>
    obtain ⟨here, later⟩ := meets
    exact ⟨⟨all a List.mem_cons_self, here⟩,
      fun t first => ih (later t first) fun b isIn => all b (List.mem_cons_of_mem a isIn)⟩

theorem invariant (preserves : ∀ {s a t}, P s → step s a = some t → P t)
    {s t : S} {labels : List A} (initial : P s) (path : run step s labels = some t) : P t :=
  invariant_of_meets (fun before _ first => preserves before first) initial path
    (meets_true s labels)

theorem Reachable.invariant (preserves : ∀ {s a t}, P s → step s a = some t → P t)
    {s t : S} (reached : Reachable step s t) (initial : P s) : P t := by
  obtain ⟨labels, path⟩ := reached
  exact Transition.invariant preserves initial path

theorem Reachable.refl (s : S) : Reachable step s s := ⟨[], rfl⟩

theorem Reachable.next {s t u : S} {a : A} (reached : Reachable step s t)
    (last : step t a = some u) : Reachable step s u := by
  obtain ⟨labels, path⟩ := reached
  exact ⟨labels ++ [a], by simp [run_append, path, run, last]⟩

end Counselle.Transition

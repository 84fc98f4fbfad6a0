import Mathlib.Data.List.Perm.Basic

/-! Peeling successful `Except` and `Option` computations apart: a bind that succeeds has a
successful first half, a guard that succeeds holds. -/
namespace Counselle.Fallible
universe u v
variable {E : Type u} {A B : Type v}

theorem bind_ok_iff {x : Except E A} {f : A → Except E B} {b : B} :
    (x >>= f) = .ok b ↔ ∃ a, x = .ok a ∧ f a = .ok b := by
  cases x with
  | error e => simp [bind, Except.bind]
  | ok a => simp [bind, Except.bind]

theorem bind_error_iff {x : Except E A} {f : A → Except E B} {e : E} :
    (x >>= f) = .error e ↔ x = .error e ∨ ∃ a, x = .ok a ∧ f a = .error e := by
  cases x with
  | error e => simp [bind, Except.bind]
  | ok a => simp [bind, Except.bind]

theorem map_ok_iff {x : Except E A} {f : A → B} {b : B} :
    x.map f = .ok b ↔ ∃ a, x = .ok a ∧ f a = b := by
  cases x <;> simp [Except.map]

theorem guard_ok_iff {p : Prop} [Decidable p] {e : E} {x : Except E A} {a : A} :
    (if p then .error e else x) = .ok a ↔ ¬ p ∧ x = .ok a := by
  split <;> simp_all

theorem mapM_ok_iff {f : A → Except E B} {items : List A} {results : List B} :
    items.mapM f = .ok results ↔ List.Forall₂ (fun item result => f item = .ok result) items results := by
  induction items generalizing results with
  | nil => simp [pure, Except.pure, eq_comm]
  | cons item rest ih =>
    simp only [List.mapM_cons, bind_ok_iff, List.forall₂_cons_left_iff, ih, pure, Except.pure,
      Except.ok.injEq]
    constructor
    · rintro ⟨result, isResult, others, areOthers, rfl⟩
      exact ⟨result, others, isResult, areOthers, rfl⟩
    · rintro ⟨result, others, isResult, areOthers, rfl⟩
      exact ⟨result, isResult, others, areOthers, rfl⟩

theorem forall₂_mem_left {R : A → B → Prop} {as : List A} {bs : List B} (pairs : List.Forall₂ R as bs) :
    ∀ a ∈ as, ∃ b ∈ bs, R a b := by
  induction pairs with
  | nil => simp
  | cons here _ ih =>
    rw [List.forall_mem_cons]
    refine ⟨⟨_, List.mem_cons_self, here⟩, fun a isIn => ?_⟩
    obtain ⟨b, isB, related⟩ := ih a isIn
    exact ⟨b, List.mem_cons_of_mem _ isB, related⟩

theorem mapM_some_iff {read : A → Option B} {items : List A} {results : List B} :
    items.mapM read = some results ↔ List.Forall₂ (fun item result => read item = some result) items results := by
  induction items generalizing results with
  | nil => simp [eq_comm]
  | cons item rest ih =>
    simp only [List.mapM_cons, Option.bind_eq_bind, Option.bind_eq_some_iff, List.forall₂_cons_left_iff, ih, pure,
      Option.some.injEq]
    constructor
    · rintro ⟨result, isResult, others, areOthers, rfl⟩
      exact ⟨result, others, isResult, areOthers, rfl⟩
    · rintro ⟨result, others, isResult, areOthers, rfl⟩
      exact ⟨result, isResult, others, areOthers, rfl⟩

theorem mapM_some_mem {read : A → Option B} {items : List A} {results : List B}
    (areRead : items.mapM read = some results) : ∀ result ∈ results, ∃ item ∈ items, read item = some result := by
  have pairs := mapM_some_iff.mp areRead
  clear areRead
  induction pairs with
  | nil => nofun
  | @cons item result rest others isRead _ ih =>
    rw [List.forall_mem_cons]
    refine ⟨⟨item, List.mem_cons_self, isRead⟩, fun other isOther => ?_⟩
    obtain ⟨source, isIn, isSource⟩ := ih other isOther
    exact ⟨source, List.mem_cons_of_mem _ isIn, isSource⟩

theorem mapM_perm {f : A → Except E B} {items others : List A} {results : List B}
    (perm : others.Perm items) (run : items.mapM f = .ok results) :
    ∃ permuted, others.mapM f = .ok permuted ∧ permuted.Perm results := by
  obtain ⟨permuted, pairs, same⟩ := List.perm_comp_forall₂ perm (mapM_ok_iff.mp run)
  exact ⟨permuted, mapM_ok_iff.mpr pairs, same⟩

theorem mapM_isOk_iff {f : A → Except E B} {items : List A} :
    (∃ results, items.mapM f = .ok results) ↔ ∀ item ∈ items, ∃ result, f item = .ok result := by
  induction items with
  | nil => simp [pure, Except.pure]
  | cons item rest ih =>
    rw [List.forall_mem_cons, ← ih]
    simp only [List.mapM_cons, bind_ok_iff, pure, Except.pure]
    constructor
    · rintro ⟨_, result, isResult, results, areResults, -⟩
      exact ⟨⟨result, isResult⟩, ⟨results, areResults⟩⟩
    · rintro ⟨⟨result, isResult⟩, ⟨results, areResults⟩⟩
      exact ⟨_, result, isResult, results, areResults, rfl⟩

theorem mapM_mem {f : A → Except E B} {items : List A} {results : List B}
    (run : items.mapM f = .ok results) : ∀ item ∈ items, ∃ result ∈ results, f item = .ok result := by
  rw [mapM_ok_iff] at run
  induction run with
  | nil => simp
  | @cons item result items results here _ ih =>
    intro other isIn
    rcases List.mem_cons.mp isIn with rfl | isIn
    · exact ⟨result, List.mem_cons_self, here⟩
    · obtain ⟨result, isResult, there⟩ := ih other isIn
      exact ⟨result, List.mem_cons_of_mem _ isResult, there⟩

theorem mapM_of_mem {f : A → Except E B} {items : List A} {results : List B}
    (run : items.mapM f = .ok results) : ∀ result ∈ results, ∃ item ∈ items, f item = .ok result := by
  rw [mapM_ok_iff] at run
  induction run with
  | nil => nofun
  | @cons item result items results here _ ih =>
    intro other isIn
    obtain rfl | isIn := List.mem_cons.mp isIn
    · exact ⟨item, List.mem_cons_self, here⟩
    · obtain ⟨item, isItem, there⟩ := ih other isIn
      exact ⟨item, List.mem_cons_of_mem _ isItem, there⟩

theorem mapM_sublist {f : A → Except E B} {items others : List A} (fewer : items.Sublist others)
    {results more : List B} (run : items.mapM f = .ok results) (longer : others.mapM f = .ok more) :
    results.Sublist more := by
  rw [mapM_ok_iff] at run longer
  induction fewer generalizing results more with
  | slnil =>
    cases run
    exact List.nil_sublist more
  | cons item _ ih =>
    cases longer with
    | cons _ longer => exact (ih run longer).cons _
  | cons_cons item _ ih =>
    cases run with
    | cons here run =>
      cases longer with
      | cons there longer =>
        obtain rfl := Except.ok.inj (here.symm.trans there)
        exact (ih run longer).cons_cons _

theorem mapM_subperm {f : A → Except E B} {items others : List A} (fewer : items.Subperm others)
    {results more : List B} (run : items.mapM f = .ok results) (longer : others.mapM f = .ok more) :
    results.Subperm more := by
  obtain ⟨middle, perm, sublist⟩ := fewer
  obtain ⟨permuted, run, same⟩ := mapM_perm perm run
  exact ⟨permuted, same, mapM_sublist sublist run longer⟩

def validated (problem : Option E) (build : problem = none → A) : Except E A :=
  match problem, build with
  | none, build => .ok (build rfl)
  | some error, _ => .error error

theorem validated_ok_iff {problem : Option E} {build : problem = none → A} {a : A} :
    validated problem build = .ok a ↔ ∃ fine : problem = none, build fine = a := by
  cases problem with
  | none => simp [validated]
  | some error => simp [validated]

/-- The computation succeeds exactly under the condition, and returns what is described. -/
structure Yields (x : Except E A) (condition : Prop) (described : A → Prop) : Prop where
  succeeds : condition → ∃ a, x = .ok a
  needs : ∀ a, x = .ok a → condition
  returns : ∀ a, x = .ok a → described a

variable {x : Except E A} {f : A → Except E B} {condition further : Prop} {described : A → Prop}
  {described' : B → Prop}

theorem Yields.ok {a : A} (is : described a) : Yields (.ok a : Except E A) True described :=
  ⟨fun _ => ⟨a, rfl⟩, fun _ _ => trivial, fun _ same => Except.ok.inj same ▸ is⟩

theorem Yields.validated {problem : Option E} {build : problem = none → A}
    (is : ∀ fine, described (build fine)) :
    Yields (validated problem build) (problem = none) described where
  succeeds fine := ⟨build fine, validated_ok_iff.mpr ⟨fine, rfl⟩⟩
  needs a isOk := (validated_ok_iff.mp isOk).1
  returns a isOk := by
    obtain ⟨fine, rfl⟩ := validated_ok_iff.mp isOk
    exact is fine

theorem Yields.map {g : A → B} (yields : Yields x condition described)
    (is : ∀ a, described a → described' (g a)) : Yields (x.map g) condition described' where
  succeeds holds := by
    obtain ⟨a, rfl⟩ := yields.succeeds holds
    exact ⟨g a, rfl⟩
  needs b isOk := by
    obtain ⟨a, isA, _⟩ := map_ok_iff.mp isOk
    exact yields.needs a isA
  returns b isOk := by
    obtain ⟨a, isA, rfl⟩ := map_ok_iff.mp isOk
    exact is a (yields.returns a isA)

theorem Yields.bind (first : Yields x condition described)
    (second : ∀ a, described a → Yields (f a) further described') :
    Yields (x >>= f) (condition ∧ further) described' where
  succeeds holds := by
    obtain ⟨a, isA⟩ := first.succeeds holds.1
    obtain ⟨b, isB⟩ := (second a (first.returns a isA)).succeeds holds.2
    exact ⟨b, bind_ok_iff.mpr ⟨a, isA, isB⟩⟩
  needs b isOk := by
    obtain ⟨a, isA, isB⟩ := bind_ok_iff.mp isOk
    exact ⟨first.needs a isA, (second a (first.returns a isA)).needs b isB⟩
  returns b isOk := by
    obtain ⟨a, isA, isB⟩ := bind_ok_iff.mp isOk
    exact (second a (first.returns a isA)).returns b isB

theorem Yields.congr (yields : Yields x condition described) (same : condition ↔ further) :
    Yields x further described :=
  ⟨fun holds => yields.succeeds (same.mpr holds), fun a isA => same.mp (yields.needs a isA),
    yields.returns⟩

theorem Yields.imp {further : A → Prop} (yields : Yields x condition described)
    (is : ∀ a, described a → further a) : Yields x condition further :=
  ⟨yields.succeeds, yields.needs, fun a isA => is a (yields.returns a isA)⟩

theorem Yields.mapM {needed : A → Prop} {returned : A → B → Prop}
    (each : ∀ a, Yields (f a) (needed a) (returned a)) (items : List A) :
    Yields (items.mapM f) (∀ a ∈ items, needed a) (List.Forall₂ returned items) where
  succeeds holds := by
    induction items with
    | nil => exact ⟨[], rfl⟩
    | cons a rest ih =>
      obtain ⟨b, isB⟩ := (each a).succeeds (holds a List.mem_cons_self)
      obtain ⟨others, areOthers⟩ := ih fun a' isIn => holds a' (List.mem_cons_of_mem a isIn)
      exact ⟨b :: others, mapM_ok_iff.mpr (.cons isB (mapM_ok_iff.mp areOthers))⟩
  needs results isOk := by
    have built := mapM_ok_iff.mp isOk
    clear isOk
    induction built with
    | nil => simp
    | cons isB _ ih =>
      intro a isIn
      cases isIn with
      | head => exact (each _).needs _ isB
      | tail _ isIn => exact ih a isIn
  returns results isOk :=
    (mapM_ok_iff.mp isOk).imp fun a b isB => (each a).returns b isB

theorem Yields.optionMapM {needed : A → Prop} {returned : A → B → Prop}
    (each : ∀ a, Yields (f a) (needed a) (returned a)) (item : Option A) :
    Yields (item.mapM f) (∀ a ∈ item, needed a) (Option.Rel returned item) := by
  cases item with
  | none =>
    refine ⟨fun _ => ⟨none, rfl⟩, fun _ _ => by simp, fun b isOk => ?_⟩
    cases Except.ok.inj isOk
    exact .none
  | some a =>
    have mapped : (some a).mapM f = (f a).map some := by
      simp only [Option.mapM_some]
      rfl
    rw [mapped]
    exact ((each a).map fun b is => Option.Rel.some is).congr (by simp)

end Counselle.Fallible

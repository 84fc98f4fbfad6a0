import Mathlib

/-! Lists of half-open spans over a linear order and the finite sets of points they
cover. A list is canonical when its spans are nonempty, in order and never touch. -/
namespace Counselle.Spans

section Order

variable {α : Type} [LinearOrder α]

/-- Nonempty spans in order, each ending strictly before the next begins. -/
structure Canonical (spans : List (α × α)) : Prop where
  nonempty : ∀ span ∈ spans, span.1 < span.2
  apart : spans.Pairwise fun left right => left.2 < right.1

theorem Canonical.nil : Canonical ([] : List (α × α)) := ⟨by simp, List.Pairwise.nil⟩

theorem Canonical.tail {span : α × α} {spans : List (α × α)} (canonical : Canonical (span :: spans)) :
    Canonical spans :=
  ⟨fun other isIn => canonical.nonempty other (List.mem_cons_of_mem _ isIn),
    (List.pairwise_cons.mp canonical.apart).2⟩

theorem Canonical.concat {spans : List (α × α)} {last : α × α} (canonical : Canonical spans)
    (nonempty : last.1 < last.2) (after : ∀ span ∈ spans, span.2 < last.1) :
    Canonical (spans ++ [last]) where
  nonempty := by
    intro span isIn
    rcases List.mem_append.mp isIn with old | new
    · exact canonical.nonempty span old
    · rwa [List.mem_singleton.mp new]
  apart := by
    refine List.pairwise_append.mpr ⟨canonical.apart, List.pairwise_singleton _ _, ?_⟩
    intro span isIn other isLast
    rw [List.mem_singleton.mp isLast]
    exact after span isIn

theorem Canonical.of_concat {spans : List (α × α)} {last : α × α}
    (canonical : Canonical (spans ++ [last])) :
    Canonical spans ∧ last.1 < last.2 ∧ ∀ span ∈ spans, span.2 < last.1 := by
  obtain ⟨apart, _, before⟩ := List.pairwise_append.mp canonical.apart
  refine ⟨⟨fun span isIn => canonical.nonempty span (List.mem_append_left _ isIn), apart⟩,
    canonical.nonempty last (by simp), fun span isIn => ?_⟩
  exact before span isIn last (List.mem_singleton_self _)

theorem Canonical.flatMap {spans : List (α × α)} (canonical : Canonical spans)
    {parts : α × α → List (α × α)} (partsCanonical : ∀ span ∈ spans, Canonical (parts span))
    (inside : ∀ span ∈ spans, ∀ part ∈ parts span, span.1 ≤ part.1 ∧ part.2 ≤ span.2) :
    Canonical (spans.flatMap parts) := by
  induction spans with
  | nil => exact Canonical.nil
  | cons span rest ih =>
    have restCanonical := ih canonical.tail
      (fun other isIn => partsCanonical other (List.mem_cons_of_mem _ isIn))
      (fun other isIn => inside other (List.mem_cons_of_mem _ isIn))
    have first := partsCanonical span List.mem_cons_self
    refine ⟨fun part isIn => ?_, ?_⟩
    · rcases List.mem_append.mp (List.flatMap_cons ▸ isIn) with inFirst | inRest
      · exact first.nonempty part inFirst
      · exact restCanonical.nonempty part inRest
    · rw [List.flatMap_cons]
      refine List.pairwise_append.mpr ⟨first.apart, restCanonical.apart, ?_⟩
      intro left inFirst right inRest
      obtain ⟨other, isIn, isPart⟩ := List.mem_flatMap.mp inRest
      have leftEnds := (inside span List.mem_cons_self left inFirst).2
      have rightStarts := (inside other (List.mem_cons_of_mem _ isIn) right isPart).1
      have before := (List.pairwise_cons.mp canonical.apart).1 other isIn
      exact (leftEnds.trans_lt before).trans_le rightStarts

variable [LocallyFiniteOrder α]

def cells (spans : List (α × α)) : Finset α :=
  spans.toFinset.biUnion fun span => Finset.Ico span.1 span.2

theorem mem_cells {spans : List (α × α)} {point : α} :
    point ∈ cells spans ↔ ∃ span ∈ spans, span.1 ≤ point ∧ point < span.2 := by
  simp only [cells, Finset.mem_biUnion, List.mem_toFinset, Finset.mem_Ico]

@[simp] theorem cells_nil : cells ([] : List (α × α)) = ∅ := rfl

theorem cells_cons (span : α × α) (spans : List (α × α)) :
    cells (span :: spans) = Finset.Ico span.1 span.2 ∪ cells spans := by
  ext point
  simp only [Finset.mem_union, mem_cells, List.exists_mem_cons_iff, Finset.mem_Ico]

theorem cells_append (left right : List (α × α)) :
    cells (left ++ right) = cells left ∪ cells right := by
  ext point
  simp only [Finset.mem_union, mem_cells, List.mem_append, or_and_right, exists_or]

theorem cells_perm {left right : List (α × α)} (perm : left.Perm right) : cells left = cells right := by
  ext point
  simp only [mem_cells, perm.mem_iff]

theorem cells_filter_nonempty (spans : List (α × α)) :
    cells (spans.filter fun span => span.1 < span.2) = cells spans := by
  ext point
  simp only [mem_cells, List.mem_filter, decide_eq_true_eq]
  constructor
  · rintro ⟨span, ⟨isIn, _⟩, inside⟩
    exact ⟨span, isIn, inside⟩
  · rintro ⟨span, isIn, inside⟩
    exact ⟨span, ⟨isIn, inside.1.trans_lt inside.2⟩, inside⟩

theorem Canonical.head_disjoint {span : α × α} {spans : List (α × α)}
    (canonical : Canonical (span :: spans)) : Disjoint (Finset.Ico span.1 span.2) (cells spans) := by
  rw [Finset.disjoint_left]
  intro point inHead inTail
  obtain ⟨other, isIn, from_, _⟩ := mem_cells.mp inTail
  have before := (List.pairwise_cons.mp canonical.apart).1 other isIn
  exact absurd ((Finset.mem_Ico.mp inHead).2.trans before) (not_lt.mpr from_)

theorem cells_flatMap (spans : List (α × α)) (parts : α × α → List (α × α)) (removed : Finset α)
    (each : ∀ span ∈ spans, cells (parts span) = Finset.Ico span.1 span.2 \ removed) :
    cells (spans.flatMap parts) = cells spans \ removed := by
  induction spans with
  | nil => simp
  | cons span rest ih =>
    rw [List.flatMap_cons, cells_append, cells_cons, each span List.mem_cons_self,
      ih fun other isIn => each other (List.mem_cons_of_mem _ isIn), Finset.union_sdiff_distrib]

end Order

theorem card_cells {spans : List (Int × Int)} (canonical : Canonical spans) :
    ((cells spans).card : Int) = (spans.map fun span => max 0 (span.2 - span.1)).sum := by
  induction spans with
  | nil => rfl
  | cons span rest ih =>
    rw [cells_cons, Finset.card_union_of_disjoint canonical.head_disjoint, Nat.cast_add,
      ih canonical.tail, Int.card_Ico, List.map_cons, List.sum_cons]
    omega

theorem card_cells_inter {spans : List (Int × Int)} (canonical : Canonical spans) (span : Int × Int) :
    ((cells spans ∩ Finset.Ico span.1 span.2).card : Int) =
      (spans.map fun other => max 0 (min other.2 span.2 - max other.1 span.1)).sum := by
  induction spans with
  | nil => simp
  | cons first rest ih =>
    have apart : Disjoint (Finset.Ico first.1 first.2 ∩ Finset.Ico span.1 span.2)
        (cells rest ∩ Finset.Ico span.1 span.2) :=
      canonical.head_disjoint.mono Finset.inter_subset_left Finset.inter_subset_left
    rw [cells_cons, Finset.union_inter_distrib_right, Finset.card_union_of_disjoint apart,
      Nat.cast_add, ih canonical.tail, List.map_cons, List.sum_cons, Finset.Ico_inter_Ico,
      Int.card_Ico, Int.toNat_eq_max]
    simp only [max_comm]

theorem card_cells_inter_cells {spans others : List (Int × Int)} (canonical : Canonical others) :
    ((cells spans ∩ cells others).card : Int) =
      (others.map fun other => ((cells spans ∩ Finset.Ico other.1 other.2).card : Int)).sum := by
  induction others with
  | nil => simp
  | cons first rest ih =>
    have apart : Disjoint (cells spans ∩ Finset.Ico first.1 first.2) (cells spans ∩ cells rest) :=
      canonical.head_disjoint.mono Finset.inter_subset_right Finset.inter_subset_right
    rw [cells_cons, Finset.inter_union_distrib_left, Finset.card_union_of_disjoint apart,
      Nat.cast_add, ih canonical.tail, List.map_cons, List.sum_cons]

end Counselle.Spans

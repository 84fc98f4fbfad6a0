import Counselle.Essays.BlockReuse
import Counselle.Essays.RenderedLines

/-! Reused blocks render to the text of the new ones exactly when what is carried over
does not show. -/
namespace Counselle.Essays
open Clarify Lines

/-- Opcodes that go on from these positions to the ends, equal ranges elementwise equal. -/
def Covers (a b : List Markdown) : Nat → Nat → List Opcode → Prop
  | i, j, [] => i = a.length ∧ j = b.length
  | i, j, op :: rest =>
    op.i1 = i ∧ op.j1 = j ∧ i ≤ op.i2 ∧ op.i2 ≤ a.length ∧ j ≤ op.j2 ∧ op.j2 ≤ b.length ∧
      (op.tag = .equal → slice a i op.i2 = slice b j op.j2) ∧ Covers a b op.i2 op.j2 rest

def IsMatcher (opcodes : Matcher) : Prop := ∀ a b, Covers a b 0 0 (opcodes a b)

section Slice
variable {α β : Type}

theorem slice_append_drop {i j : Nat} (le : i ≤ j) (xs : List α) :
    slice xs i j ++ xs.drop j = xs.drop i := by
  by_cases short : i ≤ (xs.take j).length
  · rw [slice, ← List.drop_append_of_le_length short, List.take_append_drop]
  · rw [List.length_take] at short
    rw [slice, List.drop_eq_nil_of_le (by simp; omega), List.drop_eq_nil_of_le (by omega),
      List.drop_eq_nil_of_le (by omega)]
    rfl

theorem length_slice {i j : Nat} {xs : List α} (le : j ≤ xs.length) :
    (slice xs i j).length = j - i := by
  rw [slice, List.length_drop, List.length_take, Nat.min_eq_left le]

theorem map_slice (f : α → β) (xs : List α) (i j : Nat) :
    (slice xs i j).map f = slice (xs.map f) i j := by
  simp [slice]

end Slice

/-- The result against the new children: a child that renders the same, or one carried
from the old child named. -/
inductive Aligned (render : Node → Markdown) :
    List Node → List (Node × (Node → Node)) → List (Option Node) → Prop
  | nil : Aligned render [] [] []
  | kept {node new : Node} {carry : Node → Node} {result : List Node}
      {news : List (Node × (Node → Node))} {carried : List (Option Node)} :
      render node = render new → Aligned render result news carried →
      Aligned render (node :: result) ((new, carry) :: news) (none :: carried)
  | paired {old new : Node} {carry : Node → Node} {result : List Node}
      {news : List (Node × (Node → Node))} {carried : List (Option Node)} :
      Aligned render result news carried →
      Aligned render (carry old :: result) ((new, carry) :: news) (some old :: carried)

section Aligned
variable {render : Node → Markdown}

theorem Aligned.append {result more : List Node} {news others : List (Node × (Node → Node))}
    {carried later : List (Option Node)} (front : Aligned render result news carried)
    (back : Aligned render more others later) :
    Aligned render (result ++ more) (news ++ others) (carried ++ later) := by
  induction front with
  | nil => exact back
  | kept same _ ih => exact Aligned.kept same ih
  | paired _ ih => exact Aligned.paired ih

theorem Aligned.same {nodes : List Node} {news : List (Node × (Node → Node))}
    (same : nodes.map render = news.map fun (new, _) => render new) :
    Aligned render nodes news (List.replicate news.length none) := by
  induction nodes generalizing news with
  | nil =>
    cases news with
    | nil => exact Aligned.nil
    | cons new news => cases same
  | cons node nodes ih =>
    cases news with
    | nil => cases same
    | cons new news =>
      obtain ⟨here, later⟩ := List.cons.inj same
      exact Aligned.kept here (ih later)

theorem Aligned.zip {olds : List Node} {news : List (Node × (Node → Node))}
    (lengths : olds.length = news.length) :
    Aligned render (List.zipWith (fun old (_, carry) => carry old) olds news) news
      (olds.map some) := by
  induction olds generalizing news with
  | nil =>
    cases news with
    | nil => exact Aligned.nil
    | cons new news => cases lengths
  | cons old olds ih =>
    cases news with
    | nil => cases lengths
    | cons new news => exact Aligned.paired (ih (Nat.succ.inj lengths))

def alignedPart (old : List Node) (news : List (Node × (Node → Node))) (op : Opcode) : List Node :=
  match op.tag with
  | .equal => slice old op.i1 op.i2
  | .replace =>
    if op.i2 - op.i1 = op.j2 - op.j1 then
      List.zipWith (fun old (_, carry) => carry old) (slice old op.i1 op.i2)
        (slice news op.j1 op.j2)
    else (slice news op.j1 op.j2).map Prod.fst
  | _ => (slice news op.j1 op.j2).map Prod.fst

def carriedPart (old : List Node) (op : Opcode) : List (Option Node) :=
  match op.tag with
  | .replace =>
    if op.i2 - op.i1 = op.j2 - op.j1 then (slice old op.i1 op.i2).map some
    else List.replicate (op.j2 - op.j1) none
  | _ => List.replicate (op.j2 - op.j1) none

theorem Aligned.fresh (news : List (Node × (Node → Node))) :
    Aligned render (news.map Prod.fst) news (List.replicate news.length none) := by
  apply Aligned.same
  rw [List.map_map]
  rfl

theorem part_aligned {old : List Node} {news : List (Node × (Node → Node))} {op : Opcode}
    (oldEnd : op.i2 ≤ old.length) (newEnd : op.j2 ≤ news.length)
    (equal : op.tag = .equal → slice (old.map render) op.i1 op.i2 =
      slice (news.map fun (child, _) => render child) op.j1 op.j2) :
    Aligned render (alignedPart old news op) (slice news op.j1 op.j2) (carriedPart old op) := by
  have fresh : Aligned render ((slice news op.j1 op.j2).map Prod.fst) (slice news op.j1 op.j2)
      (List.replicate (op.j2 - op.j1) none) := by
    rw [← length_slice newEnd]
    exact Aligned.fresh _
  unfold alignedPart carriedPart
  cases isTag : op.tag with
  | equal =>
    have renders := equal isTag
    rw [← map_slice, ← map_slice] at renders
    rw [← length_slice newEnd]
    exact Aligned.same renders
  | replace =>
    simp only
    split
    case isTrue widths =>
      exact Aligned.zip (by rw [length_slice oldEnd, length_slice newEnd, widths])
    case isFalse => exact fresh
  | delete => exact fresh
  | insert => exact fresh

theorem covers_aligned {old : List Node} {news : List (Node × (Node → Node))} {ops : List Opcode}
    {i j : Nat}
    (covers : Covers (old.map render) (news.map fun (child, _) => render child) i j ops) :
    Aligned render (ops.flatMap (alignedPart old news)) (news.drop j)
      (ops.flatMap (carriedPart old)) := by
  induction ops generalizing i j with
  | nil =>
    obtain ⟨-, rfl⟩ := covers
    rw [List.length_map, List.drop_length]
    exact Aligned.nil
  | cons op rest ih =>
    obtain ⟨rfl, rfl, -, oldEnd, le, newEnd, equal, later⟩ := covers
    rw [List.length_map] at oldEnd newEnd
    rw [← slice_append_drop le]
    exact (part_aligned oldEnd newEnd equal).append (ih later)

theorem alignContainer_aligned {opcodes : Matcher} (isMatcher : IsMatcher opcodes)
    (old : List Node) (news : List (Node × (Node → Node))) :
    Aligned render (alignContainer opcodes render old news) news
      (carriedFrom opcodes render old (news.map Prod.fst)) := by
  have same : (news.map Prod.fst).map render = news.map fun (child, _) => render child := by
    rw [List.map_map]
    rfl
  unfold carriedFrom
  rw [same]
  exact covers_aligned (isMatcher _ _)

end Aligned

variable {r : Renderer} {opcodes : Matcher}

/-- What carrying from any old node does to a block's text. -/
structure Carries (r : Renderer) (opcodes : Matcher) (node : Node) : Prop where
  longer (old : Node) : (linesOf (serializeBlock r node)).length ≤
    (linesOf (serializeBlock r (carryNode r opcodes node old))).length
  same (trim : Bool) (old : Node) :
    shows trim (serializeBlock r (carryNode r opcodes node old)) =
      shows trim (serializeBlock r node) ↔ agrees r opcodes node trim old = true

structure ItemCarries (r : Renderer) (opcodes : Matcher) (item : Node) : Prop where
  longer (old : Node) : (linesOf (serializeListItem r item)).length ≤
    (linesOf (serializeListItem r (carryNode r opcodes item old))).length
  same (trim : Bool) (old : Node) :
    shows true (serializeListItem r (carryNode r opcodes item old)) =
      shows true (serializeListItem r item) ↔ agrees r opcodes item trim old = true

theorem withCarry_fst (content : List Node) :
    (withCarry r opcodes content).map Prod.fst = content := by
  induction content with
  | nil => rfl
  | cons node rest ih => rw [withCarry, List.map_cons, ih]

theorem serializeItems_cons (item : Node) (rest : List Node) :
    serializeItems r (item :: rest) = serializeListItem r item :: serializeItems r rest := by
  cases item
  rfl

theorem serializeItems_eq_nil {items : List Node} : serializeItems r items = [] ↔ items = [] := by
  cases items with
  | nil => simp [serializeItems]
  | cons item rest => simp [serializeItems_cons]

section Children
variable {content result : List Node} {carried : List (Option Node)}

theorem Aligned.longer_blocks
    (aligned : Aligned (serializeBlock r) result (withCarry r opcodes content) carried)
    (each : ∀ node ∈ content, Carries r opcodes node) :
    Longer (serializeBlocks r result) (serializeBlocks r content) := by
  induction content generalizing result carried with
  | nil =>
    cases aligned
    exact List.Forall₂.nil
  | cons node rest ih =>
    rw [withCarry] at aligned
    have later := fun next isIn => each next (List.mem_cons_of_mem _ isIn)
    cases aligned with
    | kept same aligned =>
      rw [serializeBlocks, serializeBlocks, same]
      exact List.Forall₂.cons (Nat.le_refl _) (ih aligned later)
    | paired aligned =>
      rw [serializeBlocks, serializeBlocks]
      exact List.Forall₂.cons ((each node List.mem_cons_self).longer _) (ih aligned later)

theorem Aligned.same_blocks
    (aligned : Aligned (serializeBlock r) result (withCarry r opcodes content) carried)
    (each : ∀ node ∈ content, Carries r opcodes node) :
    serializeBlocks r result = serializeBlocks r content ↔
      agreeAll false carried (allAgree r opcodes content) = true := by
  induction content generalizing result carried with
  | nil =>
    cases aligned
    simp [agreeAll]
  | cons node rest ih =>
    rw [withCarry] at aligned
    have later := fun next isIn => each next (List.mem_cons_of_mem _ isIn)
    cases aligned with
    | kept same aligned =>
      rw [serializeBlocks, serializeBlocks, same, allAgree, agreeAll, ← ih aligned later]
      simp
    | @paired old _ _ _ _ _ aligned =>
      have here : serializeBlock r (carryNode r opcodes node old) = serializeBlock r node ↔
          agrees r opcodes node false old = true := by
        rw [← (each node List.mem_cons_self).same false old, shows, shows, seen_false, seen_false]
        exact ⟨congrArg linesOf, splitOn_inj⟩
      rw [serializeBlocks, serializeBlocks, allAgree, agreeAll, Bool.and_eq_true, List.cons.injEq,
        here, ih aligned later]

theorem Aligned.same_joined
    (aligned : Aligned (serializeBlock r) result (withCarry r opcodes content) carried)
    (each : ∀ node ∈ content, Carries r opcodes node) (trim : Bool) :
    shows trim (joinBlocks (serializeBlocks r result)) =
        shows trim (joinBlocks (serializeBlocks r content)) ↔
      agreeAll trim carried (allAgree r opcodes content) = true := by
  cases content with
  | nil =>
    cases aligned
    simp [agreeAll]
  | cons node rest =>
    rw [withCarry] at aligned
    have later := fun next isIn => each next (List.mem_cons_of_mem _ isIn)
    cases aligned with
    | kept same aligned =>
      rw [serializeBlocks, serializeBlocks, shows_joinBlocks (by rw [same])
        (aligned.longer_blocks later), allAgree, agreeAll, ← aligned.same_blocks later, same]
      simp
    | paired aligned =>
      have here := each node List.mem_cons_self
      rw [serializeBlocks, serializeBlocks, shows_joinBlocks (here.longer _)
        (aligned.longer_blocks later), allAgree, agreeAll, Bool.and_eq_true, here.same,
        aligned.same_blocks later]

theorem Aligned.longer_joined
    (aligned : Aligned (serializeBlock r) result (withCarry r opcodes content) carried)
    (each : ∀ node ∈ content, Carries r opcodes node) :
    (linesOf (joinBlocks (serializeBlocks r content))).length ≤
      (linesOf (joinBlocks (serializeBlocks r result))).length := by
  exact length_joinBlocks_le (aligned.longer_blocks each)

theorem Aligned.same_document
    (aligned : Aligned (serializeBlock r) result (withCarry r opcodes content) carried)
    (each : ∀ node ∈ content, Carries r opcodes node) :
    toMarkdown r (orParagraph result) = toMarkdown r (orParagraph content) ↔
      agreeAll false carried (allAgree r opcodes content) = true := by
  have joined := aligned.same_joined each false
  simp only [shows, seen_false] at joined
  rw [← joined]
  have texts : linesOf (joinBlocks (serializeBlocks r result)) =
        linesOf (joinBlocks (serializeBlocks r content)) ↔
      toMarkdown r result = toMarkdown r content := ⟨splitOn_inj, congrArg linesOf⟩
  rw [texts]
  cases content with
  | nil =>
    cases aligned
    simp
  | cons node rest =>
    rw [withCarry] at aligned
    cases aligned <;> rfl

theorem Aligned.longer_items
    (aligned : Aligned (serializeListItem r) result (withCarry r opcodes content) carried)
    (each : ∀ item ∈ content, ItemCarries r opcodes item) :
    Longer (serializeItems r result) (serializeItems r content) := by
  induction content generalizing result carried with
  | nil =>
    cases aligned
    exact List.Forall₂.nil
  | cons item rest ih =>
    rw [withCarry] at aligned
    have later := fun next isIn => each next (List.mem_cons_of_mem _ isIn)
    cases aligned with
    | kept same aligned =>
      rw [serializeItems_cons, serializeItems_cons, same]
      exact List.Forall₂.cons (Nat.le_refl _) (ih aligned later)
    | paired aligned =>
      rw [serializeItems_cons, serializeItems_cons]
      exact List.Forall₂.cons ((each item List.mem_cons_self).longer _) (ih aligned later)

theorem Aligned.same_items
    (aligned : Aligned (serializeListItem r) result (withCarry r opcodes content) carried)
    (each : ∀ item ∈ content, ItemCarries r opcodes item) :
    (serializeItems r result).map (shows true) = (serializeItems r content).map (shows true) ↔
      agreeAll false carried (allAgree r opcodes content) = true := by
  induction content generalizing result carried with
  | nil =>
    cases aligned
    simp [agreeAll]
  | cons item rest ih =>
    rw [withCarry] at aligned
    have later := fun next isIn => each next (List.mem_cons_of_mem _ isIn)
    cases aligned with
    | kept same aligned =>
      rw [serializeItems_cons, serializeItems_cons, same, allAgree, agreeAll, ← ih aligned later]
      simp
    | paired aligned =>
      have here := (each item List.mem_cons_self).same false
      rw [serializeItems_cons, serializeItems_cons, allAgree, agreeAll, Bool.and_eq_true,
        List.map_cons, List.map_cons, List.cons.injEq, here, ih aligned later]

end Children

section Nodes
variable {attrs : Attrs} {content : List Node} {text : Markdown} {marks : List Mark}

theorem carryNode_other {node old : Node} (other : old.type ≠ node.type) :
    carryNode r opcodes node old = node := by
  cases node with
  | mk type attrs content text marks =>
    unfold carryNode
    exact if_pos other

theorem agrees_other {node old : Node} {trim : Bool} (other : old.type ≠ node.type) :
    agrees r opcodes node trim old = true := by
  cases node with
  | mk type attrs content text marks =>
    unfold agrees
    exact if_pos other

theorem carries_of {type : NodeType}
    (same : ∀ old : Node, old.type = type →
      (linesOf (serializeBlock r (.mk type attrs content text marks))).length ≤
          (linesOf (serializeBlock r
            (carryNode r opcodes (.mk type attrs content text marks) old))).length ∧
        ∀ trim, shows trim (serializeBlock r
              (carryNode r opcodes (.mk type attrs content text marks) old)) =
            shows trim (serializeBlock r (.mk type attrs content text marks)) ↔
          agrees r opcodes (.mk type attrs content text marks) trim old = true) :
    Carries r opcodes (.mk type attrs content text marks) := by
  constructor
  · intro old
    by_cases ofType : old.type = type
    · exact (same old ofType).1
    · rw [carryNode_other ofType]
  · intro trim old
    by_cases ofType : old.type = type
    · exact (same old ofType).2 trim
    · rw [carryNode_other ofType]
      have agree : agrees r opcodes (.mk type attrs content text marks) trim old = true :=
        agrees_other ofType
      simp [agree]

theorem carries_of_text {type : NodeType}
    (kept : ∀ old : Node, old.type = type →
      serializeBlock r (carryNode r opcodes (.mk type attrs content text marks) old) =
        serializeBlock r (.mk type attrs content text marks))
    (agree : ∀ (old : Node) (trim : Bool), old.type = type →
      agrees r opcodes (.mk type attrs content text marks) trim old = true) :
    Carries r opcodes (.mk type attrs content text marks) := by
  apply carries_of
  intro old ofType
  refine ⟨by rw [kept old ofType], fun trim => ?_⟩
  rw [kept old ofType, agree old trim ofType]
  simp

attribute [local simp] serializeBlock carryNode agrees

theorem carries_paragraph : Carries r opcodes (.mk .paragraph attrs content text marks) := by
  apply carries_of_text
  · intro old ofType
    rw [carryNode, if_neg (not_not.mpr ofType)]
    rfl
  · intro old trim ofType
    unfold agrees
    split <;> rfl

theorem carries_heading (leveled : attrs.level.isSome) :
    Carries r opcodes (.mk .heading attrs content text marks) := by
  apply carries_of_text
  · intro old ofType
    obtain ⟨level, isLevel⟩ := Option.isSome_iff_exists.mp leveled
    have merged : (old.attrs.merge attrs).level = attrs.level := by
      rw [Attrs.merge, isLevel]
      rfl
    rw [carryNode, if_neg (not_not.mpr ofType)]
    simp only [serializeBlock, merged]
  · intro old trim ofType
    unfold agrees
    split <;> rfl

theorem carries_rule : Carries r opcodes (.mk .horizontalRule attrs content text marks) := by
  apply carries_of_text
  · intro old ofType
    rw [carryNode, if_neg (not_not.mpr ofType)]
    rfl
  · intro old trim ofType
    unfold agrees
    split <;> rfl

theorem carries_code : Carries r opcodes (.mk .codeBlock attrs content text marks) := by
  apply carries_of
  intro old ofType
  rw [carryNode, if_neg (not_not.mpr ofType)]
  simp only [serializeBlock, Attrs.merge, agrees, if_neg (not_not.mpr ofType)]
  cases attrs.language with
  | some language => simp
  | none =>
    refine ⟨length_serializeCode_le _ _, fun trim => ?_⟩
    simpa using shows_serializeCode_iff

theorem carries_blockquote (isMatcher : IsMatcher opcodes)
    (each : ∀ node ∈ content, Carries r opcodes node) :
    Carries r opcodes (.mk .blockquote attrs content text marks) := by
  apply carries_of
  intro old ofType
  have aligned : Aligned (serializeBlock r) _ _ _ :=
    alignContainer_aligned isMatcher old.content (withCarry r opcodes content)
  rw [withCarry_fst] at aligned
  rw [carryNode, if_neg (not_not.mpr ofType)]
  simp only [serializeBlock, agrees, if_neg (not_not.mpr ofType)]
  constructor
  · have longer := aligned.longer_joined each
    have quoted := fun blocks => congrArg List.length (shows_serializeBlockquote false blocks)
    simp only [shows, seen_false, List.length_map] at quoted
    rw [quoted, quoted]
    exact longer
  · intro trim
    rw [shows_serializeBlockquote, shows_serializeBlockquote, ← aligned.same_joined each]
    exact (List.map_injective_iff.mpr fun _ _ => quoteLine_inj).eq_iff

theorem carries_item (isMatcher : IsMatcher opcodes)
    (each : ∀ node ∈ content, Carries r opcodes node) :
    ItemCarries r opcodes (.mk .listItem attrs content text marks) := by
  -- an old node of another type leaves the new item as it is
  have either (old : Node) :
      (linesOf (serializeListItem r (.mk .listItem attrs content text marks))).length ≤
          (linesOf (serializeListItem r
            (carryNode r opcodes (.mk .listItem attrs content text marks) old))).length ∧
        ∀ trim, shows true (serializeListItem r
            (carryNode r opcodes (.mk .listItem attrs content text marks) old)) =
          shows true (serializeListItem r (.mk .listItem attrs content text marks)) ↔
            agrees r opcodes (.mk .listItem attrs content text marks) trim old = true := by
    by_cases ofType : old.type = .listItem
    · have aligned : Aligned (serializeBlock r) _ _ _ :=
        alignContainer_aligned isMatcher old.content (withCarry r opcodes content)
      rw [withCarry_fst] at aligned
      rw [carryNode, if_neg (not_not.mpr ofType)]
      simp only [serializeListItem, Node.content, agrees, if_neg (not_not.mpr ofType)]
      exact ⟨aligned.longer_joined each, fun _ => aligned.same_joined each true⟩
    · rw [carryNode_other ofType]
      exact ⟨Nat.le_refl _, fun _ => iff_of_true rfl (agrees_other ofType)⟩
  exact ⟨fun old => (either old).1, fun trim old => (either old).2 trim⟩

theorem carries_bullets (isMatcher : IsMatcher opcodes)
    (each : ∀ item ∈ content, ItemCarries r opcodes item) :
    Carries r opcodes (.mk .bulletList attrs content text marks) := by
  apply carries_of
  intro old ofType
  have aligned : Aligned (serializeListItem r) _ _ _ :=
    alignContainer_aligned isMatcher old.content (withCarry r opcodes content)
  rw [withCarry_fst] at aligned
  rw [carryNode, if_neg (not_not.mpr ofType)]
  simp only [serializeBlock, agrees, if_neg (not_not.mpr ofType)]
  refine ⟨length_serializeList_le (aligned.longer_items each), fun trim => ?_⟩
  rw [shows_serializeList_iff, ← aligned.same_items each,
    serializeList_eq_iff (aligned.longer_items each)]

theorem merged_start (old : Attrs) : listStart (old.merge attrs) = listStart attrs ↔
    (attrs.start.isSome || listStart old == 1) = true := by
  unfold listStart Attrs.merge
  cases attrs.start with
  | some start => simp
  | none => simp

theorem carries_numbers (isMatcher : IsMatcher opcodes)
    (each : ∀ item ∈ content, ItemCarries r opcodes item) :
    Carries r opcodes (.mk .orderedList attrs content text marks) := by
  apply carries_of
  intro old ofType
  have aligned : Aligned (serializeListItem r) _ _ _ :=
    alignContainer_aligned isMatcher old.content (withCarry r opcodes content)
  rw [withCarry_fst] at aligned
  rw [carryNode, if_neg (not_not.mpr ofType)]
  simp only [serializeBlock, agrees, if_neg (not_not.mpr ofType)]
  have longer := aligned.longer_items each
  refine ⟨length_serializeList_le longer, fun trim => ?_⟩
  rw [shows_serializeList_iff, numbered_eq_iff longer, Bool.and_eq_true, ← aligned.same_items each,
    Bool.or_assoc, Bool.or_eq_true, ← merged_start, List.isEmpty_iff, serializeItems_eq_nil]

end Nodes

mutual
/-- By induction on the block, one case for each type the parser makes. -/
theorem carries (isMatcher : IsMatcher opcodes) :
    ∀ node : Node, Parsed node → Carries r opcodes node
  | .mk type attrs content text marks, parsed => by
    cases type with
    | paragraph => exact carries_paragraph
    | heading => exact carries_heading parsed
    | bulletList => exact carries_bullets isMatcher (carries_items isMatcher content parsed)
    | orderedList => exact carries_numbers isMatcher (carries_items isMatcher content parsed)
    | listItem => exact parsed.elim
    | blockquote => exact carries_blockquote isMatcher (carries_all isMatcher content parsed)
    | codeBlock => exact carries_code
    | horizontalRule => exact carries_rule
    | other name => exact parsed.elim

theorem carries_all (isMatcher : IsMatcher opcodes) :
    ∀ content : List Node, ParsedAll content → ∀ node ∈ content, Carries r opcodes node
  | [], _ => by simp
  | node :: rest, parsed => by
    intro found isIn
    obtain here | later := List.mem_cons.mp isIn
    · rw [here]
      exact carries isMatcher node parsed.1
    · exact carries_all isMatcher rest parsed.2 found later

theorem carries_items (isMatcher : IsMatcher opcodes) :
    ∀ items : List Node, ParsedItems items → ∀ item ∈ items, ItemCarries r opcodes item
  | [], _ => by simp
  | .mk type _ content _ _ :: rest, parsed => by
    intro found isIn
    obtain ⟨isItem, blocks, more⟩ := parsed
    obtain here | later := List.mem_cons.mp isIn
    · rw [here, isItem]
      exact carries_item isMatcher (carries_all isMatcher content blocks)
    · exact carries_items isMatcher rest more found later
end

theorem alignBlocks_aligned (isMatcher : IsMatcher opcodes) (old new : List Node) :
    Aligned (serializeBlock r) (alignBlocks r opcodes old new) (withCarry r opcodes new)
      (carriedFrom opcodes (serializeBlock r) old new) := by
  have aligned : Aligned (serializeBlock r) _ _ _ :=
    alignContainer_aligned isMatcher old (withCarry r opcodes new)
  rwa [withCarry_fst] at aligned

/-- Reuse leaves the text of the parsed blocks alone exactly when what is carried over does
not show, block by block and for the document a successful edit makes. -/
theorem reuse_keeps_text_iff (isMatcher : IsMatcher opcodes) (r : Renderer) :
    (∀ parseInline tokens old new, parseBlocks parseInline tokens = some new →
      (serializeBlocks r (alignBlocks r opcodes old new) = serializeBlocks r new ↔
        blocksAgree r opcodes old new = true)) ∧
    ∀ (it : MarkdownIt) (lower : Markdown → Markdown) (content : List Node) (edits : List Edit)
      (new : List Node) (applied : Nat),
      applyEdits r opcodes it lower content edits = .ok (new, applied) →
      ∃ current plain, editText lower 0 edits (toMarkdown r content) = .ok current ∧
        it.parse current = some plain ∧
        (toMarkdown r new = toMarkdown r (orParagraph plain) ↔
          blocksAgree r opcodes content plain = true) := by
  constructor
  · intro parseInline tokens old new parsed
    have made := (parse_parsed parseInline _).1 tokens (Nat.lt_succ_self _) new parsed
    exact (alignBlocks_aligned isMatcher old new).same_blocks (carries_all isMatcher new made)
  · intro it lower content edits new applied done
    unfold applyEdits at done
    split at done
    · cases done
    case h_2 current edited =>
      split at done
      · cases done
      case h_2 plain parsed =>
        cases done
        refine ⟨current, plain, edited, parsed, ?_⟩
        exact (alignBlocks_aligned isMatcher content plain).same_document
          (carries_all isMatcher plain (parse_parsedAll parsed))

/-- The opcodes of two sequences that agree as wholes or nowhere. -/
def wholeOpcodes : Matcher := fun a b =>
  if a = b then if a = [] then [] else [⟨.equal, 0, a.length, 0, b.length⟩]
  else [⟨if a = [] then .insert else if b = [] then .delete else .replace,
    0, a.length, 0, b.length⟩]

theorem wholeOpcodes_isMatcher : IsMatcher wholeOpcodes := by
  intro a b
  unfold wholeOpcodes
  split
  case isTrue same =>
    subst same
    split
    case isTrue empty =>
      subst empty
      exact ⟨rfl, rfl⟩
    case isFalse => simp [Covers]
  case isFalse =>
    refine ⟨rfl, rfl, Nat.zero_le _, Nat.le_refl _, Nat.zero_le _, Nat.le_refl _, ?_, rfl, rfl⟩
    intro equal
    simp only at equal
    split at equal
    · cases equal
    · split at equal <;> cases equal

def plainRenderer : Renderer where
  inline nodes := (nodes.map (·.text)).flatten
  unknown _ := []

/-- A list of one item `x`, as the editor stores it. -/
def listOfX (start : Option Int) : Node :=
  .mk .orderedList { start := start }
    [.mk .listItem {} [.mk .paragraph {} [.mk (.other "text") {} [] ['x'] []] [] []] [] []] [] []

/-- markdown-it on `1. x`. -/
def listIt : MarkdownIt where
  tokenize _ := [
    { type := .orderedListOpen, level := 0 }, { type := .listItemOpen, level := 1 },
    { type := .paragraphOpen, level := 2 }, { type := .other "inline", level := 3, content := ['x'] },
    { type := .other "paragraph_close", level := 2 }, { type := .listItemClose, level := 1 },
    { type := .orderedListClose, level := 0 }]
  parseInline tok := [.mk (.other "text") {} [] tok.content []]

theorem listIt_parse : listIt.parse ['1', '.', ' ', 'x'] = some [listOfX none] := by
  have parsed : parseBlocks listIt.parseInline (listIt.tokenize []) = some [listOfX none] := by
    simp [listIt, parseBlocks, parseListItems, findClose, parsedStart, listOfX]
  exact parsed

theorem reuse_keeps_text_iff_wholeOpcodes :
    (serializeBlocks plainRenderer
        (alignBlocks plainRenderer wholeOpcodes [listOfX (some 1)] [listOfX none]) =
      serializeBlocks plainRenderer [listOfX none]) ∧
    blocksAgree plainRenderer wholeOpcodes [listOfX (some 1)] [listOfX none] = true := by
  have parsed : parseBlocks listIt.parseInline (listIt.tokenize []) = some [listOfX none] :=
    listIt_parse
  have agree : blocksAgree plainRenderer wholeOpcodes [listOfX (some 1)] [listOfX none] = true := by
    decide +kernel
  exact ⟨((reuse_keeps_text_iff wholeOpcodes_isMatcher plainRenderer).1 _ _ _ _ parsed).mpr agree,
    agree⟩

/-- `3. x` edited into `1. x` stays `3. x`. -/
theorem restarted_list_reverts :
    IsMatcher wholeOpcodes ∧
    applyEdits plainRenderer wholeOpcodes listIt id [listOfX (some 3)]
        [⟨['3', '.', ' ', 'x'], ['1', '.', ' ', 'x']⟩] = .ok ([listOfX (some 3)], 1) ∧
    editText id 0 [⟨['3', '.', ' ', 'x'], ['1', '.', ' ', 'x']⟩]
        (toMarkdown plainRenderer [listOfX (some 3)]) = .ok ['1', '.', ' ', 'x'] ∧
    listIt.parse ['1', '.', ' ', 'x'] = some [listOfX none] ∧
    toMarkdown plainRenderer [listOfX (some 3)] = ['3', '.', ' ', 'x'] ∧
    toMarkdown plainRenderer [listOfX none] = ['1', '.', ' ', 'x'] ∧
    serializeBlocks plainRenderer
        (alignBlocks plainRenderer wholeOpcodes [listOfX (some 3)] [listOfX none]) ≠
      serializeBlocks plainRenderer [listOfX none] := by
  have text : toMarkdown plainRenderer [listOfX (some 3)] = ['3', '.', ' ', 'x'] := by decide +kernel
  have edited : editText id 0 [⟨['3', '.', ' ', 'x'], ['1', '.', ' ', 'x']⟩]
      (toMarkdown plainRenderer [listOfX (some 3)]) = .ok ['1', '.', ' ', 'x'] := by
    rw [text]
    rfl
  refine ⟨wholeOpcodes_isMatcher, ?_, edited, listIt_parse, text, by decide +kernel,
    by decide +kernel⟩
  unfold applyEdits
  rw [edited]
  simp only [listIt_parse]
  rfl

end Counselle.Essays

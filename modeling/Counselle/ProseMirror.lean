import Mathlib.Data.List.Infix

/-! Documents as trees of nodes with the positions of ProseMirror: a character takes one
position, a leaf takes one, and a block one at either end. What stands between two positions,
where the n-th character of a range stands, and how a step moves positions. -/
namespace Counselle.ProseMirror

inductive PmNode (A : Type) where
  | text (units : List A)
  | leaf
  | block (content : List (PmNode A))

section Nodes
variable {A : Type}

mutual
/-- `node.nodeSize` -/
def PmNode.size : PmNode A → Nat
  | .text units => units.length
  | .leaf => 1
  | .block content => contentSize content + 2

/-- `fragment.size` -/
def contentSize : List (PmNode A) → Nat
  | [] => 0
  | node :: rest => node.size + contentSize rest
end

mutual
def PmNode.textsBetween (a b pos : Nat) : PmNode A → List (Nat × List A)
  | .text units => [(pos, units)]
  | .leaf => []
  | .block content => nodesBetween a b (pos + 1) content

/-- The text nodes that `nodesBetween(a, b)` comes to, each at its position. -/
def nodesBetween (a b pos : Nat) : List (PmNode A) → List (Nat × List A)
  | [] => []
  | node :: rest =>
    if pos < b then
      (if a < pos + node.size then node.textsBetween a b pos else []) ++
        nodesBetween a b (pos + node.size) rest
    else []
end

def sliceAt (a b : Nat) (node : Nat × List A) : List A :=
  (node.2.take (b - node.1)).drop (max a node.1 - node.1)

/-- `doc.textBetween(a, b, "")` -/
def textBetween (content : List (PmNode A)) (a b : Nat) : List A :=
  (nodesBetween a b 0 content).flatMap (sliceAt a b)

def textContent (content : List (PmNode A)) : List A := textBetween content 0 (contentSize content)

mutual
def PmNode.charsFrom (pos : Nat) : PmNode A → List (A × Nat)
  | .text units => units.zipIdx pos
  | .leaf => []
  | .block content => charsFrom (pos + 1) content

def charsFrom (pos : Nat) : List (PmNode A) → List (A × Nat)
  | [] => []
  | node :: rest => node.charsFrom pos ++ charsFrom (pos + node.size) rest
end

def chars (content : List (PmNode A)) : List (A × Nat) := charsFrom 0 content

def inRange (a b : Nat) (c : A × Nat) : Bool := a ≤ c.2 && c.2 < b

theorem inRange_iff {a b : Nat} {c : A × Nat} : inRange a b c = true ↔ a ≤ c.2 ∧ c.2 < b := by
  simp [inRange]

mutual
theorem node_bounds : ∀ (node : PmNode A) (pos : Nat), ∀ c ∈ node.charsFrom pos, pos ≤ c.2 ∧ c.2 < pos + node.size
  | .text units, pos => by
    intro c isIn
    rw [PmNode.charsFrom] at isIn
    have bounds := List.mem_zipIdx (x := c.1) (i := c.2) isIn
    rw [PmNode.size]
    exact ⟨bounds.1, bounds.2.1⟩
  | .leaf, pos => by
    rw [PmNode.charsFrom]
    nofun
  | .block content, pos => by
    intro c isIn
    rw [PmNode.charsFrom] at isIn
    have bounds := chars_bounds content (pos + 1) c isIn
    rw [PmNode.size]
    omega

theorem chars_bounds : ∀ (content : List (PmNode A)) (pos : Nat), ∀ c ∈ charsFrom pos content,
    pos ≤ c.2 ∧ c.2 < pos + contentSize content
  | [], pos => by
    rw [charsFrom]
    nofun
  | node :: rest, pos => by
    intro c isIn
    rw [charsFrom, List.mem_append] at isIn
    rw [contentSize]
    rcases isIn with isIn | isIn
    · have bounds := node_bounds node pos c isIn
      omega
    · have bounds := chars_bounds rest (pos + node.size) c isIn
      omega
end

theorem zipIdx_sorted (units : List A) (pos : Nat) : (units.zipIdx pos).Pairwise fun c d => c.2 < d.2 := by
  induction units generalizing pos with
  | nil => exact List.Pairwise.nil
  | cons unit units ih =>
    rw [List.zipIdx_cons, List.pairwise_cons]
    refine ⟨fun c isIn => ?_, ih (pos + 1)⟩
    have bounds := List.mem_zipIdx (x := c.1) (i := c.2) isIn
    exact bounds.1

mutual
theorem node_sorted : ∀ (node : PmNode A) (pos : Nat), (node.charsFrom pos).Pairwise fun c d => c.2 < d.2
  | .text units, pos => by
    rw [PmNode.charsFrom]
    exact zipIdx_sorted units pos
  | .leaf, pos => by
    rw [PmNode.charsFrom]
    exact List.Pairwise.nil
  | .block content, pos => by
    rw [PmNode.charsFrom]
    exact charsFrom_sorted content (pos + 1)

theorem charsFrom_sorted : ∀ (content : List (PmNode A)) (pos : Nat),
    (charsFrom pos content).Pairwise fun c d => c.2 < d.2
  | [], pos => by
    rw [charsFrom]
    exact List.Pairwise.nil
  | node :: rest, pos => by
    rw [charsFrom, List.pairwise_append]
    refine ⟨node_sorted node pos, charsFrom_sorted rest (pos + node.size), fun c isIn d isLater => ?_⟩
    have bounds := node_bounds node pos c isIn
    have later := chars_bounds rest (pos + node.size) d isLater
    omega
end

theorem chars_sorted (content : List (PmNode A)) : (chars content).Pairwise fun c d => c.2 < d.2 :=
  charsFrom_sorted content 0

def shown (a b : Nat) (node : Nat × List A) : List (A × Nat) := (sliceAt a b node).zipIdx (max a node.1)

theorem shown_eq (a b pos : Nat) (units : List A) :
    shown a b (pos, units) = (units.zipIdx pos).filter (inRange a b) := by
  induction units generalizing pos with
  | nil => simp [shown, sliceAt]
  | cons unit units ih =>
    have later := ih (pos + 1)
    rw [List.zipIdx_cons, List.filter_cons]
    by_cases ended : b ≤ pos
    · -- Nothing is left of the range.
      have out : inRange a b (unit, pos) = false := by
        rw [← Bool.not_eq_true, inRange_iff]
        omega
      have none : (units.zipIdx (pos + 1)).filter (inRange a b) = [] := by
        rw [List.filter_eq_nil_iff]
        intro c isIn
        have bounds := List.mem_zipIdx (x := c.1) (i := c.2) isIn
        rw [inRange_iff]
        omega
      rw [out, none]
      simp [shown, sliceAt, Nat.sub_eq_zero_of_le ended]
    · have room : b - pos = b - (pos + 1) + 1 := by omega
      by_cases before : a ≤ pos
      · have inside : inRange a b (unit, pos) = true := inRange_iff.mpr ⟨before, by omega⟩
        have here : max a pos = pos := by omega
        have next : max a (pos + 1) = pos + 1 := by omega
        rw [if_pos inside, ← later]
        simp only [shown, sliceAt, here, next, Nat.sub_self, List.drop_zero, room, List.take_succ_cons,
          List.zipIdx_cons]
      · have out : inRange a b (unit, pos) = false := by
          rw [← Bool.not_eq_true, inRange_iff]
          omega
        have next : max a pos = max a (pos + 1) := by omega
        have here : max a (pos + 1) - pos = max a (pos + 1) - (pos + 1) + 1 := by omega
        rw [out, ← later]
        simp only [shown, sliceAt, next, here, room, List.take_succ_cons, List.drop_succ_cons, Bool.false_eq_true,
          if_false]

mutual
theorem node_between (a b : Nat) : ∀ (node : PmNode A) (pos : Nat),
    (node.textsBetween a b pos).flatMap (shown a b) = (node.charsFrom pos).filter (inRange a b)
  | .text units, pos => by
    rw [PmNode.textsBetween, PmNode.charsFrom, List.flatMap_singleton, shown_eq]
  | .leaf, pos => by
    rw [PmNode.textsBetween, PmNode.charsFrom]
    rfl
  | .block content, pos => by
    rw [PmNode.textsBetween, PmNode.charsFrom]
    exact nodes_between a b content (pos + 1)

theorem nodes_between (a b : Nat) : ∀ (content : List (PmNode A)) (pos : Nat),
    (nodesBetween a b pos content).flatMap (shown a b) = (charsFrom pos content).filter (inRange a b)
  | [], pos => by
    rw [nodesBetween, charsFrom]
    rfl
  | node :: rest, pos => by
    rw [nodesBetween]
    split
    case isTrue =>
      rw [charsFrom, List.filter_append, List.flatMap_append, nodes_between a b rest]
      split
      case isTrue => rw [node_between a b node]
      case isFalse skipped =>
        have none : (node.charsFrom pos).filter (inRange a b) = [] := by
          rw [List.filter_eq_nil_iff]
          intro c isIn
          have bounds := node_bounds node pos c isIn
          rw [inRange_iff]
          omega
        rw [none, List.flatMap_nil]
    case isFalse ended =>
      rw [List.flatMap_nil, eq_comm, List.filter_eq_nil_iff]
      intro c isIn
      have bounds := chars_bounds (node :: rest) pos c isIn
      rw [inRange_iff]
      omega
end

theorem textBetween_eq (content : List (PmNode A)) (a b : Nat) :
    textBetween content a b = ((chars content).filter (inRange a b)).map Prod.fst := by
  rw [chars, ← nodes_between, List.map_flatMap, textBetween]
  congr 1
  funext node
  rw [shown, List.zipIdx_map_fst]

theorem textContent_eq (content : List (PmNode A)) : textContent content = (chars content).map Prod.fst := by
  rw [textContent, textBetween_eq, List.filter_eq_self.mpr]
  intro c isIn
  have bounds := chars_bounds content 0 c isIn
  rw [inRange_iff]
  omega

theorem lt_of_textBetween {content : List (PmNode A)} {a b : Nat} (filled : textBetween content a b ≠ []) : a < b := by
  rw [textBetween_eq, ne_eq, List.map_eq_nil_iff, List.filter_eq_nil_iff] at filled
  by_contra empty
  refine filled fun c _ inside => ?_
  rw [inRange_iff] at inside
  omega

theorem filter_meet {l : List (A × Nat)} (sorted : l.Pairwise fun c d => c.2 < d.2) {a b n : Nat} (low : a ≤ b)
    (high : b ≤ n) : l.filter (inRange a n) = l.filter (inRange a b) ++ l.filter (inRange b n) := by
  induction l with
  | nil => rfl
  | cons c l ih =>
    obtain ⟨less, sorted⟩ := List.pairwise_cons.mp sorted
    rw [List.filter_cons, List.filter_cons, List.filter_cons, ih sorted]
    by_cases front : c.2 < b
    · have whole : inRange a n c = inRange a b c := by
        rw [Bool.eq_iff_iff, inRange_iff, inRange_iff]
        omega
      have second : ¬ inRange b n c = true := by
        rw [inRange_iff]
        omega
      rw [whole, if_neg second]
      split
      case isTrue => rfl
      case isFalse => rfl
    · -- Nothing of the first range is left.
      have whole : inRange a n c = inRange b n c := by
        rw [Bool.eq_iff_iff, inRange_iff, inRange_iff]
        omega
      have first : ¬ inRange a b c = true := by
        rw [inRange_iff]
        omega
      have none : l.filter (inRange a b) = [] := by
        rw [List.filter_eq_nil_iff]
        intro d isIn
        have more := less d isIn
        rw [inRange_iff]
        omega
      rw [whole, if_neg first, none, List.nil_append, List.nil_append]

theorem textContent_split (content : List (PmNode A)) {a b : Nat} (ordered : a ≤ b) :
    textContent content =
      textBetween content 0 a ++ textBetween content a b ++ textBetween content b (contentSize content) := by
  have bound (first last : Nat) (size : contentSize content ≤ last) :
      (chars content).filter (inRange first last) = (chars content).filter fun c => first ≤ c.2 := by
    refine List.filter_congr fun c isIn => ?_
    have bounds := chars_bounds content 0 c isIn
    rw [Bool.eq_iff_iff, inRange_iff, decide_eq_true_eq]
    omega
  have last := le_max_left b (contentSize content)
  have size := le_max_right b (contentSize content)
  rw [textContent, textBetween_eq, textBetween_eq, textBetween_eq, textBetween_eq, ← List.map_append, ← List.map_append,
    bound 0 _ le_rfl, bound b _ le_rfl, ← bound 0 _ size, ← bound b _ size,
    filter_meet (chars_sorted content) (Nat.zero_le b) last, filter_meet (chars_sorted content) (Nat.zero_le a) ordered]

inductive Side where
  | start
  | stop

/-- The walk of `positionAtTextOffset` over the text nodes, with the characters `seen`. -/
def locate (side : Side) (a b offset : Nat) : Nat → List (Nat × List A) → Option Nat
  | _, [] => none
  | seen, (pos, units) :: rest =>
    if units.isEmpty then locate side a b offset seen rest
    else
      let start := max a pos
      let length := min b (pos + units.length) - start
      let reached := match side with
        | .start => decide (offset < seen + length)
        | .stop => decide (offset ≤ seen + length)
      if reached then some (start + (offset - seen)) else locate side a b offset (seen + length) rest

/-- The position of the n-th character of a range, for its start or its end. -/
def positionAtTextOffset (content : List (PmNode A)) (a b offset : Nat) (side : Side) : Nat :=
  (locate side a b offset 0 (nodesBetween a b 0 content)).getD (if offset = 0 then a else b)

theorem length_shown (a b pos : Nat) (units : List A) :
    (shown a b (pos, units)).length = min b (pos + units.length) - max a pos := by
  rw [shown, List.length_zipIdx, sliceAt, List.length_drop, List.length_take]
  dsimp only
  omega

theorem shown_getElem? (a b pos : Nat) (units : List A) (i : Nat) (inside : i < (shown a b (pos, units)).length) :
    (shown a b (pos, units))[i]?.map Prod.snd = some (max a pos + i) := by
  rw [shown, List.length_zipIdx] at inside
  rw [shown, List.getElem?_zipIdx, List.getElem?_eq_getElem inside]
  rfl

theorem locate_start {a b offset seen : Nat} (ahead : seen ≤ offset) (nodes : List (Nat × List A)) :
    locate .start a b offset seen nodes = (nodes.flatMap (shown a b))[offset - seen]?.map Prod.snd := by
  induction nodes generalizing seen with
  | nil => rfl
  | cons node rest ih =>
    obtain ⟨pos, units⟩ := node
    rw [locate, List.flatMap_cons]
    split
    case isTrue blank =>
      have none : shown a b (pos, units) = [] := by
        rw [List.isEmpty_iff.mp blank, shown, sliceAt, List.take_nil, List.drop_nil, List.zipIdx_nil]
      rw [none, List.nil_append, ih ahead]
    case isFalse =>
      have length := length_shown a b pos units
      dsimp only
      rw [← length]
      split
      case isTrue reached =>
        have inside : offset - seen < (shown a b (pos, units)).length := by
          have := of_decide_eq_true reached
          omega
        rw [List.getElem?_append_left inside, shown_getElem? a b pos units _ inside]
      case isFalse far =>
        have outside : (shown a b (pos, units)).length ≤ offset - seen := by
          have := of_decide_eq_false (Bool.eq_false_iff.mpr far)
          omega
        rw [ih (by omega), List.getElem?_append_right outside, Nat.sub_sub]

theorem locate_stop {a b offset seen : Nat} (ahead : seen < offset) (nodes : List (Nat × List A)) :
    locate .stop a b offset seen nodes =
      (nodes.flatMap (shown a b))[offset - seen - 1]?.map fun c => c.2 + 1 := by
  induction nodes generalizing seen with
  | nil => rfl
  | cons node rest ih =>
    obtain ⟨pos, units⟩ := node
    rw [locate, List.flatMap_cons]
    split
    case isTrue blank =>
      have none : shown a b (pos, units) = [] := by
        rw [List.isEmpty_iff.mp blank, shown, sliceAt, List.take_nil, List.drop_nil, List.zipIdx_nil]
      rw [none, List.nil_append, ih ahead]
    case isFalse =>
      have length := length_shown a b pos units
      dsimp only
      rw [← length]
      split
      case isTrue reached =>
        have inside : offset - seen - 1 < (shown a b (pos, units)).length := by
          have := of_decide_eq_true reached
          omega
        have here := congrArg (Option.map (· + 1)) (shown_getElem? a b pos units _ inside)
        rw [Option.map_map] at here
        have behind : max a pos + (offset - seen) = max a pos + (offset - seen - 1) + 1 := by omega
        rw [List.getElem?_append_left inside]
        exact (congrArg some behind).trans here.symm
      case isFalse far =>
        have outside : seen + (shown a b (pos, units)).length < offset := by
          have := of_decide_eq_false (Bool.eq_false_iff.mpr far)
          omega
        rw [ih outside, List.getElem?_append_right (by omega), Nat.sub_sub, Nat.sub_sub, Nat.sub_sub]
        congr 2
        omega

theorem filter_stretch {front stretch back : List (A × Nat)} {first last : A × Nat}
    (sorted : (front ++ stretch ++ back).Pairwise fun c d => c.2 < d.2) (begins : stretch.head? = some first)
    (ends : stretch.getLast? = some last) :
    (front ++ stretch ++ back).filter (inRange first.2 (last.2 + 1)) = stretch := by
  rw [List.append_assoc, List.pairwise_append, List.pairwise_append] at sorted
  obtain ⟨-, ⟨within, -, behind⟩, ahead⟩ := sorted
  have firstIn := List.mem_of_head? begins
  have lastIn := List.mem_of_getLast? ends
  have frontOut : front.filter (inRange first.2 (last.2 + 1)) = [] := by
    rw [List.filter_eq_nil_iff]
    intro c isIn
    have less := ahead c isIn first (List.mem_append_left _ firstIn)
    rw [inRange_iff]
    omega
  have backOut : back.filter (inRange first.2 (last.2 + 1)) = [] := by
    rw [List.filter_eq_nil_iff]
    intro c isIn
    have more := behind last lastIn c isIn
    rw [inRange_iff]
    omega
  have inside : stretch.filter (inRange first.2 (last.2 + 1)) = stretch := by
    rw [List.filter_eq_self]
    intro c isIn
    rw [inRange_iff]
    constructor
    · obtain ⟨rest, rfl⟩ := List.head?_eq_some_iff.mp begins
      obtain rfl | later := List.mem_cons.mp isIn
      · exact le_rfl
      · exact (List.rel_of_pairwise_cons within later).le
    · obtain ⟨init, rfl⟩ := List.getLast?_eq_some_iff.mp ends
      rw [List.mem_append, List.mem_singleton] at isIn
      rcases isIn with earlier | rfl
      · have less := (List.pairwise_append.mp within).2.2 c earlier last (List.mem_singleton_self last)
        omega
      · omega
  rw [List.filter_append, List.filter_append, frontOut, inside, backOut, List.nil_append, List.append_nil]

theorem textBetween_found {content : List (PmNode A)} {front anchor back : List A} (filled : anchor ≠ [])
    (found : textContent content = front ++ anchor ++ back) :
    let size := contentSize content
    let start := positionAtTextOffset content 0 size front.length .start
    let stop := positionAtTextOffset content 0 size (front.length + anchor.length) .stop
    start < stop ∧ textBetween content start stop = anchor := by
  rw [textContent_eq, List.map_eq_append_iff] at found
  obtain ⟨most, after, split, found, rfl⟩ := found
  obtain ⟨before, stretch, rfl, rfl, rfl⟩ := List.map_eq_append_iff.mp found
  have some : stretch ≠ [] := fun none => filled (by rw [none, List.map_nil])
  have walked : (nodesBetween 0 (contentSize content) 0 content).flatMap (shown 0 (contentSize content)) =
      before ++ stretch ++ after := by
    rw [nodes_between, List.filter_eq_self.mpr]
    · exact split
    · intro c isIn
      have bounds := chars_bounds content 0 c isIn
      rw [inRange_iff]
      omega
  have length : 0 < stretch.length := List.length_pos_iff.mpr some
  have first : (before ++ stretch ++ after)[before.length]? = Option.some (stretch.head some) := by
    rw [List.append_assoc, List.getElem?_append_right le_rfl, Nat.sub_self, List.getElem?_append_left length,
      List.head_eq_getElem, List.getElem?_eq_getElem]
  have last : (before ++ stretch ++ after)[before.length + stretch.length - 1]? = Option.some (stretch.getLast some) := by
    have index : before.length + stretch.length - 1 - before.length = stretch.length - 1 := by omega
    rw [List.append_assoc, List.getElem?_append_right (by omega), index, List.getElem?_append_left (by omega),
      List.getLast_eq_getElem, List.getElem?_eq_getElem]
  have start : positionAtTextOffset content 0 (contentSize content) (before.map Prod.fst).length .start =
      (stretch.head some).2 := by
    rw [positionAtTextOffset, locate_start (Nat.zero_le _), walked, List.length_map, Nat.sub_zero, first]
    rfl
  have stop : positionAtTextOffset content 0 (contentSize content)
      ((before.map Prod.fst).length + (stretch.map Prod.fst).length) .stop = (stretch.getLast some).2 + 1 := by
    rw [positionAtTextOffset, List.length_map, List.length_map, locate_stop (by omega), walked, Nat.sub_zero, last]
    rfl
  have sorted : (before ++ stretch ++ after).Pairwise fun c d => c.2 < d.2 := split ▸ chars_sorted content
  have begins := List.head?_eq_some_head some
  have ends := List.getLast?_eq_some_getLast some
  have stands := filter_stretch sorted begins ends
  dsimp only
  rw [start, stop]
  constructor
  · have isIn : stretch.head some ∈ (chars content).filter (inRange (stretch.head some).2 ((stretch.getLast some).2 + 1)) := by
      rw [split, stands]
      exact List.head_mem some
    exact lt_of_le_of_lt le_rfl (inRange_iff.mp (List.mem_filter.mp isIn).2).2
  · rw [textBetween_eq, split, stands]

end Nodes

/-- The side of a position that is asked for, `-1` or `1`. -/
inductive Assoc where
  | before
  | after
deriving DecidableEq

/-- A replaced range: where it starts, and the positions that it took and takes. -/
structure MapRange where
  start : Nat
  oldSize : Nat
  newSize : Nat

abbrev StepMap := List MapRange

/-- The loop of `map(pos, assoc)` over the ranges, with the sizes of those in front. -/
def mapFrom (assoc : Assoc) (pos removed added : Nat) : StepMap → Nat
  | [] => pos + added - removed
  | range :: rest =>
    if pos < range.start then pos + added - removed
    else if pos ≤ range.start + range.oldSize then
      let side :=
        if range.oldSize = 0 then assoc
        else if pos = range.start then .before
        else if pos = range.start + range.oldSize then .after
        else assoc
      range.start + added - removed + match side with
        | .before => 0
        | .after => range.newSize
    else mapFrom assoc pos (removed + range.oldSize) (added + range.newSize) rest

def StepMap.map (ranges : StepMap) (pos : Nat) (assoc : Assoc) : Nat := mapFrom assoc pos 0 0 ranges

structure Step (A : Type) where
  getMap : StepMap
  doc : List (PmNode A)

/-- `tr.mapping.map(pos, assoc)` -/
def mapThrough {A : Type} (steps : List (Step A)) (pos : Nat) (assoc : Assoc) : Nat :=
  steps.foldl (fun pos step => step.getMap.map pos assoc) pos

def docBehind {A : Type} (content : List (PmNode A)) (steps : List (Step A)) : List (PmNode A) :=
  steps.foldl (fun _ step => step.doc) content

/-- Other content stands in a range: the characters in front of it are the same, and those
behind it have moved along. -/
structure Replaces {A : Type} (range : MapRange) (old new : List (PmNode A)) : Prop where
  front : (chars new).filter (fun c => c.2 < range.start) = (chars old).filter fun c => c.2 < range.start
  back : (chars new).filter (fun c => range.start + range.newSize ≤ c.2) =
    ((chars old).filter fun c => range.start + range.oldSize ≤ c.2).map fun c =>
      (c.1, c.2 + range.newSize - range.oldSize)

/-- Steps that each replace one range, none of which reaches into what has become of a span. -/
inductive Avoids {A : Type} : List (PmNode A) → Nat → Nat → List (Step A) → Prop where
  | done {content a b} : Avoids content a b []
  | step {content a b range doc rest} (replaces : Replaces range content doc)
      (apart : b ≤ range.start ∨ range.start + range.oldSize ≤ a)
      (later : Avoids doc (StepMap.map [range] a .after) (StepMap.map [range] b .before) rest) :
      Avoids content a b (⟨[range], doc⟩ :: rest)

section Mapping
variable {A : Type} {a b : Nat} {range : MapRange} {old new content : List (PmNode A)}

theorem map_ahead (filled : a < b) (ahead : b ≤ range.start) :
    StepMap.map [range] a .after = a ∧ StepMap.map [range] b .before = b := by
  have before : a < range.start := by omega
  constructor
  · rw [StepMap.map, mapFrom, if_pos before]
    omega
  · rw [StepMap.map, mapFrom]
    split
    case isTrue => omega
    case isFalse reached =>
      have here : b = range.start := by omega
      rw [if_pos (by omega), here]
      by_cases blank : range.oldSize = 0
      · simp [blank]
      · simp [blank]

theorem map_behind (filled : a < b) (behind : range.start + range.oldSize ≤ a) :
    StepMap.map [range] a .after = a + range.newSize - range.oldSize ∧
      StepMap.map [range] b .before = b + range.newSize - range.oldSize := by
  constructor
  · rw [StepMap.map, mapFrom, if_neg (by omega)]
    split
    case isTrue reached =>
      have here : a = range.start + range.oldSize := by omega
      subst here
      by_cases blank : range.oldSize = 0
      · simp [blank]
      · simp [blank]
        omega
    case isFalse =>
      rw [mapFrom]
      omega
  · rw [StepMap.map, mapFrom, if_neg (by omega), if_neg (by omega), mapFrom]
    omega

theorem Replaces.textBetween (replaces : Replaces range old new) (filled : a < b)
    (apart : b ≤ range.start ∨ range.start + range.oldSize ≤ a) :
    StepMap.map [range] a .after < StepMap.map [range] b .before ∧
      textBetween new (StepMap.map [range] a .after) (StepMap.map [range] b .before) = textBetween old a b := by
  rcases apart with ahead | behind
  · obtain ⟨first, last⟩ := map_ahead filled ahead
    rw [first, last, textBetween_eq, textBetween_eq]
    refine ⟨filled, congrArg (List.map Prod.fst) ?_⟩
    have inside (l : List (A × Nat)) :
        l.filter (inRange a b) = (l.filter fun c => c.2 < range.start).filter (inRange a b) := by
      rw [List.filter_filter]
      refine List.filter_congr fun c _ => ?_
      rw [Bool.eq_iff_iff, Bool.and_eq_true, inRange_iff, decide_eq_true_eq]
      omega
    rw [inside, inside (chars old), replaces.front]
  · obtain ⟨first, last⟩ := map_behind filled behind
    rw [first, last, textBetween_eq, textBetween_eq]
    refine ⟨by omega, ?_⟩
    have newer : (chars new).filter (inRange (a + range.newSize - range.oldSize) (b + range.newSize - range.oldSize)) =
        ((chars new).filter fun c => range.start + range.newSize ≤ c.2).filter
          (inRange (a + range.newSize - range.oldSize) (b + range.newSize - range.oldSize)) := by
      rw [List.filter_filter]
      refine List.filter_congr fun c _ => ?_
      rw [Bool.eq_iff_iff, Bool.and_eq_true, inRange_iff, decide_eq_true_eq]
      omega
    have older : (chars old).filter (inRange a b) =
        ((chars old).filter fun c => range.start + range.oldSize ≤ c.2).filter (inRange a b) := by
      rw [List.filter_filter]
      refine List.filter_congr fun c _ => ?_
      rw [Bool.eq_iff_iff, Bool.and_eq_true, inRange_iff, decide_eq_true_eq]
      omega
    rw [newer, replaces.back, older, List.filter_map, List.map_map]
    refine congrArg (List.map Prod.fst) (List.filter_congr fun c isIn => ?_)
    have further := of_decide_eq_true (List.mem_filter.mp isIn).2
    rw [Bool.eq_iff_iff, Function.comp, inRange_iff, inRange_iff]
    dsimp only
    omega

theorem Avoids.textBetween {steps : List (Step A)} (avoids : Avoids content a b steps) (filled : a < b) :
    mapThrough steps a .after < mapThrough steps b .before ∧
      textBetween (docBehind content steps) (mapThrough steps a .after) (mapThrough steps b .before) =
        textBetween content a b := by
  induction avoids with
  | done => exact ⟨filled, rfl⟩
  | step replaces apart _ ih =>
    obtain ⟨filled, same⟩ := replaces.textBetween filled apart
    obtain ⟨behind, kept⟩ := ih filled
    exact ⟨behind, kept.trans same⟩

end Mapping

end Counselle.ProseMirror

import Counselle.Essays.Markdown
import Counselle.Lines
import Counselle.Text

/-! Two blocks rendered to the same lines: what that says of their parts. -/
namespace Counselle.Essays
open Clarify Lines

def linesOf (markdown : Markdown) : List Markdown := markdown.splitOn '\n'

/-- The lines, the end of the first one cut off when it does not show. -/
abbrev shows (trim : Bool) (markdown : Markdown) : List Markdown :=
  seen isSpace trim (linesOf markdown)

theorem linesOf_ne_nil (markdown : Markdown) : linesOf markdown ≠ [] :=
  List.splitOn_ne_nil _ _

abbrev Longer (reused fresh : List Markdown) : Prop :=
  List.Forall₂ (fun a b => (linesOf b).length ≤ (linesOf a).length) reused fresh

theorem linesOf_joinBlocks (first : Markdown) (rest : List Markdown) :
    linesOf (joinBlocks (first :: rest)) =
      (linesOf first :: rest.map fun next => [] :: linesOf next).flatten :=
  splitOn_spaced '\n' first rest

theorem Longer.spaced {reused fresh : List Markdown} (longer : Longer reused fresh) :
    List.Forall₂ (fun a b => b.length ≤ a.length) (reused.map fun next => [] :: linesOf next)
      (fresh.map fun next => [] :: linesOf next) := by
  simpa [List.forall₂_map_left_iff, List.forall₂_map_right_iff] using longer

theorem length_joinBlocks_le {reused fresh : List Markdown} (longer : Longer reused fresh) :
    (linesOf (joinBlocks fresh)).length ≤ (linesOf (joinBlocks reused)).length := by
  cases longer with
  | nil => exact Nat.le_refl _
  | cons here later =>
    rw [linesOf_joinBlocks, linesOf_joinBlocks]
    exact length_flatten_le (List.Forall₂.cons here (Longer.spaced later))

theorem shows_joinBlocks {trim : Bool} {reused fresh : Markdown} {moreReused moreFresh : List Markdown}
    (here : (linesOf fresh).length ≤ (linesOf reused).length)
    (later : Longer moreReused moreFresh) :
    shows trim (joinBlocks (reused :: moreReused)) = shows trim (joinBlocks (fresh :: moreFresh)) ↔
      shows trim reused = shows trim fresh ∧ moreReused = moreFresh := by
  have blocks (first : Markdown) (rest : List Markdown) :
      shows trim (joinBlocks (first :: rest)) =
        (shows trim first :: rest.map fun next => [] :: linesOf next).flatten := by
    rw [shows, linesOf_joinBlocks, List.flatten_cons, seen_append _ _ (linesOf_ne_nil first)]
    rfl
  rw [blocks, blocks]
  constructor
  · intro same
    have longer : List.Forall₂ (fun a b => b.length ≤ a.length)
        (shows trim reused :: moreReused.map fun next => [] :: linesOf next)
        (shows trim fresh :: moreFresh.map fun next => [] :: linesOf next) :=
      List.Forall₂.cons (by simpa using here) later.spaced
    obtain ⟨heads, tails⟩ := List.cons.inj (flatten_inj longer same)
    refine ⟨heads, ?_⟩
    apply List.map_injective_iff.mpr _ tails
    intro a b equal
    exact splitOn_inj (List.cons.inj equal).2
  · rintro ⟨heads, rfl⟩
    rw [heads]

structure IsMarker (marker : Markdown) : Prop where
  single : '\n' ∉ marker
  solid : ∃ front last, marker = front ++ [last] ∧ isSpace last = false

theorem not_mem_intRepr {mark : Char} (other : mark.isDigit = false) (sign : mark ≠ '-') (n : Int) :
    mark ∉ n.repr.toList := by
  rw [Int.repr_eq_if]
  split
  · exact Text.not_mem_repr other n.toNat
  · simpa [sign] using Text.not_mem_repr other (-n).toNat

theorem isMarker (start : Option Int) (index : Nat) : IsMarker (listMarker start index) := by
  cases start with
  | none => exact ⟨by simp [listMarker], [], '-', rfl, by decide⟩
  | some start =>
    refine ⟨?_, _, '.', rfl, by decide⟩
    have digits : '\n' ∉ (start + index).repr.toList :=
      not_mem_intRepr (by decide) (by decide) (start + index)
    simpa [listMarker] using digits

def indented (width : Nat) (line : Markdown) : Markdown :=
  if line = [] then [] else List.replicate width ' ' ++ line

theorem indented_inj {width : Nat} {first second : Markdown}
    (same : indented width first = indented width second) : first = second := by
  unfold indented at same
  split at same
  case isTrue isNil =>
    split at same
    case isTrue alsoNil => rw [isNil, alsoNil]
    case isFalse written => simp [written] at same
  case isFalse written =>
    split at same
    · simp [written] at same
    · exact List.append_cancel_left same

theorem not_mem_indented {width : Nat} {line : Markdown} (single : '\n' ∉ line) :
    '\n' ∉ indented width line := by
  unfold indented
  split <;> simp [single]

theorem opening_eq {marker : Markdown} (isMarker : IsMarker marker) (first : Markdown) :
    (marker ++ indented 1 first).rdropWhile isSpace =
      marker ++ indented 1 (first.rdropWhile isSpace) := by
  obtain ⟨front, last, rfl, solid⟩ := isMarker.solid
  have kept : (front ++ [last]).rdropWhile isSpace = front ++ [last] :=
    List.rdropWhile_concat_neg _ _ _ (by simp [solid])
  have blank : isSpace ' ' = true := by decide
  by_cases isBlank : first.all isSpace
  · have nothing : first.rdropWhile isSpace = [] :=
      List.rdropWhile_eq_nil_iff.mpr (List.all_eq_true.mp isBlank)
    have behind : (indented 1 first).all isSpace = true := by
      unfold indented
      split <;> simp_all
    rw [rdropWhile_append, if_pos behind, kept, nothing]
    simp [indented]
  · have something : first.rdropWhile isSpace ≠ [] := fun none =>
      isBlank (List.all_eq_true.mpr (List.rdropWhile_eq_nil_iff.mp none))
    have written : first ≠ [] := by
      rintro rfl
      exact isBlank rfl
    have behind : (List.replicate 1 ' ' ++ first).all isSpace = false := by
      simpa [blank] using isBlank
    have tail : (List.replicate 1 ' ' ++ first).rdropWhile isSpace =
        List.replicate 1 ' ' ++ first.rdropWhile isSpace := by
      rw [rdropWhile_append, if_neg isBlank]
    simp only [indented, if_neg written, if_neg something]
    rw [rdropWhile_append, behind, tail]
    simp

def itemLines (marker : Markdown) : List Markdown → List Markdown
  | [] => []
  | first :: rest => (marker ++ indented 1 first) :: rest.map (indented (marker.length + 1))

theorem itemLines_inj {marker : Markdown} {first second : List Markdown}
    (same : itemLines marker first = itemLines marker second) : first = second := by
  cases first with
  | nil => cases second <;> first | rfl | cases same
  | cons line rest =>
    cases second with
    | nil => cases same
    | cons other others =>
      obtain ⟨openings, later⟩ := List.cons.inj same
      rw [indented_inj (List.append_cancel_left openings),
        List.map_injective_iff.mpr (fun _ _ => indented_inj) later]

theorem linesOf_itemText {marker : Markdown} (isMarker : IsMarker marker) (content : Markdown) :
    linesOf (itemText marker content) = itemLines marker (shows true content) := by
  obtain ⟨first, rest, lines⟩ := List.exists_cons_of_ne_nil (linesOf_ne_nil content)
  have single : ∀ line ∈ first :: rest, '\n' ∉ line := fun line isLine =>
    not_mem_of_mem_splitOn (lines ▸ isLine)
  have cut : '\n' ∉ first.rdropWhile isSpace := fun bad =>
    single first List.mem_cons_self ((List.rdropWhile_prefix isSpace first).sublist.mem bad)
  have text : itemText marker content = ['\n'].intercalate (itemLines marker (shows true content)) := by
    simp only [itemText, shows, lines, show content.splitOn '\n' = first :: rest from lines,
      List.headD_cons, List.tail_cons]
    change _ = ['\n'].intercalate ((marker ++ indented 1 (first.rdropWhile isSpace)) :: _)
    rw [← opening_eq isMarker]
    congr 2
    split
    case isTrue isNil =>
      obtain ⟨front, last, rfl, solid⟩ := isMarker.solid
      rw [isNil, indented, if_pos rfl, List.append_nil,
        List.rdropWhile_concat_neg _ _ _ (by simp [solid])]
    case isFalse written =>
      rw [indented, if_neg written]
      rfl
  rw [text]
  apply List.splitOn_intercalate
  · intro line isLine
    rw [shows, lines] at isLine
    obtain rfl | later := List.mem_cons.mp isLine
    · simpa [isMarker.single] using not_mem_indented cut
    · obtain ⟨old, isOld, rfl⟩ := List.mem_map.mp later
      exact not_mem_indented (single old (List.mem_cons_of_mem _ isOld))
  · rw [shows, lines]
    exact List.cons_ne_nil _ _

@[simp] theorem length_itemLines (marker : Markdown) (lines : List Markdown) :
    (itemLines marker lines).length = lines.length := by
  cases lines <;> simp [itemLines]

theorem itemText_eq_iff {marker : Markdown} (isMarker : IsMarker marker) {first second : Markdown} :
    itemText marker first = itemText marker second ↔ shows true first = shows true second := by
  constructor
  · intro same
    apply itemLines_inj
    rw [← linesOf_itemText isMarker, ← linesOf_itemText isMarker, same]
  · intro same
    apply splitOn_inj
    exact (linesOf_itemText isMarker first).trans
      ((congrArg (itemLines marker) same).trans (linesOf_itemText isMarker second).symm)

/-- The lines of the items under the markers from this one on. -/
def listLines (marker : Nat → Markdown) (contents : List Markdown) : List (List Markdown) :=
  (contents.mapIdx fun index content => itemText (marker index) content).map linesOf

theorem listLines_longer {marker other : Nat → Markdown} (markers : ∀ index, IsMarker (marker index))
    (others : ∀ index, IsMarker (other index)) {reused fresh : List Markdown}
    (longer : Longer reused fresh) :
    List.Forall₂ (fun a b => b.length ≤ a.length) (listLines marker reused)
      (listLines other fresh) := by
  induction longer generalizing marker other with
  | nil => exact List.Forall₂.nil
  | cons here _ ih =>
    simp only [listLines, List.mapIdx_cons, List.map_cons]
    refine List.Forall₂.cons ?_
      (ih (fun index => markers (index + 1)) (fun index => others (index + 1)))
    rw [linesOf_itemText (markers 0), linesOf_itemText (others 0)]
    simpa using here

theorem listLines_eq_iff {marker : Nat → Markdown} (markers : ∀ index, IsMarker (marker index))
    {reused fresh : List Markdown} (longer : Longer reused fresh) :
    listLines marker reused = listLines marker fresh ↔
      reused.map (shows true) = fresh.map (shows true) := by
  induction longer generalizing marker with
  | nil => simp [listLines]
  | @cons a b as bs _ _ ih =>
    have rest := ih fun index => markers (index + 1)
    have here : linesOf (itemText (marker 0) a) = linesOf (itemText (marker 0) b) ↔
        shows true a = shows true b := by
      rw [← itemText_eq_iff (markers 0)]
      exact ⟨splitOn_inj, congrArg linesOf⟩
    simp only [listLines, List.mapIdx_cons, List.cons.injEq, List.map_cons] at rest ⊢
    rw [here, rest]

theorem linesOf_serializeList (start : Option Int) {contents : List Markdown} (some : contents ≠ []) :
    linesOf (serializeList start contents) = (listLines (listMarker start) contents).flatten := by
  unfold linesOf serializeList
  rw [splitOn_join]
  · rfl
  · simpa using some

theorem shows_serializeList (start : Option Int) (trim : Bool) (contents : List Markdown) :
    shows trim (serializeList start contents) = linesOf (serializeList start contents) := by
  cases trim with
  | false => simp
  | true =>
    cases contents with
    | nil => rfl
    | cons content rest =>
      rw [shows, linesOf_serializeList start (List.cons_ne_nil _ _)]
      obtain ⟨first, lines, split⟩ := List.exists_cons_of_ne_nil (linesOf_ne_nil content)
      have item := linesOf_itemText (isMarker start 0) content
      simp only [listLines, List.mapIdx_cons, List.map_cons, List.flatten_cons, item, shows, split, seen,
        itemLines, List.cons_append, if_true]
      rw [opening_eq (isMarker start 0), List.rdropWhile_idempotent]

theorem shows_serializeList_iff {start other : Option Int} {trim : Bool}
    {reused fresh : List Markdown} :
    shows trim (serializeList start reused) = shows trim (serializeList other fresh) ↔
      serializeList start reused = serializeList other fresh := by
  rw [shows_serializeList, shows_serializeList]
  exact ⟨splitOn_inj, congrArg linesOf⟩

theorem serializeList_eq_iff {start : Option Int} {reused fresh : List Markdown}
    (longer : Longer reused fresh) :
    serializeList start reused = serializeList start fresh ↔
      reused.map (shows true) = fresh.map (shows true) := by
  cases longer with
  | nil => simp
  | cons here later =>
    have longer : Longer (_ :: _) (_ :: _) := List.Forall₂.cons here later
    rw [← listLines_eq_iff (isMarker start) longer]
    constructor
    · intro same
      apply flatten_inj (listLines_longer (isMarker start) (isMarker start) longer)
      rw [← linesOf_serializeList start (List.cons_ne_nil _ _),
        ← linesOf_serializeList start (List.cons_ne_nil _ _), same]
    · intro same
      have equal : ∀ {a b : Markdown}, linesOf a = linesOf b → a = b := splitOn_inj
      apply equal
      exact (linesOf_serializeList start (List.cons_ne_nil _ _)).trans
        ((congrArg List.flatten same).trans (linesOf_serializeList start (List.cons_ne_nil _ _)).symm)

theorem serializeList_start {start other : Int} {content fresh : Markdown}
    {rest more : List Markdown}
    (same : serializeList (some start) (content :: rest) = serializeList (some other) (fresh :: more)) :
    start = other := by
  have lines := congrArg linesOf same
  rw [linesOf_serializeList _ (List.cons_ne_nil _ _),
    linesOf_serializeList _ (List.cons_ne_nil _ _)] at lines
  obtain ⟨a, as, first⟩ := List.exists_cons_of_ne_nil (linesOf_ne_nil content)
  obtain ⟨b, bs, second⟩ := List.exists_cons_of_ne_nil (linesOf_ne_nil fresh)
  simp only [listLines, List.mapIdx_cons, List.map_cons, List.flatten_cons, linesOf_itemText (isMarker _ _), shows,
    first, second, seen, itemLines, List.cons_append] at lines
  have heads := (List.cons.inj lines).1
  simp only [listMarker, List.append_assoc, List.cons_append] at heads
  have numbers := (Text.append_mark_inj (not_mem_intRepr (by decide) (by decide) _)
    (not_mem_intRepr (by decide) (by decide) _) heads).1
  have equal := Int.repr_injective (String.toList_injective numbers)
  omega

theorem numbered_eq_iff {start other : Int} {reused fresh : List Markdown}
    (longer : Longer reused fresh) :
    serializeList (some start) reused = serializeList (some other) fresh ↔
      (fresh = [] ∨ start = other) ∧ reused.map (shows true) = fresh.map (shows true) := by
  cases longer with
  | nil => simp [serializeList]
  | cons here later =>
    have longer : Longer (_ :: _) (_ :: _) := List.Forall₂.cons here later
    constructor
    · intro same
      obtain rfl := serializeList_start same
      exact ⟨.inr rfl, (serializeList_eq_iff longer).mp same⟩
    · rintro ⟨empty | rfl, items⟩
      · cases empty
      · exact (serializeList_eq_iff longer).mpr items

theorem length_serializeList_le {start other : Option Int} {reused fresh : List Markdown}
    (longer : Longer reused fresh) :
    (linesOf (serializeList other fresh)).length ≤
      (linesOf (serializeList start reused)).length := by
  cases longer with
  | nil => exact Nat.le_refl _
  | cons here later =>
    rw [linesOf_serializeList _ (List.cons_ne_nil _ _), linesOf_serializeList _ (List.cons_ne_nil _ _)]
    exact length_flatten_le
      (listLines_longer (isMarker start) (isMarker other) (List.Forall₂.cons here later))

theorem quoteLine_eq (line : Markdown) : quoteLine line = ['>'] ++ indented 1 line := by
  unfold quoteLine indented
  split <;> rfl

theorem quoteLine_inj {first second : Markdown} (same : quoteLine first = quoteLine second) :
    first = second := by
  rw [quoteLine_eq, quoteLine_eq] at same
  exact indented_inj (List.append_cancel_left same)

theorem shows_serializeBlockquote (trim : Bool) (blocks : List Markdown) :
    shows trim (serializeBlockquote blocks) = (shows trim (joinBlocks blocks)).map quoteLine := by
  have split : linesOf (serializeBlockquote blocks) = (linesOf (joinBlocks blocks)).map quoteLine := by
    apply List.splitOn_intercalate
    · intro line isLine
      obtain ⟨old, isOld, rfl⟩ := List.mem_map.mp isLine
      rw [quoteLine_eq]
      simp [not_mem_indented (not_mem_of_mem_splitOn isOld)]
    · simp
  rw [shows, split, shows]
  cases linesOf (joinBlocks blocks) with
  | nil => rfl
  | cons first rest =>
    cases trim with
    | false => rfl
    | true =>
      have isMarker : IsMarker ['>'] := ⟨by decide, [], '>', rfl, by decide⟩
      simp only [List.map_cons, seen, if_true, quoteLine_eq, opening_eq isMarker]

def fenceOf (text : Markdown) : Markdown := List.replicate (max 3 (longestRun text + 1)) '`'

theorem not_mem_fenceOf (text : Markdown) : '\n' ∉ fenceOf text := by
  simp [fenceOf]

theorem shows_serializeCode (trim : Bool) (language text : Markdown) :
    shows trim (serializeCode language text) =
      shows trim (fenceOf text ++ language) ++ linesOf (text ++ '\n' :: fenceOf text) := by
  have split : serializeCode language text =
      (fenceOf text ++ language) ++ '\n' :: (text ++ '\n' :: fenceOf text) := rfl
  unfold shows linesOf
  rw [split, List.splitOn_append_cons_self, seen_append _ _ (List.splitOn_ne_nil _ _)]

theorem fenceOf_solid (text : Markdown) : (fenceOf text).rdropWhile isSpace = fenceOf text := by
  apply List.rdropWhile_eq_self_iff.mpr
  intro _
  simp [fenceOf, show isSpace '`' = false by decide]

theorem shows_fenceOf (trim : Bool) (text : Markdown) : shows trim (fenceOf text) = [fenceOf text] := by
  have single : linesOf (fenceOf text) = [fenceOf text] :=
    List.splitOn_eq_singleton (not_mem_fenceOf text)
  rw [shows, single]
  cases trim with
  | false => rfl
  | true => exact congrArg (fun line => [line]) (fenceOf_solid text)

theorem shows_serializeCode_iff {trim : Bool} {language text : Markdown} :
    shows trim (serializeCode language text) = shows trim (serializeCode [] text) ↔
      (language.isEmpty || trim && language.all fun c => isSpace c && c != '\n') = true := by
  rw [shows_serializeCode, shows_serializeCode, List.append_left_inj, List.append_nil,
    shows_fenceOf]
  by_cases broken : '\n' ∈ language
  · have more : (shows trim (fenceOf text ++ language)).length ≠ 1 := by
      obtain ⟨front, back, rfl⟩ := List.append_of_mem broken
      rw [← List.append_assoc, length_seen, linesOf, List.splitOn_append_cons_self,
        List.length_append]
      have first := length_splitOn_pos '\n' (fenceOf text ++ front)
      have second := length_splitOn_pos '\n' back
      omega
    have shown : (language.isEmpty || trim && language.all fun c => isSpace c && c != '\n') = false := by
      have written : language ≠ [] := List.ne_nil_of_mem broken
      have visible : (language.all fun c => isSpace c && c != '\n') = false :=
        List.all_eq_false.mpr ⟨'\n', broken, by decide⟩
      simp [written, visible]
    rw [shown]
    exact ⟨fun same => absurd (congrArg List.length same) more, fun bad => by cases bad⟩
  · have single : linesOf (fenceOf text ++ language) = [fenceOf text ++ language] :=
      List.splitOn_eq_singleton (by simp [not_mem_fenceOf, broken])
    have blanks : (language.all fun c => isSpace c && c != '\n') = language.all isSpace := by
      have other : ∀ c ∈ language, (isSpace c && c != '\n') = isSpace c := by
        intro c isIn
        have apart : c ≠ '\n' := fun same => broken (same ▸ isIn)
        simp [apart]
      rw [Bool.eq_iff_iff, List.all_eq_true, List.all_eq_true]
      exact forall₂_congr fun c isIn => by rw [other c isIn]
    rw [shows, single, blanks]
    cases trim with
    | false => simp [seen]
    | true =>
      simp only [seen, if_true, List.cons.injEq, and_true, rdropWhile_append, fenceOf_solid]
      cases isBlank : language.all isSpace with
      | true => simp
      | false =>
        have written : language ≠ [] := by
          rintro rfl
          cases isBlank
        have something : language.rdropWhile isSpace ≠ [] := fun none => by
          rw [List.all_eq_true.mpr (List.rdropWhile_eq_nil_iff.mp none)] at isBlank
          cases isBlank
        simp [written, something]

theorem length_serializeCode_le (language text : Markdown) :
    (linesOf (serializeCode [] text)).length ≤ (linesOf (serializeCode language text)).length := by
  have fresh := congrArg List.length (shows_serializeCode false [] text)
  have reused := congrArg List.length (shows_serializeCode false language text)
  have some := length_splitOn_pos '\n' (fenceOf text ++ language)
  rw [List.append_nil, shows_fenceOf] at fresh
  simp only [length_seen, List.length_append, List.length_singleton] at fresh reused
  change 0 < (linesOf _).length at some
  omega

end Counselle.Essays

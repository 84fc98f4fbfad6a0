import Counselle.Turns.VizPlacer

/-! The placer against the placement after the fact: when the two agree on a marker's
start, and what a whole stream shows when they always do. -/
namespace Counselle.Turns.Viz
open PyText (PyError isSpace isDigit)
open Search (find overlap Clear)
variable {S : Type} {specs : List S} {final : Bool} {p q r : Placer S}

def cards (out : List (Char ⊕ S)) : List S := out.filterMap Sum.getRight?

def prose (out : List (Char ⊕ S)) : Chars := out.filterMap Sum.getLeft?

/-- The cards written are those of the emitted indexes, each once, and no delta holds a marker's start. -/
structure Sound (specs : List S) (p : Placer S) : Prop where
  cards_eq : cards (shown p.written) = p.emittedIndexes.filterMap (specs[·]?)
  nodup : p.emittedIndexes.Nodup
  bounded : ∀ index ∈ p.emittedIndexes, index < specs.length
  clean : ∀ text, .delta text ∈ p.written → find markerStart text = none

@[simp] theorem cards_append (front back : List (Char ⊕ S)) : cards (front ++ back) = cards front ++ cards back :=
  List.filterMap_append

@[simp] theorem prose_append (front back : List (Char ⊕ S)) : prose (front ++ back) = prose front ++ prose back :=
  List.filterMap_append

theorem cards_text (text : Chars) : cards (text.map .inl : List (Char ⊕ S)) = [] := by
  induction text with
  | nil => rfl
  | cons c text ih => exact ih

theorem cardFor_ok {emitted : List Nat} {value : Option Chars} {index : Nat} {spec : S}
    (isCard : cardFor specs emitted value = .ok (some (index, spec))) : index ∉ emitted ∧ specs[index]? = some spec := by
  cases value with
  | none => cases isCard
  | some value =>
    simp only [cardFor, cardOf] at isCard
    split at isCard
    case isTrue =>
      obtain ⟨n, -, same⟩ := Fallible.map_ok_iff.mp isCard
      cases n with
      | zero => cases same
      | succ n =>
        simp only at same
        split at same
        case isTrue => cases same
        case isFalse new =>
          obtain ⟨found, isSpec, same⟩ := Option.map_eq_some_iff.mp same
          cases same
          exact ⟨new, isSpec⟩
    case isFalse => cases isCard

theorem find_of_clear {front back : Chars} (clear : Clear markerStart front back) : find markerStart front = none := by
  cases found : find markerStart front with
  | none => rfl
  | some i =>
    obtain ⟨first, last, rfl, -, -⟩ := Search.find_some found
    rw [List.append_assoc] at clear
    have here := (Search.clear_append.mp clear).2 [] (markerStart ++ last) rfl (by simp [markerStart])
    rw [List.append_assoc] at here
    exact absurd (List.prefix_append _ _) here

theorem Sound.write (sound : Sound specs p) {text : Chars} (clean : find markerStart text = none) (pending : Chars) :
    Sound specs { p with pending := pending, written := p.written ++ [.delta text] } where
  cards_eq := by rw [shown_append, shown_delta, cards_append, cards_text, List.append_nil, sound.cards_eq]
  nodup := sound.nodup
  bounded := sound.bounded
  clean := by
    intro other isIn
    obtain old | new := List.mem_append.mp isIn
    · exact sound.clean other old
    · cases List.mem_singleton.mp new
      exact clean

theorem Sound.card (sound : Sound specs p) {value : Option Chars} {card : Option (Nat × S)}
    (isCard : cardFor specs p.emittedIndexes value = .ok card) (pending : Chars) :
    Sound specs ⟨pending, p.emittedIndexes ++ cardIndex card, p.written ++ cardChunk card⟩ := by
  cases card with
  | none => exact ⟨by simpa [cardChunk, cardIndex] using sound.cards_eq, by simpa [cardIndex] using sound.nodup,
      by simpa [cardIndex] using sound.bounded, by simpa [cardChunk] using sound.clean⟩
  | some card =>
    obtain ⟨index, spec⟩ := card
    obtain ⟨new, isSpec⟩ := cardFor_ok isCard
    refine ⟨?_, ?_, ?_, ?_⟩
    · simp only [shown_append, cards_append, sound.cards_eq, cardIndex, Option.map_some, Option.toList_some,
        List.filterMap_append, List.filterMap_cons, isSpec, List.filterMap_nil]
      rfl
    · refine List.nodup_append.mpr ⟨sound.nodup, List.nodup_singleton _, fun i isIn j isNew same => ?_⟩
      have isIndex : j = index := List.mem_singleton.mp isNew
      exact new (isIndex ▸ same ▸ isIn)
    · intro i isIn
      obtain old | isNew := List.mem_append.mp isIn
      · exact sound.bounded i old
      · cases List.mem_singleton.mp isNew
        exact (List.getElem?_eq_some_iff.mp isSpec).1
    · intro text isIn
      obtain old | isNew := List.mem_append.mp isIn
      · exact sound.clean text old
      · cases List.mem_singleton.mp isNew

theorem emitNonMarkerTail_eq (final : Bool) (p : Placer S) : ∃ front back, p.pending = front ++ back ∧
    back.length = (if final then 0 else overlap markerStart p.pending) ∧
    emitNonMarkerTail final p = emitDelta { p with pending := back } front := by
  refine ⟨_, _, (List.take_append_drop _ _).symm, ?_, rfl⟩
  rw [List.length_drop]
  have := Search.overlap_le markerStart p.pending
  cases final <;> simp only [if_true, Bool.false_eq_true, if_false] <;> omega

theorem Sound.tail (sound : Sound specs p) (absent : find markerStart p.pending = none) :
    Sound specs (emitNonMarkerTail final p) := by
  obtain ⟨front, back, whole, -, same⟩ := emitNonMarkerTail_eq final p
  have clear := Search.find_none absent
  rw [whole, Search.clear_append] at clear
  rw [same, emitDelta]
  split
  · exact ⟨sound.cards_eq, sound.nodup, sound.bounded, sound.clean⟩
  · exact sound.write (find_of_clear clear.1) back

theorem turn_sound {result : Turn S} (run : turn specs final p = .ok result) (sound : Sound specs p) :
    Sound specs result.placer := by
  obtain ⟨_, rfl⟩ | ⟨absent, rfl⟩ | ⟨front, back, _, _, clear, rfl⟩ | ⟨body, _, ⟨_, rfl⟩ | ⟨value, rest, card, _, isCard, rfl⟩⟩ :=
    turn_cases run
  · exact sound
  · exact sound.tail absent
  · exact sound.write (find_of_clear clear) _
  · cases final
    · exact sound
    · exact ⟨sound.cards_eq, sound.nodup, sound.bounded, sound.clean⟩
  · exact sound.card isCard rest

theorem drainPending_ok {q : Placer S} : drainPending specs final p = .ok q ↔
    turn specs final p = .ok (.stop q) ∨ ∃ r, turn specs final p = .ok (.again r) ∧ drainPending specs final r = .ok q := by
  rw [drainPending]
  split
  case h_1 isError => simp [isError]
  case h_2 here => simp [here]
  case h_3 here => simp [here]

theorem drainPending_keeps {I : Placer S → Prop}
    (keeps : ∀ p result, turn specs final p = .ok result → I p → I result.placer)
    (run : drainPending specs final p = .ok q) (start : I p) : I q := by
  induction p using drainPending.induct specs final with
  | case1 p e isError =>
    obtain here | ⟨r, here, -⟩ := drainPending_ok.mp run <;> rw [isError] at here <;> cases here
  | case2 p stopped here =>
    obtain there | ⟨r, there, -⟩ := drainPending_ok.mp run
    · exact keeps p _ there start
    · rw [here] at there
      cases there
  | case3 p next here ih =>
    obtain there | ⟨r, there, later⟩ := drainPending_ok.mp run
    · rw [here] at there
      cases there
    · rw [here] at there
      cases there
      exact ih later (keeps p _ here start)

theorem Sound.fresh : Sound specs (.fresh : Placer S) := ⟨rfl, List.nodup_nil, by simp [Placer.fresh], by simp [Placer.fresh]⟩

theorem feed_sound {text : Chars} (run : feed specs p text = .ok q) (sound : Sound specs p) : Sound specs q := by
  unfold feed at run
  split at run
  case isTrue =>
    cases run
    exact sound
  case isFalse =>
    exact drainPending_keeps (fun _ _ => turn_sound) run ⟨sound.cards_eq, sound.nodup, sound.bounded, sound.clean⟩

theorem cards_fallback (emitted : List Nat) : cards (shown (fallback specs emitted)) =
    ((List.range specs.length).filter (· ∉ emitted)).filterMap (specs[·]?) := by
  unfold fallback
  generalize (List.range specs.length).filter (· ∉ emitted) = left
  induction left with
  | nil => rfl
  | cons index left ih =>
    cases here : specs[index]? with
    | none => simpa [here] using ih
    | some spec =>
      simp only [List.filterMap_cons, here, Option.map_some, ← ih]
      rfl

theorem filterMap_range (specs : List S) : (List.range specs.length).filterMap (specs[·]?) = specs := by
  induction specs with
  | nil => rfl
  | cons spec specs ih =>
    rw [List.length_cons, List.range_succ_eq_map, List.filterMap_cons, List.filterMap_map]
    exact congrArg (spec :: ·) ih

theorem flush_cards (run : flush specs p = .ok q) (sound : Sound specs p) :
    (cards (shown q.written)).Perm specs ∧ ∀ text, .delta text ∈ q.written → find markerStart text = none := by
  obtain ⟨r, isDrained, rfl⟩ := Fallible.map_ok_iff.mp run
  have drained := drainPending_keeps (fun _ _ => turn_sound) isDrained sound
  constructor
  · rw [shown_append, cards_append, drained.cards_eq, cards_fallback, ← List.filterMap_append]
    have all : (r.emittedIndexes ++ (List.range specs.length).filter (· ∉ r.emittedIndexes)).Perm (List.range specs.length) := by
      refine (List.perm_ext_iff_of_nodup ?_ List.nodup_range).mpr fun i => ?_
      · refine List.nodup_append.mpr ⟨drained.nodup, List.nodup_range.filter _, fun i isIn j isLeft same => ?_⟩
        have new := (List.mem_filter.mp isLeft).2
        rw [← same] at new
        exact of_decide_eq_true new isIn
      · have := drained.bounded i
        simp only [List.mem_append, List.mem_filter, List.mem_range, decide_eq_true_eq]
        tauto
    refine (all.filterMap _).trans (List.Perm.of_eq ?_)
    exact filterMap_range specs
  · intro text isIn
    obtain old | new := List.mem_append.mp isIn
    · exact drained.clean text old
    · obtain ⟨index, -, isCard⟩ := List.mem_filterMap.mp new
      obtain ⟨spec, -, bad⟩ := Option.map_eq_some_iff.mp isCard
      cases bad

/-- The text behind a marker's start completes no marker before the next one starts. -/
def Incomplete (body : Chars) : Prop :=
  ∀ stop, find markerEnd body = some stop → (find markerStart body).any (· < stop) = true

/-- The text at hand and the text to come agree on where the marker ends: blanks before an end that is
still to come, an end behind another start, closing brackets that a chunk cuts off. -/
def Joins (body later : Chars) : Prop :=
  match find markerEnd body with
  | none => (∃ c ∈ body, isSpace c = true) → Incomplete (body ++ later)
  | some stop =>
    let rest := markerJunkEnd (body.drop (stop + markerEnd.length))
    if (find markerStart body).any (· < stop) then
      (∀ c ∈ body.take stop, isSpace c = false) ∧ ∀ c ∈ (rest ++ later).head?, isSpace c = true
    else rest = [] → later.head? ≠ some ']'

theorem resolve_incomplete {body : Chars} (incomplete : Incomplete body) : resolve body = (none, incompleteMarkerEnd body) := by
  unfold resolve
  split
  case h_1 stop found => rw [if_pos (incomplete stop found)]
  case h_2 => rfl

theorem resolve_complete {body : Chars} {stop : Nat} (found : find markerEnd body = some stop)
    (before : ¬ (find markerStart body).any (· < stop) = true) :
    resolve body = (some (body.take stop), markerJunkEnd (body.drop (stop + markerEnd.length))) := by
  simp only [resolve, found, if_neg before]

theorem incompleteMarkerEnd_append {front : Chars} (back : Chars) (blank : ∃ c ∈ front, isSpace c = true) :
    incompleteMarkerEnd (front ++ back) = incompleteMarkerEnd front ++ back ∧ incompleteMarkerEnd front ≠ [] := by
  obtain ⟨c, isIn, isBlank⟩ := blank
  have some : front.dropWhile (fun c => !isSpace c) ≠ [] := by
    rw [ne_eq, List.dropWhile_eq_nil_iff]
    intro all
    simpa [isBlank] using all c isIn
  refine ⟨?_, some⟩
  rw [incompleteMarkerEnd, List.dropWhile_append, if_neg (by simpa using some)]
  rfl

theorem incompleteMarkerEnd_solid {front : Chars} (back : Chars) (solid : ∀ c ∈ front, isSpace c = false) :
    incompleteMarkerEnd (front ++ back) = incompleteMarkerEnd back := by
  refine List.dropWhile_append_of_pos fun c isIn => ?_
  rw [solid c isIn]
  rfl

theorem dropWhile_eq_self {test : Char → Bool} {text : Chars} :
    text.dropWhile test = text ↔ ∀ c ∈ text.head?, test c = false := by
  cases text with
  | nil => simp
  | cons c rest => simp [List.dropWhile_eq_self_iff]

theorem firstWhitespaceIndex_some {body : Chars} {index : Nat} (first : firstWhitespaceIndex body = some index) :
    body.drop index = incompleteMarkerEnd body ∧ ∃ c ∈ body, isSpace c = true := by
  obtain ⟨inside, isFirst⟩ := List.findIdx?_eq_some_iff_findIdx_eq.mp first
  constructor
  · rw [incompleteMarkerEnd, List.dropWhile_eq_drop_findIdx_not]
    simp only [Bool.not_not]
    rw [isFirst]
  · exact List.findIdx_lt_length.mp (by rwa [isFirst])

theorem find_markerEnd {body : Chars} {stop : Nat} (found : find markerEnd body = some stop) :
    ∃ value junk rest, body = value ++ (markerEnd ++ (junk ++ rest)) ∧ value.length = stop ∧ (∀ c ∈ junk, c = ']') ∧
      markerJunkEnd (junk ++ rest) = rest := by
  obtain ⟨value, back, rfl, rfl, -⟩ := Search.find_some found
  refine ⟨value, back.takeWhile (· = ']'), markerJunkEnd back, ?_, rfl, ?_, ?_⟩
  · rw [List.append_assoc, markerJunkEnd, List.takeWhile_append_dropWhile]
  · intro c isIn
    simpa using List.mem_takeWhile_imp isIn
  · rw [markerJunkEnd, markerJunkEnd, List.takeWhile_append_dropWhile]

theorem find_markerEnd_append {body : Chars} {stop : Nat} (found : find markerEnd body = some stop) (later : Chars) :
    find markerEnd (body ++ later) = some stop := Search.find_append (by decide) found later

theorem startsBefore_append {body : Chars} {stop : Nat} (found : find markerEnd body = some stop) (later : Chars) :
    (find markerStart (body ++ later)).any (· < stop) = (find markerStart body).any (· < stop) := by
  obtain ⟨value, back, rfl, rfl, -⟩ := Search.find_some found
  have other : ']' ∉ markerStart := by decide
  simp only [markerEnd, List.append_assoc, List.cons_append, List.nil_append]
  rw [Search.find_before markerStart_ne_nil other, Search.find_before markerStart_ne_nil other]

theorem settle_blank {body rest : Chars} {value : Option Chars} (absent : find markerEnd body = none)
    (settled : settle body = some (value, rest)) :
    value = none ∧ rest = incompleteMarkerEnd body ∧ ∃ c ∈ body, isSpace c = true := by
  simp only [settle, absent] at settled
  obtain ⟨index, first, same⟩ := Option.map_eq_some_iff.mp settled
  cases same
  exact ⟨rfl, firstWhitespaceIndex_some first⟩

theorem settle_end {body rest : Chars} {value : Option Chars} {stop : Nat} (found : find markerEnd body = some stop)
    (settled : settle body = some (value, rest)) :
    value = some (body.take stop) ∧ rest = markerJunkEnd (body.drop (stop + markerEnd.length)) := by
  simp only [settle, found] at settled
  cases settled
  exact ⟨rfl, rfl⟩

theorem settle_none {body : Chars} (waits : settle body = none) : resolve body = (none, []) := by
  unfold settle at waits
  split at waits
  case h_1 => cases waits
  case h_2 absent =>
    rw [Option.map_eq_none_iff, firstWhitespaceIndex, List.findIdx?_eq_none_iff] at waits
    have none := incompleteMarkerEnd_solid [] waits
    rw [List.append_nil] at none
    rw [resolve_incomplete (fun stop found => by rw [absent] at found; cases found), none]
    rfl

theorem resolve_late {body rest later : Chars} (absent : find markerEnd body = none) (some : rest ≠ [])
    (complete : ¬ Incomplete (body ++ later)) : (resolve (body ++ later)).2 ≠ rest ++ later := by
  simp only [Incomplete, not_forall] at complete
  obtain ⟨stop, found, before⟩ := complete
  have beyond := Search.find_append_none (by decide) absent found
  rw [resolve_complete found before]
  intro same
  have size := congrArg List.length same
  have shorter := dropWhile_length_le (· = ']') ((body ++ later).drop (stop + markerEnd.length))
  have := List.length_pos_of_ne_nil some
  simp only [markerJunkEnd, List.length_append, List.length_drop] at size shorter
  omega

theorem nested_iff {value junk : Chars} (closing : ∀ c ∈ junk, c = ']') (back : Chars) :
    incompleteMarkerEnd (value ++ (markerEnd ++ (junk ++ back))) = back ↔
      (∀ c ∈ value, isSpace c = false) ∧ ∀ c ∈ back.head?, isSpace c = true := by
  have solid : ∀ c ∈ markerEnd ++ junk, isSpace c = false := by
    intro c isIn
    have isBracket : c = ']' := by
      obtain inEnd | inJunk := List.mem_append.mp isIn
      · simpa [markerEnd] using inEnd
      · exact closing c inJunk
    rw [isBracket]
    decide
  rw [← List.append_assoc markerEnd]
  by_cases all : ∀ c ∈ value, isSpace c = false
  · rw [incompleteMarkerEnd_solid _ all, incompleteMarkerEnd_solid _ solid, incompleteMarkerEnd, dropWhile_eq_self]
    simp only [Bool.not_eq_false']
    exact ⟨fun starts => ⟨all, starts⟩, And.right⟩
  · -- a blank in the value leaves the end of the marker in the text
    have blank : ∃ c ∈ value, isSpace c = true := by simpa using all
    refine ⟨fun same => ?_, fun bad => absurd bad.1 all⟩
    rw [(incompleteMarkerEnd_append _ blank).1] at same
    have size := congrArg List.length same
    simp only [List.length_append, markerEnd, List.length_cons, List.length_nil] at size
    omega

theorem junk_iff {junk tail : Chars} (closing : ∀ c ∈ junk, c = ']') (ended : markerJunkEnd (junk ++ tail) = tail)
    (later : Chars) : markerJunkEnd (junk ++ (tail ++ later)) = tail ++ later ↔ (tail = [] → later.head? ≠ some ']') := by
  have skips : ∀ back, markerJunkEnd (junk ++ back) = markerJunkEnd back :=
    fun back => List.dropWhile_append_of_pos fun c isIn => decide_eq_true (closing c isIn)
  rw [skips] at ended
  rw [skips, markerJunkEnd, dropWhile_eq_self]
  rw [markerJunkEnd, dropWhile_eq_self] at ended
  cases tail with
  | nil => cases later <;> simp
  | cons c tail =>
    have solid : c ≠ ']' := by simpa using ended c rfl
    simp [solid]

theorem settle_agrees_iff {body rest : Chars} {value : Option Chars} (settled : settle body = some (value, rest))
    (later : Chars) : (resolve (body ++ later)).2 = rest ++ later ↔ Joins body later := by
  cases found : find markerEnd body with
  | none =>
    obtain ⟨-, rfl, blank⟩ := settle_blank found settled
    obtain ⟨same, some⟩ := incompleteMarkerEnd_append later blank
    simp only [Joins, found, blank, true_imp_iff]
    constructor
    · intro agrees
      by_contra complete
      exact resolve_late found some complete agrees
    · intro incomplete
      rw [resolve_incomplete incomplete, same]
  | some stop =>
    obtain ⟨-, isRest⟩ := settle_end found settled
    obtain ⟨value, junk, tail, whole, rfl, closing, ended⟩ := find_markerEnd found
    have behind : body.drop (value.length + markerEnd.length) = junk ++ tail := by
      rw [whole, ← List.append_assoc, ← List.length_append, List.drop_left]
    rw [behind, ended] at isRest
    subst isRest
    have front : body.take value.length = value := by rw [whole, List.take_left]
    have foundAll := find_markerEnd_append found later
    simp only [Joins, found, behind, ended, front]
    by_cases nested : (find markerStart body).any (· < value.length) = true
    · rw [if_pos nested]
      have incomplete : Incomplete (body ++ later) := by
        intro stop there
        rw [foundAll] at there
        cases there
        rwa [startsBefore_append found]
      rw [resolve_incomplete incomplete, whole]
      simp only [List.append_assoc]
      exact nested_iff closing _
    · rw [if_neg nested]
      rw [← startsBefore_append found later] at nested
      have behindAll : (body ++ later).drop (value.length + markerEnd.length) = junk ++ (rest ++ later) := by
        rw [whole, List.append_assoc, List.append_assoc, ← List.append_assoc value, ← List.length_append, List.drop_left,
          List.append_assoc]
      rw [resolve_complete foundAll nested, behindAll]
      exact junk_iff closing ended later

theorem cardOf_of_bracket (emitted : List Nat) {value : Chars} (isIn : '[' ∈ value) : cardOf specs emitted value = .ok none := by
  have other : isDigitText value = false := by
    rw [isDigitText, Bool.and_eq_false_iff]
    right
    rw [List.all_eq_false]
    exact ⟨'[', isIn, by decide⟩
  rw [cardOf, other]
  rfl

theorem settle_card {body later rest : Chars} {value : Option Chars} (settled : settle body = some (value, rest))
    (joins : Joins body later) (emitted : List Nat) :
    cardFor specs emitted (resolve (body ++ later)).1 = cardFor specs emitted value := by
  cases found : find markerEnd body with
  | none =>
    obtain ⟨rfl, -, blank⟩ := settle_blank found settled
    simp only [Joins, found] at joins
    rw [resolve_incomplete (joins blank)]
  | some stop =>
    obtain ⟨rfl, -⟩ := settle_end found settled
    have foundAll := find_markerEnd_append found later
    have same := startsBefore_append found later
    by_cases nested : (find markerStart body).any (· < stop) = true
    · have incomplete : Incomplete (body ++ later) := by
        intro stop' there
        rw [foundAll] at there
        cases there
        rwa [same]
      rw [resolve_incomplete incomplete]
      obtain ⟨value, junk, tail, whole, rfl, -, -⟩ := find_markerEnd found
      rw [whole, List.take_left]
      rw [whole, markerEnd, List.cons_append, Search.find_before markerStart_ne_nil (by decide)] at nested
      obtain ⟨i, inside⟩ := Option.isSome_iff_exists.mp nested
      obtain ⟨first, last, isValue, -, -⟩ := Search.find_some inside
      exact (cardOf_of_bracket emitted (by simp [isValue, markerStart])).symm
    · rw [← same] at nested
      rw [resolve_complete foundAll nested]
      obtain ⟨front, back, rfl, rfl, -⟩ := Search.find_some found
      simp only [List.append_assoc, List.take_left]

end Counselle.Turns.Viz

import Counselle.Cds.PacketRow
import Counselle.Search

/-! `chunks_from_viz_markers` of `app/viz_placement.py`: the final text with the chart cards
put where its markers stand. -/
namespace Counselle.Turns.Viz
open Cds (isDigitLike)
open PyText (PyError isDigit isSpace intOfDigits)
open Search (find Clear)
variable {S : Type}

abbrev Chars : Type := List Char

inductive Emission (S : Type) where
  | delta (text : Chars)
  | viz (spec : S)
  deriving DecidableEq

def markerStart : Chars := ['[', '[', 'v', 'i', 'z', ':']

def markerEnd : Chars := [']', ']']

/-- `marker_value.isdigit()` -/
def isDigitText (value : Chars) : Bool := value ≠ [] && value.all isDigitLike

/-- `int(marker_value)` of a text that passes `isdigit`: a digit that is not decimal is refused. -/
def markerInt (value : Chars) : Except PyError Nat :=
  if value.all isDigit then intOfDigits value else .error .valueError

def cardOf (specs : List S) (emitted : List Nat) (value : Chars) : Except PyError (Option (Nat × S)) :=
  if isDigitText value then
    (markerInt value).map fun
      | 0 => none
      | index + 1 => if index ∈ emitted then none else specs[index]?.map fun spec => (index, spec)
  else .ok none

def cardFor (specs : List S) (emitted : List Nat) : Option Chars → Except PyError (Option (Nat × S))
  | none => .ok none
  | some value => cardOf specs emitted value

def cardChunk (card : Option (Nat × S)) : List (Emission S) := (card.map fun c => .viz c.2).toList

def cardIndex (card : Option (Nat × S)) : List Nat := (card.map (·.1)).toList

def appendDelta (chunks : List (Emission S)) (text : Chars) : List (Emission S) :=
  if text = [] then chunks
  else
    match chunks.getLast? with
    | some (.delta last) => chunks.dropLast ++ [.delta (last ++ text)]
    | _ => chunks ++ [.delta text]

/-- `_incomplete_marker_end`, on the text behind the marker's start. -/
def incompleteMarkerEnd (body : Chars) : Chars := body.dropWhile fun c => !isSpace c

def markerJunkEnd (text : Chars) : Chars := text.dropWhile (· = ']')

/-- What a marker's start begins: the value of a marker that is complete, and the text to go on with. -/
def resolve (body : Chars) : Option Chars × Chars :=
  match find markerEnd body with
  | some stop =>
    if (find markerStart body).any (· < stop) then (none, incompleteMarkerEnd body)
    else (some (body.take stop), markerJunkEnd (body.drop (stop + markerEnd.length)))
  | none => (none, incompleteMarkerEnd body)

theorem dropWhile_length_le (test : Char → Bool) (text : Chars) : (text.dropWhile test).length ≤ text.length :=
  (List.dropWhile_suffix test).length_le

theorem resolve_length_le (body : Chars) : (resolve body).2.length ≤ body.length := by
  have ended := dropWhile_length_le (fun c => !isSpace c) body
  unfold resolve
  split
  case h_1 stop _ =>
    split
    · exact ended
    · refine (dropWhile_length_le _ _).trans ?_
      rw [List.length_drop]
      exact Nat.sub_le _ _
  case h_2 => exact ended

theorem find_markerStart_length {text : Chars} {i : Nat} (found : find markerStart text = some i) :
    i + markerStart.length ≤ text.length := by
  obtain ⟨front, back, rfl, rfl, -⟩ := Search.find_some found
  simp only [List.length_append]
  omega

def placeFrom (specs : List S) (text : Chars) (placed : List (Emission S)) (emitted : List Nat) :
    Except PyError (List (Emission S) × List Nat) :=
  match _found : find markerStart text with
  | none => .ok (appendDelta placed text, emitted)
  | some start =>
    let body := text.drop (start + markerStart.length)
    match cardFor specs emitted (resolve body).1 with
    | .error e => .error e
    | .ok card =>
      placeFrom specs (resolve body).2 (appendDelta placed (text.take start) ++ cardChunk card) (emitted ++ cardIndex card)
  termination_by text.length
  decreasing_by
    have size := find_markerStart_length _found
    have shorter := resolve_length_le (text.drop (start + markerStart.length))
    simp only [List.length_drop, markerStart, List.length_cons, List.length_nil] at size shorter ⊢
    omega

/-- The cards that no marker has placed, in the order of the specs. -/
def fallback (specs : List S) (emitted : List Nat) : List (Emission S) :=
  ((List.range specs.length).filter (· ∉ emitted)).filterMap fun index => specs[index]?.map .viz

def chunksFromVizMarkers (finalText : Chars) (specs : List S) : Except PyError (List (Emission S)) :=
  (placeFrom specs finalText [] []).map fun done => done.1 ++ fallback specs done.2

theorem markerStart_ne_nil : markerStart ≠ [] := List.cons_ne_nil _ _

theorem placeFrom_prose (specs : List S) {text : Chars} (none : find markerStart text = none)
    (placed : List (Emission S)) (emitted : List Nat) :
    placeFrom specs text placed emitted = .ok (appendDelta placed text, emitted) := by
  unfold placeFrom
  split
  case h_1 => rfl
  case h_2 some => rw [none] at some; cases some

theorem placeFrom_marker (specs : List S) {text : Chars} {start : Nat} (found : find markerStart text = some start)
    (placed : List (Emission S)) (emitted : List Nat) :
    placeFrom specs text placed emitted =
      match cardFor specs emitted (resolve (text.drop (start + markerStart.length))).1 with
      | .error e => .error e
      | .ok card =>
        placeFrom specs (resolve (text.drop (start + markerStart.length))).2
          (appendDelta placed (text.take start) ++ cardChunk card) (emitted ++ cardIndex card) := by
  rw [placeFrom]
  split
  case h_1 none => rw [found] at none; cases none
  case h_2 other there =>
    rw [found] at there
    cases there
    rfl

theorem appendDelta_nil (placed : List (Emission S)) : appendDelta placed [] = placed := if_pos rfl

theorem appendDelta_append (placed : List (Emission S)) (first second : Chars) :
    appendDelta (appendDelta placed first) second = appendDelta placed (first ++ second) := by
  by_cases blank : first = []
  · rw [blank, List.nil_append, appendDelta_nil]
  by_cases blank' : second = []
  · rw [blank', List.append_nil, appendDelta_nil]
  have filled : first ++ second ≠ [] := by simp [blank]
  unfold appendDelta
  rw [if_neg blank, if_neg blank', if_neg filled]
  cases last : placed.getLast? with
  | none => simp
  | some chunk => cases chunk <;> simp

/-- The characters of the prose and the cards, in the order in which they are shown. -/
def shown (chunks : List (Emission S)) : List (Char ⊕ S) := chunks.flatMap fun
  | .delta text => text.map .inl
  | .viz spec => [.inr spec]

@[simp] theorem shown_append (front back : List (Emission S)) : shown (front ++ back) = shown front ++ shown back :=
  List.flatMap_append

theorem shown_delta (text : Chars) : shown ([.delta text] : List (Emission S)) = text.map .inl := by
  simp [shown]

@[simp] theorem shown_appendDelta (placed : List (Emission S)) (text : Chars) :
    shown (appendDelta placed text) = shown placed ++ text.map .inl := by
  unfold appendDelta
  split
  case isTrue blank => simp [blank]
  case isFalse =>
    split
    case h_1 last isLast =>
      obtain ⟨before, rfl⟩ := List.getLast?_eq_some_iff.mp isLast
      rw [List.dropLast_concat, shown_append, shown_append, shown_delta, shown_delta, List.map_append, List.append_assoc]
    case h_2 => rw [shown_append, shown_delta]

/-- A text read from left to right: a marker's start is resolved, any other character is prose. -/
inductive Reads (specs : List S) : Chars → List Nat → List (Char ⊕ S) → List Nat → Prop where
  | done (emitted : List Nat) : Reads specs [] emitted [] emitted
  | prose {c : Char} {rest : Chars} {emitted after : List Nat} {out : List (Char ⊕ S)} (other : ¬ markerStart <+: c :: rest)
      (later : Reads specs rest emitted out after) : Reads specs (c :: rest) emitted (.inl c :: out) after
  | marker {body : Chars} {emitted after : List Nat} {card : Option (Nat × S)} {out : List (Char ⊕ S)}
      (isCard : cardFor specs emitted (resolve body).1 = .ok card)
      (later : Reads specs (resolve body).2 (emitted ++ cardIndex card) out after) :
      Reads specs (markerStart ++ body) emitted (shown (cardChunk card) ++ out) after

theorem Reads.run {specs : List S} {front back : Chars} {emitted after : List Nat} {out : List (Char ⊕ S)}
    (clear : Clear markerStart front back) (later : Reads specs back emitted out after) :
    Reads specs (front ++ back) emitted (front.map .inl ++ out) after := by
  induction front with
  | nil => exact later
  | cons c front ih =>
    obtain ⟨here, rest⟩ := Search.clear_cons.mp clear
    exact .prose here (ih rest)

theorem placeFrom_cons (specs : List S) {c : Char} {rest : Chars} (other : ¬ markerStart <+: c :: rest)
    (placed : List (Emission S)) (emitted : List Nat) :
    placeFrom specs (c :: rest) placed emitted = placeFrom specs rest (appendDelta placed [c]) emitted := by
  have found := Search.find_cons_of_not other
  cases here : find markerStart rest with
  | none =>
    rw [here] at found
    rw [placeFrom_prose specs found, placeFrom_prose specs here, appendDelta_append]
    rfl
  | some start =>
    rw [here] at found
    rw [placeFrom_marker specs found, placeFrom_marker specs here, appendDelta_append, Nat.add_right_comm]
    rfl

theorem placeFrom_reads {specs : List S} {text : Chars} {emitted after : List Nat} {out : List (Char ⊕ S)}
    (reads : Reads specs text emitted out after) (placed : List (Emission S)) :
    ∃ chunks, placeFrom specs text placed emitted = .ok (chunks, after) ∧ shown chunks = shown placed ++ out := by
  induction reads generalizing placed with
  | done emitted =>
    refine ⟨placed, ?_, by simp⟩
    rw [placeFrom_prose specs rfl, appendDelta_nil]
  | prose other _ ih =>
    obtain ⟨chunks, isDone, shows⟩ := ih (appendDelta placed [_])
    refine ⟨chunks, (placeFrom_cons specs other placed _).trans isDone, ?_⟩
    rw [shows, shown_appendDelta, List.append_assoc]
    rfl
  | @marker body emitted after card out isCard _ ih =>
    obtain ⟨chunks, isDone, shows⟩ := ih (placed ++ cardChunk card)
    have found : find markerStart (markerStart ++ body) = some 0 := Search.find_needle markerStart_ne_nil
    refine ⟨chunks, ?_, by rw [shows, shown_append, List.append_assoc]⟩
    rw [placeFrom_marker specs found, Nat.zero_add, List.drop_left, List.take_zero, appendDelta_nil]
    simp only [isCard]
    exact isDone

theorem chunksFromVizMarkers_reads {specs : List S} {text : Chars} {emitted : List Nat} {out : List (Char ⊕ S)}
    (reads : Reads specs text [] out emitted) :
    ∃ chunks, chunksFromVizMarkers text specs = .ok chunks ∧ shown chunks = out ++ shown (fallback specs emitted) := by
  obtain ⟨chunks, isDone, shows⟩ := placeFrom_reads reads []
  refine ⟨chunks ++ fallback specs emitted, by rw [chunksFromVizMarkers, isDone]; rfl, ?_⟩
  rw [shown_append, shows]
  rfl

end Counselle.Turns.Viz

import Counselle.Essays.AcceptAllCount
import Counselle.ProseMirror
import Counselle.PyJsonText
import Counselle.Search

/-! The anchors of the pending suggestions in the editor, `suggestionExtension.ts`, and what
accepting one does to the markdown of the essay, `_apply_suggestion`. The plugin's decorations
are left out. -/
namespace Counselle.Essays.Anchors
open ProseMirror
open PyJson (unitsOf)

/-- The parser of the wire's list drops a row with an empty anchor. -/
structure EssaySuggestion where
  id : String
  oldText : Markdown
  newText : Markdown
  oldTextPlain : Units
  filled : oldTextPlain ≠ []

structure ResolvedSuggestion where
  start : Option Nat
  stop : Option Nat
  stale : Bool
  suggestion : EssaySuggestion

structure SuggestionPluginState where
  hoveredId : Option String
  resolved : List ResolvedSuggestion

inductive SuggestionMeta where
  | suggestions (list : List EssaySuggestion)
  | hoveredId (id : Option String)

/-- A transaction's steps and what it carries for the plugin. The pointer changes no document. -/
structure Transaction where
  steps : List (Step UInt16)
  signal : Option SuggestionMeta
  pointer : ∀ id, signal = some (.hoveredId id) → steps = []

abbrev Doc := List (PmNode UInt16)

def documentText (doc : Doc) : Units := textBetween doc 0 (contentSize doc)

/-- `text.indexOf(needle, start)` -/
def indexOf (text needle : Units) (start : Nat) : Option Nat :=
  (Search.find needle (text.drop start)).map (· + min start text.length)

def staleResolution (suggestion : EssaySuggestion) (start stop : Option Nat) : ResolvedSuggestion :=
  ⟨start, stop, true, suggestion⟩

def resolveSuggestion (doc : Doc) (text : Units) (suggestion : EssaySuggestion) : ResolvedSuggestion :=
  let anchor := suggestion.oldTextPlain
  match indexOf text anchor 0 with
  | none => staleResolution suggestion none none
  | some first =>
    if (indexOf text anchor (first + 1)).isSome then staleResolution suggestion none none
    else
      let size := contentSize doc
      ⟨some (positionAtTextOffset doc 0 size first .start),
        some (positionAtTextOffset doc 0 size (first + anchor.length) .stop), false, suggestion⟩

def resolveSuggestions (doc : Doc) (suggestions : List EssaySuggestion) : List ResolvedSuggestion :=
  suggestions.map (resolveSuggestion doc (documentText doc))

def remapSuggestion (tr : Transaction) (doc : Doc) (resolved : ResolvedSuggestion) : ResolvedSuggestion :=
  match resolved.start, resolved.stop with
  | some start, some stop =>
    let start := mapThrough tr.steps start .after
    let stop := mapThrough tr.steps stop .before
    if stop < start ∨ textBetween doc start stop ≠ resolved.suggestion.oldTextPlain then
      staleResolution resolved.suggestion (some start) (some (max start stop))
    else ⟨some start, some stop, false, resolved.suggestion⟩
  | _, _ => resolved

def remapSuggestions (tr : Transaction) (doc : Doc) (previous : List ResolvedSuggestion) : List ResolvedSuggestion :=
  previous.map (remapSuggestion tr doc)

def pluginState (doc : Doc) (suggestions : List EssaySuggestion) (hoveredId : Option String) : SuggestionPluginState :=
  ⟨hoveredId, resolveSuggestions doc suggestions⟩

/-- The plugin's `apply`. The list of suggestions comes before everything else. -/
def apply (tr : Transaction) (previous : SuggestionPluginState) (doc : Doc) : SuggestionPluginState :=
  match tr.signal with
  | some (.suggestions list) => pluginState doc list previous.hoveredId
  | some (.hoveredId id) => ⟨id, previous.resolved⟩
  | none =>
    if tr.steps.isEmpty then previous
    else ⟨previous.hoveredId, remapSuggestions tr doc previous.resolved⟩

structure EditorState where
  doc : Doc
  plugin : SuggestionPluginState

def init (doc : Doc) (suggestions : List EssaySuggestion) : EditorState := ⟨doc, pluginState doc suggestions none⟩

def dispatch (s : EditorState) (tr : Transaction) : EditorState :=
  let doc := docBehind s.doc tr.steps
  ⟨doc, apply tr s.plugin doc⟩

def run (doc : Doc) (suggestions : List EssaySuggestion) (transactions : List Transaction) : EditorState :=
  transactions.foldl dispatch (init doc suggestions)

/-- `_apply_suggestion`, before the text is parsed. -/
def applySuggestion (lower : Markdown → Markdown) (current : Markdown) (suggestion : EssaySuggestion) :
    Except EssayEditError Markdown :=
  editText lower 0 [⟨suggestion.oldText, suggestion.newText⟩] current

def Anchored (doc : Doc) (resolved : ResolvedSuggestion) : Prop :=
  resolved.stale = false → ∃ a b, resolved.start = some a ∧ resolved.stop = some b ∧ a < b ∧
    textBetween doc a b = resolved.suggestion.oldTextPlain

theorem indexOf_start (text needle : Units) : indexOf text needle 0 = Search.find needle text := by
  rw [indexOf, List.drop_zero, Nat.zero_min]
  exact Option.map_id'

theorem resolve_anchored (doc : Doc) (suggestion : EssaySuggestion) :
    Anchored doc (resolveSuggestion doc (documentText doc) suggestion) := by
  rw [resolveSuggestion, indexOf_start]
  cases found : Search.find suggestion.oldTextPlain (documentText doc) with
  | none => nofun
  | some first =>
    dsimp only
    split
    case isTrue => nofun
    case isFalse =>
      intro _
      obtain ⟨front, back, split, rfl, -⟩ := Search.find_some found
      obtain ⟨filled, text⟩ := textBetween_found suggestion.filled split
      exact ⟨_, _, rfl, rfl, filled, text⟩

theorem remap_anchored (tr : Transaction) {old doc : Doc} {resolved : ResolvedSuggestion}
    (anchored : Anchored old resolved) : Anchored doc (remapSuggestion tr doc resolved) := by
  unfold remapSuggestion
  split
  case h_1 start stop _ _ =>
    dsimp only
    split
    case isTrue => nofun
    case isFalse kept =>
      intro _
      rw [not_or, not_not] at kept
      have filled := lt_of_textBetween (kept.2.symm ▸ resolved.suggestion.filled)
      exact ⟨_, _, rfl, rfl, filled, kept.2⟩
  case h_2 without =>
    intro live
    obtain ⟨a, b, start, stop, -⟩ := anchored live
    exact absurd stop (without a b start)

theorem dispatch_anchored {s : EditorState} (tr : Transaction)
    (anchored : ∀ resolved ∈ s.plugin.resolved, Anchored s.doc resolved) :
    ∀ resolved ∈ (dispatch s tr).plugin.resolved, Anchored (dispatch s tr).doc resolved := by
  unfold dispatch apply
  dsimp only
  cases signal : tr.signal with
  | some mark =>
    cases mark with
    | suggestions list =>
      intro resolved isIn
      obtain ⟨suggestion, -, rfl⟩ := List.mem_map.mp isIn
      exact resolve_anchored _ suggestion
    | hoveredId id =>
      rw [tr.pointer id signal]
      exact anchored
  | none =>
    dsimp only
    split
    case isTrue blank =>
      rw [List.isEmpty_iff.mp blank]
      exact anchored
    case isFalse =>
      intro resolved isIn
      obtain ⟨previous, was, rfl⟩ := List.mem_map.mp isIn
      exact remap_anchored tr (anchored previous was)

theorem run_anchored (doc : Doc) (suggestions : List EssaySuggestion) (transactions : List Transaction) :
    ∀ resolved ∈ (run doc suggestions transactions).plugin.resolved,
      Anchored (run doc suggestions transactions).doc resolved := by
  have keeps (transactions : List Transaction) (s : EditorState)
      (anchored : ∀ resolved ∈ s.plugin.resolved, Anchored s.doc resolved) :
      ∀ resolved ∈ (transactions.foldl dispatch s).plugin.resolved,
        Anchored (transactions.foldl dispatch s).doc resolved := by
    induction transactions generalizing s with
    | nil => exact anchored
    | cons tr rest ih => exact ih (dispatch s tr) (dispatch_anchored tr anchored)
  refine keeps transactions _ fun resolved isIn => ?_
  obtain ⟨suggestion, -, rfl⟩ := List.mem_map.mp isIn
  exact resolve_anchored doc suggestion

theorem dispatch_apart {s : EditorState} {tr : Transaction} {resolved : ResolvedSuggestion} {a b : Nat}
    (anchored : Anchored s.doc resolved) (isIn : resolved ∈ s.plugin.resolved) (live : resolved.stale = false)
    (start : resolved.start = some a) (stop : resolved.stop = some b) (plain : tr.signal = none)
    (avoids : Avoids s.doc a b tr.steps) :
    ∃ a' b', ⟨some a', some b', false, resolved.suggestion⟩ ∈ (dispatch s tr).plugin.resolved ∧
      textBetween (dispatch s tr).doc a' b' = resolved.suggestion.oldTextPlain := by
  obtain ⟨a', b', isStart, isStop, filled, text⟩ := anchored live
  cases start.symm.trans isStart
  cases stop.symm.trans isStop
  obtain ⟨behind, same⟩ := avoids.textBetween filled
  refine ⟨mapThrough tr.steps a .after, mapThrough tr.steps b .before, ?_, same.trans text⟩
  unfold dispatch apply
  rw [plain]
  dsimp only
  split
  case isTrue blank =>
    rw [List.isEmpty_iff.mp blank]
    cases resolved
    cases live
    cases start
    cases stop
    exact isIn
  case isFalse =>
    refine List.mem_map.mpr ⟨resolved, isIn, ?_⟩
    have kept : ¬ (mapThrough tr.steps b .before < mapThrough tr.steps a .after ∨
        textBetween (docBehind s.doc tr.steps) (mapThrough tr.steps a .after) (mapThrough tr.steps b .before) ≠
          resolved.suggestion.oldTextPlain) := by
      rw [not_or, not_not]
      exact ⟨by omega, same.trans text⟩
    rw [remapSuggestion, start, stop]
    exact if_neg kept

def OnlyPlace (needle text front : Units) : Prop :=
  (∃ back, text = front ++ needle ++ back) ∧ ∀ a b, text = a ++ needle ++ b → a = front

theorem onlyPlace_of_none {needle text front back : Units} (filled : needle ≠ []) (split : text = front ++ needle ++ back)
    (clear : Search.Clear needle front (needle ++ back))
    (absent : Search.find needle (text.drop (front.length + 1)) = none) : OnlyPlace needle text front := by
  refine ⟨⟨back, split⟩, fun a b other => ?_⟩
  have whole : front ++ (needle ++ back) = a ++ (needle ++ b) := by
    rw [← List.append_assoc, ← split, other, List.append_assoc]
  obtain ⟨last, rfl, rest⟩ | ⟨last, rfl, rest⟩ := List.append_eq_append_iff.mp whole
  · -- A later place would have been found by the second search.
    cases last with
    | nil => exact List.append_nil front
    | cons c last =>
      have later : text.drop (front.length + 1) = last ++ needle ++ b := by
        rw [other, List.append_assoc, List.append_assoc, List.drop_append, List.drop_of_length_le (by omega),
          Nat.add_sub_cancel_left]
        exact (List.append_assoc last needle b).symm
      have found := Search.find_isSome filled last b
      rw [← later, absent] at found
      cases found
  · -- An earlier one by the first.
    by_contra more
    have some : last ≠ [] := by
      rintro rfl
      exact more (List.append_nil a).symm
    exact clear a last rfl some ⟨b, rest⟩

theorem none_of_onlyPlace {needle text front other back : Units} (filled : needle ≠ [])
    (split : text = front ++ needle ++ back) (only : OnlyPlace needle text other) :
    Search.find needle (text.drop (front.length + 1)) = none := by
  cases found : Search.find needle (text.drop (front.length + 1)) with
  | none => rfl
  | some later =>
    obtain ⟨before, after, rest, -, -⟩ := Search.find_some found
    have second : text = text.take (front.length + 1) ++ before ++ needle ++ after := by
      rw [List.append_assoc, List.append_assoc, ← List.append_assoc before, ← rest, List.take_append_drop]
    have same := congrArg List.length ((only.2 _ _ second).trans (only.2 _ _ split).symm)
    have length := congrArg List.length split
    have one := List.length_pos_iff.mpr filled
    simp only [List.length_append, List.length_take] at same length
    omega

theorem resolve_live_iff (doc : Doc) (suggestion : EssaySuggestion) :
    (resolveSuggestion doc (documentText doc) suggestion).stale = false ↔
      ∃ front, OnlyPlace suggestion.oldTextPlain (documentText doc) front := by
  rw [resolveSuggestion, indexOf_start]
  cases found : Search.find suggestion.oldTextPlain (documentText doc) with
  | none =>
    constructor
    · nofun
    · rintro ⟨front, ⟨back, split⟩, -⟩
      have some := Search.find_isSome suggestion.filled front back
      rw [← split, found] at some
      cases some
  | some first =>
    obtain ⟨front, back, split, rfl, clear⟩ := Search.find_some found
    have again : (indexOf (documentText doc) suggestion.oldTextPlain (front.length + 1)).isSome = false ↔
        Search.find suggestion.oldTextPlain ((documentText doc).drop (front.length + 1)) = none := by
      rw [indexOf, Option.isSome_map, Option.isSome_eq_false_iff, Option.isNone_iff_eq_none]
    dsimp only
    constructor
    · intro live
      split at live
      case isTrue => cases live
      case isFalse once =>
        exact ⟨front, onlyPlace_of_none suggestion.filled split clear (again.mp (Bool.eq_false_iff.mpr once))⟩
    · rintro ⟨other, only⟩
      rw [again.mpr (none_of_onlyPlace suggestion.filled split only)]
      rfl

theorem replaceFirst_at {needle text : Markdown} (replacement : Markdown) (occurs : needle <:+: text) :
    ∃ front back, text = front ++ needle ++ back ∧ replaceFirst needle replacement text = front ++ replacement ++ back := by
  induction text with
  | nil =>
    cases List.infix_nil.mp occurs
    exact ⟨[], [], rfl, by simp [replaceFirst]⟩
  | cons c rest ih =>
    rw [replaceFirst]
    split
    case isTrue here =>
      obtain ⟨back, whole⟩ := List.isPrefixOf_iff_prefix.mp here
      refine ⟨[], back, whole.symm, ?_⟩
      rw [← whole, List.drop_left, List.nil_append]
    case isFalse not =>
      rw [List.isPrefixOf_iff_prefix] at not
      obtain ⟨front, back, rfl, replaced⟩ := ih ((List.infix_cons_iff.mp occurs).resolve_left not)
      exact ⟨c :: front, back, rfl, by rw [replaced]; rfl⟩

theorem applySuggestion_cases (lower : Markdown → Markdown) (current : Markdown) (suggestion : EssaySuggestion) :
    (count current suggestion.oldText ≠ 1 ∧ ∃ error, applySuggestion lower current suggestion = .error error) ∨
      ∃ front back, current = front ++ suggestion.oldText ++ back ∧
        applySuggestion lower current suggestion = .ok (front ++ suggestion.newText ++ back) := by
  unfold applySuggestion
  rw [editText]
  split
  case h_1 none =>
    have none : count current suggestion.oldText = 0 := none
    exact Or.inl ⟨by omega, _, rfl⟩
  case h_2 one =>
    right
    have occurs : suggestion.oldText <:+: current := by
      by_contra absent
      have filled : suggestion.oldText ≠ [] := fun none => absent (none ▸ List.nil_infix)
      have one : count current suggestion.oldText = 1 := one
      rw [count, if_neg filled, countFrom_absent 0 absent] at one
      cases one
    obtain ⟨front, back, split, replaced⟩ := replaceFirst_at suggestion.newText occurs
    exact ⟨front, back, split, by rw [editText, replaced]⟩
  case h_3 none _ => exact Or.inl ⟨by omega, _, rfl⟩

def bare (text : Markdown) : Markdown := text.filter (· ≠ '\n')

/-- The text of the document under a markdown of plain paragraphs. -/
def plainUnits (text : Markdown) : Units := unitsOf (bare text)

theorem plainUnits_append (a b : Markdown) : plainUnits (a ++ b) = plainUnits a ++ plainUnits b := by
  simp only [plainUnits, bare, unitsOf, List.filter_append, List.flatMap_append]

theorem breaks_of_plainUnits {text : Markdown} (none : plainUnits text = []) : ∀ c ∈ text, c = '\n' := by
  have chars := PyJson.textOf_unitsOf (bare text)
  have none : unitsOf (bare text) = [] := none
  rw [none] at chars
  intro c isIn
  by_contra other
  have kept : c ∈ bare text := List.mem_filter.mpr ⟨isIn, decide_eq_true other⟩
  rw [← chars] at kept
  cases kept

theorem no_breaks_between {old breaks a b : Markdown} (filled : plainUnits old ≠ []) (only : ∀ c ∈ breaks, c = '\n')
    (same : old ++ a = breaks ++ (old ++ b)) : breaks = [] := by
  have first : ∃ c ∈ old, ¬ (c == '\n') = true := by
    by_contra none
    refine filled ?_
    have empty : bare old = [] := by
      rw [bare, List.filter_eq_nil_iff]
      intro c isIn
      by_contra kept
      exact none ⟨c, isIn, by simpa using kept⟩
    rw [plainUnits, empty]
    rfl
  have short : (old.takeWhile (· == '\n')).length ≠ old.length := by
    intro whole
    obtain ⟨c, isIn, other⟩ := first
    have same := (List.takeWhile_prefix (· == '\n')).eq_of_length whole
    rw [← same] at isIn
    exact other (List.mem_takeWhile_imp (p := fun x => x == '\n') isIn)
  have runs := congrArg (List.takeWhile (· == '\n')) same
  rw [List.takeWhile_append_of_pos fun c isIn => beq_iff_eq.mpr (only c isIn), List.takeWhile_append, List.takeWhile_append,
    if_neg short, if_neg short] at runs
  exact List.self_eq_append_left.mp runs

theorem markdown_place {old front back a b : Markdown} {place : Units} (filled : plainUnits old ≠ [])
    (only : OnlyPlace (plainUnits old) (plainUnits (front ++ old ++ back)) place)
    (other : front ++ old ++ back = a ++ old ++ b) : a = front := by
  have here : plainUnits front = place :=
    only.2 _ (plainUnits back) (by rw [plainUnits_append, plainUnits_append])
  have there : plainUnits a = place :=
    only.2 _ (plainUnits b) (by rw [other, plainUnits_append, plainUnits_append])
  have whole : front ++ (old ++ back) = a ++ (old ++ b) := by
    rw [← List.append_assoc, other, List.append_assoc]
  obtain ⟨more, rfl, rest⟩ | ⟨more, rfl, rest⟩ := List.append_eq_append_iff.mp whole
  · rw [plainUnits_append, here] at there
    have none := no_breaks_between filled (breaks_of_plainUnits (List.self_eq_append_right.mp there.symm)) rest
    rw [none, List.append_nil]
  · rw [plainUnits_append, there] at here
    have none := no_breaks_between filled (breaks_of_plainUnits (List.self_eq_append_right.mp here.symm)) rest
    rw [none, List.append_nil]

theorem applySuggestion_span (lower : Markdown → Markdown) {doc : Doc} {markdown : Markdown}
    {suggestion : EssaySuggestion} {a b : Nat} {place : Units} (ordered : a ≤ b)
    (text : textBetween doc a b = suggestion.oldTextPlain)
    (only : OnlyPlace suggestion.oldTextPlain (documentText doc) place)
    (plain : documentText doc = plainUnits markdown) (anchor : suggestion.oldTextPlain = plainUnits suggestion.oldText)
    (occurs : suggestion.oldText <:+: markdown) :
    ∃ front back, markdown = front ++ suggestion.oldText ++ back ∧
      plainUnits front = textBetween doc 0 a ∧ plainUnits back = textBetween doc b (contentSize doc) ∧
      applySuggestion lower markdown suggestion = .ok (front ++ suggestion.newText ++ back) := by
  obtain ⟨front, back, rfl⟩ := occurs
  have filled : plainUnits suggestion.oldText ≠ [] := anchor ▸ suggestion.filled
  have nonempty : suggestion.oldText ≠ [] := by
    intro none
    rw [none] at filled
    exact filled rfl
  have spans : documentText doc = textBetween doc 0 a ++ suggestion.oldTextPlain ++
      textBetween doc b (contentSize doc) := text ▸ textContent_split doc ordered
  have pieces : documentText doc = plainUnits front ++ suggestion.oldTextPlain ++ plainUnits back := by
    rw [plain, anchor, plainUnits_append, plainUnits_append]
  have before := (only.2 _ _ pieces).trans (only.2 _ _ spans).symm
  have behind : plainUnits back = textBetween doc b (contentSize doc) := by
    rw [spans, before] at pieces
    exact (List.append_cancel_left pieces).symm
  have unique (c d : Markdown) (other : front ++ suggestion.oldText ++ back = c ++ suggestion.oldText ++ d) : c = front := by
    rw [plain, anchor] at only
    exact markdown_place filled only other
  obtain ⟨counted, replaced⟩ := @replace_place _ suggestion.newText _ _ nonempty unique
  have one : count (front ++ suggestion.oldText ++ back) suggestion.oldText = 1 := by
    rw [count, if_neg nonempty]
    exact counted
  refine ⟨front, back, rfl, before, behind, ?_⟩
  simp only [applySuggestion, editText, one, replaced]

/-- What the plugin takes for live covers its text, keeps it under steps elsewhere, and is
replaced by accepting wherever the server and the editor find the text in one place. -/
theorem live_suggestion_on_text (doc : Doc) (suggestions : List EssaySuggestion) (transactions : List Transaction) :
    let s := run doc suggestions transactions
    (∀ resolved ∈ s.plugin.resolved, Anchored s.doc resolved) ∧
    (∀ resolved ∈ s.plugin.resolved, ∀ a b tr, resolved.stale = false → resolved.start = some a →
      resolved.stop = some b → tr.signal = none → Avoids s.doc a b tr.steps →
      ∃ a' b', ⟨some a', some b', false, resolved.suggestion⟩ ∈ (dispatch s tr).plugin.resolved ∧
        textBetween (dispatch s tr).doc a' b' = resolved.suggestion.oldTextPlain) ∧
    (∀ tr list, tr.signal = some (.suggestions list) → ∀ resolved ∈ (dispatch s tr).plugin.resolved,
      (resolved.stale = false ↔
        ∃ front, OnlyPlace resolved.suggestion.oldTextPlain (documentText (dispatch s tr).doc) front)) ∧
    (∀ resolved ∈ s.plugin.resolved, ∀ a b, resolved.stale = false → resolved.start = some a →
      resolved.stop = some b → ∀ lower markdown,
      ((count markdown resolved.suggestion.oldText ≠ 1 ∧
          ∃ error, applySuggestion lower markdown resolved.suggestion = .error error) ∨
        ∃ front back, markdown = front ++ resolved.suggestion.oldText ++ back ∧
          applySuggestion lower markdown resolved.suggestion = .ok (front ++ resolved.suggestion.newText ++ back)) ∧
      ((∃ place, OnlyPlace resolved.suggestion.oldTextPlain (documentText s.doc) place) →
        documentText s.doc = plainUnits markdown →
        resolved.suggestion.oldTextPlain = plainUnits resolved.suggestion.oldText →
        resolved.suggestion.oldText <:+: markdown →
        ∃ front back, markdown = front ++ resolved.suggestion.oldText ++ back ∧
          plainUnits front = textBetween s.doc 0 a ∧ plainUnits back = textBetween s.doc b (contentSize s.doc) ∧
          applySuggestion lower markdown resolved.suggestion = .ok (front ++ resolved.suggestion.newText ++ back))) := by
  intro s
  have anchored := run_anchored doc suggestions transactions
  refine ⟨anchored, ?apart, ?afresh, ?accepted⟩
  case apart =>
    intro resolved isIn a b tr live start stop plain avoids
    exact dispatch_apart (anchored resolved isIn) isIn live start stop plain avoids
  case afresh =>
    intro tr list signal resolved isIn
    unfold dispatch apply at isIn ⊢
    rw [signal] at isIn
    obtain ⟨suggestion, -, rfl⟩ := List.mem_map.mp isIn
    have same : (resolveSuggestion (docBehind s.doc tr.steps) (documentText (docBehind s.doc tr.steps)) suggestion).suggestion =
        suggestion := by
      rw [resolveSuggestion]
      split
      case h_1 => rfl
      case h_2 =>
        split
        case isTrue => rfl
        case isFalse => rfl
    rw [same]
    exact resolve_live_iff _ suggestion
  case accepted =>
    intro resolved isIn a b live start stop lower markdown
    refine ⟨applySuggestion_cases lower markdown resolved.suggestion, ?_⟩
    rintro ⟨place, only⟩ plain anchor occurs
    obtain ⟨a', b', isStart, isStop, ordered, text⟩ := anchored resolved isIn live
    cases start.symm.trans isStart
    cases stop.symm.trans isStop
    exact applySuggestion_span lower ordered.le text only plain anchor occurs

def paragraph (text : String) : PmNode UInt16 := .block [.text (unitsOf text.toList)]

def catToBird : EssaySuggestion := ⟨"s1", "cat".toList, "bird".toList, unitsOf "cat".toList, by decide⟩

def dogToFox : EssaySuggestion := ⟨"s2", "dog".toList, "fox".toList, unitsOf "dog".toList, by decide⟩

def typed : Transaction := ⟨[⟨[⟨8, 0, 4⟩], [paragraph "cat dog cat"]⟩], none, nofun⟩

def replaced : Transaction := ⟨[⟨[⟨1, 3, 4⟩], [paragraph "bird dog"]⟩], none, nofun⟩

/-- A live suggestion keeps its text while the student types, and a step that replaces another's. -/
theorem live_suggestion_kept :
    (⟨some 6, some 9, false, dogToFox⟩ : ResolvedSuggestion) ∈
        (dispatch (run [paragraph "cat dog"] [catToBird, dogToFox] []) replaced).plugin.resolved ∧
      ∃ a b, (⟨some a, some b, false, dogToFox⟩ : ResolvedSuggestion) ∈
          (dispatch (run [paragraph "cat dog"] [catToBird, dogToFox] []) replaced).plugin.resolved ∧
        textBetween [paragraph "bird dog"] a b = unitsOf "dog".toList := by
  have live : (⟨some 5, some 8, false, dogToFox⟩ : ResolvedSuggestion) ∈
      (run [paragraph "cat dog"] [catToBird, dogToFox] []).plugin.resolved := List.mem_cons_of_mem _ (List.mem_cons_self ..)
  have avoids : Avoids [paragraph "cat dog"] 5 8 replaced.steps :=
    .step ⟨by decide, by decide⟩ (Or.inr (by decide)) .done
  refine ⟨List.mem_cons_of_mem _ (List.mem_cons_self ..), ?_⟩
  exact (live_suggestion_on_text [paragraph "cat dog"] [catToBird, dogToFox] []).2.1 _ live 5 8 replaced rfl rfl rfl rfl avoids

def abToX : EssaySuggestion := ⟨"s1", "ab".toList, "x".toList, unitsOf "ab".toList, by decide⟩

def bcToY : EssaySuggestion := ⟨"s2", "bc".toList, "y".toList, unitsOf "bc".toList, by decide⟩

def shared : Transaction := ⟨[⟨[⟨1, 2, 1⟩], [paragraph "xc"]⟩], none, nofun⟩

/-- The server refuses a live suggestion whose text was typed a second time, and replacing the
text of one suggestion takes away that of another. -/
theorem live_suggestion_refused :
    (¬ ∀ (doc : Doc) (suggestions : List EssaySuggestion) (transactions : List Transaction),
      let s := run doc suggestions transactions
      ∀ resolved ∈ s.plugin.resolved, ∀ a b, resolved.stale = false → resolved.start = some a → resolved.stop = some b →
        ∀ lower markdown, documentText s.doc = plainUnits markdown →
          ∃ front back, markdown = front ++ resolved.suggestion.oldText ++ back ∧
            plainUnits front = textBetween s.doc 0 a ∧
            applySuggestion lower markdown resolved.suggestion = .ok (front ++ resolved.suggestion.newText ++ back)) ∧
    ¬ ∀ (doc : Doc) (suggestions : List EssaySuggestion) (transactions : List Transaction),
      let s := run doc suggestions transactions
      ∀ first ∈ s.plugin.resolved, ∀ second ∈ s.plugin.resolved, first.suggestion.id ≠ second.suggestion.id →
        first.stale = false → second.stale = false → ∀ a b, first.start = some a → first.stop = some b →
        ∀ size doc' tr, Replaces ⟨a, b - a, size⟩ s.doc doc' → tr.steps = [⟨[⟨a, b - a, size⟩], doc'⟩] → tr.signal = none →
          ∃ resolved ∈ (dispatch s tr).plugin.resolved, resolved.suggestion.id = second.suggestion.id ∧
            resolved.stale = false := by
  constructor
  · intro claim
    have live : (⟨some 1, some 4, false, catToBird⟩ : ResolvedSuggestion) ∈
        (run [paragraph "cat dog"] [catToBird] [typed]).plugin.resolved := List.mem_cons_self ..
    obtain ⟨front, back, -, -, accepted⟩ := claim [paragraph "cat dog"] [catToBird] [typed] _ live 1 4 rfl rfl rfl id
      "cat dog cat".toList (by decide)
    cases accepted
  · intro claim
    have first : (⟨some 1, some 3, false, abToX⟩ : ResolvedSuggestion) ∈
        (run [paragraph "abc"] [abToX, bcToY] []).plugin.resolved := List.mem_cons_self ..
    have second : (⟨some 2, some 4, false, bcToY⟩ : ResolvedSuggestion) ∈
        (run [paragraph "abc"] [abToX, bcToY] []).plugin.resolved := List.mem_cons_of_mem _ (List.mem_cons_self ..)
    obtain ⟨resolved, isIn, same, live⟩ := claim [paragraph "abc"] [abToX, bcToY] [] _ first _ second (by decide) rfl rfl
      1 3 rfl rfl 1 [paragraph "xc"] shared ⟨by decide, by decide⟩ rfl rfl
    have gone : ∀ resolved ∈ (dispatch (run [paragraph "abc"] [abToX, bcToY] []) shared).plugin.resolved,
        resolved.suggestion.id = "s2" → resolved.stale = true := by decide
    rw [gone resolved isIn same] at live
    cases live

end Counselle.Essays.Anchors

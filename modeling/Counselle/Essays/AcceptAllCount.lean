import Counselle.Essays.AcceptAll
import Counselle.SpacedText

/-! The projection of "accept all" against the text that the server leaves. -/
namespace Counselle.Essays
open SpacedText (render ofText gapsFrom)

/-- The offsets at which `needle` occurs, those that overlap included. -/
def places (needle text : List Char) : List Nat :=
  (List.range (text.length + 1)).filter fun offset => needle.isPrefixOf (text.drop offset)

theorem mem_places {needle front back : List Char} : front.length ∈ places needle (front ++ needle ++ back) := by
  unfold places
  rw [List.mem_filter, List.mem_range, List.append_assoc, List.drop_left]
  constructor
  · simp only [List.length_append]
    omega
  · exact List.isPrefixOf_iff_prefix.mpr (List.prefix_append needle back)

theorem place_unique {needle front back a b : List Char} (once : (places needle (front ++ needle ++ back)).length = 1)
    (other : front ++ needle ++ back = a ++ needle ++ b) : a = front := by
  obtain ⟨place, only⟩ := List.length_eq_one_iff.mp once
  have here : front.length ∈ places needle (front ++ needle ++ back) := mem_places
  have there : a.length ∈ places needle (front ++ needle ++ back) := other ▸ mem_places
  rw [only, List.mem_singleton] at here there
  rw [List.append_assoc, List.append_assoc] at other
  exact (List.append_inj other (here.trans there.symm)).1.symm

theorem countFrom_absent {needle : List Char} (skip : Nat) {text : List Char} (absent : ¬ needle <:+: text) :
    countFrom needle skip text = 0 := by
  induction text generalizing skip with
  | nil => cases skip <;> rfl
  | cons c text ih =>
    have later : ¬ needle <:+: text := fun isIn => absent (isIn.trans (List.suffix_cons c text).isInfix)
    cases skip with
    | zero =>
      have here : ¬ needle.isPrefixOf (c :: text) = true := by
        rw [List.isPrefixOf_iff_prefix]
        exact fun found => absent found.isInfix
      rw [countFrom, if_neg here]
      exact ih 0 later
    | succ skip => exact ih skip later

theorem replace_place {needle replacement front back : List Char} (nonempty : needle ≠ [])
    (unique : ∀ a b, front ++ needle ++ back = a ++ needle ++ b → a = front) :
    countFrom needle 0 (front ++ needle ++ back) = 1 ∧
      replaceFirst needle replacement (front ++ needle ++ back) = front ++ replacement ++ back := by
  induction front with
  | nil =>
    obtain ⟨c, rest, rfl⟩ := List.exists_cons_of_ne_nil nonempty
    have here : (c :: rest).isPrefixOf (c :: (rest ++ back)) = true :=
      List.isPrefixOf_iff_prefix.mpr (List.prefix_append (c :: rest) back)
    have absent : ¬ (c :: rest) <:+: rest ++ back := by
      rintro ⟨a, b, same⟩
      have front := unique (c :: a) b (by simpa using same.symm)
      cases front
    constructor
    · rw [List.nil_append, List.cons_append, countFrom, if_pos here, countFrom_absent _ absent]
    · rw [List.nil_append, List.cons_append, replaceFirst, if_pos here, ← List.cons_append, List.drop_left]
      rfl
  | cons c front ih =>
    have later : ∀ a b, front ++ needle ++ back = a ++ needle ++ b → a = front := by
      intro a b same
      exact (List.cons.inj (unique (c :: a) b (congrArg (c :: ·) same))).2
    have here : ¬ needle.isPrefixOf (c :: (front ++ needle ++ back)) = true := by
      rw [List.isPrefixOf_iff_prefix]
      rintro ⟨b, same⟩
      cases unique [] b same.symm
    obtain ⟨counted, replaced⟩ := ih later
    constructor
    · rw [List.cons_append, List.cons_append, countFrom, if_neg here]
      exact counted
    · rw [List.cons_append, List.cons_append, replaceFirst, if_neg here, replaced]
      rfl

theorem applyOrSkip_place {lower : Markdown → Markdown} {suggestion : Suggestion} {front back : List Char}
    (nonempty : suggestion.oldText ≠ [])
    (once : (places suggestion.oldText (front ++ suggestion.oldText ++ back)).length = 1) :
    applyOrSkip lower (front ++ suggestion.oldText ++ back) suggestion = front ++ suggestion.newText ++ back := by
  obtain ⟨counted, replaced⟩ := @replace_place _ suggestion.newText _ _ nonempty fun a b => place_unique once
  have one : count (front ++ suggestion.oldText ++ back) suggestion.oldText = 1 := by
    rw [count, if_neg nonempty]
    exact counted
  simp only [applyOrSkip, editText, one, replaced]

theorem applyOrSkip_skips {lower : Markdown → Markdown} {current : Markdown} {suggestion : Suggestion}
    (not : count current suggestion.oldText ≠ 1) : applyOrSkip lower current suggestion = current := by
  simp only [applyOrSkip, editText]
  split
  · rename_i next applied
    split at applied
    · cases applied
    · rename_i one
      exact absurd one not
    · cases applied
  · rfl

inductive Segment where
  | kept (tokens : List SpacedText.Token)
  | pending (suggestion : Suggestion)

def before : List Segment → List SpacedText.Token
  | [] => []
  | .kept tokens :: rest => tokens ++ before rest
  | .pending suggestion :: rest => ofText suggestion.oldText ++ before rest

def after : List Segment → List SpacedText.Token
  | [] => []
  | .kept tokens :: rest => tokens ++ after rest
  | .pending suggestion :: rest => ofText suggestion.newText ++ after rest

def waiting : List Segment → List Suggestion
  | [] => []
  | .kept _ :: rest => waiting rest
  | .pending suggestion :: rest => suggestion :: waiting rest

theorem before_append (a b : List Segment) : before (a ++ b) = before a ++ before b := by
  induction a with
  | nil => rfl
  | cons segment a ih => cases segment <;> simp [before, ih]

theorem after_append (a b : List Segment) : after (a ++ b) = after a ++ after b := by
  induction a with
  | nil => rfl
  | cons segment a ih => cases segment <;> simp [after, ih]

theorem waiting_append (a b : List Segment) : waiting (a ++ b) = waiting a ++ waiting b := by
  induction a with
  | nil => rfl
  | cons segment a ih => cases segment <;> simp [waiting, ih]

theorem exists_waiting {suggestion : Suggestion} {segments : List Segment} (isIn : suggestion ∈ waiting segments) :
    ∃ front back, segments = front ++ .pending suggestion :: back := by
  induction segments with
  | nil => cases isIn
  | cons segment segments ih =>
    cases segment with
    | kept tokens =>
      obtain ⟨front, back, rfl⟩ := ih isIn
      exact ⟨.kept tokens :: front, back, rfl⟩
    | pending other =>
      obtain rfl | isIn := List.mem_cons.mp isIn
      · exact ⟨[], segments, rfl⟩
      · obtain ⟨front, back, rfl⟩ := ih isIn
        exact ⟨.pending other :: front, back, rfl⟩

theorem after_of_none {segments : List Segment} (none : waiting segments = []) : before segments = after segments := by
  induction segments with
  | nil => rfl
  | cons segment segments ih =>
    cases segment with
    | kept tokens => exact congrArg (tokens ++ ·) (ih none)
    | pending => cases none

/-- In the order of the queue: what the projection counts occurs at one place of the text
left so far, and what it leaves out does not apply to that text. -/
def EachOnce (lower : Markdown → Markdown) (text : List Char) : List Suggestion → Markdown → Prop
  | [], _ => True
  | suggestion :: rest, current =>
    (if (resolveSuggestion text suggestion).stale then count current suggestion.oldText ≠ 1
      else (places suggestion.oldText current).length = 1) ∧
      EachOnce lower text rest (applyOrSkip lower current suggestion)

theorem foldl_applyOrSkip {lower : Markdown → Markdown} {text separator : List Char} {queue : List Suggestion}
    {segments : List Segment} (each : EachOnce lower text queue (render separator (before segments)))
    (nonempty : ∀ suggestion ∈ queue, (resolveSuggestion text suggestion).stale = false → suggestion.oldText ≠ [])
    (perm : (queue.filter fun suggestion => !(resolveSuggestion text suggestion).stale).Perm (waiting segments)) :
    queue.foldl (applyOrSkip lower) (render separator (before segments)) = render separator (after segments) := by
  induction queue generalizing segments with
  | nil => rw [List.foldl_nil, after_of_none (List.nil_perm.mp perm)]
  | cons suggestion queue ih =>
    obtain ⟨here, later⟩ := each
    have nonemptyLater : ∀ suggestion ∈ queue,
        (resolveSuggestion text suggestion).stale = false → suggestion.oldText ≠ [] :=
      fun other isIn => nonempty other (List.mem_cons_of_mem _ isIn)
    rw [List.foldl_cons]
    cases kind : (resolveSuggestion text suggestion).stale with
    | true =>
      rw [if_pos kind] at here
      rw [List.filter_cons_of_neg (by simp [kind])] at perm
      rw [applyOrSkip_skips here] at later ⊢
      exact ih later nonemptyLater perm
    | false =>
      rw [if_neg (by simp [kind])] at here
      rw [List.filter_cons_of_pos (by simp [kind])] at perm
      obtain ⟨front, back, rfl⟩ := exists_waiting (perm.subset List.mem_cons_self)
      let replaced := front ++ .kept (ofText suggestion.newText) :: back
      have placed : render separator (before (front ++ .pending suggestion :: back)) =
          render separator (before front) ++ suggestion.oldText ++ render separator (before back) := by
        simp [before_append, before]
      have applied : applyOrSkip lower (render separator (before (front ++ .pending suggestion :: back))) suggestion =
          render separator (before replaced) := by
        rw [placed] at here ⊢
        rw [applyOrSkip_place (nonempty suggestion List.mem_cons_self kind) here]
        simp [replaced, before_append, before]
      have still : (queue.filter fun suggestion => !(resolveSuggestion text suggestion).stale).Perm (waiting replaced) := by
        rw [waiting_append] at perm ⊢
        exact (perm.trans List.perm_middle).cons_inv
      rw [applied] at later ⊢
      rw [ih later nonemptyLater still]
      simp [replaced, after_append, after]

def ofBlocks : List (List Char) → List SpacedText.Token
  | [] => []
  | block :: rest => ofText block ++ rest.flatMap fun block => .gap :: ofText block

theorem render_ofBlocks (separator : List Char) (doc : List (List Char)) :
    render separator (ofBlocks doc) = separator.intercalate doc := by
  cases doc with
  | nil => rfl
  | cons block rest =>
    induction rest generalizing block with
    | nil => simp [ofBlocks]
    | cons next rest ih =>
      rw [List.intercalate_cons_cons, ← ih next]
      simp [ofBlocks, render]

theorem flattenMore_eq (tokens : List SpacedText.Token) (rest : List (List Char)) :
    flattenMore ⟨gapsFrom 0 tokens, render [] tokens⟩ rest =
      ⟨gapsFrom 0 (tokens ++ rest.flatMap fun block => .gap :: ofText block),
        render [] (tokens ++ rest.flatMap fun block => .gap :: ofText block)⟩ := by
  induction rest generalizing tokens with
  | nil => simp [flattenMore]
  | cons block rest ih =>
    have next := ih (tokens ++ .gap :: ofText block)
    have gaps : gapsFrom 0 (tokens ++ .gap :: ofText block) = gapsFrom 0 tokens ++ [(render [] tokens).length] := by
      rw [SpacedText.gapsFrom_append, Nat.zero_add]
      simp [gapsFrom]
    have chars : render [] (tokens ++ .gap :: ofText block) = render [] tokens ++ block := by
      simp [render]
    rw [gaps, chars] at next
    rw [flattenMore, next, List.flatMap_cons, List.append_assoc]

theorem flattenDocument_eq (doc : List (List Char)) :
    flattenDocument doc = ⟨gapsFrom 0 (ofBlocks doc), render [] (ofBlocks doc)⟩ := by
  cases doc with
  | nil => rfl
  | cons block rest =>
    have more := flattenMore_eq (ofText block) rest
    rw [SpacedText.gapsFrom_ofText, SpacedText.render_ofText] at more
    exact more

theorem breaksFrom_eq (front middle : List Char) (tokens : List SpacedText.Token) :
    breaksFrom (front ++ middle ++ render [] tokens) front.length (gapsFrom (front ++ middle).length tokens) =
      middle ++ render ['\n'] tokens := by
  induction tokens generalizing front middle with
  | nil => simp [gapsFrom, breaksFrom, render]
  | cons token tokens ih =>
    cases token with
    | char c =>
      have next := ih front (middle ++ [c])
      simpa [gapsFrom, render, Nat.add_assoc] using next
    | gap =>
      have next := ih (front ++ middle) []
      simp only [List.append_nil, List.nil_append] at next
      have part : slice (front ++ middle ++ render [] tokens) front.length (front ++ middle).length = middle := by
        rw [slice, List.take_left, List.drop_left]
      simp only [gapsFrom, render, List.nil_append, breaksFrom]
      rw [part, next]
      rfl

theorem withBlockBreaks_eq (tokens : List SpacedText.Token) :
    withBlockBreaks ⟨gapsFrom 0 tokens, render [] tokens⟩ = render ['\n'] tokens :=
  breaksFrom_eq [] [] tokens

/-- An edit of what stands at its place, on one side of every break. -/
structure Sits (flat : FlatDocument) (edit : FlatEdit) : Prop where
  nonempty : edit.start < edit.stop
  length : (slice flat.text edit.start edit.stop).length = edit.stop - edit.start
  unbroken : ∀ offset ∈ flat.breaks, ¬ (edit.start < offset ∧ offset < edit.stop)

def suggestionOf (flat : FlatDocument) (edit : FlatEdit) : Suggestion := ⟨slice flat.text edit.start edit.stop, edit.text⟩

def flatOf (tokens : List SpacedText.Token) : FlatDocument := ⟨gapsFrom 0 tokens, render [] tokens⟩

theorem exists_segment {front tokens : List SpacedText.Token} {edit : FlatEdit} (sits : Sits (flatOf (front ++ tokens)) edit)
    (behind : (render [] front).length ≤ edit.start) :
    ∃ gap rest, tokens = gap ++ ofText (suggestionOf (flatOf (front ++ tokens)) edit).oldText ++ rest ∧
      (render [] (front ++ gap)).length = edit.start ∧
      shiftFor (flatOf (front ++ tokens)).breaks edit.start = (gapsFrom 0 (front ++ gap)).length := by
  obtain ⟨nonempty, length, unbroken⟩ := sits
  have within : edit.stop ≤ (render [] (front ++ tokens)).length := by
    simp only [flatOf, slice, List.length_drop, List.length_take] at length
    omega
  have cutWithin : edit.start - (render [] front).length ≤ (render [] tokens).length := by
    rw [SpacedText.render_append, List.length_append] at within
    omega
  obtain ⟨gap, back, rfl, reached, sharp⟩ := SpacedText.exists_cut cutWithin
  have start : (render [] (front ++ gap)).length = edit.start := by
    rw [SpacedText.render_append, List.length_append]
    omega
  have shift : shiftFor (flatOf (front ++ (gap ++ back))).breaks edit.start = (gapsFrom 0 (front ++ gap)).length := by
    rw [shiftFor, flatOf, ← List.append_assoc, ← start, SpacedText.gaps_before sharp]
  have found : slice (flatOf (front ++ (gap ++ back))).text edit.start edit.stop <+: render [] back := by
    rw [slice, flatOf, ← List.append_assoc, SpacedText.render_append, List.drop_take, ← start, List.drop_left]
    exact List.take_prefix _ _
  have apart : ∀ offset ∈ gapsFrom edit.start back,
      ¬ (edit.start ≤ offset ∧ offset < edit.start + (slice (flatOf (front ++ (gap ++ back))).text edit.start edit.stop).length) := by
    intro offset isIn
    have known : offset ∈ (flatOf (front ++ (gap ++ back))).breaks := by
      rw [flatOf, ← List.append_assoc, SpacedText.gapsFrom_append, Nat.zero_add, start]
      exact List.mem_append_right _ isIn
    have outside := unbroken offset known
    rw [length]
    cases back with
    | nil => cases isIn
    | cons token back =>
      cases token with
      | gap => exact absurd rfl (sharp back)
      | char c =>
        have bounds := @SpacedText.gapsFrom_bounds _ offset back isIn
        omega
  obtain ⟨rest, split⟩ := SpacedText.exists_ofText found apart
  refine ⟨gap, rest, ?_, start, shift⟩
  rw [List.append_assoc]
  exact congrArg (gap ++ ·) split

theorem Disjoint.cons {edit : FlatEdit} {edits : List FlatEdit} (disjoint : Disjoint (edit :: edits)) :
    (∀ other ∈ edits.head?, edit.stop ≤ other.start) ∧ Disjoint edits := by
  cases edits with
  | nil => exact ⟨nofun, List.IsChain.nil⟩
  | cons next edits =>
    obtain ⟨apart, later⟩ := List.isChain_cons_cons.mp disjoint
    refine ⟨?_, later⟩
    rintro _ ⟨⟩
    exact apart

theorem foldr_replaceAt {flat : FlatDocument} {edits : List FlatEdit} {front tokens : List SpacedText.Token}
    (whole : flat = flatOf (front ++ tokens)) (sits : ∀ edit ∈ edits, Sits flat edit) (disjoint : Disjoint edits)
    (behind : ∀ edit ∈ edits.head?, (render [] front).length ≤ edit.start) :
    ∃ segments, before segments = tokens ∧ waiting segments = edits.map (suggestionOf flat) ∧
      edits.foldr (replaceAt flat.breaks) (render ['\n'] (front ++ tokens)) =
        render ['\n'] front ++ render ['\n'] (after segments) := by
  induction edits generalizing front tokens with
  | nil => exact ⟨[.kept tokens], by simp [before], rfl, by simp [after]⟩
  | cons edit edits ih =>
    have here := sits edit List.mem_cons_self
    rw [whole] at here
    obtain ⟨gap, rest, split, start, shift⟩ := exists_segment here (behind edit rfl)
    rw [← whole] at split shift
    let old := (suggestionOf flat edit).oldText
    have tokensEq : front ++ tokens = front ++ gap ++ ofText old ++ rest := by
      rw [split]
      simp [old]
    have stop : (render [] (front ++ gap ++ ofText old)).length = edit.stop := by
      have length := (sits edit List.mem_cons_self).length
      have nonempty := here.nonempty
      rw [SpacedText.render_append, List.length_append, start, SpacedText.render_ofText]
      simp only [old, suggestionOf]
      omega
    obtain ⟨apart, later⟩ := disjoint.cons
    have next : ∀ other ∈ edits.head?, (render [] (front ++ gap ++ ofText old)).length ≤ other.start := by
      rw [stop]
      exact apart
    obtain ⟨segments, same, waits, folded⟩ := @ih (front ++ gap ++ ofText old) rest (tokensEq ▸ whole)
      (fun other isIn => sits other (List.mem_cons_of_mem _ isIn)) later next
    refine ⟨.kept gap :: .pending (suggestionOf flat edit) :: segments, ?_, ?_, ?_⟩
    · rw [split]
      simp [before, same]
    · simp [waiting, waits]
    · have cut : edit.start + shiftFor flat.breaks edit.start = (render ['\n'] (front ++ gap)).length := by
        rw [SpacedText.length_render 0, start, shift, List.length_singleton, Nat.one_mul]
      have cutEnd : edit.stop + shiftFor flat.breaks edit.start = (render ['\n'] (front ++ gap ++ ofText old)).length := by
        have gaps : gapsFrom 0 (front ++ gap ++ ofText old) = gapsFrom 0 (front ++ gap) := by
          rw [SpacedText.gapsFrom_append, SpacedText.gapsFrom_ofText, List.append_nil]
        rw [SpacedText.length_render 0, stop, gaps, shift, List.length_singleton, Nat.one_mul]
      rw [List.foldr_cons, tokensEq, folded]
      simp only [replaceAt]
      rw [cutEnd, cut, List.drop_left, SpacedText.render_append (front ++ gap), List.append_assoc, List.append_assoc,
        List.take_left]
      simp [after, suggestionOf]

theorem indexOfFrom_some {needle text : List Char} {offset found : Nat}
    (located : indexOfFrom needle offset text = some found) : offset ≤ found ∧ needle <+: text.drop (found - offset) := by
  induction text generalizing offset with
  | nil =>
    rw [indexOfFrom] at located
    split at located
    · rename_i empty
      cases located
      exact ⟨Nat.le_refl found, empty ▸ List.nil_prefix⟩
    · cases located
  | cons c text ih =>
    rw [indexOfFrom] at located
    split at located
    · rename_i here
      cases located
      rw [Nat.sub_self]
      exact ⟨Nat.le_refl found, List.isPrefixOf_iff_prefix.mp here⟩
    · obtain ⟨behind, occurs⟩ := ih located
      refine ⟨by omega, ?_⟩
      have further : found - offset = found - (offset + 1) + 1 := by omega
      rw [further]
      exact occurs

theorem indexOfFrom_empty (offset : Nat) (text : List Char) : indexOfFrom [] offset text = some offset := by
  cases text <;> rfl

theorem resolve_fresh {text : List Char} {suggestion : Suggestion} (fresh : (resolveSuggestion text suggestion).stale = false) :
    ∃ start, resolveSuggestion text suggestion = ⟨some start, false, suggestion⟩ ∧
      suggestion.oldText <+: text.drop start ∧ suggestion.oldText ≠ [] := by
  unfold resolveSuggestion at fresh ⊢
  split at fresh
  · cases fresh
  · rename_i first found
    split at fresh
    · cases fresh
    · rename_i only
      obtain ⟨_, occurs⟩ := indexOfFrom_some found
      refine ⟨first, by simp, ?_, ?_⟩
      · simpa using occurs
      · intro empty
        rw [indexOf, empty, indexOfFrom_empty] at only
        cases only

theorem flatEdit_fresh {doc : List (List Char)} {suggestion : Suggestion} {made : Option FlatEdit}
    (fresh : (resolveSuggestion doc.flatten suggestion).stale = false)
    (taken : flatEdit (flattenDocument doc) (resolveSuggestion doc.flatten suggestion) = some made) :
    ∃ edit, made = some edit ∧ Sits (flattenDocument doc) edit ∧ suggestionOf (flattenDocument doc) edit = suggestion := by
  obtain ⟨start, resolved, _, nonempty⟩ := resolve_fresh fresh
  rw [resolved] at taken
  simp only [flatEdit] at taken
  split at taken
  · cases taken
  · rename_i same
    split at taken
    · cases taken
    · rename_i unbroken
      cases taken
      rw [ne_eq, not_not] at same
      have some := List.length_pos_iff.mpr nonempty
      refine ⟨_, rfl, ⟨?_, ?_, ?_⟩, ?_⟩
      · simp only []
        omega
      · simp only [same]
        omega
      · intro offset isIn within
        apply unbroken
        exact List.any_eq_true.mpr ⟨offset, isIn, by simpa using within⟩
      · simp only [suggestionOf, same]

theorem flatEdit_stale {flat : FlatDocument} {entry : ResolvedSuggestion} {made : Option FlatEdit}
    (stale : entry.stale = true) (taken : flatEdit flat entry = some made) : made = none := by
  obtain ⟨start, _, suggestion⟩ := entry
  cases stale
  cases taken
  rfl

theorem edits_of_queue {doc : List (List Char)} {queue : List Suggestion} {found : List (Option FlatEdit)}
    (made : (resolveSuggestions doc queue).mapM (flatEdit (flattenDocument doc)) = some found) :
    (∀ edit ∈ found.filterMap id, Sits (flattenDocument doc) edit) ∧
      (found.filterMap id).map (suggestionOf (flattenDocument doc)) =
        queue.filter fun suggestion => !(resolveSuggestion doc.flatten suggestion).stale := by
  induction queue generalizing found with
  | nil =>
    cases made
    exact ⟨nofun, rfl⟩
  | cons suggestion queue ih =>
    rw [resolveSuggestions, List.map_cons, List.mapM_cons] at made
    obtain ⟨first, taken, others⟩ := Option.bind_eq_some_iff.mp made
    obtain ⟨rest, more, ends⟩ := Option.bind_eq_some_iff.mp others
    cases ends
    obtain ⟨sits, same⟩ := ih more
    cases kind : (resolveSuggestion doc.flatten suggestion).stale with
    | true =>
      obtain rfl := flatEdit_stale kind taken
      rw [List.filter_cons_of_neg (by simp [kind])]
      exact ⟨sits, same⟩
    | false =>
      obtain ⟨edit, rfl, here, its⟩ := flatEdit_fresh kind taken
      rw [List.filter_cons_of_pos (by simp [kind])]
      have kept : (some edit :: rest).filterMap id = edit :: rest.filterMap id := List.filterMap_cons_some rfl
      rw [kept]
      refine ⟨List.forall_mem_cons.mpr ⟨here, sits⟩, ?_⟩
      rw [List.map_cons, its, same]

/-- What the projection shows is the count of the text that accepting all leaves. -/
theorem projectAcceptAll_eq {lower : Markdown → Markdown} {doc : List (List Char)} {queue : List Suggestion}
    {projection : AcceptAllProjection} (projects : projectAcceptAll doc (resolveSuggestions doc queue) = some projection)
    (each : EachOnce lower doc.flatten queue (documentMarkdown doc)) :
    projection.projected = countWords (acceptAll lower doc queue) := by
  obtain ⟨found, made, shown⟩ := Option.bind_eq_some_iff.mp projects
  obtain ⟨sits, suggestions⟩ := edits_of_queue made
  have perm : (sortEdits (found.filterMap id)).Perm (found.filterMap id) := List.perm_insertionSort _ _
  simp only [] at shown
  split at shown
  · cases shown
  · split at shown
    · rename_i disjoint
      cases shown
      have whole : flattenDocument doc = flatOf ([] ++ ofBlocks doc) := flattenDocument_eq doc
      obtain ⟨segments, same, waits, folded⟩ := foldr_replaceAt whole (fun edit isIn => sits edit (perm.subset isIn))
        disjoint fun _ _ => Nat.zero_le _
      have text : documentMarkdown doc = render ['\n', '\n'] (before segments) := by
        rw [same, render_ofBlocks]
        rfl
      have queued : (queue.filter fun suggestion => !(resolveSuggestion doc.flatten suggestion).stale).Perm
          (waiting segments) := by
        rw [waits, ← suggestions]
        exact (perm.map _).symm
      rw [text] at each
      have left : acceptAll lower doc queue = render ['\n', '\n'] (after segments) := by
        rw [acceptAll, text]
        exact foldl_applyOrSkip each (fun _ _ fresh => (resolve_fresh fresh).choose_spec.2.2) queued
      have current : withBlockBreaks (flattenDocument doc) = render ['\n'] ([] ++ ofBlocks doc) := by
        rw [whole]
        exact withBlockBreaks_eq ([] ++ ofBlocks doc)
      rw [left, current, folded]
      change countWords (render ['\n'] (after segments)) = _
      rw [countWords_eq, countWords_eq]
      have one : ∀ c ∈ ['\n'], jsBlank c = true := by simp [jsBlank]
      have two : ∀ c ∈ ['\n', '\n'], jsBlank c = true := by simp [jsBlank]
      exact SpacedText.starts_render one two (List.cons_ne_nil _ _) (List.cons_ne_nil _ _) true (after segments)
    · cases shown

theorem projectAcceptAll_eq_paragraphs : countWords (acceptAll id ["a good dog".toList, "bites".toList]
    [⟨"bites".toList, "sleeps in".toList⟩, ⟨"good ".toList, []⟩]) = 4 := by
  have each : EachOnce id ["a good dog".toList, "bites".toList].flatten
      [⟨"bites".toList, "sleeps in".toList⟩, ⟨"good ".toList, []⟩]
      (documentMarkdown ["a good dog".toList, "bites".toList]) :=
    ⟨by decide +kernel, by decide +kernel, trivial⟩
  have projects : projectAcceptAll ["a good dog".toList, "bites".toList]
      (resolveSuggestions ["a good dog".toList, "bites".toList]
        [⟨"bites".toList, "sleeps in".toList⟩, ⟨"good ".toList, []⟩]) = some ⟨4, 4⟩ := by
    decide +kernel
  exact (projectAcceptAll_eq projects each).symm

/-- The first suggestion writes the second one's text a second time: the server skips that. -/
theorem accept_all_overcounts : ¬ ∀ (lower : Markdown → Markdown) (doc : List (List Char)) (queue : List Suggestion)
    (projection : AcceptAllProjection),
    (∀ suggestion ∈ queue, (resolveSuggestion doc.flatten suggestion).stale = false) →
    projectAcceptAll doc (resolveSuggestions doc queue) = some projection →
    projection.projected = countWords (acceptAll lower doc queue) := by
  intro always
  have fresh : ([⟨"cat".toList, "dog".toList⟩, ⟨"dog".toList, "big old dog".toList⟩] : List Suggestion).all
      (fun suggestion => !(resolveSuggestion ["cat dog".toList].flatten suggestion).stale) = true := by
    decide +kernel
  have projects : projectAcceptAll ["cat dog".toList] (resolveSuggestions ["cat dog".toList]
      [⟨"cat".toList, "dog".toList⟩, ⟨"dog".toList, "big old dog".toList⟩]) = some ⟨2, 4⟩ := by
    decide +kernel
  have left : countWords (acceptAll id ["cat dog".toList]
      [⟨"cat".toList, "dog".toList⟩, ⟨"dog".toList, "big old dog".toList⟩]) = 2 := by
    decide +kernel
  have same := always id _ _ _ (fun suggestion isIn => by simpa using List.all_eq_true.mp fresh suggestion isIn) projects
  rw [left] at same
  cases same

end Counselle.Essays

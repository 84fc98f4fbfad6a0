import Counselle.Turns.VizAgreement

/-! A whole stream: a placer that is fed chunk by chunk shows what the placement of the
whole text shows, as long as every marker's start is ready when the placer comes to it. -/
namespace Counselle.Turns.Viz
open PyText (PyError isSpace)
open Search (find overlap Clear)
variable {S : Type} {specs : List S} {final : Bool} {p q r : Placer S} {later : Chars}

/-- The text behind a marker's start joins the text to come, and a value of digits is an integer to Python. -/
structure Ready (body later : Chars) : Prop where
  joins : Joins body later
  readable : ∀ stop, find markerEnd body = some stop → isDigitText (body.take stop) = true →
    ∃ n, markerInt (body.take stop) = .ok n

def ReadyAt (later : Chars) (p : Placer S) : Prop := ∀ body, p.pending = markerStart ++ body → Ready body later

/-- What is shown from `p` to `q` is what a reading shows of the text that `q` no longer holds. -/
def Carries (specs : List S) (later : Chars) (p q : Placer S) : Prop :=
  ∃ out, shown q.written = shown p.written ++ out ∧ ∀ more after,
    Reads specs (q.pending ++ later) q.emittedIndexes more after →
      Reads specs (p.pending ++ later) p.emittedIndexes (out ++ more) after

theorem Carries.refl (p : Placer S) : Carries specs later p p := ⟨[], by simp, fun _ _ reads => reads⟩

theorem Carries.trans (first : Carries specs later p q) (second : Carries specs later q r) : Carries specs later p r := by
  obtain ⟨out, shows, reads⟩ := first
  obtain ⟨out', shows', reads'⟩ := second
  refine ⟨out ++ out', by rw [shows', shows, List.append_assoc], fun more after isRead => ?_⟩
  rw [List.append_assoc]
  exact reads _ _ (reads' _ _ isRead)

theorem Carries.write {front back : Chars} (whole : p.pending = front ++ back) (clear : Clear markerStart front (back ++ later)) :
    Carries specs later p (emitDelta { p with pending := back } front) := by
  have reads : ∀ more after, Reads specs (back ++ later) p.emittedIndexes more after →
      Reads specs (p.pending ++ later) p.emittedIndexes (front.map .inl ++ more) after := by
    intro more after isRead
    rw [whole, List.append_assoc]
    exact isRead.run clear
  unfold emitDelta
  split
  case isTrue blank => exact ⟨[], by simp, by simpa [blank] using reads⟩
  case isFalse => exact ⟨front.map .inl, by rw [shown_append, shown_delta], reads⟩

theorem turn_carries {result : Turn S} (run : turn specs final p = .ok result) (ready : ReadyAt later p)
    (last : final = true → later = []) : Carries specs later p result.placer := by
  obtain ⟨_, rfl⟩ | ⟨absent, rfl⟩ | ⟨front, back, whole, filled, clear, rfl⟩ |
    ⟨body, whole, ⟨waits, rfl⟩ | ⟨value, rest, card, settled, isCard, rfl⟩⟩ := turn_cases run
  · exact .refl p
  · obtain ⟨front, back, whole, size, same⟩ := emitNonMarkerTail_eq final p
    rw [Turn.placer, same]
    refine .write whole ?_
    cases final with
    | true =>
      rw [last rfl, List.append_nil, List.length_eq_zero_iff.mp size]
      rw [List.length_eq_zero_iff.mp size, List.append_nil] at whole
      rw [← whole]
      exact Search.find_none absent
    | false => exact Search.overlap_clear absent whole size
  · have written : Carries specs later p _ := .write whole (by rw [List.append_assoc]; exact clear.extend)
    rwa [emitDelta, if_neg filled] at written
  · cases final with
    | false => exact .refl p
    | true =>
      rw [last rfl]
      refine ⟨[], by simp [Turn.placer], fun more after isRead => ?_⟩
      have resolved := settle_none waits
      rw [whole, List.append_nil]
      have isCard : cardFor specs p.emittedIndexes (resolve body).1 = .ok none := by
        rw [resolved]
        rfl
      refine .marker isCard ?_
      rw [resolved]
      simpa [Turn.placer, cardIndex] using isRead
  · refine ⟨shown (cardChunk card), shown_append _ _, fun more after isRead => ?_⟩
    have isReady := ready body whole
    rw [whole, List.append_assoc]
    refine .marker ((settle_card settled isReady.joins _).trans isCard) ?_
    rw [(settle_agrees_iff settled later).mpr isReady.joins]
    exact isRead

theorem cardFor_total (specs : List S) (emitted : List Nat) {body rest : Chars} {value : Option Chars} (ready : Ready body later)
    (settled : settle body = some (value, rest)) : ∃ card, cardFor specs emitted value = .ok card := by
  cases found : find markerEnd body with
  | none =>
    obtain ⟨rfl, -, -⟩ := settle_blank found settled
    exact ⟨none, rfl⟩
  | some stop =>
    obtain ⟨rfl, -⟩ := settle_end found settled
    rw [cardFor, cardOf]
    split
    case isTrue digits =>
      obtain ⟨n, isInt⟩ := ready.readable stop found digits
      rw [isInt]
      exact ⟨_, rfl⟩
    case isFalse => exact ⟨none, rfl⟩

theorem turn_total (specs : List S) (final : Bool) (ready : ReadyAt later p) : ∃ result, turn specs final p = .ok result := by
  unfold turn
  split
  case isTrue => exact ⟨_, rfl⟩
  case isFalse =>
    split
    case h_1 => exact ⟨_, rfl⟩
    case h_2 => exact ⟨_, rfl⟩
    case h_3 found =>
      obtain ⟨front, body, whole, size, -⟩ := Search.find_some found
      rw [List.length_eq_zero_iff.mp size, List.nil_append] at whole
      rw [whole, List.drop_left]
      cases settled : settle body with
      | none => exact ⟨_, rfl⟩
      | some turned =>
        obtain ⟨value, rest⟩ := turned
        obtain ⟨card, isCard⟩ := cardFor_total specs p.emittedIndexes (ready body whole) settled
        exact ⟨.again ⟨rest, p.emittedIndexes ++ cardIndex card, p.written ++ cardChunk card⟩, by simp only [isCard]⟩

theorem turn_final (run : turn specs true p = .ok (.stop q)) : q.pending = [] := by
  obtain ⟨blank, same⟩ | ⟨_, same⟩ | ⟨_, _, _, _, _, bad⟩ | ⟨_, _, ⟨_, same⟩ | ⟨_, _, _, _, _, bad⟩⟩ := turn_cases run
  · cases same
    exact blank
  · cases same
    obtain ⟨front, back, _, size, same⟩ := emitNonMarkerTail_eq true p
    rw [same, emitDelta]
    split <;> exact List.length_eq_zero_iff.mp size
  · cases bad
  · cases same
    rfl
  · cases bad

/-- `q` is a state that the loop passes through from `p`. -/
def Visits (specs : List S) (final : Bool) : Placer S → Placer S → Prop :=
  Relation.ReflTransGen fun a b => turn specs final a = .ok (.again b)

theorem drainPending_carries (ready : ∀ q, Visits specs final p q → ReadyAt later q) (last : final = true → later = []) :
    ∃ q, drainPending specs final p = .ok q ∧ Carries specs later p q ∧ (final = true → q.pending = []) := by
  induction p using drainPending.induct specs final with
  | case1 p e isError =>
    obtain ⟨result, here⟩ := turn_total specs final (ready p .refl)
    rw [isError] at here
    cases here
  | case2 p stopped here =>
    refine ⟨stopped, drainPending_ok.mpr (.inl here), turn_carries here (ready p .refl) last, fun isLast => ?_⟩
    subst isLast
    exact turn_final here
  | case3 p next here ih =>
    obtain ⟨q, isDrained, carries, clears⟩ := ih fun q visits => ready q (.head here visits)
    exact ⟨q, drainPending_ok.mpr (.inr ⟨next, here, isDrained⟩), (turn_carries here (ready p .refl) last).trans carries, clears⟩

/-- In the run over these chunks every marker's start is ready when the placer comes to it. -/
def AlwaysReady (specs : List S) : Placer S → List Chars → Prop
  | p, [] => ∀ q, Visits specs true p q → ReadyAt [] q
  | p, chunk :: rest =>
    (∀ q, Visits specs false { p with pending := p.pending ++ chunk } q → ReadyAt rest.flatten q) ∧
      ∀ q, feed specs p chunk = .ok q → AlwaysReady specs q rest

theorem feed_carries {chunk : Chars} (ready : ∀ q, Visits specs false { p with pending := p.pending ++ chunk } q → ReadyAt later q) :
    ∃ q, feed specs p chunk = .ok q ∧ ∃ out, shown q.written = shown p.written ++ out ∧ ∀ more after,
      Reads specs (q.pending ++ later) q.emittedIndexes more after →
        Reads specs (p.pending ++ (chunk ++ later)) p.emittedIndexes (out ++ more) after := by
  by_cases blank : chunk = []
  · refine ⟨p, by rw [feed, if_pos blank], [], by simp, fun more after isRead => ?_⟩
    rwa [blank]
  · obtain ⟨q, isDrained, ⟨out, shows, reads⟩, -⟩ := drainPending_carries ready nofun
    refine ⟨q, by rw [feed, if_neg blank, isDrained], out, shows, fun more after isRead => ?_⟩
    rw [← List.append_assoc]
    exact reads more after isRead

theorem chunks_carry {chunks : List Chars} (ready : AlwaysReady specs p chunks) :
    ∃ q r out, chunks.foldlM (feed specs) p = .ok q ∧ drainPending specs true q = .ok r ∧
      shown r.written = shown p.written ++ out ∧
      Reads specs (p.pending ++ chunks.flatten) p.emittedIndexes out r.emittedIndexes := by
  induction chunks generalizing p with
  | nil =>
    obtain ⟨r, isDrained, ⟨out, shows, reads⟩, clears⟩ := drainPending_carries ready fun _ => rfl
    refine ⟨p, r, out, rfl, isDrained, shows, ?_⟩
    have isRead := reads [] r.emittedIndexes (by rw [clears rfl]; exact .done _)
    simpa using isRead
  | cons chunk rest ih =>
    obtain ⟨here, there⟩ := ready
    obtain ⟨q, isFed, out, shows, reads⟩ := feed_carries here
    obtain ⟨q', r, out', isRun, isDrained, shows', isRead⟩ := ih (there q isFed)
    refine ⟨q', r, out ++ out', ?_, isDrained, by rw [shows', shows, List.append_assoc], reads _ _ isRead⟩
    rw [List.foldlM_cons, isFed]
    exact isRun

/-- Prose of a text in which no character is kept where a marker starts. -/
inductive Kept : Chars → Chars → Prop where
  | done : Kept [] []
  | keep {c : Char} {rest out : Chars} (other : ¬ markerStart <+: c :: rest) (later : Kept rest out) : Kept (c :: rest) (c :: out)
  | drop {c : Char} {rest out : Chars} (later : Kept rest out) : Kept (c :: rest) out

theorem Kept.dropAll {front back out : Chars} (kept : Kept back out) : Kept (front ++ back) out := by
  induction front with
  | nil => exact kept
  | cons c front ih => exact .drop ih

theorem resolve_suffix (body : Chars) : (resolve body).2 <:+ body := by
  unfold resolve
  split
  case h_1 =>
    split
    · exact List.dropWhile_suffix _
    · exact (List.dropWhile_suffix _).trans (List.drop_suffix _ _)
  case h_2 => exact List.dropWhile_suffix _

theorem kept_of_reads {text : Chars} {emitted after : List Nat} {out : List (Char ⊕ S)}
    (reads : Reads specs text emitted out after) : Kept text (prose out) := by
  induction reads with
  | done => exact .done
  | prose other _ ih => exact .keep other ih
  | @marker body _ _ card _ _ _ ih =>
    obtain ⟨front, whole⟩ := resolve_suffix body
    have noProse : prose (shown (cardChunk card)) = [] := by cases card <;> rfl
    rw [prose_append, noProse, List.nil_append, ← whole, ← List.append_assoc]
    exact ih.dropAll

/-- The stream does not raise, shows what the placement of the whole text shows, lets no marker through as prose,
whole or put together from chunks, and shows each spec once. -/
def Faithful (specs : List S) (chunks : List Chars) : Prop :=
  ∃ written placed, streamed specs chunks = .ok written ∧ chunksFromVizMarkers chunks.flatten specs = .ok placed ∧
    shown written = shown placed ∧
    (∀ text, .delta text ∈ written → find markerStart text = none) ∧
    Kept chunks.flatten (prose (shown written)) ∧
    (cards (shown written)).Perm specs

theorem prose_fallback (emitted : List Nat) : prose (shown (fallback specs emitted)) = [] := by
  unfold fallback
  generalize (List.range specs.length).filter (· ∉ emitted) = left
  induction left with
  | nil => rfl
  | cons index left ih =>
    cases here : specs[index]? with
    | none => simpa [here] using ih
    | some spec =>
      simp only [List.filterMap_cons, here, Option.map_some]
      exact ih

theorem chunks_sound {chunks : List Chars} (run : chunks.foldlM (feed specs) p = .ok q) (sound : Sound specs p) : Sound specs q := by
  induction chunks generalizing p with
  | nil =>
    cases run
    exact sound
  | cons chunk rest ih =>
    rw [List.foldlM_cons] at run
    obtain ⟨r, isFed, isRun⟩ := Fallible.bind_ok_iff.mp run
    exact ih isRun (feed_sound isFed sound)

/-- A stream in which every marker's start is ready is faithful. -/
theorem streamed_faithful (specs : List S) (chunks : List Chars) (ready : AlwaysReady specs .fresh chunks) : Faithful specs chunks := by
  obtain ⟨q, r, out, isRun, isDrained, shows, isRead⟩ := chunks_carry ready
  obtain ⟨placed, isPlaced, placedShows⟩ := chunksFromVizMarkers_reads isRead
  have flushed : flush specs q = .ok { r with
      emittedIndexes := r.emittedIndexes ++ (List.range specs.length).filter (· ∉ r.emittedIndexes)
      written := r.written ++ fallback specs r.emittedIndexes } := by
    rw [flush, isDrained]
    rfl
  have isStreamed : streamed specs chunks = .ok (r.written ++ fallback specs r.emittedIndexes) := by
    rw [streamed, isRun]
    simp only [bind, Except.bind, flushed]
    rfl
  obtain ⟨once, clean⟩ := flush_cards flushed (chunks_sound isRun .fresh)
  have same : shown (r.written ++ fallback specs r.emittedIndexes) = out ++ shown (fallback specs r.emittedIndexes) := by
    rw [shown_append, shows]
    rfl
  refine ⟨_, placed, isStreamed, isPlaced, same.trans placedShows.symm, clean, ?_, once⟩
  rw [same, prose_append, prose_fallback, List.append_nil]
  exact kept_of_reads isRead

theorem visits_stop (here : turn specs final p = .ok (.stop r)) (ready : ReadyAt later p) :
    ∀ q, Visits specs final p q → ReadyAt later q := by
  intro q visits
  obtain rfl | ⟨s, there, -⟩ := Relation.ReflTransGen.cases_head visits
  · exact ready
  · rw [here] at there
    cases there

theorem visits_again (here : turn specs final p = .ok (.again r)) (ready : ReadyAt later p)
    (rest : ∀ q, Visits specs final r q → ReadyAt later q) : ∀ q, Visits specs final p q → ReadyAt later q := by
  intro q visits
  obtain rfl | ⟨s, there, visits⟩ := Relation.ReflTransGen.cases_head visits
  · exact ready
  · rw [here] at there
    cases there
    exact rest q visits

theorem readyAt_of_other (other : ¬ markerStart <+: p.pending) : ReadyAt later p :=
  fun _ whole => absurd (whole ▸ List.prefix_append _ _) other

theorem readyAt_of_ready {body : Chars} (whole : p.pending = markerStart ++ body) (ready : Ready body later) : ReadyAt later p := by
  intro body' whole'
  rwa [← List.append_cancel_left (whole.symm.trans whole')]

/-- A marker that two chunks share. -/
theorem splitMarker_faithful : AlwaysReady [()] .fresh ["a[[viz:".toList, "1]] b".toList] ∧
    Faithful [()] ["a[[viz:".toList, "1]] b".toList] := by
  have waiting : ∀ later, Ready [] later := fun later => ⟨fun bad => absurd bad (by simp), nofun⟩
  have ends : ∀ later, Ready "1]] b".toList later := by
    intro later
    refine ⟨?_, fun stop found _ => by cases found; exact ⟨1, rfl⟩⟩
    have found : find markerEnd "1]] b".toList = some 1 := rfl
    have single : ¬ (find markerStart "1]] b".toList).any (· < 1) = true := by decide
    simp only [Joins, found, if_neg single]
    exact fun bad => absurd bad (by decide)
  have ready : AlwaysReady [()] .fresh ["a[[viz:".toList, "1]] b".toList] := by
    refine ⟨?_, fun q isFed => ?_⟩
    · refine visits_again (r := ⟨markerStart, [], [.delta ['a']]⟩) rfl (readyAt_of_other (by decide)) ?_
      exact visits_stop (r := ⟨markerStart, [], [.delta ['a']]⟩) rfl (readyAt_of_ready rfl (waiting _))
    have isHeld : q = ⟨markerStart, [], [.delta ['a']]⟩ := by
      have run : (feed [()] .fresh "a[[viz:".toList).toOption = some ⟨markerStart, [], [.delta ['a']]⟩ := by decide +kernel
      rw [isFed] at run
      exact Option.some.inj run
    subst isHeld
    refine ⟨?_, fun q isFed => ?_⟩
    · refine visits_again (r := ⟨" b".toList, [0], [.delta ['a'], .viz ()]⟩) rfl (readyAt_of_ready rfl (ends _)) ?_
      exact visits_stop (r := ⟨[], [0], [.delta ['a'], .viz (), .delta " b".toList]⟩) rfl (readyAt_of_other (by decide))
    have isHeld : q = ⟨[], [0], [.delta ['a'], .viz (), .delta " b".toList]⟩ := by
      have run : (feed [()] ⟨markerStart, [], [.delta ['a']]⟩ "1]] b".toList).toOption =
          some ⟨[], [0], [.delta ['a'], .viz (), .delta " b".toList]⟩ := by decide +kernel
      rw [isFed] at run
      exact Option.some.inj run
    subst isHeld
    exact visits_stop (r := ⟨[], [0], [.delta ['a'], .viz (), .delta " b".toList]⟩) rfl (readyAt_of_other (by decide))
  exact ⟨ready, streamed_faithful _ _ ready⟩

/-- A closing bracket too many, in a chunk of its own, becomes prose. -/
theorem lateBracket_notFaithful : ¬ Faithful [()] ["[[viz:1]]".toList, "]x".toList] := by
  rintro ⟨written, placed, isStreamed, isPlaced, same, -⟩
  have stream : (streamed [()] ["[[viz:1]]".toList, "]x".toList]).toOption.map shown = some [.inr (), .inl ']', .inl 'x'] := by
    decide +kernel
  have whole : (chunksFromVizMarkers ["[[viz:1]]".toList, "]x".toList].flatten [()]).toOption.map shown = some [.inr (), .inl 'x'] := by
    decide +kernel
  rw [isStreamed, Except.toOption, Option.map_some, same] at stream
  rw [isPlaced, Except.toOption, Option.map_some, stream] at whole
  exact absurd whole (by decide)

end Counselle.Turns.Viz

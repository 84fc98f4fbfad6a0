import Counselle.Turns.VizPlacement

/-! `_StreamingVizMarkerPlacer` of `app/agent_node.py`: the same placement while the text
is still coming in. -/
namespace Counselle.Turns.Viz
open PyText (PyError isSpace)
open Search (find overlap Clear)
variable {S : Type}

structure Placer (S : Type) where
  pending : Chars
  emittedIndexes : List Nat
  written : List (Emission S)
  deriving DecidableEq

def Placer.fresh : Placer S := ⟨[], [], []⟩

def firstWhitespaceIndex (text : Chars) : Option Nat := text.findIdx? isSpace

def emitDelta (p : Placer S) (text : Chars) : Placer S :=
  if text = [] then p else { p with written := p.written ++ [.delta text] }

/-- `_emit_non_marker_tail`: the end of the text stays back while it may still begin a marker. -/
def emitNonMarkerTail (final : Bool) (p : Placer S) : Placer S :=
  let keepLen := if final then 0 else overlap markerStart p.pending
  let cut := p.pending.length - keepLen
  emitDelta { p with pending := p.pending.drop cut } (p.pending.take cut)

/-- What a marker's start begins, as far as the text has come; nothing while it has to wait. -/
def settle (body : Chars) : Option (Option Chars × Chars) :=
  match find markerEnd body with
  | some stop => some (some (body.take stop), markerJunkEnd (body.drop (stop + markerEnd.length)))
  | none => (firstWhitespaceIndex body).map fun index => (none, body.drop index)

inductive Turn (S : Type) where
  | stop (p : Placer S)
  | again (p : Placer S)

def Turn.placer : Turn S → Placer S
  | .stop p | .again p => p

/-- One turn of the loop of `_drain_pending`. -/
def turn (specs : List S) (final : Bool) (p : Placer S) : Except PyError (Turn S) :=
  if p.pending = [] then .ok (.stop p)
  else
    match find markerStart p.pending with
    | none => .ok (.stop (emitNonMarkerTail final p))
    | some (before + 1) =>
      .ok (.again { emitDelta p (p.pending.take (before + 1)) with pending := p.pending.drop (before + 1) })
    | some 0 =>
      match settle (p.pending.drop markerStart.length) with
      | none => .ok (.stop (if final then { p with pending := [] } else p))
      | some (value, rest) =>
        match cardFor specs p.emittedIndexes value with
        | .error e => .error e
        | .ok card => .ok (.again ⟨rest, p.emittedIndexes ++ cardIndex card, p.written ++ cardChunk card⟩)

theorem settle_length_le {body rest : Chars} {value : Option Chars} (settled : settle body = some (value, rest)) :
    rest.length ≤ body.length := by
  unfold settle at settled
  split at settled
  case h_1 =>
    cases settled
    refine (dropWhile_length_le _ _).trans ?_
    rw [List.length_drop]
    exact Nat.sub_le _ _
  case h_2 =>
    obtain ⟨index, _, same⟩ := Option.map_eq_some_iff.mp settled
    cases same
    rw [List.length_drop]
    exact Nat.sub_le _ _

theorem turn_cases {specs : List S} {final : Bool} {p : Placer S} {result : Turn S} (run : turn specs final p = .ok result) :
    (p.pending = [] ∧ result = .stop p) ∨
    (find markerStart p.pending = none ∧ result = .stop (emitNonMarkerTail final p)) ∨
    (∃ front back, p.pending = front ++ (markerStart ++ back) ∧ front ≠ [] ∧ Clear markerStart front (markerStart ++ back) ∧
      result = .again { p with pending := markerStart ++ back, written := p.written ++ [.delta front] }) ∨
    ∃ body, p.pending = markerStart ++ body ∧
      ((settle body = none ∧ result = .stop (if final then { p with pending := [] } else p)) ∨
        ∃ value rest card, settle body = some (value, rest) ∧ cardFor specs p.emittedIndexes value = .ok card ∧
          result = .again ⟨rest, p.emittedIndexes ++ cardIndex card, p.written ++ cardChunk card⟩) := by
  unfold turn at run
  split at run
  case isTrue blank => exact .inl ⟨blank, (Except.ok.inj run).symm⟩
  case isFalse =>
    split at run
    case h_1 absent => exact .inr (.inl ⟨absent, (Except.ok.inj run).symm⟩)
    case h_2 before found =>
      obtain ⟨front, back, whole, size, clear⟩ := Search.find_some found
      rw [List.append_assoc] at whole
      rw [Nat.succ_eq_add_one] at size
      have filled : front ≠ [] := List.ne_nil_of_length_eq_add_one size
      refine .inr (.inr (.inl ⟨front, back, whole, filled, clear, ?_⟩))
      rw [whole, ← size, List.take_left, List.drop_left, emitDelta, if_neg filled] at run
      exact (Except.ok.inj run).symm
    case h_3 found =>
      obtain ⟨front, body, whole, size, -⟩ := Search.find_some found
      rw [List.length_eq_zero_iff.mp size, List.nil_append] at whole
      rw [whole, List.drop_left] at run
      refine .inr (.inr (.inr ⟨body, whole, ?_⟩))
      split at run
      case h_1 waits => exact .inl ⟨waits, (Except.ok.inj run).symm⟩
      case h_2 value rest settled =>
        split at run
        case h_1 => cases run
        case h_2 card isCard => exact .inr ⟨value, rest, card, settled, isCard, (Except.ok.inj run).symm⟩

theorem turn_shortens {specs : List S} {final : Bool} {p q : Placer S} (run : turn specs final p = .ok (.again q)) :
    q.pending.length < p.pending.length := by
  obtain ⟨_, bad⟩ | ⟨_, bad⟩ | ⟨front, back, whole, filled, _, same⟩ | ⟨body, whole, ⟨_, bad⟩ | ⟨value, rest, card, settled, _, same⟩⟩ :=
    turn_cases run
  · cases bad
  · cases bad
  · cases same
    have := List.length_pos_of_ne_nil filled
    rw [whole]
    simp only [List.length_append]
    omega
  · cases bad
  · cases same
    have := settle_length_le settled
    rw [whole]
    simp only [List.length_append, markerStart, List.length_cons]
    omega

def drainPending (specs : List S) (final : Bool) (p : Placer S) : Except PyError (Placer S) :=
  match _run : turn specs final p with
  | .error e => .error e
  | .ok (.stop q) => .ok q
  | .ok (.again q) => drainPending specs final q
  termination_by p.pending.length
  decreasing_by exact turn_shortens _run

def feed (specs : List S) (p : Placer S) (text : Chars) : Except PyError (Placer S) :=
  if text = [] then .ok p else drainPending specs false { p with pending := p.pending ++ text }

/-- `flush` with `emit_fallback` -/
def flush (specs : List S) (p : Placer S) : Except PyError (Placer S) :=
  (drainPending specs true p).map fun q =>
    { q with
      emittedIndexes := q.emittedIndexes ++ (List.range specs.length).filter (· ∉ q.emittedIndexes)
      written := q.written ++ fallback specs q.emittedIndexes }

/-- What is written when a text comes in as these chunks. -/
def streamed (specs : List S) (chunks : List Chars) : Except PyError (List (Emission S)) := do
  let p ← chunks.foldlM (feed specs) .fresh
  let q ← flush specs p
  return q.written

end Counselle.Turns.Viz

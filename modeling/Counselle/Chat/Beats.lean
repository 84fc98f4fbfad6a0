import Mathlib.Data.List.Induction
import Mathlib.Data.List.Basic
import Mathlib.Algebra.Order.Group.Nat
import Mathlib.Algebra.Ring.Nat

/-! The shape of a reduced turn: what each event adds to the segments, without
the data that later events merge in place. A replay plays only the beats that
were persisted; when the two runs show the same is decided beat by beat. -/
namespace Counselle.Chat

/-- What one event does to the segments, once later frames of a step or of a user
message are told from the first one. -/
inductive Beat where
  | answer (text : String)
  | thinking (text : String)
  | narration (text : String)
  | user (id : String)
  | tool (id : String)
  | viz (spec : String)
  | clarify (spec : String)
  /-- a viz whose signature was seen before -/
  | muted
  | silent
deriving DecidableEq, Repr

inductive Shape where
  | answer (text : String)
  | thinking (text : String)
  | narration (text : String)
  | user (id : String)
  | tool (id : String)
  | viz (spec : String)
  | clarify (spec : String)
deriving DecidableEq, Repr

structure Stage where
  shapes : List Shape
  lastThinking : Bool
deriving DecidableEq, Repr

def addAnswer (shapes : List Shape) (text : String) : List Shape :=
  match shapes with
  | .answer before :: rest => .answer (before ++ text) :: rest
  | shapes => .answer text :: shapes

def addThinking (shapes : List Shape) (coalesce : Bool) (text : String) : List Shape :=
  match coalesce, shapes with
  | true, .thinking before :: rest => .thinking (before ++ "\n\n" ++ text) :: rest
  | _, shapes => .thinking text :: shapes

def playStep (stage : Stage) : Beat → Stage
  | .answer text => ⟨addAnswer stage.shapes text, false⟩
  | .thinking text => ⟨addThinking stage.shapes stage.lastThinking text, true⟩
  | .narration text => ⟨.narration text :: stage.shapes, false⟩
  | .user id => ⟨.user id :: stage.shapes, false⟩
  | .tool id => ⟨.tool id :: stage.shapes, false⟩
  | .viz spec => ⟨.viz spec :: stage.shapes, false⟩
  | .clarify spec => ⟨.clarify spec :: stage.shapes, false⟩
  | .muted => ⟨stage.shapes, false⟩
  | .silent => ⟨stage.shapes, false⟩

def play (beats : List Beat) : Stage := beats.foldl playStep ⟨[], false⟩

@[simp] theorem play_nil : play [] = ⟨[], false⟩ := rfl

@[simp] theorem play_snoc (beats : List Beat) (beat : Beat) :
    play (beats ++ [beat]) = playStep (play beats) beat := by
  simp [play]

/-- The beats with a segment in the record; `injected` says which user messages
end up injected. -/
def persisted (injected : String → Bool) : Beat → Bool
  | .answer text => text != ""
  | .thinking text => text != ""
  | .narration text => text != ""
  | .user id => injected id
  | .silent => false
  | _ => true

/-- The beats that leave a segment behind which later prose does not extend, and
the prose that does get extended. -/
def solid : Beat → Bool
  | .answer text => text != ""
  | .muted => false
  | .silent => false
  | _ => true

def lastSolid (beats : List Beat) : Option Beat := (beats.filter solid).getLast?

def EndsThinking (beats : List Beat) : Prop := ∃ text, beats.getLast? = some (.thinking text)

def EndsAnswering (beats : List Beat) : Prop := ∃ text, lastSolid beats = some (.answer text)

/-- The beat behind `before` joins what precedes it in the live run exactly when
it does so among the persisted beats, and joins nothing to an empty text. -/
def Joins (injected : String → Bool) (before : List Beat) : Beat → Prop
  | .thinking text =>
    (∀ last, before.getLast? = some (.thinking last) → last ≠ "" ∧ text ≠ "") ∧
      (text ≠ "" → EndsThinking (before.filter (persisted injected)) → EndsThinking before)
  | .answer text =>
    text ≠ "" → EndsAnswering (before.filter (persisted injected)) → EndsAnswering before
  | _ => True

def AllJoin (injected : String → Bool) (beats : List Beat) : Prop :=
  ∀ before beat after, beats = before ++ beat :: after → Joins injected before beat

theorem allJoin_snoc {injected : String → Bool} {beats : List Beat} {beat : Beat} :
    AllJoin injected (beats ++ [beat]) ↔ AllJoin injected beats ∧ Joins injected beats beat := by
  constructor
  · intro all
    constructor
    · rintro before x after rfl
      exact all before x (after ++ [beat]) (by simp)
    · exact all beats beat [] rfl
  · rintro ⟨all, last⟩ before x after split
    rcases List.eq_nil_or_concat' after with rfl | ⟨after, y, rfl⟩
    · have same := List.append_inj' split rfl
      obtain ⟨rfl, head⟩ := same
      cases head
      exact last
    · have whole : beats ++ [beat] = (before ++ x :: after) ++ [y] := by simp [split]
      exact all before x after (List.append_inj' whole rfl).1

theorem lastSolid_snoc (beats : List Beat) (beat : Beat) :
    lastSolid (beats ++ [beat]) = if solid beat then some beat else lastSolid beats := by
  unfold lastSolid
  rw [List.filter_append]
  split
  case isTrue isSolid => simp [isSolid]
  case isFalse soft => simp [soft]

theorem endsThinking_snoc (beats : List Beat) (beat : Beat) :
    EndsThinking (beats ++ [beat]) ↔ ∃ text, beat = .thinking text := by
  simp [EndsThinking]

theorem endsAnswering_snoc (beats : List Beat) (beat : Beat) :
    EndsAnswering (beats ++ [beat]) ↔
      if solid beat then ∃ text, beat = .answer text else EndsAnswering beats := by
  unfold EndsAnswering
  rw [lastSolid_snoc]
  split <;> simp

attribute [local simp] playStep solid addThinking

def OpenAnswer (shapes : List Shape) (text : String) (rest : List Shape) : Prop :=
  shapes = .answer text :: rest ∧ text ≠ ""

theorem append_ne_empty_left {a b : String} (nonempty : a ≠ "") : a ++ b ≠ "" := by
  intro empty
  exact nonempty (String.append_eq_empty_iff.mp empty).1

theorem append_ne_empty_right {a b : String} (nonempty : b ≠ "") : a ++ b ≠ "" := by
  intro empty
  exact nonempty (String.append_eq_empty_iff.mp empty).2

theorem endsAnswering_iff (beats : List Beat) :
    EndsAnswering beats ↔ ∃ text rest, OpenAnswer (play beats).shapes text rest := by
  induction beats using List.reverseRecOn with
  | nil => simp [EndsAnswering, lastSolid, OpenAnswer]
  | append_singleton beats beat ih =>
    rw [endsAnswering_snoc, play_snoc]
    cases beat with
    | answer text =>
      by_cases empty : text = ""
      · subst empty
        simp only [solid, bne_self_eq_false, Bool.false_eq_true, if_false, playStep]
        rw [ih]
        cases shapes : (play beats).shapes with
        | nil => simp [OpenAnswer, addAnswer]
        | cons head rest => cases head <;> simp [OpenAnswer, addAnswer]
      · have isSolid : solid (.answer text) = true := by simp [solid, empty]
        simp only [isSolid, if_true, playStep]
        refine iff_of_true ⟨text, rfl⟩ ?_
        cases shapes : (play beats).shapes with
        | nil => exact ⟨text, [], rfl, empty⟩
        | cons head rest =>
          cases head with
          | answer before => exact ⟨before ++ text, rest, rfl, append_ne_empty_right empty⟩
          | _ => exact ⟨text, _, rfl, empty⟩
    | thinking text =>
      simp only [solid, if_true, playStep]
      refine iff_of_false (by simp) ?_
      rintro ⟨text', rest, same, _⟩
      unfold addThinking at same
      split at same <;> cases same
    | muted =>
      simp only [solid, Bool.false_eq_true, if_false, playStep]
      exact ih
    | silent =>
      simp only [solid, Bool.false_eq_true, if_false, playStep]
      exact ih
    | _ => simp [solid, playStep, OpenAnswer]

theorem endsThinking_iff (beats : List Beat) :
    EndsThinking beats ↔ (play beats).lastThinking = true := by
  rcases List.eq_nil_or_concat' beats with rfl | ⟨beats, beat, rfl⟩
  · simp [EndsThinking]
  · rw [endsThinking_snoc, play_snoc]
    cases beat <;> simp [playStep]

theorem lastThinking_shapes {beats : List Beat} (thinking : (play beats).lastThinking = true) :
    ∃ text rest, (play beats).shapes = .thinking text :: rest := by
  rcases List.eq_nil_or_concat' beats with rfl | ⟨beats, beat, rfl⟩
  · simp at thinking
  · rw [play_snoc] at thinking ⊢
    cases beat with
    | thinking text =>
      simp only [playStep, addThinking]
      split <;> exact ⟨_, _, rfl⟩
    | _ => simp [playStep] at thinking

theorem endsThinking_head {beats : List Beat} {last : String}
    (ends : beats.getLast? = some (.thinking last)) :
    ∃ text rest, (play beats).shapes = .thinking text :: rest ∧ (last ≠ "" → text ≠ "") := by
  rcases List.eq_nil_or_concat' beats with rfl | ⟨beats, beat, rfl⟩
  · simp at ends
  · simp only [List.getLast?_concat, Option.some.injEq] at ends
    subst ends
    rw [play_snoc]
    simp only [playStep, addThinking]
    split
    · exact ⟨_, _, rfl, fun nonempty => append_ne_empty_right nonempty⟩
    · exact ⟨_, _, rfl, id⟩

variable {weight : String → Nat} {injected : String → Bool}

/-- A segment with text is seen if the text is not empty, a user message if it weighs. -/
def visible (weight : String → Nat) : Shape → Bool
  | .answer text => text != ""
  | .thinking text => text != ""
  | .narration text => text != ""
  | .user id => weight id != 0
  | _ => true

def seen (weight : String → Nat) (shapes : List Shape) : List Shape :=
  shapes.filter (visible weight)

/-- Three for a seen segment and one for each character of its text: splitting
one off costs more than the two characters that join two thinking texts. -/
def shapeMass (weight : String → Nat) : Shape → Nat
  | .answer text => if text = "" then 0 else text.length + 3
  | .thinking text => if text = "" then 0 else text.length + 3
  | .narration text => if text = "" then 0 else text.length + 3
  | .user id => weight id
  | _ => 3

def mass (weight : String → Nat) (shapes : List Shape) : Nat :=
  (shapes.map (shapeMass weight)).sum

@[simp] theorem mass_cons (shape : Shape) (shapes : List Shape) :
    mass weight (shape :: shapes) = shapeMass weight shape + mass weight shapes := rfl

@[simp] theorem seen_nil : seen weight [] = [] := rfl

theorem seen_cons (shape : Shape) (shapes : List Shape) :
    seen weight (shape :: shapes) =
      if visible weight shape then shape :: seen weight shapes else seen weight shapes :=
  List.filter_cons

theorem mass_seen (shapes : List Shape) : mass weight (seen weight shapes) = mass weight shapes := by
  induction shapes with
  | nil => rfl
  | cons shape shapes ih =>
    rw [seen_cons, mass_cons]
    split
    · rw [mass_cons, ih]
    case isFalse hidden =>
      rw [ih]
      cases shape <;> simp_all [visible, shapeMass]

attribute [local simp] visible shapeMass addAnswer

theorem addAnswer_empty (shapes : List Shape) :
    seen weight (addAnswer shapes "") = seen weight shapes ∧
      mass weight (addAnswer shapes "") = mass weight shapes := by
  cases shapes with
  | nil => simp [addAnswer, seen_cons, visible, shapeMass]
  | cons head rest => cases head <;> simp [addAnswer, seen_cons, visible, shapeMass]

theorem addAnswer_split {shapes : List Shape} {text : String} (nonempty : text ≠ "")
    (split : ¬ ∃ before rest, OpenAnswer shapes before rest) :
    seen weight (addAnswer shapes text) = .answer text :: seen weight shapes ∧
      mass weight (addAnswer shapes text) = text.length + 3 + mass weight shapes := by
  cases shapes with
  | nil => simp [addAnswer, seen_cons, visible, shapeMass, nonempty]
  | cons head rest =>
    cases head with
    | answer before =>
      have empty : before = "" := by
        by_contra open'
        exact split ⟨before, rest, rfl, open'⟩
      subst empty
      simp [addAnswer, seen_cons, visible, shapeMass, nonempty]
    | _ => simp [addAnswer, seen_cons, visible, shapeMass, nonempty]

theorem addAnswer_join (weight : String → Nat) {shapes rest : List Shape} {before text : String} (nonempty : text ≠ "")
    (join : OpenAnswer shapes before rest) :
    seen weight shapes = .answer before :: seen weight rest ∧
      seen weight (addAnswer shapes text) = .answer (before ++ text) :: seen weight rest ∧
      mass weight (addAnswer shapes text) = text.length + mass weight shapes := by
  obtain ⟨rfl, open'⟩ := join
  have longer := append_ne_empty_right (a := before) nonempty
  simp only [addAnswer, seen_cons, visible, mass_cons, shapeMass, bne_iff_ne, ne_eq, open',
    longer, not_false_eq_true, if_true, if_false, String.length_append, true_and]
  omega

theorem addThinking_join {rest : List Shape} {before text : String} :
    seen weight (addThinking (.thinking before :: rest) true text) =
        .thinking (before ++ "\n\n" ++ text) :: seen weight rest ∧
      mass weight (addThinking (.thinking before :: rest) true text) =
        before.length + 2 + text.length + 3 + mass weight rest := by
  have longer : before ++ "\n\n" ++ text ≠ "" := by
    rw [String.append_assoc]
    exact append_ne_empty_right (append_ne_empty_left (by decide))
  have two : "\n\n".length = 2 := by decide
  simp only [addThinking, seen_cons, visible, mass_cons, shapeMass, bne_iff_ne, ne_eq, longer,
    not_false_eq_true, if_true, if_false, String.length_append, two, and_self]

theorem addThinking_split {shapes : List Shape} {text : String} (nonempty : text ≠ "") :
    seen weight (addThinking shapes false text) = .thinking text :: seen weight shapes ∧
      mass weight (addThinking shapes false text) = text.length + 3 + mass weight shapes := by
  simp [addThinking, seen_cons, visible, shapeMass, nonempty]

theorem addThinking_empty (shapes : List Shape) :
    seen weight (addThinking shapes false "") = seen weight shapes ∧
      mass weight (addThinking shapes false "") = mass weight shapes := by
  simp [addThinking, seen_cons, visible, shapeMass]

theorem getLast?_filter {α : Type} {p : α → Bool} {items : List α} {last : α}
    (ends : items.getLast? = some last) (kept : p last = true) :
    (items.filter p).getLast? = some last := by
  rcases List.eq_nil_or_concat' items with rfl | ⟨items, item, rfl⟩
  · simp at ends
  · simp only [List.getLast?_concat, Option.some.injEq] at ends
    simp [ends, kept]

theorem solid_persisted {text : String} (isSolid : solid (.answer text) = true) :
    persisted injected (.answer text) = true := isSolid

theorem EndsAnswering.persisted {beats : List Beat} (ends : EndsAnswering beats) :
    EndsAnswering (beats.filter (persisted injected)) := by
  obtain ⟨text, last⟩ := ends
  have isSolid := (List.mem_filter.mp (List.mem_of_getLast? last)).2
  refine ⟨text, ?_⟩
  show ((beats.filter _).filter solid).getLast? = _
  rw [List.filter_comm]
  exact getLast?_filter last (solid_persisted isSolid)

theorem EndsThinking.persisted (injected : String → Bool) {beats : List Beat} {text : String}
    (ends : beats.getLast? = some (.thinking text)) (nonempty : text ≠ "") :
    EndsThinking (beats.filter (persisted injected)) :=
  ⟨text, getLast?_filter ends (by simp [Chat.persisted, nonempty])⟩

theorem EndsThinking.record_head {beats : List Beat}
    (ends : EndsThinking (beats.filter (Chat.persisted injected))) :
    ∃ text rest, (play (beats.filter (Chat.persisted injected))).shapes = .thinking text :: rest ∧
      text ≠ "" := by
  obtain ⟨last, ends⟩ := ends
  obtain ⟨text, rest, head, shown⟩ := endsThinking_head ends
  have present := (List.mem_filter.mp (List.mem_of_getLast? ends)).2
  exact ⟨text, rest, head, shown (by simpa [Chat.persisted] using present)⟩

theorem filter_snoc (beats : List Beat) (beat : Beat) :
    (beats ++ [beat]).filter (persisted injected) =
      if persisted injected beat then beats.filter (persisted injected) ++ [beat]
      else beats.filter (persisted injected) := by
  rw [List.filter_append]
  split
  case isTrue kept => simp [kept]
  case isFalse dropped => simp [dropped]

def plain : Beat → Bool
  | .answer _ => false
  | .thinking _ => false
  | _ => true

theorem play_plain (uninjected : ∀ id, injected id = false → weight id = 0) (beats : List Beat)
    {beat : Beat} (isPlain : plain beat = true) :
    ∃ added : List Shape,
      seen weight (play (beats ++ [beat])).shapes = added ++ seen weight (play beats).shapes ∧
      seen weight (play ((beats ++ [beat]).filter (persisted injected))).shapes =
        added ++ seen weight (play (beats.filter (persisted injected))).shapes := by
  rw [filter_snoc, play_snoc]
  cases beat with
  | answer text => cases isPlain
  | thinking text => cases isPlain
  | narration text =>
    by_cases empty : text = ""
    · refine ⟨[], ?_, ?_⟩
      · simp [playStep, seen_cons, visible, empty]
      · simp [persisted, empty]
    · refine ⟨[.narration text], ?_, ?_⟩
      · simp [playStep, seen_cons, visible, empty]
      · simp [persisted, playStep, seen_cons, visible, empty]
  | user id =>
    cases kept : injected id with
    | false =>
      have weightless := uninjected id kept
      refine ⟨[], ?_, ?_⟩
      · simp [playStep, seen_cons, visible, weightless]
      · simp [persisted, kept]
    | true =>
      by_cases weightless : weight id = 0
      · refine ⟨[], ?_, ?_⟩
        · simp [playStep, seen_cons, visible, weightless]
        · simp [persisted, kept, playStep, seen_cons, visible, weightless]
      · refine ⟨[.user id], ?_, ?_⟩
        · simp [playStep, seen_cons, visible, weightless]
        · simp [persisted, kept, playStep, seen_cons, visible, weightless]
  | tool id =>
    exact ⟨[.tool id], by simp [playStep, seen_cons, visible],
      by simp [persisted, playStep, seen_cons, visible]⟩
  | viz spec =>
    exact ⟨[.viz spec], by simp [playStep, seen_cons, visible],
      by simp [persisted, playStep, seen_cons, visible]⟩
  | clarify spec =>
    exact ⟨[.clarify spec], by simp [playStep, seen_cons, visible],
      by simp [persisted, playStep, seen_cons, visible]⟩
  | muted => exact ⟨[], by simp [playStep], by simp [persisted, playStep]⟩
  | silent => exact ⟨[], by simp [playStep], by simp [persisted]⟩

theorem alike_answer {live record : Stage} {text : String} (nonempty : text ≠ "")
    (same : seen weight live.shapes = seen weight record.shapes)
    (together : (∃ before rest, OpenAnswer live.shapes before rest) ↔
      ∃ before rest, OpenAnswer record.shapes before rest) :
    seen weight (addAnswer live.shapes text) = seen weight (addAnswer record.shapes text) := by
  by_cases join : ∃ before rest, OpenAnswer live.shapes before rest
  · obtain ⟨before, rest, openLive⟩ := join
    obtain ⟨before', rest', openRecord⟩ := together.mp ⟨before, rest, openLive⟩
    obtain ⟨seenLive, joinedLive, _⟩ := addAnswer_join weight nonempty openLive
    obtain ⟨seenRecord, joinedRecord, _⟩ := addAnswer_join weight nonempty openRecord
    rw [seenLive, seenRecord] at same
    simp only [List.cons.injEq, Shape.answer.injEq] at same
    rw [joinedLive, joinedRecord, same.1, same.2]
  · have apart : ¬ ∃ before rest, OpenAnswer record.shapes before rest := fun h => join (together.mpr h)
    rw [(addAnswer_split nonempty join).1, (addAnswer_split nonempty apart).1, same]

theorem alike_thinking {live record : Stage} {text before before' : String}
    {rest rest' : List Shape} (liveHead : live.shapes = .thinking before :: rest)
    (recordHead : record.shapes = .thinking before' :: rest') (shown : before ≠ "")
    (shown' : before' ≠ "") (same : seen weight live.shapes = seen weight record.shapes) :
    seen weight (addThinking live.shapes true text) =
      seen weight (addThinking record.shapes true text) := by
  simp only [liveHead, recordHead, seen_cons, visible, bne_iff_ne, ne_eq, shown, shown',
    not_false_eq_true, if_true, List.cons.injEq, Shape.thinking.injEq] at same
  rw [liveHead, recordHead, addThinking_join.1, addThinking_join.1, same.1, same.2]

theorem plays_alike (uninjected : ∀ id, injected id = false → weight id = 0) {beats : List Beat}
    (all : AllJoin injected beats) :
    seen weight (play beats).shapes =
      seen weight (play (beats.filter (persisted injected))).shapes := by
  induction beats using List.reverseRecOn with
  | nil => rfl
  | append_singleton beats beat ih =>
    obtain ⟨before, joins⟩ := allJoin_snoc.mp all
    have same := ih before
    cases isPlain : plain beat with
    | true =>
      obtain ⟨added, live, record⟩ := play_plain uninjected beats isPlain
      rw [live, record, same]
    | false =>
    cases beat with
    | answer text =>
      rw [filter_snoc, play_snoc]
      by_cases empty : text = ""
      · subst empty
        simp only [persisted, bne_self_eq_false, Bool.false_eq_true, if_false, playStep]
        rw [(addAnswer_empty _).1, same]
      · have kept : persisted injected (.answer text) = true := by simp [persisted, empty]
        rw [if_pos kept, play_snoc]
        refine alike_answer empty same ?_
        rw [← endsAnswering_iff, ← endsAnswering_iff]
        exact ⟨EndsAnswering.persisted, joins empty⟩
    | thinking text =>
      rw [filter_snoc, play_snoc]
      obtain ⟨adjacent, apart⟩ := joins
      by_cases empty : text = ""
      · subst empty
        have alone : (play beats).lastThinking = false := by
          by_contra thinking
          obtain ⟨last, ends⟩ := (endsThinking_iff beats).mpr (by simpa using thinking)
          exact (adjacent last ends).2 rfl
        simp only [persisted, bne_self_eq_false, Bool.false_eq_true, if_false, playStep, alone]
        rw [(addThinking_empty _).1, same]
      · have kept : persisted injected (.thinking text) = true := by simp [persisted, empty]
        rw [if_pos kept, play_snoc]
        simp only [playStep]
        by_cases thinking : EndsThinking beats
        · obtain ⟨last, ends⟩ := thinking
          have lastNonempty := (adjacent last ends).1
          obtain ⟨before, rest, liveHead, shown⟩ := endsThinking_head ends
          have recordThinking := EndsThinking.persisted injected ends lastNonempty
          obtain ⟨before', rest', recordHead, shown'⟩ := recordThinking.record_head
          have liveFlag := (endsThinking_iff beats).mp ⟨last, ends⟩
          have recordFlag := (endsThinking_iff _).mp recordThinking
          rw [liveFlag, recordFlag]
          exact alike_thinking liveHead recordHead (shown lastNonempty) shown' same
        · have recordApart : ¬ EndsThinking (beats.filter (persisted injected)) :=
            fun ends => thinking (apart empty ends)
          rw [endsThinking_iff, Bool.not_eq_true] at thinking recordApart
          rw [thinking, recordApart, (addThinking_split empty).1, (addThinking_split empty).1, same]
    | _ => cases isPlain

theorem mass_plain (uninjected : ∀ id, injected id = false → weight id = 0) (beats : List Beat)
    {beat : Beat} (isPlain : plain beat = true) :
    ∃ n, mass weight (play (beats ++ [beat])).shapes = n + mass weight (play beats).shapes ∧
      mass weight (play ((beats ++ [beat]).filter (persisted injected))).shapes =
        n + mass weight (play (beats.filter (persisted injected))).shapes := by
  obtain ⟨added, live, record⟩ := play_plain uninjected beats isPlain
  have split : ∀ first second : List Shape,
      mass weight (first ++ second) = mass weight first + mass weight second := by
    intro first second
    simp [mass]
  refine ⟨mass weight added, ?_, ?_⟩
  · rw [← mass_seen, live, split, mass_seen]
  · rw [← mass_seen, record, split, mass_seen]

theorem mass_thinking_join {shapes rest : List Shape} {before : String} (text : String)
    (head : shapes = .thinking before :: rest) :
    mass weight (addThinking shapes true text) =
      text.length + (if before = "" then 5 else 2) + mass weight shapes := by
  rw [head, (addThinking_join).2, mass_cons]
  by_cases empty : before = ""
  · simp [shapeMass, empty]
    omega
  · simp only [shapeMass, empty, if_false]
    omega

/-- The newest segment is seen as thinking, but no persisted thinking is newest. -/
def Unmatched (injected : String → Bool) (beats : List Beat) : Prop :=
  (∃ text rest, (play beats).shapes = .thinking text :: rest ∧ text ≠ "") ∧
    EndsThinking beats ∧ ¬ EndsThinking (beats.filter (persisted injected))

theorem AllJoin.head_empty {beats : List Beat} (all : AllJoin injected beats) {text : String}
    {rest : List Shape} (shapes : (play beats).shapes = .thinking text :: rest)
    (ends : beats.getLast? = some (.thinking "")) : text = "" := by
  rcases List.eq_nil_or_concat' beats with rfl | ⟨beats, beat, rfl⟩
  · simp at ends
  · simp only [List.getLast?_concat, Option.some.injEq] at ends
    subst ends
    obtain ⟨_, joins⟩ := allJoin_snoc.mp all
    have alone : (play beats).lastThinking = false := by
      by_contra thinking
      obtain ⟨last, ends⟩ := (endsThinking_iff beats).mpr (by simpa using thinking)
      exact (joins.1 last ends).2 rfl
    rw [play_snoc] at shapes
    simp only [playStep, alone, addThinking, List.cons.injEq, Shape.thinking.injEq] at shapes
    exact shapes.1.symm

theorem AllJoin.matched {beats : List Beat} (all : AllJoin injected beats) :
    ¬ Unmatched injected beats := by
  rintro ⟨⟨text, rest, shapes, shown⟩, ⟨last, ends⟩, unmatched⟩
  by_cases empty : last = ""
  · subst empty
    exact shown (all.head_empty shapes ends)
  · exact unmatched (EndsThinking.persisted injected ends empty)

/-- The live run outweighs the persisted beats as soon as one beat joined
differently; by two while its newest thinking is not matched. -/
def Outweighs (weight : String → Nat) (injected : String → Bool) (beats : List Beat) : Prop :=
  mass weight (play (beats.filter (persisted injected))).shapes + 1 ≤
      mass weight (play beats).shapes ∧
    (Unmatched injected beats →
      mass weight (play (beats.filter (persisted injected))).shapes + 2 ≤
        mass weight (play beats).shapes)

theorem mass_alike (uninjected : ∀ id, injected id = false → weight id = 0) {beats : List Beat}
    (all : AllJoin injected beats) :
    mass weight (play (beats.filter (persisted injected))).shapes =
      mass weight (play beats).shapes := by
  rw [← mass_seen, ← plays_alike uninjected all, mass_seen]

theorem mass_le (uninjected : ∀ id, injected id = false → weight id = 0) {beats : List Beat}
    (ih : ¬ AllJoin injected beats → Outweighs weight injected beats) :
    mass weight (play (beats.filter (persisted injected))).shapes ≤
      mass weight (play beats).shapes := by
  by_cases all : AllJoin injected beats
  · exact le_of_eq (mass_alike uninjected all)
  · exact Nat.le_of_succ_le (ih all).1

theorem plays_apart_answer (uninjected : ∀ id, injected id = false → weight id = 0)
    {beats : List Beat} (ih : ¬ AllJoin injected beats → Outweighs weight injected beats)
    {text : String} (apart : ¬ AllJoin injected (beats ++ [.answer text])) :
    Outweighs weight injected (beats ++ [.answer text]) := by
  have matched : ¬ Unmatched injected (beats ++ [.answer text]) := by
    rintro ⟨_, ends, _⟩
    rw [endsThinking_snoc] at ends
    obtain ⟨_, bad⟩ := ends
    cases bad
  refine ⟨?_, fun bad => absurd bad matched⟩
  rw [allJoin_snoc, not_and_or] at apart
  rw [filter_snoc, play_snoc]
  by_cases empty : text = ""
  · subst empty
    have earlier : ¬ AllJoin injected beats := by
      rcases apart with earlier | joins
      · exact earlier
      · exact absurd (fun bad => absurd rfl bad) joins
    simp only [persisted, bne_self_eq_false, Bool.false_eq_true, if_false, playStep]
    rw [(addAnswer_empty _).2]
    exact (ih earlier).1
  · have kept : persisted injected (.answer text) = true := by simp [persisted, empty]
    rw [if_pos kept, play_snoc]
    simp only [playStep]
    by_cases recordOpen : EndsAnswering (beats.filter (persisted injected))
    · obtain ⟨before', rest', openRecord⟩ := (endsAnswering_iff _).mp recordOpen
      rw [(addAnswer_join weight empty openRecord).2.2]
      by_cases liveOpen : EndsAnswering beats
      · have earlier : ¬ AllJoin injected beats := by
          rcases apart with earlier | joins
          · exact earlier
          · exact absurd (fun _ _ => liveOpen) joins
        obtain ⟨before, rest, openLive⟩ := (endsAnswering_iff _).mp liveOpen
        rw [(addAnswer_join weight empty openLive).2.2]
        have more := (ih earlier).1
        omega
      · rw [(addAnswer_split empty (fun h => liveOpen ((endsAnswering_iff _).mpr h))).2]
        by_cases all : AllJoin injected beats
        · have same := mass_alike uninjected all
          omega
        · have more := (ih all).1
          omega
    · have liveClosed : ¬ EndsAnswering beats := fun h => recordOpen h.persisted
      have earlier : ¬ AllJoin injected beats := by
        rcases apart with earlier | joins
        · exact earlier
        · exact absurd (fun _ bad => absurd bad recordOpen) joins
      rw [(addAnswer_split empty (fun h => recordOpen ((endsAnswering_iff _).mpr h))).2,
        (addAnswer_split empty (fun h => liveClosed ((endsAnswering_iff _).mpr h))).2]
      have more := (ih earlier).1
      omega

theorem plays_apart_empty_thinking (uninjected : ∀ id, injected id = false → weight id = 0)
    {beats : List Beat} (ih : ¬ AllJoin injected beats → Outweighs weight injected beats)
    (apart : ¬ AllJoin injected (beats ++ [.thinking ""])) :
    Outweighs weight injected (beats ++ [.thinking ""]) := by
  have less := mass_le uninjected ih
  have dropped : persisted injected (.thinking "") = false := rfl
  unfold Outweighs
  rw [filter_snoc, play_snoc, if_neg (by simp [dropped])]
  simp only [playStep]
  cases thinking : (play beats).lastThinking with
  | true =>
    obtain ⟨before, rest, head⟩ := lastThinking_shapes thinking
    rw [mass_thinking_join "" head]
    have two : 2 ≤ "".length + if before = "" then 5 else 2 := by
      split <;> simp
    exact ⟨by omega, fun _ => by omega⟩
  | false =>
    have alone : ¬ EndsThinking beats := by
      rw [endsThinking_iff, thinking]
      exact Bool.false_ne_true
    have joins : Joins injected beats (.thinking "") :=
      ⟨fun last ends => absurd ⟨last, ends⟩ alone, fun bad => absurd rfl bad⟩
    have earlier : ¬ AllJoin injected beats := fun all => apart (allJoin_snoc.mpr ⟨all, joins⟩)
    rw [(addThinking_empty _).2]
    refine ⟨(ih earlier).1, ?_⟩
    rintro ⟨⟨text, rest, shapes, shown⟩, _, _⟩
    rw [play_snoc] at shapes
    simp only [playStep, thinking, addThinking, List.cons.injEq, Shape.thinking.injEq] at shapes
    exact absurd shapes.1.symm shown

theorem plays_apart_thinking (uninjected : ∀ id, injected id = false → weight id = 0)
    {beats : List Beat} (ih : ¬ AllJoin injected beats → Outweighs weight injected beats)
    {text : String} (nonempty : text ≠ "") (apart : ¬ AllJoin injected (beats ++ [.thinking text])) :
    Outweighs weight injected (beats ++ [.thinking text]) := by
  have less := mass_le uninjected ih
  have kept : persisted injected (.thinking text) = true := by simp [persisted, nonempty]
  have matched : ¬ Unmatched injected (beats ++ [.thinking text]) := by
    rintro ⟨_, _, unmatched⟩
    rw [filter_snoc, if_pos kept, endsThinking_snoc] at unmatched
    exact unmatched ⟨text, rfl⟩
  refine ⟨?_, fun bad => absurd bad matched⟩
  rw [filter_snoc, play_snoc, if_pos kept, play_snoc]
  simp only [playStep]
  by_cases liveThinking : EndsThinking beats
  · have liveFlag := (endsThinking_iff beats).mp liveThinking
    obtain ⟨before, rest, head⟩ := lastThinking_shapes liveFlag
    rw [liveFlag, mass_thinking_join text head]
    by_cases recordThinking : EndsThinking (beats.filter (persisted injected))
    · have recordFlag := (endsThinking_iff _).mp recordThinking
      obtain ⟨before', rest', head', shown'⟩ := recordThinking.record_head
      rw [recordFlag, mass_thinking_join text head', if_neg shown']
      by_cases empty : before = ""
      · rw [if_pos empty]
        omega
      · rw [if_neg empty]
        have earlier : ¬ AllJoin injected beats := by
          intro all
          refine apart (allJoin_snoc.mpr ⟨all, ?_, fun _ _ => liveThinking⟩)
          intro last ends
          refine ⟨?_, nonempty⟩
          rintro rfl
          exact empty (all.head_empty head ends)
        have more := (ih earlier).1
        omega
    · have recordFlag : (play (beats.filter (persisted injected))).lastThinking = false := by
        rw [endsThinking_iff, Bool.not_eq_true] at recordThinking
        exact recordThinking
      rw [recordFlag, (addThinking_split nonempty).2]
      by_cases empty : before = ""
      · rw [if_pos empty]
        omega
      · rw [if_neg empty]
        have unmatched : Unmatched injected beats :=
          ⟨⟨before, rest, head, empty⟩, liveThinking, recordThinking⟩
        have earlier : ¬ AllJoin injected beats := fun all => all.matched unmatched
        have more := (ih earlier).2 unmatched
        omega
  · have liveFlag : (play beats).lastThinking = false := by
      rw [endsThinking_iff, Bool.not_eq_true] at liveThinking
      exact liveThinking
    rw [liveFlag, (addThinking_split nonempty).2]
    by_cases recordThinking : EndsThinking (beats.filter (persisted injected))
    · have recordFlag := (endsThinking_iff _).mp recordThinking
      obtain ⟨before', rest', head', shown'⟩ := recordThinking.record_head
      rw [recordFlag, mass_thinking_join text head', if_neg shown']
      omega
    · have recordFlag : (play (beats.filter (persisted injected))).lastThinking = false := by
        rw [endsThinking_iff, Bool.not_eq_true] at recordThinking
        exact recordThinking
      rw [recordFlag, (addThinking_split nonempty).2]
      have joins : Joins injected beats (.thinking text) :=
        ⟨fun last ends => absurd ⟨last, ends⟩ liveThinking, fun _ bad => absurd bad recordThinking⟩
      have earlier : ¬ AllJoin injected beats := fun all => apart (allJoin_snoc.mpr ⟨all, joins⟩)
      have more := (ih earlier).1
      omega

theorem plays_apart (uninjected : ∀ id, injected id = false → weight id = 0) {beats : List Beat}
    (apart : ¬ AllJoin injected beats) : Outweighs weight injected beats := by
  induction beats using List.reverseRecOn with
  | nil =>
    refine absurd ?_ apart
    intro before beat after split
    simp at split
  | append_singleton beats beat ih =>
    cases isPlain : plain beat with
    | true =>
      have joins : Joins injected beats beat := by
        cases beat <;> trivial
      have earlier : ¬ AllJoin injected beats := fun all => apart (allJoin_snoc.mpr ⟨all, joins⟩)
      obtain ⟨n, live, record⟩ := mass_plain uninjected beats isPlain
      have more := (ih earlier).1
      refine ⟨by omega, ?_⟩
      rintro ⟨_, ends, _⟩
      rw [endsThinking_snoc] at ends
      obtain ⟨text, rfl⟩ := ends
      cases isPlain
    | false =>
      cases beat with
      | answer text => exact plays_apart_answer uninjected ih apart
      | thinking text =>
        by_cases empty : text = ""
        · subst empty
          exact plays_apart_empty_thinking uninjected ih apart
        · exact plays_apart_thinking uninjected ih empty apart
      | _ => cases isPlain

theorem allJoin_of_mass (uninjected : ∀ id, injected id = false → weight id = 0)
    {beats : List Beat}
    (same : mass weight (play beats).shapes =
      mass weight (play (beats.filter (persisted injected))).shapes) : AllJoin injected beats := by
  by_contra apart
  have more := (plays_apart uninjected apart).1
  omega

end Counselle.Chat

import Mathlib.Data.List.Basic

/-! Regular expressions as Python's `re` runs them: a matcher that goes back, with the ways
to match in the order in which they are tried. Repetitions are of one character each. -/
namespace Counselle.PyRegex

abbrev Chars : Type := List Char

inductive Regex where
  | empty
  | char (admits : Char → Bool)
  | many (admits : Char → Bool)
  | seq (first second : Regex)
  | opt (body : Regex)
  | group (name : String) (body : Regex)
  /-- `$` -/
  | stop

/-- What was matched, with its named groups, and the text behind it. -/
structure Match where
  groups : List (String × Chars)
  matched : Chars
  rest : Chars

def Match.group (m : Match) (name : String) : Chars := (m.groups.lookup name).getD []

/-- A repetition takes as many characters as it can, then one less at a time. -/
def greedy (admits : Char → Bool) : Chars → List (Chars × Chars)
  | [] => [([], [])]
  | c :: rest =>
    if admits c then (greedy admits rest).map (fun split => (c :: split.1, split.2)) ++ [([], c :: rest)]
    else [([], c :: rest)]

namespace Regex

def oneOf (admits : Char → Bool) : Chars → List Match
  | [] => []
  | c :: rest => if admits c then [⟨[], [c], rest⟩] else []

/-- The ways to match at the start of a text, the preferred one first. -/
def run : Regex → Chars → List Match
  | .empty, text => [⟨[], [], text⟩]
  | .char admits, text => oneOf admits text
  | .many admits, text => (greedy admits text).map fun split => ⟨[], split.1, split.2⟩
  | .seq first second, text => (first.run text).flatMap fun m =>
      (second.run m.rest).map fun m' => ⟨m.groups ++ m'.groups, m.matched ++ m'.matched, m'.rest⟩
  | .opt body, text => body.run text ++ [⟨[], [], text⟩]
  | .group name body, text => (body.run text).map fun m => ⟨(name, m.matched) :: m.groups, m.matched, m.rest⟩
  | .stop, text => if text = [] ∨ text = ['\n'] then [⟨[], [], text⟩] else []

def plus (admits : Char → Bool) : Regex := .seq (.char admits) (.many admits)

def lit (c : Char) : Regex := .char (· == c)

/-- `re.match` -/
def atStart (r : Regex) (text : Chars) : Option Match := (r.run text).head?

/-- `re.search` -/
def search (r : Regex) : Chars → Option Match
  | [] => r.atStart []
  | c :: rest => (r.atStart (c :: rest)).or (r.search rest)

/-- What an expression says of a matched text and its groups. -/
def Fits : Regex → List (String × Chars) → Chars → Prop
  | .empty, groups, text => groups = [] ∧ text = []
  | .char admits, groups, text => groups = [] ∧ ∃ c, admits c = true ∧ text = [c]
  | .many admits, groups, text => groups = [] ∧ ∀ c ∈ text, admits c = true
  | .seq first second, groups, text => ∃ front back here there, first.Fits front here ∧ second.Fits back there ∧
      groups = front ++ back ∧ text = here ++ there
  | .opt body, groups, text => body.Fits groups text ∨ groups = [] ∧ text = []
  | .group name body, groups, text => ∃ inner, body.Fits inner text ∧ groups = (name, text) :: inner
  | .stop, groups, text => groups = [] ∧ text = []

theorem greedy_splits {admits : Char → Bool} {text : Chars} :
    ∀ split ∈ greedy admits text, split.1 ++ split.2 = text ∧ ∀ c ∈ split.1, admits c = true := by
  induction text with
  | nil =>
    intro split isIn
    rw [List.mem_singleton.mp isIn]
    exact ⟨rfl, nofun⟩
  | cons c rest ih =>
    intro split isIn
    rw [greedy] at isIn
    split at isIn
    case isTrue admitted =>
      obtain longer | none := List.mem_append.mp isIn
      · obtain ⟨shorter, isShorter, rfl⟩ := List.mem_map.mp longer
        obtain ⟨whole, all⟩ := ih shorter isShorter
        exact ⟨congrArg (c :: ·) whole, List.forall_mem_cons.mpr ⟨admitted, all⟩⟩
      · rw [List.mem_singleton.mp none]
        exact ⟨rfl, nofun⟩
    case isFalse =>
      rw [List.mem_singleton.mp isIn]
      exact ⟨rfl, nofun⟩

theorem run_fits {r : Regex} {text : Chars} {m : Match} (found : m ∈ r.run text) :
    text = m.matched ++ m.rest ∧ r.Fits m.groups m.matched := by
  induction r generalizing text m with
  | empty =>
    rw [List.mem_singleton.mp found]
    exact ⟨rfl, rfl, rfl⟩
  | char admits =>
    cases text with
    | nil => exact absurd found List.not_mem_nil
    | cons c rest =>
      rw [run, oneOf] at found
      split at found
      case isTrue admitted =>
        rw [List.mem_singleton.mp found]
        exact ⟨rfl, rfl, c, admitted, rfl⟩
      case isFalse => exact absurd found List.not_mem_nil
  | many admits =>
    obtain ⟨split, isSplit, rfl⟩ := List.mem_map.mp found
    obtain ⟨whole, all⟩ := greedy_splits split isSplit
    exact ⟨whole.symm, rfl, all⟩
  | seq first second ihFirst ihSecond =>
    obtain ⟨here, isHere, later⟩ := List.mem_flatMap.mp found
    obtain ⟨there, isThere, rfl⟩ := List.mem_map.mp later
    obtain ⟨whole, fits⟩ := ihFirst isHere
    obtain ⟨rest, fits'⟩ := ihSecond isThere
    refine ⟨?_, here.groups, there.groups, here.matched, there.matched, fits, fits', rfl, rfl⟩
    rw [whole, rest, List.append_assoc]
  | opt body ih =>
    obtain some | none := List.mem_append.mp found
    · obtain ⟨whole, fits⟩ := ih some
      exact ⟨whole, Or.inl fits⟩
    · rw [List.mem_singleton.mp none]
      exact ⟨rfl, Or.inr ⟨rfl, rfl⟩⟩
  | group name body ih =>
    obtain ⟨inner, isInner, rfl⟩ := List.mem_map.mp found
    obtain ⟨whole, fits⟩ := ih isInner
    exact ⟨whole, inner.groups, fits, rfl⟩
  | stop =>
    rw [run] at found
    split at found
    · rw [List.mem_singleton.mp found]
      exact ⟨rfl, rfl, rfl⟩
    · exact absurd found List.not_mem_nil

theorem atStart_fits {r : Regex} {text : Chars} {m : Match} (found : r.atStart text = some m) :
    text = m.matched ++ m.rest ∧ r.Fits m.groups m.matched :=
  run_fits (List.mem_of_mem_head? found)

theorem search_fits {r : Regex} {text : Chars} {m : Match} (found : r.search text = some m) :
    ∃ before, text = before ++ m.matched ++ m.rest ∧ r.Fits m.groups m.matched := by
  induction text with
  | nil =>
    obtain ⟨whole, fits⟩ := atStart_fits found
    exact ⟨[], whole, fits⟩
  | cons c rest ih =>
    obtain here | ⟨-, later⟩ := Option.or_eq_some_iff.mp found
    · obtain ⟨whole, fits⟩ := atStart_fits here
      exact ⟨[], whole, fits⟩
    · obtain ⟨before, whole, fits⟩ := ih later
      exact ⟨c :: before, congrArg (c :: ·) whole, fits⟩

/-- The expression ends with `$`. -/
def anchored : Regex → Bool
  | .stop => true
  | .seq _ second => second.anchored
  | _ => false

theorem anchored_rest {r : Regex} (ends : r.anchored = true) {text : Chars} {m : Match} (found : m ∈ r.run text) :
    m.rest = [] ∨ m.rest = ['\n'] := by
  induction r generalizing text m with
  | stop =>
    obtain ⟨behind, isMatch⟩ := List.mem_ite_nil_right.mp found
    rw [List.mem_singleton.mp isMatch]
    exact behind
  | seq first second _ ih =>
    obtain ⟨here, -, later⟩ := List.mem_flatMap.mp found
    obtain ⟨there, isThere, rfl⟩ := List.mem_map.mp later
    have same : there.rest = [] ∨ there.rest = ['\n'] := ih ends isThere
    exact same
  | empty | char | many | opt | group => cases ends

theorem plus_fits {admits : Char → Bool} {groups : List (String × Chars)} {text : Chars}
    (fits : (plus admits).Fits groups text) : groups = [] ∧ text ≠ [] ∧ ∀ c ∈ text, admits c = true := by
  obtain ⟨_, _, _, _, ⟨rfl, c, admitted, rfl⟩, ⟨rfl, all⟩, rfl, rfl⟩ := fits
  exact ⟨rfl, List.cons_ne_nil _ _, List.forall_mem_cons.mpr ⟨admitted, all⟩⟩

theorem lit_fits {c : Char} {groups : List (String × Chars)} {text : Chars} (fits : (lit c).Fits groups text) :
    groups = [] ∧ text = [c] := by
  obtain ⟨rfl, d, admitted, rfl⟩ := fits
  exact ⟨rfl, congrArg (fun x => [x]) (beq_iff_eq.mp admitted)⟩

end Regex

end Counselle.PyRegex

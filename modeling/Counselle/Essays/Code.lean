import Counselle.CommonMarkCode
import Counselle.PyText

/-! Code spans and code blocks of an essay: how `essay_markdown.py` writes them, and what
is read back. -/
namespace Counselle.Essays.Code
open CommonMark

/-- So many cycles of writing and reading, each on what the one before gave. -/
def cycles {α : Type} (cycle : α → Option α) : Nat → α → Option α
  | 0, a => some a
  | n + 1, a => (cycle a).bind (cycles cycle n)

theorem cycles_fixed {α : Type} {cycle : α → Option α} {a : α} (fixed : cycle a = some a) (n : Nat) :
    cycles cycle n a = some a := by
  induction n with
  | zero => rfl
  | succ n ih => rw [cycles, fixed, Option.bind_some, ih]

theorem cycles_one {α : Type} (cycle : α → Option α) (a : α) : cycles cycle 1 a = cycle a := by
  cases once : cycle a with
  | none => rw [cycles, once, Option.bind_none]
  | some b => rw [cycles, once, Option.bind_some, cycles]

theorem cycles_iff {α : Type} {cycle : α → Option α} {a : α} :
    (∀ n, cycles cycle n a = some a) ↔ cycle a = some a :=
  ⟨fun each => (cycles_one cycle a).symm.trans (each 1), cycles_fixed⟩

/-- The loop over the characters, with `run` and `max_run`. -/
def longestRun : Nat → Nat → List Char → Nat
  | _, maxRun, [] => maxRun
  | run, maxRun, ch :: rest =>
    if ch = '`' then longestRun (run + 1) (max maxRun (run + 1)) rest else longestRun 0 maxRun rest

def codeSpan (text : List Char) : List Char :=
  let fence := List.replicate (longestRun 0 0 text + 1) '`'
  if text = [] ∨ text.head? = some '`' ∨ text.getLast? = some '`' ∨ text.head? = some ' ' ∨ text.getLast? = some ' ' then
    fence ++ (' ' :: (text ++ [' ']) ++ fence)
  else fence ++ (text ++ fence)

def spanCycle (text : List Char) : Option (List Char) :=
  (readSpan (codeSpan text)).bind fun (content, behind) => if behind = [] then some content else none

structure SingleLine where
  chars : List Char
  isSome : chars ≠ []
  noFeed : '\n' ∉ chars
  noReturn : '\r' ∉ chars

theorem le_longestRun (run maxRun : Nat) (text : List Char) : maxRun ≤ longestRun run maxRun text := by
  induction text generalizing run maxRun with
  | nil => exact Nat.le_refl maxRun
  | cons ch rest ih =>
    rw [longestRun]
    split
    · exact Nat.le_trans (Nat.le_max_left _ _) (ih _ _)
    · exact ih 0 maxRun

theorem runs_le_longestRun {text : List Char} {run maxRun : Nat} (seen : run ≤ maxRun) :
    ∀ r ∈ runs '`' run text, r ≤ longestRun run maxRun text := by
  induction text generalizing run maxRun with
  | nil =>
    rw [runs, longestRun]
    split
    · exact List.forall_mem_nil _
    · exact fun r isIn => List.mem_singleton.mp isIn ▸ seen
  | cons ch rest ih =>
    rw [runs, longestRun]
    split
    · exact ih (Nat.le_max_right _ _)
    · split
      · exact ih (Nat.zero_le _)
      · refine List.forall_mem_cons.mpr ⟨?_, ih (Nat.zero_le _)⟩
        exact Nat.le_trans seen (le_longestRun 0 maxRun rest)

theorem runs_pad (pending : Nat) (text : List Char) : runs '`' pending (text ++ [' ']) = runs '`' pending text := by
  induction text generalizing pending with
  | nil => rfl
  | cons ch rest ih => rw [List.cons_append, runs, runs, ih, ih]

def pad (text : List Char) : List Char := ' ' :: (text ++ [' '])

theorem stripSpan_pad (text : List Char) :
    stripSpan (pad text) = if text.all (· = ' ') then pad text else text := by
  have stop : (pad text).getLast? = some ' ' := by rw [pad, ← List.cons_append, List.getLast?_concat]
  have inner : (pad text).tail.dropLast = text := by rw [pad, List.tail_cons, List.dropLast_concat]
  have spaces : (pad text).all (· = ' ') = text.all (· = ' ') := by simp [pad]
  rw [stripSpan, stop, spaces, inner]
  split
  case isTrue mixed => rw [if_neg mixed.2.2]
  case isFalse bare =>
    rw [if_pos]
    by_contra mixed
    exact bare ⟨rfl, rfl, mixed⟩

theorem map_secured_spaces {text : List Char} (spaces : text.all (· = ' ') = true) :
    (pad text).map secured = pad text := by
  rw [map_secured]
  intro bad
  have isSpace : ((pad text).all (· = ' ')) = true := by simpa [pad] using spaces
  exact absurd (List.all_eq_true.mp isSpace _ bad) (by decide)

section Read
variable {text : List Char} {n : Nat}

theorem readSpan_padded (noFeed : '\n' ∉ text) (noReturn : '\r' ∉ text) (positive : 0 < n)
    (shorter : ∀ r ∈ runs '`' 0 text, r < n) :
    readSpan (List.replicate n '`' ++ (pad text ++ List.replicate n '`')) =
      some (if text.all (· = ' ') then pad text else text.map secured, []) := by
  have padded : ∀ r ∈ runs '`' 0 (pad text), r < n := by
    rwa [pad, runs, if_neg (by decide), if_pos rfl, runs_pad]
  have stop : (pad text).getLast? ≠ some '`' := by
    rw [pad, ← List.cons_append, List.getLast?_concat]
    decide
  have feed : '\n' ∉ pad text := by simpa [pad] using noFeed
  have carriage : '\r' ∉ pad text := by simpa [pad] using noReturn
  have start : (pad text).head? ≠ some '`' := fun bad => absurd (Option.some.inj bad) (by decide)
  rw [readSpan_fenced start stop (List.cons_ne_nil _ _) positive padded, asOneLine_single feed carriage,
    stripSpan_pad]
  split
  case isTrue spaces => rw [map_secured_spaces spaces]
  case isFalse _ => rfl

theorem stripSpan_plain (start : text.head? ≠ some ' ') : stripSpan text = text :=
  if_neg fun bad => start bad.1

end Read

theorem spanCycle_eq (text : SingleLine) : spanCycle text.chars =
    some (if text.chars.all (· = ' ') then pad text.chars else text.chars.map secured) := by
  have shorter : ∀ r ∈ runs '`' 0 text.chars, r < longestRun 0 0 text.chars + 1 := fun r isIn =>
    Nat.lt_succ_of_le (runs_le_longestRun (Nat.le_refl 0) r isIn)
  rw [spanCycle, codeSpan]
  split
  case isTrue _ =>
    have read := readSpan_padded text.noFeed text.noReturn (Nat.succ_pos _) shorter
    rw [pad] at read
    rw [read]
    rfl
  case isFalse plain =>
    simp only [not_or] at plain
    obtain ⟨-, noMark, noLast, noSpace, -⟩ := plain
    rw [readSpan_fenced noMark noLast text.isSome (Nat.succ_pos _) shorter, asOneLine_single text.noFeed text.noReturn,
      stripSpan_plain noSpace, if_neg]
    · rfl
    -- a text of spaces starts with one
    intro spaces
    obtain ⟨first, rest, isText⟩ := List.exists_cons_of_ne_nil text.isSome
    rw [isText, List.all_cons, Bool.and_eq_true, decide_eq_true_eq] at spaces
    rw [isText, spaces.1] at noSpace
    exact noSpace rfl

theorem spanCycle_iff (text : SingleLine) : spanCycle text.chars = some text.chars ↔
    '\x00' ∉ text.chars ∧ ¬ text.chars.all (· = ' ') := by
  rw [spanCycle_eq, Option.some.injEq]
  split
  case isTrue spaces =>
    refine iff_of_false (fun same => ?_) fun bad => bad.2 spaces
    have lengths := congrArg List.length same
    rw [pad, List.length_cons, List.length_append] at lengths
    omega
  case isFalse mixed => rw [map_secured, and_iff_left mixed]

/-- A `codeBlock` node: without a language or without content the texts are empty. -/
structure CodeBlock where
  language : List Char
  text : List Char

def serializeCodeBlock (node : CodeBlock) : List Char :=
  let maxRun := (runs '`' 0 node.text).foldr max 0
  let fence := List.replicate (max 3 (maxRun + 1)) '`'
  fence ++ node.language ++ '\n' :: (node.text ++ '\n' :: fence)

def parseCodeBlock (tok : FencedCode) : CodeBlock where
  language := PyText.strip tok.info
  text := tok.content.rdropWhile (· = '\n')

def blockCycle (node : CodeBlock) : Option CodeBlock :=
  (readFence (serializeCodeBlock node)).bind fun tok => if tok.behind = [] then some (parseCodeBlock tok) else none

structure IsInfo (language : List Char) : Prop where
  noMark : '`' ∉ language
  noFeed : '\n' ∉ language
  noReturn : '\r' ∉ language

structure Language where
  chars : List Char
  isInfo : IsInfo chars

theorem strip_mem {c : Char} {text : List Char} (isIn : c ∈ PyText.strip text) : c ∈ text := by
  rw [PyText.strip_eq] at isIn
  exact (List.dropWhile_sublist _).mem ((List.rdropWhile_prefix _ _).sublist.mem isIn)

theorem mem_of_map_secured {c : Char} {text : List Char} (isIn : c ∈ text.map secured) (other : c ≠ '\uFFFD') : c ∈ text := by
  obtain ⟨d, isIn, rfl⟩ := List.mem_map.mp isIn
  rw [secured] at other ⊢
  split at other
  · contradiction
  case isFalse notNull => rwa [if_neg notNull]

theorem isInfo_parsed {language : List Char} (isInfo : IsInfo language) :
    IsInfo (PyText.strip (language.map secured)) where
  noMark bad := isInfo.noMark (mem_of_map_secured (strip_mem bad) (by decide))
  noFeed bad := isInfo.noFeed (mem_of_map_secured (strip_mem bad) (by decide))
  noReturn bad := isInfo.noReturn (mem_of_map_secured (strip_mem bad) (by decide))

/-- What the reading of a fence does not change, and the parser does not cut off. -/
structure Kept (text : List Char) : Prop where
  noReturn : '\r' ∉ text
  noNull : '\x00' ∉ text
  noFeedLast : text.getLast? ≠ some '\n'

theorem le_foldr_max {r : Nat} {lengths : List Nat} (isIn : r ∈ lengths) : r ≤ lengths.foldr max 0 := by
  induction isIn with
  | head rest => exact Nat.le_max_left _ _
  | tail first _ ih => exact Nat.le_trans ih (Nat.le_max_right _ _)

theorem rdropWhile_feed {text : List Char} (noFeedLast : text.getLast? ≠ some '\n') :
    (text ++ ['\n']).rdropWhile (· = '\n') = text := by
  rw [List.rdropWhile_concat_pos _ _ _ (by decide), List.rdropWhile_eq_self_iff]
  intro isSome bad
  rw [List.getLast?_eq_some_getLast isSome] at noFeedLast
  exact noFeedLast (congrArg some (of_decide_eq_true bad))

theorem blockCycle_kept {node : CodeBlock} (isInfo : IsInfo node.language) (kept : Kept node.text) :
    blockCycle node = some { node with language := PyText.strip (node.language.map secured) } := by
  have shorter : ∀ r ∈ runs '`' 0 node.text, r < max 3 ((runs '`' 0 node.text).foldr max 0 + 1) := fun r isIn =>
    Nat.lt_of_lt_of_le (Nat.lt_succ_of_le (le_foldr_max isIn)) (Nat.le_max_right _ _)
  have noNull : '\x00' ∉ node.text ++ ['\n'] := List.not_mem_append kept.noNull (by decide)
  rw [blockCycle, serializeCodeBlock,
    readFence_backticks (Nat.le_max_left _ _) isInfo.noMark isInfo.noFeed isInfo.noReturn kept.noReturn shorter,
    Option.bind_some, if_pos rfl, parseCodeBlock, map_secured.mpr noNull, rdropWhile_feed kept.noFeedLast]

theorem kept_of_blockCycle {node read : CodeBlock} (cycle : blockCycle node = some read) : Kept read.text := by
  obtain ⟨tok, isTok, parsed⟩ := Option.bind_eq_some_iff.mp cycle
  obtain ⟨noReturn, noNull⟩ := readFence_content isTok
  split at parsed
  case isFalse => cases parsed
  case isTrue _ =>
    cases parsed
    have shorter := (List.rdropWhile_prefix (· = '\n') tok.content).sublist
    refine ⟨fun bad => noReturn (shorter.mem bad), fun bad => noNull (shorter.mem bad), fun bad => ?_⟩
    have isSome : tok.content.rdropWhile (· = '\n') ≠ [] := by
      intro none
      rw [parseCodeBlock, none] at bad
      cases bad
    have last := List.rdropWhile_last_not (· = '\n') tok.content isSome
    rw [parseCodeBlock, List.getLast?_eq_some_getLast isSome, Option.some.injEq] at bad
    simp [bad] at last

theorem blockCycles_kept {node : CodeBlock} (isInfo : IsInfo node.language) (kept : Kept node.text) (n : Nat) :
    (cycles blockCycle n node).map (·.text) = some node.text := by
  induction n generalizing node with
  | zero => rfl
  | succ n ih =>
    rw [cycles, blockCycle_kept isInfo kept, Option.bind_some]
    exact ih (isInfo_parsed isInfo) kept

/-- A code span and a code block are read as they were written, however often. -/
theorem code_survives (span : SingleLine) (language : Language) (text : List Char) :
    ((∀ n, cycles spanCycle n span.chars = some span.chars) ↔
      '\x00' ∉ span.chars ∧ ¬ span.chars.all (· = ' ')) ∧
    ((∀ n, (cycles blockCycle n ⟨language.chars, text⟩).map (·.text) = some text) ↔ Kept text) := by
  refine ⟨cycles_iff.trans (spanCycle_iff span), fun each => ?_, fun kept n => ?_⟩
  · have once := each 1
    rw [cycles_one] at once
    obtain ⟨read, cycle, isText⟩ := Option.map_eq_some_iff.mp once
    exact isText ▸ kept_of_blockCycle cycle
  · exact blockCycles_kept language.isInfo kept n

def oneSpace : SingleLine := ⟨[' '], by decide, by decide, by decide⟩

def noLanguage : Language := ⟨[], by decide, by decide, by decide⟩

/-- A space becomes three, and a line feed at the end of a block is lost. -/
theorem code_lost : (¬ ∀ n, cycles spanCycle n oneSpace.chars = some oneSpace.chars) ∧
    ¬ ∀ n, (cycles blockCycle n ⟨noLanguage.chars, ['a', '\n']⟩).map (·.text) = some ['a', '\n'] :=
  ⟨fun each => absurd (each 1) (by decide +kernel), fun each => absurd (each 1) (by decide +kernel)⟩

end Counselle.Essays.Code

import Mathlib.Data.List.Basic
import Mathlib.Data.List.TakeWhile

/-! The starts of blocks in a line, as CommonMark defines them. -/
namespace Counselle.CommonMark

/-- The lines of a text: a line feed ends one, and so does a carriage return, with or
without a line feed behind it. -/
def lines : List Char → List (List Char)
  | [] => [[]]
  | '\r' :: '\n' :: rest => [] :: lines rest
  | c :: rest =>
    if c = '\n' ∨ c = '\r' then [] :: lines rest
    else (lines rest).modifyHead (c :: ·)

/-- A carriage return parts the lines between line feeds further. -/
def pieces (text : List Char) : List (List Char) := (text.splitOn '\n').flatMap (·.splitOn '\r')

theorem splitOn_cons (mark c : Char) (rest : List Char) : (c :: rest).splitOn mark =
    if c = mark then [] :: rest.splitOn mark else (rest.splitOn mark).modifyHead (c :: ·) := by
  rw [List.splitOn_cons_eq_if_modifyHead]
  simp

theorem pieces_cons (c : Char) (rest : List Char) :
    pieces (c :: rest) = if c = '\n' ∨ c = '\r' then [] :: pieces rest else (pieces rest).modifyHead (c :: ·) := by
  obtain ⟨first, others, split⟩ := List.exists_cons_of_ne_nil (List.splitOn_ne_nil '\n' rest)
  obtain ⟨piece, more, parted⟩ := List.exists_cons_of_ne_nil (List.splitOn_ne_nil '\r' first)
  have whole : pieces rest = piece :: (more ++ others.flatMap (·.splitOn '\r')) := by
    rw [pieces, split, List.flatMap_cons, parted]
    rfl
  rw [whole, pieces, splitOn_cons, split]
  by_cases feed : c = '\n'
  · rw [if_pos feed, if_pos (Or.inl feed), List.flatMap_cons, List.flatMap_cons, parted]
    rfl
  · rw [if_neg feed, List.modifyHead_cons, List.flatMap_cons, splitOn_cons, parted]
    by_cases carriage : c = '\r'
    · rw [if_pos carriage, if_pos (Or.inr carriage)]
      rfl
    · rw [if_neg carriage, if_neg (not_or.mpr ⟨feed, carriage⟩)]
      rfl

theorem lines_pieces (text : List Char) : ∃ first others more, lines text = first :: others ∧
    pieces text = first :: more ∧ ∀ line, line ≠ [] → (line ∈ others ↔ line ∈ more) := by
  fun_induction lines text with
  | case1 => exact ⟨[], [], [], rfl, rfl, fun _ _ => Iff.rfl⟩
  | case2 rest ih =>
    obtain ⟨first, others, more, areLines, arePieces, same⟩ := ih
    refine ⟨[], first :: others, [] :: first :: more, by rw [areLines], ?_, fun line some => ?_⟩
    · rw [pieces_cons, if_pos (Or.inr rfl), pieces_cons, if_pos (Or.inl rfl), arePieces]
    · rw [List.mem_cons, List.mem_cons, List.mem_cons, same line some, or_iff_right some]
  | case3 c rest _ ending ih =>
    obtain ⟨first, others, more, areLines, arePieces, same⟩ := ih
    refine ⟨[], first :: others, first :: more, by rw [areLines], ?_, fun line some => ?_⟩
    · rw [pieces_cons, if_pos ending, arePieces]
    · rw [List.mem_cons, List.mem_cons, same line some]
  | case4 c rest _ inner ih =>
    obtain ⟨first, others, more, areLines, arePieces, same⟩ := ih
    refine ⟨c :: first, others, more, by rw [areLines]; rfl, ?_, same⟩
    rw [pieces_cons, if_neg inner, arePieces]
    rfl

theorem forall_lines_iff {P : List Char → Prop} (blank : P []) (text : List Char) :
    (∀ line ∈ lines text, P line) ↔ ∀ line ∈ text.splitOn '\n', ∀ piece ∈ line.splitOn '\r', P piece := by
  have flat : (∀ piece ∈ pieces text, P piece) ↔
      ∀ line ∈ text.splitOn '\n', ∀ piece ∈ line.splitOn '\r', P piece := by
    rw [pieces]
    simp only [List.mem_flatMap]
    exact ⟨fun each line isLine piece isPiece => each piece ⟨line, isLine, isPiece⟩,
      fun each piece ⟨line, isLine, isPiece⟩ => each line isLine piece isPiece⟩
  obtain ⟨first, others, more, areLines, arePieces, same⟩ := lines_pieces text
  rw [← flat, areLines, arePieces, List.forall_mem_cons, List.forall_mem_cons]
  apply and_congr_right'
  constructor
  · intro each line isIn
    by_cases some : line = []
    · exact some ▸ blank
    · exact each line ((same line some).mpr isIn)
  · intro each line isIn
    by_cases some : line = []
    · exact some ▸ blank
    · exact each line ((same line some).mp isIn)

def isGap (c : Char) : Bool := c = ' ' || c = '\t'

def dropIndent : Nat → List Char → List Char
  | n + 1, ' ' :: rest => dropIndent n rest
  | _, line => line

/-- A marker ends the line, or a space or a tab is behind it. -/
def endsMarker : List Char → Bool
  | [] => true
  | c :: _ => isGap c

def run (mark : Char) (line : List Char) : Nat := (line.takeWhile (· = mark)).length

def behindRun (mark : Char) (line : List Char) : List Char := line.dropWhile (· = mark)

def isAtxHeading (line : List Char) : Bool :=
  1 ≤ run '#' line && run '#' line ≤ 6 && endsMarker (behindRun '#' line)

def isBulletItem : List Char → Bool
  | [] => false
  | c :: rest => (c = '-' || c = '+' || c = '*') && endsMarker rest

def isOrderedItem (line : List Char) : Bool :=
  let digits := line.takeWhile Char.isDigit
  1 ≤ digits.length && digits.length ≤ 9 &&
    match line.dropWhile Char.isDigit with
    | [] => false
    | c :: rest => (c = '.' || c = ')') && endsMarker rest

def isBlockQuote (line : List Char) : Bool := line.head? = some '>'

/-- The info string of a fence of backticks has no backtick. -/
def isBacktickFence (line : List Char) : Bool :=
  3 ≤ run '`' line && !(behindRun '`' line).contains '`'

def isTildeFence (line : List Char) : Bool := 3 ≤ run '~' line

/-- Three of the mark or more, and spaces and tabs anywhere between and behind them. -/
def isThematicBreakOf (mark : Char) (line : List Char) : Bool :=
  line.head? = some mark && (line.all fun c => c = mark || isGap c) && 3 ≤ line.count mark

def isSetextUnderlineOf (mark : Char) (line : List Char) : Bool :=
  1 ≤ run mark line && (behindRun mark line).all isGap

def startsBlock (line : List Char) : Bool :=
  isAtxHeading line || isBulletItem line || isOrderedItem line || isBlockQuote line || isBacktickFence line ||
    isTildeFence line || ['*', '-', '_'].any (isThematicBreakOf · line) || ['=', '-'].any (isSetextUnderlineOf · line)

/-- The line opens a block other than a paragraph, or underlines a heading. -/
def opensBlock (line : List Char) : Bool := startsBlock (dropIndent 3 line)

example : opensBlock "- -\t-  ".toList = true ∧ opensBlock "#hash".toList = false := by decide

end Counselle.CommonMark

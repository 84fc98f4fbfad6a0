import Counselle.CommonMark
import Counselle.PyText

/-! What `essay_markdown.py` escapes in the plain text of a paragraph. -/
namespace Counselle.Essays.Escaping
open PyText (isSpace)
open CommonMark (dropIndent)

def alwaysEscape : List Char := ['\\', '`', '*', '~', '[', ']', '<', '&']

section Inline
variable (isAlnum : Char → Bool)

/-- An underscore between letters and digits stands for itself. -/
def escapeChar (previous : Option Char) (c : Char) (rest : List Char) : List Char :=
  if alwaysEscape.contains c then ['\\', c]
  else if c = '_' then
    if previous.any isAlnum && rest.head?.any isAlnum then ['_'] else ['\\', '_']
  else [c]

def escapeFrom : Option Char → List Char → List Char
  | _, [] => []
  | previous, c :: rest => escapeChar isAlnum previous c rest ++ escapeFrom (some c) rest

def escapeInline (text : List Char) : List Char := escapeFrom isAlnum none text

end Inline

/-- `(\s|$)` -/
def spaceOrEnd : List Char → Bool
  | [] => true
  | c :: _ => isSpace c

def atxRe (line : List Char) : Bool :=
  let marks := (line.takeWhile (· = '#')).length
  1 ≤ marks && marks ≤ 6 && spaceOrEnd (line.dropWhile (· = '#'))

def bulletRe : List Char → Bool
  | [] => false
  | c :: rest => (c = '-' || c = '*' || c = '+') && spaceOrEnd rest

/-- `_ORDERED_RE`: the digits, the delimiter and what is behind it. -/
def orderedRe (line : List Char) : Option (List Char × Char × List Char) :=
  let digits := line.takeWhile PyText.isDigit
  match line.dropWhile PyText.isDigit with
  | [] => none
  | delim :: rest =>
    if !digits.isEmpty && (delim = '.' || delim = ')') && spaceOrEnd rest then some (digits, delim, rest) else none

def blockquoteRe (line : List Char) : Bool := line.head? = some '>'

/-- `( ?\1)*`: how often it matches, and what is behind. -/
def spacedMarks (mark : Char) : List Char → Nat × List Char
  | [] => (0, [])
  | c :: rest =>
    if c = mark then ((spacedMarks mark rest).1 + 1, (spacedMarks mark rest).2)
    else
      match c, rest with
      | ' ', d :: rest =>
        if d = mark then ((spacedMarks mark rest).1 + 1, (spacedMarks mark rest).2) else (0, ' ' :: d :: rest)
      | c, rest => (0, c :: rest)

def thematicBreakRe (line : List Char) : Bool :=
  match dropIndent 3 line with
  | [] => false
  | mark :: rest =>
    (mark = '-' || mark = '*' || mark = '_') && 2 ≤ (spacedMarks mark rest).1 && (spacedMarks mark rest).2.all isSpace

/-- `_SETEXT_RE` and `_SETEXT_DASH_RE` -/
def setextRe (mark : Char) (line : List Char) : Bool :=
  let line := dropIndent 3 line
  1 ≤ (line.takeWhile (· = mark)).length && (line.dropWhile (· = mark)).all isSpace

def looksLikeFenceOpen (line : List Char) : Bool :=
  if 3 ≤ (line.takeWhile (· = '`')).length then !(line.dropWhile (· = '`')).contains '`'
  else 3 ≤ (line.takeWhile (· = '~')).length

def isMarked (line : List Char) : Bool :=
  atxRe line || bulletRe line || blockquoteRe line || looksLikeFenceOpen line || thematicBreakRe line ||
    setextRe '=' line || setextRe '-' line

def escapeLeadingLine (line : List Char) : List Char :=
  match line with
  | [] => []
  | _ =>
    match orderedRe line with
    | some (digits, delim, rest) => digits ++ '\\' :: delim :: rest
    | none => if isMarked line then '\\' :: line else line

def escapeBlockLeading (text : List Char) : List Char :=
  ['\n'].intercalate ((text.splitOn '\n').map escapeLeadingLine)

/-- What `_serialize_block` writes for a paragraph of plain text. -/
def serializeText (isAlnum : Char → Bool) (text : List Char) : List Char :=
  escapeBlockLeading (escapeInline isAlnum text)

end Counselle.Essays.Escaping

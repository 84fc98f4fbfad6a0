import Counselle.Clarify.Spec
import Mathlib.Data.List.DropRight

/-! `app/workspace/essay_markdown.py`: the markdown projection of an essay's blocks, its
parser over markdown-it's tokens, and the edits that keep old blocks where they can. -/
namespace Counselle.Essays
open Clarify

abbrev Markdown := List Char

inductive NodeType where
  | paragraph
  | heading
  | bulletList
  | orderedList
  | listItem
  | blockquote
  | codeBlock
  | horizontalRule
  /-- inline nodes, and blocks of a later editor -/
  | other (name : String)
deriving DecidableEq

/-- A node's `attrs`; a null `start` or `language` reads as an absent one. -/
structure Attrs where
  level : Option Int := none
  start : Option Int := none
  language : Option Markdown := none
  /-- what the markdown does not show, such as `textAlign` -/
  others : List (String × String) := []
deriving DecidableEq

/-- A mark's type and, of a link, its `href`. -/
structure Mark where
  type : String
  href : Option Markdown := none
deriving DecidableEq

inductive Node where
  | mk (type : NodeType) (attrs : Attrs) (content : List Node) (text : Markdown) (marks : List Mark)

namespace Node

def type : Node → NodeType
  | .mk type _ _ _ _ => type

def attrs : Node → Attrs
  | .mk _ attrs _ _ _ => attrs

def content : Node → List Node
  | .mk _ _ content _ _ => content

def text : Node → Markdown
  | .mk _ _ _ text _ => text

end Node

structure Renderer where
  /-- `_escape_block_leading(_serialize_inline_content(content))` -/
  inline : List Node → Markdown
  /-- the plain-text paragraph of an unknown node -/
  unknown : Node → Markdown

/-- `"\n\n".join` -/
def joinBlocks (blocks : List Markdown) : Markdown := ['\n', '\n'].intercalate blocks

/-- `(start or 1)` -/
def listStart (attrs : Attrs) : Int :=
  let start := attrs.start.getD 1
  if start = 0 then 1 else start

/-- The marker of an item; `start` is none for a bullet list. -/
def listMarker (start : Option Int) (index : Nat) : Markdown :=
  match start with
  | some start => (start + index).repr.toList ++ ['.']
  | none => ['-']

/-- One item under its marker: the first line cut at its end, the others indented. -/
def itemText (marker content : Markdown) : Markdown :=
  let lines := content.splitOn '\n'
  let first := lines.headD []
  let opening := if first = [] then marker else (marker ++ ' ' :: first).rdropWhile isSpace
  let rest := lines.tail.map fun line =>
    if line = [] then [] else List.replicate (marker.length + 1) ' ' ++ line
  ['\n'].intercalate (opening :: rest)

/-- `_serialize_list` over its items' contents. -/
def serializeList (start : Option Int) (contents : List Markdown) : Markdown :=
  ['\n'].intercalate (contents.mapIdx fun index content => itemText (listMarker start index) content)

def quoteLine (line : Markdown) : Markdown := if line = [] then ['>'] else '>' :: ' ' :: line

/-- `_serialize_blockquote` over its blocks. -/
def serializeBlockquote (blocks : List Markdown) : Markdown :=
  ['\n'].intercalate (((joinBlocks blocks).splitOn '\n').map quoteLine)

def longestRun (text : Markdown) : Nat :=
  (text.foldl (fun (run, longest) c =>
    if c = '`' then (run + 1, max longest (run + 1)) else (0, longest)) (0, 0)).2

/-- `_serialize_code_block` -/
def serializeCode (language text : Markdown) : Markdown :=
  let fence := List.replicate (max 3 (longestRun text + 1)) '`'
  fence ++ language ++ '\n' :: (text ++ '\n' :: fence)

mutual
def serializeBlock (r : Renderer) : Node → Markdown
  | .mk type attrs content text marks =>
    match type with
    | .paragraph => r.inline content
    | .heading =>
      List.replicate (min 6 (max 1 (attrs.level.getD 1))).toNat '#' ++ ' ' :: r.inline content
    | .bulletList => serializeList none (serializeItems r content)
    | .orderedList => serializeList (some (listStart attrs)) (serializeItems r content)
    | .blockquote => serializeBlockquote (serializeBlocks r content)
    | .codeBlock => serializeCode (attrs.language.getD []) (content.map (·.text)).flatten
    | .horizontalRule => ['-', '-', '-']
    | .listItem => r.unknown (.mk .listItem attrs content text marks)
    | .other name => r.unknown (.mk (.other name) attrs content text marks)

def serializeBlocks (r : Renderer) : List Node → List Markdown
  | [] => []
  | node :: rest => serializeBlock r node :: serializeBlocks r rest

/-- `_serialize_list_item` of each item. -/
def serializeItems (r : Renderer) : List Node → List Markdown
  | [] => []
  | .mk _ _ content _ _ :: rest => joinBlocks (serializeBlocks r content) :: serializeItems r rest
end

def serializeListItem (r : Renderer) (item : Node) : Markdown :=
  joinBlocks (serializeBlocks r item.content)

def toMarkdown (r : Renderer) (content : List Node) : Markdown :=
  joinBlocks (serializeBlocks r content)

inductive TokenType where
  | paragraphOpen
  | headingOpen
  | bulletListOpen
  | bulletListClose
  | orderedListOpen
  | orderedListClose
  | listItemOpen
  | listItemClose
  | blockquoteOpen
  | blockquoteClose
  | fence
  | codeBlock
  | hr
  | other (name : String)
deriving DecidableEq

structure Token where
  type : TokenType
  level : Int
  /-- the digit of a heading's tag -/
  tagLevel : Int := 1
  content : Markdown := []
  info : Markdown := []
  /-- the `start` attribute of an ordered list -/
  start : Option Int := none
deriving DecidableEq

/-- `_find_close` behind an opening token of this level: the tokens up to the close, and
those after it. -/
def findClose (level : Int) (close : TokenType) : List Token → Option (List Token × List Token)
  | [] => none
  | tok :: rest =>
    if tok.type = close ∧ tok.level = level then some ([], rest)
    else (findClose level close rest).map fun (inside, after) => (tok :: inside, after)

theorem findClose_length {level : Int} {close : TokenType} {tokens inside after : List Token}
    (found : findClose level close tokens = some (inside, after)) :
    inside.length + after.length < tokens.length := by
  induction tokens generalizing inside after with
  | nil => cases found
  | cons tok rest ih =>
    unfold findClose at found
    split at found
    · cases found
      simp
    · obtain ⟨⟨inner, later⟩, isFound, same⟩ := Option.map_eq_some_iff.mp found
      cases same
      have short := ih isFound
      simp only [List.length_cons]
      omega

def parseCodeBlock (tok : Token) : Node :=
  let text := tok.content.rdropWhile (· = '\n')
  let language :=
    if tok.type = .fence then (tok.info.dropWhile isSpace).rdropWhile isSpace else []
  .mk .codeBlock { language := if language = [] then none else some language }
    (if text = [] then [] else [.mk (.other "text") {} [] text []]) [] []

/-- The attrs of a parsed ordered list: the default start is left out. -/
def parsedStart (tok : Token) : Attrs :=
  let start := tok.start.getD 1
  if start = 1 then {} else { start := some start }

mutual
/-- `_parse_blocks`; none is an exception of an unbalanced or cut stream. -/
def parseBlocks (parseInline : Token → List Node) : List Token → Option (List Node)
  | [] => some []
  | tok :: rest =>
    match tok.type with
    | .paragraphOpen =>
      match rest with
      | [] => none
      | inner :: rest => do
        let blocks ← parseBlocks parseInline (rest.drop 1)
        return .mk .paragraph {} (parseInline inner) [] [] :: blocks
    | .headingOpen =>
      match rest with
      | [] => none
      | inner :: rest => do
        let blocks ← parseBlocks parseInline (rest.drop 1)
        return .mk .heading { level := some tok.tagLevel } (parseInline inner) [] [] :: blocks
    | .bulletListOpen =>
      match found : findClose tok.level .bulletListClose rest with
      | none => none
      | some (inside, after) => do
        have := findClose_length found
        let items ← parseListItems parseInline inside
        let blocks ← parseBlocks parseInline after
        return .mk .bulletList {} items [] [] :: blocks
    | .orderedListOpen =>
      match found : findClose tok.level .orderedListClose rest with
      | none => none
      | some (inside, after) => do
        have := findClose_length found
        let items ← parseListItems parseInline inside
        let blocks ← parseBlocks parseInline after
        return .mk .orderedList (parsedStart tok) items [] [] :: blocks
    | .blockquoteOpen =>
      match found : findClose tok.level .blockquoteClose rest with
      | none => none
      | some (inside, after) => do
        have := findClose_length found
        let content ← parseBlocks parseInline inside
        let blocks ← parseBlocks parseInline after
        return .mk .blockquote {} content [] [] :: blocks
    | .fence | .codeBlock => do
      let blocks ← parseBlocks parseInline rest
      return parseCodeBlock tok :: blocks
    | .hr => do
      let blocks ← parseBlocks parseInline rest
      return .mk .horizontalRule {} [] [] [] :: blocks
    | _ => parseBlocks parseInline rest
termination_by tokens => tokens.length
decreasing_by all_goals (simp only [List.length_cons, List.length_drop]; omega)

/-- The loop of `_parse_list`. -/
def parseListItems (parseInline : Token → List Node) : List Token → Option (List Node)
  | [] => some []
  | tok :: rest =>
    if tok.type = .listItemOpen then
      match found : findClose tok.level .listItemClose rest with
      | none => none
      | some (inside, after) => do
        have := findClose_length found
        let content ← parseBlocks parseInline inside
        let items ← parseListItems parseInline after
        return .mk .listItem {} content [] [] :: items
    else parseListItems parseInline rest
termination_by tokens => tokens.length
decreasing_by all_goals (simp only [List.length_cons]; omega)
end

end Counselle.Essays

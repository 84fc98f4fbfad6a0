import Counselle.Essays.Markdown

/-! `apply_edits`: exact-string edits of the projection, and the reuse of the old blocks
behind every unchanged or paired piece of it. -/
namespace Counselle.Essays
open Clarify

inductive OpTag where
  | equal
  | replace
  | delete
  | insert
deriving DecidableEq

/-- An opcode of `difflib`. -/
structure Opcode where
  tag : OpTag
  i1 : Nat
  i2 : Nat
  j1 : Nat
  j2 : Nat
deriving DecidableEq

/-- `SequenceMatcher(a, b).get_opcodes()` -/
abbrev Matcher := List Markdown → List Markdown → List Opcode

/-- `xs[i:j]` -/
def slice {α : Type} (xs : List α) (i j : Nat) : List α := (xs.take j).drop i

/-- `{**old, **new}` -/
def Attrs.merge (old new : Attrs) : Attrs where
  level := new.level <|> old.level
  start := new.start <|> old.start
  language := new.language <|> old.language
  others :=
    (old.others.map fun (key, value) => (key, (new.others.lookup key).getD value)) ++
      new.others.filter fun (key, _) => (old.others.lookup key).isNone

/-- `_align_container`: each new child comes with what `_carry_node` makes of it. -/
def alignContainer (opcodes : Matcher) (render : Node → Markdown) (old : List Node)
    (new : List (Node × (Node → Node))) : List Node :=
  (opcodes (old.map render) (new.map fun (child, _) => render child)).flatMap fun op =>
    match op.tag with
    | .equal => slice old op.i1 op.i2
    | .replace =>
      if op.i2 - op.i1 = op.j2 - op.j1 then
        List.zipWith (fun old (_, carry) => carry old) (slice old op.i1 op.i2)
          (slice new op.j1 op.j2)
      else (slice new op.j1 op.j2).map Prod.fst
    | _ => (slice new op.j1 op.j2).map Prod.fst

mutual
/-- `_carry_node`, the new node before the old one. -/
def carryNode (r : Renderer) (opcodes : Matcher) : Node → Node → Node
  | .mk type attrs content text marks, old =>
    if old.type ≠ type then .mk type attrs content text marks
    else
      let merged := old.attrs.merge attrs
      match type with
      | .blockquote | .listItem =>
        .mk type merged (alignContainer opcodes (serializeBlock r) old.content
          (withCarry r opcodes content)) text marks
      | .bulletList | .orderedList =>
        .mk type merged (alignContainer opcodes (serializeListItem r) old.content
          (withCarry r opcodes content)) text marks
      | _ => .mk type merged content text marks

def withCarry (r : Renderer) (opcodes : Matcher) : List Node → List (Node × (Node → Node))
  | [] => []
  | node :: rest => (node, carryNode r opcodes node) :: withCarry r opcodes rest
end

/-- `_align_container` over the blocks of a document. -/
def alignBlocks (r : Renderer) (opcodes : Matcher) (old new : List Node) : List Node :=
  alignContainer opcodes (serializeBlock r) old (withCarry r opcodes new)

structure Edit where
  oldText : Markdown
  newText : Markdown

inductive EditReason where
  | notFound
  | ambiguous
deriving DecidableEq

structure EssayEditError where
  index : Nat
  reason : EditReason
  detail : String
deriving DecidableEq

/-- Occurrences that do not overlap; `skip` characters still belong to the last one. -/
def countFrom (needle : Markdown) : Nat → Markdown → Nat
  | _, [] => 0
  | 0, c :: rest =>
    if needle.isPrefixOf (c :: rest) then countFrom needle (needle.length - 1) rest + 1
    else countFrom needle 0 rest
  | skip + 1, _ :: rest => countFrom needle skip rest

/-- `str.count` -/
def count (text needle : Markdown) : Nat :=
  if needle = [] then text.length + 1 else countFrom needle 0 text

/-- `str.replace(needle, replacement, 1)` -/
def replaceFirst (needle replacement : Markdown) : Markdown → Markdown
  | [] => if needle = [] then replacement else []
  | c :: rest =>
    if needle.isPrefixOf (c :: rest) then replacement ++ (c :: rest).drop needle.length
    else c :: replaceFirst needle replacement rest

/-- `re.sub(r"\s+", " ", text)`, inside a run of blanks or not. -/
def collapseBlanks (inside : Bool) : Markdown → Markdown
  | [] => []
  | c :: rest =>
    if isSpace c then if inside then collapseBlanks true rest else ' ' :: collapseBlanks true rest
    else c :: collapseBlanks false rest

def notFoundDetail (lower : Markdown → Markdown) (current target : Markdown) : String :=
  let target := lower (((collapseBlanks false target).dropWhile isSpace).rdropWhile isSpace)
  let current := lower (collapseBlanks false current)
  if target ≠ [] ∧ count current target ≠ 0 then
    "text not found verbatim, but a case- or whitespace-normalized match exists — " ++
      "did the text change? re-read the essay"
  else
    "text not found in the essay — re-read the essay and rebuild the edit against the " ++
      "current text"

def editText (lower : Markdown → Markdown) : Nat → List Edit → Markdown →
    Except EssayEditError Markdown
  | _, [], current => .ok current
  | index, edit :: rest, current =>
    match count current edit.oldText with
    | 0 => .error ⟨index, .notFound, notFoundDetail lower current edit.oldText⟩
    | 1 => editText lower (index + 1) rest (replaceFirst edit.oldText edit.newText current)
    | found =>
      .error ⟨index, .ambiguous, "found " ++ toString found ++
        " occurrences — include more surrounding text to make it unique"⟩

structure MarkdownIt where
  tokenize : Markdown → List Token
  parseInline : Token → List Node

/-- `_parse_markdown_blocks` -/
def MarkdownIt.parse (it : MarkdownIt) (markdown : Markdown) : Option (List Node) :=
  if markdown.all isSpace then some [] else parseBlocks it.parseInline (it.tokenize markdown)

def orParagraph (blocks : List Node) : List Node :=
  if blocks.isEmpty then [.mk .paragraph {} [] [] []] else blocks

def MarkdownIt.toTiptap (it : MarkdownIt) (markdown : Markdown) : Option (List Node) :=
  (it.parse markdown).map orParagraph

inductive EditFailure where
  | essayEdit (error : EssayEditError)
  | unbalanced

/-- `apply_edits`: the new document's blocks and the number of edits applied. -/
def applyEdits (r : Renderer) (opcodes : Matcher) (it : MarkdownIt) (lower : Markdown → Markdown)
    (content : List Node) (edits : List Edit) : Except EditFailure (List Node × Nat) :=
  match editText lower 0 edits (toMarkdown r content) with
  | .error error => .error (.essayEdit error)
  | .ok current =>
    match it.parse current with
    | none => .error .unbalanced
    | some new => .ok (orParagraph (alignBlocks r opcodes content new), edits.length)

end Counselle.Essays

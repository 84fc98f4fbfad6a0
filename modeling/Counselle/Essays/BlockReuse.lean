import Counselle.Essays.BlockEdits

/-! When reusing the old blocks leaves the essay's text alone. -/
namespace Counselle.Essays
open Clarify

/-- For each new child the old one it takes its attrs from, if any. -/
def carriedFrom (opcodes : Matcher) (render : Node → Markdown) (old new : List Node) :
    List (Option Node) :=
  (opcodes (old.map render) (new.map render)).flatMap fun op =>
    match op.tag with
    | .replace =>
      if op.i2 - op.i1 = op.j2 - op.j1 then (slice old op.i1 op.i2).map some
      else List.replicate (op.j2 - op.j1) none
    | _ => List.replicate (op.j2 - op.j1) none

/-- Every pair agrees; only the first child is at the cut end of a line. -/
def agreeAll : Bool → List (Option Node) → List (Bool → Node → Bool) → Bool
  | trim, some old :: carried, agree :: rest => agree trim old && agreeAll false carried rest
  | _, none :: carried, _ :: rest => agreeAll false carried rest
  | _, _, _ => true

mutual
/-- What a new node says nothing of, the old node it is paired with does not show either:
the start of a list with items, and the language of a code block (where the code block
opens a list item, blanks at the end of its first line do not show). -/
def agrees (r : Renderer) (opcodes : Matcher) : Node → Bool → Node → Bool
  | .mk type attrs content _ _, trim, old =>
    if old.type ≠ type then true
    else
      match type with
      | .codeBlock =>
        attrs.language.isSome || (old.attrs.language.getD []).isEmpty ||
          trim && (old.attrs.language.getD []).all fun c => isSpace c && c != '\n'
      | .blockquote =>
        agreeAll trim (carriedFrom opcodes (serializeBlock r) old.content content)
          (allAgree r opcodes content)
      | .listItem =>
        agreeAll true (carriedFrom opcodes (serializeBlock r) old.content content)
          (allAgree r opcodes content)
      | .bulletList =>
        agreeAll false (carriedFrom opcodes (serializeListItem r) old.content content)
          (allAgree r opcodes content)
      | .orderedList =>
        (content.isEmpty || attrs.start.isSome || listStart old.attrs == 1) &&
          agreeAll false (carriedFrom opcodes (serializeListItem r) old.content content)
            (allAgree r opcodes content)
      | _ => true

def allAgree (r : Renderer) (opcodes : Matcher) : List Node → List (Bool → Node → Bool)
  | [] => []
  | node :: rest => agrees r opcodes node :: allAgree r opcodes rest
end

/-- The condition on an old document and the parsed edit of it. -/
def blocksAgree (r : Renderer) (opcodes : Matcher) (old new : List Node) : Bool :=
  agreeAll false (carriedFrom opcodes (serializeBlock r) old new) (allAgree r opcodes new)

mutual
/-- A block of the parser: a heading has its level, a list holds items only. -/
def Parsed : Node → Prop
  | .mk type attrs content _ _ =>
    match type with
    | .paragraph | .codeBlock | .horizontalRule => True
    | .heading => attrs.level.isSome
    | .bulletList | .orderedList => ParsedItems content
    | .blockquote => ParsedAll content
    | .listItem | .other _ => False

def ParsedAll : List Node → Prop
  | [] => True
  | node :: rest => Parsed node ∧ ParsedAll rest

def ParsedItems : List Node → Prop
  | [] => True
  | .mk type _ content _ _ :: rest => type = .listItem ∧ ParsedAll content ∧ ParsedItems rest
end

/-- Both loops at once, by the number of tokens left. -/
theorem parse_parsed (parseInline : Token → List Node) (bound : Nat) :
    (∀ tokens : List Token, tokens.length < bound → ∀ blocks,
      parseBlocks parseInline tokens = some blocks → ParsedAll blocks) ∧
    (∀ tokens : List Token, tokens.length < bound → ∀ items,
      parseListItems parseInline tokens = some items → ParsedItems items) := by
  induction bound with
  | zero => exact ⟨fun _ short => by omega, fun _ short => by omega⟩
  | succ bound ih =>
    obtain ⟨blocksIh, itemsIh⟩ := ih
    refine ⟨fun tokens short blocks parsed => ?_, fun tokens short items parsed => ?_⟩
    · cases tokens with
      | nil =>
        rw [parseBlocks] at parsed
        cases parsed
        trivial
      | cons tok rest =>
        rw [parseBlocks.eq_def] at parsed
        simp only [List.length_cons] at short
        simp only at parsed
        split at parsed
        case h_1 =>
          split at parsed
          · cases parsed
          · obtain ⟨later, isLater, parsed⟩ := Option.bind_eq_some_iff.mp parsed
            cases parsed
            exact ⟨trivial, blocksIh _ (by simp_all; omega) later isLater⟩
        case h_2 =>
          split at parsed
          · cases parsed
          · obtain ⟨later, isLater, parsed⟩ := Option.bind_eq_some_iff.mp parsed
            cases parsed
            exact ⟨rfl, blocksIh _ (by simp_all; omega) later isLater⟩
        case h_3 =>
          split at parsed
          · cases parsed
          case h_2 inside after found =>
            have shorter := findClose_length found
            obtain ⟨items, isItems, parsed⟩ := Option.bind_eq_some_iff.mp parsed
            obtain ⟨later, isLater, parsed⟩ := Option.bind_eq_some_iff.mp parsed
            cases parsed
            exact ⟨itemsIh inside (by omega) items isItems, blocksIh after (by omega) later isLater⟩
        case h_4 =>
          split at parsed
          · cases parsed
          case h_2 inside after found =>
            have shorter := findClose_length found
            obtain ⟨items, isItems, parsed⟩ := Option.bind_eq_some_iff.mp parsed
            obtain ⟨later, isLater, parsed⟩ := Option.bind_eq_some_iff.mp parsed
            cases parsed
            exact ⟨itemsIh inside (by omega) items isItems, blocksIh after (by omega) later isLater⟩
        case h_5 =>
          split at parsed
          · cases parsed
          case h_2 inside after found =>
            have shorter := findClose_length found
            obtain ⟨content, isContent, parsed⟩ := Option.bind_eq_some_iff.mp parsed
            obtain ⟨later, isLater, parsed⟩ := Option.bind_eq_some_iff.mp parsed
            cases parsed
            exact ⟨blocksIh inside (by omega) content isContent,
              blocksIh after (by omega) later isLater⟩
        case h_9 => exact blocksIh rest (by omega) blocks parsed
        -- a code block or a rule is one token
        all_goals
          obtain ⟨later, isLater, parsed⟩ := Option.bind_eq_some_iff.mp parsed
          cases parsed
          exact ⟨trivial, blocksIh rest (by omega) later isLater⟩
    · cases tokens with
      | nil =>
        rw [parseListItems] at parsed
        cases parsed
        trivial
      | cons tok rest =>
        rw [parseListItems] at parsed
        simp only [List.length_cons] at short
        split at parsed
        · split at parsed
          · cases parsed
          case h_2 inside after found =>
            have shorter := findClose_length found
            obtain ⟨content, isContent, parsed⟩ := Option.bind_eq_some_iff.mp parsed
            obtain ⟨later, isLater, parsed⟩ := Option.bind_eq_some_iff.mp parsed
            cases parsed
            exact ⟨rfl, blocksIh inside (by omega) content isContent,
              itemsIh after (by omega) later isLater⟩
        · exact itemsIh rest (by omega) items parsed

theorem parse_parsedAll {it : MarkdownIt} {markdown : Markdown} {new : List Node}
    (parsed : it.parse markdown = some new) : ParsedAll new := by
  unfold MarkdownIt.parse at parsed
  split at parsed
  · cases parsed
    trivial
  · exact (parse_parsed it.parseInline _).1 _ (Nat.lt_succ_self _) new parsed

end Counselle.Essays

import Counselle.Essays.Tiptap
import Counselle.PyText
import Counselle.Words
import Mathlib

/-! The words of an essay: the count that the server stores with it and the one that the
editor shows. The server joins the text nodes with a blank; the editor has blanks between
blocks and at hard breaks only. -/
namespace Counselle.Essays
open PyText (isSpace strip)
open Words (collapse starts freshAfter)

def ownText (entries : List (String × Json)) : List (List Char) :=
  match entries.lookup "text" with
  | some (.str text) => [text.toList]
  | _ => []

mutual
def tiptapText : Json → List (List Char)
  | .obj entries => ownText entries ++ contentTexts entries
  | .arr items => itemTexts items
  | _ => []

/-- The texts of `node.get("content", [])`. -/
def contentTexts : List (String × Json) → List (List Char)
  | [] => []
  | (key, .arr items) :: rest => if key = "content" then itemTexts items else contentTexts rest
  | (key, _) :: rest => if key = "content" then [] else contentTexts rest

def itemTexts : List Json → List (List Char)
  | [] => []
  | item :: rest => tiptapText item ++ itemTexts rest
end

/-- `text.split()` -/
def pySplit (text : List Char) : List (List Char) :=
  (text.splitOnP isSpace).filter (!·.isEmpty)

def wordCount (content : Json) : Nat :=
  let text := [' '].intercalate (tiptapText content)
  let normalized := strip (collapse isSpace false text)
  if normalized = [] then 0 else (pySplit normalized).length

/-- `\s` of a JavaScript expression, and what `trim` takes off. -/
def jsBlank (c : Char) : Bool :=
  let n := c.toNat
  (9 ≤ n && n ≤ 13) || n == 0x20 || n == 0xa0 || n == 0x1680 || (0x2000 ≤ n && n ≤ 0x200a) ||
    n == 0x2028 || n == 0x2029 || n == 0x202f || n == 0x205f || n == 0x3000 || n == 0xfeff

def trim (text : List Char) : List Char := (text.dropWhile jsBlank).rdropWhile jsBlank

/-- `text.split(/\s+/)` -/
def splitBlanks (text : List Char) : List (List Char) := (collapse jsBlank false text).splitOnP jsBlank

def countWords (text : List Char) : Nat :=
  ((splitBlanks (trim text)).filter fun word => word.length > 0).length

inductive DocNode where
  | text (text : String) (marks : List Json)
  | hardBreak (marks : List Json)
  | block (type : String) (attrs : List (String × Json)) (content : List DocNode)

def marksEntry (marks : List Json) : List (String × Json) :=
  if marks = [] then [] else [("marks", .arr marks)]

mutual
/-- `node.toJSON()` -/
def DocNode.toJson : DocNode → Json
  | .text text marks => .obj ([("type", .str "text"), ("text", .str text)] ++ marksEntry marks)
  | .hardBreak marks => .obj (("type", .str "hardBreak") :: marksEntry marks)
  | .block type attrs [] => .obj [("type", .str type), ("attrs", .obj attrs)]
  | .block type attrs (node :: rest) =>
    .obj [("type", .str type), ("attrs", .obj attrs), ("content", .arr (node.toJson :: nodesJson rest))]

def nodesJson : List DocNode → List Json
  | [] => []
  | node :: rest => node.toJson :: nodesJson rest
end

def docJson (content : List DocNode) : Json := DocNode.toJson (.block "doc" [] content)

mutual
/-- A node's text behind others: the separator before a block, a line end for a break. -/
def DocNode.textBetween (separator : List Char) : DocNode → List Char
  | .text text _ => text.toList
  | .hardBreak _ => ['\n']
  | .block _ _ content => separator ++ nodesBetween separator content

def nodesBetween (separator : List Char) : List DocNode → List Char
  | [] => []
  | node :: rest => node.textBetween separator ++ nodesBetween separator rest
end

/-- No separator stands before the block that the document begins with. -/
def docText (separator : List Char) : List DocNode → List Char
  | .block _ _ content :: rest => nodesBetween separator content ++ nodesBetween separator rest
  | content => nodesBetween separator content

/-- `editor.getText()` of the editor's library: the texts of the nodes, with a blank
separator between blocks. -/
structure EditorText where
  getText : List DocNode → List Char
  separator : List Char
  blank : separator ≠ [] ∧ ∀ c ∈ separator, jsBlank c = true
  documented : ∀ content, getText content = docText separator content

/-- What a reader of the document passes: the begin of a text node, a character, and the
space between two blocks or at a hard break. -/
inductive TextEvent where
  | node
  | char (c : Char)
  | gap

mutual
def DocNode.marks : DocNode → List TextEvent
  | .text text _ => .node :: text.toList.map .char
  | .hardBreak _ => [.gap]
  | .block _ _ content => .gap :: nodesMarks content

def nodesMarks : List DocNode → List TextEvent
  | [] => []
  | node :: rest => node.marks ++ nodesMarks rest
end

def serverStarts : Bool → List TextEvent → Nat
  | _, [] => 0
  | _, .node :: rest => serverStarts true rest
  | fresh, .gap :: rest => serverStarts fresh rest
  | fresh, .char c :: rest =>
    if isSpace c then serverStarts true rest else (if fresh then 1 else 0) + serverStarts false rest

def editorStarts : Bool → List TextEvent → Nat
  | _, [] => 0
  | fresh, .node :: rest => editorStarts fresh rest
  | _, .gap :: rest => editorStarts true rest
  | fresh, .char c :: rest =>
    if jsBlank c then editorStarts true rest else (if fresh then 1 else 0) + editorStarts false rest

/-- The characters that begin a word for the server only: behind the begin of a text node or
one of Python's blanks, where the editor is inside a word or sees a blank. -/
def serverOnly : Bool → Bool → List TextEvent → Nat
  | _, _, [] => 0
  | _, editor, .node :: rest => serverOnly true editor rest
  | server, _, .gap :: rest => serverOnly server true rest
  | server, editor, .char c :: rest =>
    (if (server && !isSpace c) && !(editor && !jsBlank c) then 1 else 0) +
      serverOnly (isSpace c) (jsBlank c) rest

/-- The characters that begin a word for the editor only. -/
def editorOnly : Bool → Bool → List TextEvent → Nat
  | _, _, [] => 0
  | _, editor, .node :: rest => editorOnly true editor rest
  | server, _, .gap :: rest => editorOnly server true rest
  | server, editor, .char c :: rest =>
    (if (editor && !jsBlank c) && !(server && !isSpace c) then 1 else 0) +
      editorOnly (isSpace c) (jsBlank c) rest

/-- The places where two text nodes of one line meet inside a word. -/
def seams : Bool → Bool → List TextEvent → Nat
  | _, _, [] => 0
  | _, inside, .node :: rest => seams true inside rest
  | edge, _, .gap :: rest => seams edge false rest
  | edge, inside, .char c :: rest =>
    (if edge && inside && !isSpace c then 1 else 0) + seams false (!isSpace c) rest

theorem starts_difference (server editor : Bool) (marks : List TextEvent) :
    serverStarts server marks + editorOnly server editor marks =
      editorStarts editor marks + serverOnly server editor marks := by
  induction marks generalizing server editor with
  | nil => rfl
  | cons mark rest ih =>
    cases mark with
    | node => exact ih true editor
    | gap => exact ih server true
    | char c =>
      have step := ih (isSpace c) (jsBlank c)
      rw [serverStarts, editorStarts, serverOnly, editorOnly]
      cases space : isSpace c <;> cases blank : jsBlank c <;> rw [space, blank] at step <;>
        cases server <;> cases editor <;> simp <;> omega

mutual
def DocNode.texts : DocNode → List (List Char)
  | .text text _ => [text.toList]
  | .hardBreak _ => []
  | .block _ _ content => nodesTexts content

def nodesTexts : List DocNode → List (List Char)
  | [] => []
  | node :: rest => node.texts ++ nodesTexts rest
end

theorem tiptapText_marks (marks : List Json) :
    ownText (marksEntry marks) = [] ∧ contentTexts (marksEntry marks) = [] := by
  unfold marksEntry
  split <;> exact ⟨rfl, rfl⟩

mutual
theorem tiptapText_toJson : ∀ node : DocNode, tiptapText node.toJson = node.texts
  | .text text marks => by
    have rest := (tiptapText_marks marks).2
    simp [DocNode.toJson, DocNode.texts, tiptapText, ownText, contentTexts, List.lookup, rest]
  | .hardBreak marks => by
    obtain ⟨own, rest⟩ := tiptapText_marks marks
    simp only [ownText] at own
    simp [DocNode.toJson, DocNode.texts, tiptapText, ownText, contentTexts, List.lookup, own, rest]
  | .block type attrs [] => by
    simp [DocNode.toJson, DocNode.texts, nodesTexts, tiptapText, ownText, contentTexts, List.lookup]
  | .block type attrs (node :: rest) => by
    have first := tiptapText_toJson node
    have later := itemTexts_nodesJson rest
    simp [DocNode.toJson, DocNode.texts, nodesTexts, tiptapText, ownText, contentTexts, itemTexts,
      List.lookup, first, later]

theorem itemTexts_nodesJson : ∀ content : List DocNode, itemTexts (nodesJson content) = nodesTexts content
  | [] => rfl
  | node :: rest => by
    rw [nodesJson, itemTexts, tiptapText_toJson node, itemTexts_nodesJson rest, nodesTexts]
end

theorem starts_intercalate (texts : List (List Char)) :
    starts isSpace true ([' '].intercalate texts) = (texts.map (starts isSpace true)).sum := by
  induction texts with
  | nil => rfl
  | cons text rest ih =>
    cases rest with
    | nil => simp
    | cons other more =>
      rw [List.intercalate_cons_cons, List.append_assoc, Words.starts_append]
      have space : ∀ fresh, starts isSpace fresh ([' '] ++ [' '].intercalate (other :: more)) =
          starts isSpace true ([' '].intercalate (other :: more)) := by
        intro fresh
        rw [List.singleton_append, starts, if_pos (by decide)]
      rw [space, ih]
      rfl

theorem wordCount_eq (content : Json) :
    wordCount content = ((tiptapText content).map (starts isSpace true)).sum := by
  have pieces := (Words.starts_splitOnP isSpace
    (strip (collapse isSpace false ([' '].intercalate (tiptapText content))))).1
  have stripped : starts isSpace true (strip (collapse isSpace false ([' '].intercalate (tiptapText content)))) =
      starts isSpace true ([' '].intercalate (tiptapText content)) := by
    rw [PyText.strip_eq, Words.starts_rdropWhile, Words.starts_dropWhile,
      Words.starts_collapse (by decide) fun _ => rfl]
  rw [stripped, starts_intercalate] at pieces
  simp only [wordCount]
  split
  case isTrue empty =>
    rw [empty] at pieces
    exact pieces
  case isFalse => exact pieces

theorem serverStarts_append (fresh : Bool) (marks : List TextEvent) :
    ∃ after, ∀ more, serverStarts fresh (marks ++ more) =
      serverStarts fresh marks + serverStarts after more := by
  induction marks generalizing fresh with
  | nil => exact ⟨fresh, fun more => by simp [serverStarts]⟩
  | cons mark rest ih =>
    cases mark with
    | node => exact ih true
    | gap => exact ih fresh
    | char c =>
      obtain ⟨after, split⟩ := ih (isSpace c)
      refine ⟨after, fun more => ?_⟩
      have step := split more
      rw [List.cons_append, serverStarts, serverStarts]
      cases space : isSpace c with
      | true => simpa [space] using step
      | false =>
        rw [space] at step
        simp [step, Nat.add_assoc]

theorem serverStarts_chars (fresh : Bool) (text : List Char) :
    serverStarts fresh (text.map .char) = starts isSpace fresh text := by
  induction text generalizing fresh with
  | nil => rfl
  | cons c text ih =>
    rw [List.map_cons, serverStarts, starts, ih, ih]

mutual
theorem serverStarts_marks : ∀ (node : DocNode) (fresh : Bool),
    serverStarts fresh node.marks = (node.texts.map (starts isSpace true)).sum
  | .text text marks, fresh => by
    rw [DocNode.marks, serverStarts, serverStarts_chars]
    simp [DocNode.texts]
  | .hardBreak _, _ => rfl
  | .block _ _ content, fresh => serverStarts_nodes content fresh

theorem serverStarts_nodes : ∀ (content : List DocNode) (fresh : Bool),
    serverStarts fresh (nodesMarks content) = ((nodesTexts content).map (starts isSpace true)).sum
  | [], _ => rfl
  | node :: rest, fresh => by
    obtain ⟨after, split⟩ := serverStarts_append fresh node.marks
    rw [nodesMarks, split, serverStarts_marks node, serverStarts_nodes rest, nodesTexts, List.map_append,
      List.sum_append]
end

theorem wordCount_docJson (content : List DocNode) :
    wordCount (docJson content) = serverStarts true (nodesMarks content) := by
  rw [wordCount_eq, docJson, tiptapText_toJson, serverStarts_nodes]
  rfl

theorem countWords_eq (text : List Char) : countWords text = starts jsBlank true text := by
  have pieces := (Words.starts_splitOnP jsBlank (collapse jsBlank false (trim text))).1
  have trimmed : starts jsBlank true (collapse jsBlank false (trim text)) = starts jsBlank true text := by
    rw [Words.starts_collapse (by decide) fun _ => rfl, trim, Words.starts_rdropWhile,
      Words.starts_dropWhile]
  have nonempty : ∀ word : List Char, decide (word.length > 0) = !word.isEmpty := by
    intro word
    cases word <;> simp
  rw [trimmed] at pieces
  simpa only [countWords, splitBlanks, nonempty] using pieces

def editorAfter : Bool → List TextEvent → Bool
  | fresh, [] => fresh
  | fresh, .node :: rest => editorAfter fresh rest
  | _, .gap :: rest => editorAfter true rest
  | _, .char c :: rest => editorAfter (jsBlank c) rest

theorem editorStarts_append (fresh : Bool) (marks more : List TextEvent) :
    editorStarts fresh (marks ++ more) =
      editorStarts fresh marks + editorStarts (editorAfter fresh marks) more ∧
    editorAfter fresh (marks ++ more) = editorAfter (editorAfter fresh marks) more := by
  induction marks generalizing fresh with
  | nil => simp [editorStarts, editorAfter]
  | cons mark rest ih =>
    cases mark with
    | node => exact ih fresh
    | gap => exact ih true
    | char c =>
      obtain ⟨step, after⟩ := ih (jsBlank c)
      refine ⟨?_, after⟩
      rw [List.cons_append, editorStarts, editorStarts, editorAfter]
      cases blank : jsBlank c with
      | true => simpa [blank] using step
      | false =>
        rw [blank] at step
        simp [step, Nat.add_assoc]

theorem editorStarts_chars (fresh : Bool) (text : List Char) :
    editorStarts fresh (text.map .char) = starts jsBlank fresh text ∧
      editorAfter fresh (text.map .char) = freshAfter jsBlank fresh text := by
  induction text generalizing fresh with
  | nil => exact ⟨rfl, rfl⟩
  | cons c text ih =>
    refine ⟨?_, (ih (jsBlank c)).2⟩
    rw [List.map_cons, editorStarts, starts, (ih true).1, (ih false).1]

theorem freshAfter_blanks {separator : List Char}
    (blank : separator ≠ [] ∧ ∀ c ∈ separator, jsBlank c = true) (fresh : Bool) :
    freshAfter jsBlank fresh separator = true := by
  obtain ⟨first, last, rfl⟩ := (List.eq_nil_or_concat' separator).resolve_left blank.1
  rw [Words.freshAfter_append]
  exact blank.2 last (by simp)

section
variable {separator : List Char} (blank : separator ≠ [] ∧ ∀ c ∈ separator, jsBlank c = true)
include blank

mutual
/-- By induction on the document: its text and its marks begin the same words. -/
theorem starts_textBetween : ∀ (node : DocNode) (fresh : Bool),
    starts jsBlank fresh (node.textBetween separator) = editorStarts fresh node.marks ∧
      freshAfter jsBlank fresh (node.textBetween separator) = editorAfter fresh node.marks
  | .text text _, fresh => by
    obtain ⟨same, after⟩ := editorStarts_chars fresh text.toList
    exact ⟨same.symm, after.symm⟩
  | .hardBreak _, fresh => by
    cases fresh <;> exact ⟨rfl, rfl⟩
  | .block _ _ content, fresh => by
    obtain ⟨same, after⟩ := starts_nodesBetween content true
    rw [DocNode.textBetween, DocNode.marks, editorStarts, editorAfter, Words.starts_append,
      Words.freshAfter_append, freshAfter_blanks blank, Words.starts_blanks fresh blank.2, Nat.zero_add]
    exact ⟨same, after⟩

theorem starts_nodesBetween : ∀ (content : List DocNode) (fresh : Bool),
    starts jsBlank fresh (nodesBetween separator content) = editorStarts fresh (nodesMarks content) ∧
      freshAfter jsBlank fresh (nodesBetween separator content) = editorAfter fresh (nodesMarks content)
  | [], _ => ⟨rfl, rfl⟩
  | node :: rest, fresh => by
    obtain ⟨first, after⟩ := starts_textBetween node fresh
    obtain ⟨later, last⟩ := starts_nodesBetween rest (editorAfter fresh node.marks)
    obtain ⟨split, splitAfter⟩ := editorStarts_append fresh node.marks (nodesMarks rest)
    rw [nodesBetween, nodesMarks, Words.starts_append, Words.freshAfter_append, first, after, later, last,
      split, splitAfter]
    exact ⟨rfl, rfl⟩
end

theorem starts_docText (content : List DocNode) :
    starts jsBlank true (docText separator content) = editorStarts true (nodesMarks content) := by
  cases content with
  | nil => rfl
  | cons node rest =>
    cases node with
    | text text marks => exact (starts_nodesBetween blank (.text text marks :: rest) true).1
    | hardBreak marks => exact (starts_nodesBetween blank (.hardBreak marks :: rest) true).1
    | block type attrs inner =>
      obtain ⟨first, after⟩ := starts_nodesBetween blank inner true
      obtain ⟨later, -⟩ := starts_nodesBetween blank rest (editorAfter true (nodesMarks inner))
      have split := (editorStarts_append true (nodesMarks inner) (nodesMarks rest)).1
      rw [docText, Words.starts_append, first, after, later, ← split]
      rfl

end

theorem countWords_getText (editor : EditorText) (content : List DocNode) :
    countWords (editor.getText content) = editorStarts true (nodesMarks content) := by
  rw [countWords_eq, editor.documented, starts_docText editor.blank]

/-- No character that one side takes for a blank and the other does not: U+FEFF, the
separators U+001C to U+001F, and U+0085. -/
def Agreed (marks : List TextEvent) : Prop := ∀ c, TextEvent.char c ∈ marks → isSpace c = jsBlank c

theorem editorOnly_append (server editor : Bool) (marks : List TextEvent) :
    ∃ server' editor', ∀ more, editorOnly server editor (marks ++ more) =
      editorOnly server editor marks + editorOnly server' editor' more := by
  induction marks generalizing server editor with
  | nil => exact ⟨server, editor, fun more => by simp [editorOnly]⟩
  | cons mark rest ih =>
    cases mark with
    | node => exact ih true editor
    | gap => exact ih server true
    | char c =>
      obtain ⟨server', editor', split⟩ := ih (isSpace c) (jsBlank c)
      exact ⟨server', editor', fun more => by
        rw [List.cons_append, editorOnly, editorOnly, split, Nat.add_assoc]⟩

theorem editorOnly_chars {text : List Char} (agreed : Agreed (text.map .char)) {server editor : Bool}
    (implied : editor = true → server = true) : editorOnly server editor (text.map .char) = 0 := by
  induction text generalizing server editor with
  | nil => rfl
  | cons c text ih =>
    have same := agreed c (by simp)
    have rest := @ih (fun d isIn => agreed d (by simp only [List.map_cons]; exact List.mem_cons_of_mem _ isIn))
      (isSpace c) (jsBlank c) (by simp [same])
    rw [List.map_cons, editorOnly, rest, same]
    cases editor with
    | false => simp
    | true => simp [implied rfl]

mutual
theorem editorOnly_marks : ∀ (node : DocNode) (server editor : Bool), Agreed node.marks →
    editorOnly server editor node.marks = 0
  | .text _ _, _, _, agreed =>
    editorOnly_chars (fun c isIn => agreed c (List.mem_cons_of_mem _ isIn)) fun _ => rfl
  | .hardBreak _, _, _, _ => rfl
  | .block _ _ content, server, _, agreed =>
    editorOnly_nodes content server true fun c isIn => agreed c (List.mem_cons_of_mem _ isIn)

theorem editorOnly_nodes : ∀ (content : List DocNode) (server editor : Bool), Agreed (nodesMarks content) →
    editorOnly server editor (nodesMarks content) = 0
  | [], _, _, _ => rfl
  | node :: rest, server, editor, agreed => by
    obtain ⟨server', editor', split⟩ := editorOnly_append server editor node.marks
    rw [nodesMarks, split, editorOnly_marks node server editor fun c isIn =>
        agreed c (List.mem_append_left _ isIn),
      editorOnly_nodes rest server' editor' fun c isIn => agreed c (List.mem_append_right _ isIn)]
end

theorem serverOnly_seams {marks : List TextEvent} (agreed : Agreed marks) {server inside edge : Bool}
    (tied : inside = true → server = edge) : serverOnly server (!inside) marks = seams edge inside marks := by
  induction marks generalizing server inside edge with
  | nil => rfl
  | cons mark rest ih =>
    have later : Agreed rest := fun c isIn => agreed c (List.mem_cons_of_mem _ isIn)
    cases mark with
    | node => exact ih later fun _ => rfl
    | gap => exact @ih later server false edge fun bad => absurd bad (by decide)
    | char c =>
      have same := agreed c List.mem_cons_self
      have step := @ih later (isSpace c) (!isSpace c) false (by simp)
      rw [serverOnly, seams, ← same]
      rw [Bool.not_not] at step
      rw [step]
      cases inside with
      | false => cases isSpace c <;> simp
      | true =>
        obtain rfl := tied rfl
        simp

/-- The count that is stored is the one that is shown exactly when as many characters begin
a word for the server only as for the editor only; where the blanks agree, exactly when no
two text nodes meet inside a word. -/
theorem counts_agree_iff (editor : EditorText) (content : List DocNode) :
    (wordCount (docJson content) = countWords (editor.getText content) ↔
      serverOnly true true (nodesMarks content) = editorOnly true true (nodesMarks content)) ∧
    (Agreed (nodesMarks content) →
      (wordCount (docJson content) = countWords (editor.getText content) ↔
        seams true false (nodesMarks content) = 0)) := by
  have difference := starts_difference true true (nodesMarks content)
  rw [wordCount_docJson, countWords_getText]
  refine ⟨by omega, fun agreed => ?_⟩
  have none := editorOnly_nodes content true true agreed
  have own := @serverOnly_seams _ agreed true false true fun bad => absurd bad (by decide)
  rw [Bool.not_false] at own
  omega

def tiptap : EditorText where
  getText := docText ['\n', '\n']
  separator := ['\n', '\n']
  blank := ⟨by simp, by simp [jsBlank]⟩
  documented := fun _ => rfl

/-- One word with its end in bold: two words to the server. -/
theorem bold_end_counted_twice :
    let content := [DocNode.block "paragraph" []
      [.text "inter" [], .text "national" [.obj [("type", .str "bold")]]]]
    wordCount (docJson content) = 2 ∧ countWords (tiptap.getText content) = 1 := by
  decide

end Counselle.Essays

import Counselle.Essays.BlockEdits
import Counselle.Essays.WordCount
import Mathlib.Data.List.Sort

/-! "N if you accept all": the count that the editor projects, `word-projection.ts`, and what
accepting all leaves, `service_essays.py`. The document is the texts of its textblocks, in
plain text, where the markdown of a suggestion is its plain text. -/
namespace Counselle.Essays

abbrev Suggestion := Edit

/-- `text.indexOf(needle)`, `offset` characters further on. -/
def indexOfFrom (needle : List Char) : Nat → List Char → Option Nat
  | offset, [] => if needle = [] then some offset else none
  | offset, c :: rest =>
    if needle.isPrefixOf (c :: rest) then some offset else indexOfFrom needle (offset + 1) rest

/-- `text.indexOf(needle, start)` -/
def indexOf (text needle : List Char) (start : Nat) : Option Nat :=
  indexOfFrom needle (min start text.length) (text.drop start)

/-- Positions of the document are taken as offsets in its text. -/
structure ResolvedSuggestion where
  start : Option Nat
  stale : Bool
  suggestion : Suggestion

def resolveSuggestion (text : List Char) (suggestion : Suggestion) : ResolvedSuggestion :=
  match indexOf text suggestion.oldText 0 with
  | none => ⟨none, true, suggestion⟩
  | some first =>
    match indexOf text suggestion.oldText (first + 1) with
    | some _ => ⟨none, true, suggestion⟩
    | none => ⟨some first, false, suggestion⟩

structure FlatEdit where
  stop : Nat
  start : Nat
  text : List Char

structure FlatDocument where
  breaks : List Nat
  text : List Char

/-- The loop of `flattenDocument` behind the first textblock. -/
def flattenMore : FlatDocument → List (List Char) → FlatDocument
  | flat, [] => flat
  | flat, block :: rest => flattenMore ⟨flat.breaks ++ [flat.text.length], flat.text ++ block⟩ rest

def flattenDocument : List (List Char) → FlatDocument
  | [] => ⟨[], []⟩
  | block :: rest => flattenMore ⟨[], block⟩ rest

def resolveSuggestions (doc : List (List Char)) (suggestions : List Suggestion) : List ResolvedSuggestion :=
  suggestions.map (resolveSuggestion doc.flatten)

/-- The loop of `withBlockBreaks` behind the cursor. -/
def breaksFrom (text : List Char) : Nat → List Nat → List Char
  | cursor, [] => text.drop cursor
  | cursor, offset :: rest => slice text cursor offset ++ '\n' :: breaksFrom text offset rest

def withBlockBreaks (flat : FlatDocument) : List Char := breaksFrom flat.text 0 flat.breaks

def shiftFor (breaks : List Nat) (offset : Nat) : Nat := (breaks.filter (· ≤ offset)).length

/-- What the projection makes of an entry: nothing of one that is stale, and `none` where it
cannot say. -/
def flatEdit (flat : FlatDocument) (entry : ResolvedSuggestion) : Option (Option FlatEdit) :=
  match entry.stale, entry.start with
  | true, _ | _, none => some none
  | false, some start =>
    let anchor := entry.suggestion.oldText
    let stop := start + anchor.length
    if slice flat.text start stop ≠ anchor then none
    else if flat.breaks.any fun offset => start < offset && offset < stop then none
    else some (some ⟨stop, start, entry.suggestion.newText⟩)

def Disjoint : List FlatEdit → Prop := List.IsChain fun a b => a.stop ≤ b.start

instance (edits : List FlatEdit) : Decidable (Disjoint edits) := inferInstanceAs (Decidable (List.IsChain _ edits))

def sortEdits (edits : List FlatEdit) : List FlatEdit := edits.insertionSort fun a b => a.start ≤ b.start

def replaceAt (breaks : List Nat) (edit : FlatEdit) (projected : List Char) : List Char :=
  let shift := shiftFor breaks edit.start
  projected.take (edit.start + shift) ++ edit.text ++ projected.drop (edit.stop + shift)

structure AcceptAllProjection where
  current : Nat
  projected : Nat
  deriving DecidableEq

/-- `projectAcceptAll`; the last edit is made first. -/
def projectAcceptAll (doc : List (List Char)) (resolved : List ResolvedSuggestion) : Option AcceptAllProjection :=
  let flat := flattenDocument doc
  (resolved.mapM (flatEdit flat)).bind fun found =>
    let edits := sortEdits (found.filterMap id)
    if edits = [] then none
    else if Disjoint edits then
      let current := withBlockBreaks flat
      some ⟨countWords current, countWords (edits.foldr (replaceAt flat.breaks) current)⟩
    else none

def documentMarkdown (doc : List (List Char)) : Markdown := "\n\n".toList.intercalate doc

/-- `_apply_suggestion` in the loop of `resolve_all_suggestions`, before the text is parsed:
a suggestion that does not apply is skipped. -/
def applyOrSkip (lower : Markdown → Markdown) (current : Markdown) (suggestion : Suggestion) : Markdown :=
  match editText lower 0 [suggestion] current with
  | .ok next => next
  | .error _ => current

def acceptAll (lower : Markdown → Markdown) (doc : List (List Char)) (suggestions : List Suggestion) : Markdown :=
  suggestions.foldl (applyOrSkip lower) (documentMarkdown doc)

end Counselle.Essays

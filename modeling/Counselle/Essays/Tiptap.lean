import Mathlib.Data.List.Basic

/-! Essay content as the editor and the server exchange it, and the draft key of
`useEssayAutosave.ts`. -/
namespace Counselle.Essays

/-- JSON data; the entries of an object in insertion order. -/
inductive Json where
  | null
  | bool (value : Bool)
  | num (value : Int)
  | str (value : String)
  | arr (items : List Json)
  | obj (entries : List (String × Json))

namespace Json

def isNull : Json → Bool
  | .null => true
  | _ => false

mutual
def beq : Json → Json → Bool
  | .null, .null => true
  | .bool a, .bool b => a == b
  | .num a, .num b => a == b
  | .str a, .str b => a == b
  | .arr a, .arr b => beqItems a b
  | .obj a, .obj b => beqEntries a b
  | _, _ => false

def beqItems : List Json → List Json → Bool
  | [], [] => true
  | a :: as, b :: bs => beq a b && beqItems as bs
  | _, _ => false

def beqEntries : List (String × Json) → List (String × Json) → Bool
  | [], [] => true
  | (k, a) :: as, (l, b) :: bs => k == l && beq a b && beqEntries as bs
  | _, _ => false
end

mutual
theorem beq_iff : ∀ a b : Json, beq a b = true ↔ a = b
  | .null, b => by cases b <;> simp [beq]
  | .bool _, b => by cases b <;> simp [beq]
  | .num _, b => by cases b <;> simp [beq]
  | .str _, b => by cases b <;> simp [beq]
  | .arr items, b => by cases b <;> simp [beq, beqItems_iff items]
  | .obj entries, b => by cases b <;> simp [beq, beqEntries_iff entries]

theorem beqItems_iff : ∀ a b : List Json, beqItems a b = true ↔ a = b
  | [], b => by cases b <;> simp [beqItems]
  | item :: rest, b => by cases b <;> simp [beqItems, beq_iff item, beqItems_iff rest]

theorem beqEntries_iff : ∀ a b : List (String × Json), beqEntries a b = true ↔ a = b
  | [], b => by cases b <;> simp [beqEntries]
  | (key, item) :: rest, b => by
    cases b with
    | nil => simp [beqEntries]
    | cons entry others =>
      simp [beqEntries, beq_iff item, beqEntries_iff rest, Prod.ext_iff]
end

instance : DecidableEq Json := fun a b => decidable_of_iff (beq a b = true) (beq_iff a b)

end Json

mutual
/-- Null attributes are dropped, and an `attrs` object that has no others. -/
def normalizeDraftValue : Json → Json
  | .arr items => .arr (normalizeItems items)
  | .obj entries => .obj (normalizeEntries false entries)
  | value => value

def normalizeItems : List Json → List Json
  | [] => []
  | item :: rest => normalizeDraftValue item :: normalizeItems rest

/-- The entries of an object; inside `attrs` the null ones are left out first. -/
def normalizeEntries (inAttrs : Bool) : List (String × Json) → List (String × Json)
  | [] => []
  | (key, child) :: rest =>
    if inAttrs && child.isNull then normalizeEntries inAttrs rest
    else
      match child with
      | .obj attrs =>
        if key = "attrs" then
          if attrs.all (·.2.isNull) then normalizeEntries inAttrs rest
          else (key, .obj (normalizeEntries true attrs)) :: normalizeEntries inAttrs rest
        else (key, .obj (normalizeEntries false attrs)) :: normalizeEntries inAttrs rest
      | child => (key, normalizeDraftValue child) :: normalizeEntries inAttrs rest
end

example : normalizeDraftValue (.obj [("type", .str "doc"), ("attrs", .obj [("level", .null)])]) =
    .obj [("type", .str "doc")] := by decide

/-- What `JSON.stringify` makes a string of; as data, since it is injective. -/
abbrev DraftKey := Json × Nat

def draftKey (content : Json) (wordCount : Nat) : DraftKey :=
  (normalizeDraftValue content, wordCount)

end Counselle.Essays

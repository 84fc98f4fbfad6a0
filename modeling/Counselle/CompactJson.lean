import Counselle.Json
import Mathlib.Algebra.GroupWithZero.Nat

/-! Compact JSON in UTF-8: a value, its text without blanks, and the bytes the text takes,
computed from the parts without writing the text. -/
namespace Counselle.CompactJson

inductive Value where
  | null
  | bool (value : Bool)
  | int (value : Int)
  | text (value : String)
  | array (items : List Value)
  | object (members : List (String × Value))

def shortEscapes : List (Char × Char) :=
  [('"', '"'), ('\\', '\\'), ('\n', 'n'), ('\r', 'r'), ('\t', 't'), ('\x0c', 'f'), ('\x08', 'b')]

/-- Other control characters are escaped as code points, the rest stays as it is. -/
def escape (c : Char) : List Char :=
  match shortEscapes.lookup c with
  | some short => ['\\', short]
  | none =>
    if c.toNat < 32 then
      ['\\', 'u', '0', '0', Json.hexDigit (c.toNat / 16), Json.hexDigit (c.toNat % 16)]
    else [c]

def quote (text : String) : List Char := '"' :: (text.toList.flatMap escape ++ ['"'])

mutual
def Value.dump : Value → List Char
  | .null => ['n', 'u', 'l', 'l']
  | .bool true => ['t', 'r', 'u', 'e']
  | .bool false => ['f', 'a', 'l', 's', 'e']
  | .int n => (toString n).toList
  | .text text => quote text
  | .array [] => ['[', ']']
  | .array (item :: rest) => '[' :: (item.dump ++ dumpItems rest)
  | .object [] => ['{', '}']
  | .object ((key, value) :: rest) => '{' :: (quote key ++ ':' :: (value.dump ++ dumpMembers rest))

def dumpItems : List Value → List Char
  | [] => [']']
  | item :: rest => ',' :: (item.dump ++ dumpItems rest)

def dumpMembers : List (String × Value) → List Char
  | [] => ['}']
  | (key, value) :: rest => ',' :: (quote key ++ ':' :: (value.dump ++ dumpMembers rest))
end

def bytes (text : List Char) : Nat := (text.map Char.utf8Size).sum

@[simp] theorem bytes_nil : bytes [] = 0 := rfl

@[simp] theorem bytes_cons (c : Char) (text : List Char) :
    bytes (c :: text) = c.utf8Size + bytes text := by
  simp [bytes]

@[simp] theorem bytes_append (front back : List Char) :
    bytes (front ++ back) = bytes front + bytes back := by
  simp [bytes]

def Value.size (value : Value) : Nat := bytes value.dump

def quoted (text : String) : Nat := bytes (quote text)

def digits (n : Int) : Nat := bytes (toString n).toList

/-- Bytes of an array or object whose entries take these many. -/
def enclosed : List Nat → Nat
  | [] => 2
  | entry :: rest => entry + 2 + (rest.map (· + 1)).sum

theorem enclosed_cons (entry : Nat) (rest : List Nat) :
    enclosed (entry :: rest) = entry + 2 + (rest.map (· + 1)).sum := rfl

theorem enclosed_append {entries : List Nat} (some : entries ≠ []) (entry : Nat) :
    enclosed (entries ++ [entry]) = enclosed entries + (entry + 1) := by
  cases entries with
  | nil => exact absurd rfl some
  | cons first rest =>
    simp only [List.cons_append, enclosed_cons, List.map_append, List.map_cons, List.map_nil,
      List.sum_append, List.sum_cons, List.sum_nil]
    omega

@[simp] theorem size_null : Value.null.size = 4 := by decide

@[simp] theorem size_bool (b : Bool) : (Value.bool b).size = if b then 4 else 5 := by
  cases b <;> decide

@[simp] theorem size_int (n : Int) : (Value.int n).size = digits n := by
  simp only [Value.size, Value.dump, digits]

@[simp] theorem size_text (text : String) : (Value.text text).size = quoted text := by
  simp only [Value.size, Value.dump, quoted]

theorem bytes_dumpItems (items : List Value) :
    bytes (dumpItems items) = ((items.map Value.size).map (· + 1)).sum + 1 := by
  induction items with
  | nil => decide
  | cons item rest ih =>
    have comma : (',' : Char).utf8Size = 1 := by decide
    simp only [dumpItems, bytes_cons, bytes_append, ih, comma, List.map_cons, List.sum_cons,
      Value.size]
    omega

@[simp] theorem size_array (items : List Value) :
    (Value.array items).size = enclosed (items.map Value.size) := by
  cases items with
  | nil => decide
  | cons item rest =>
    have opening : ('[' : Char).utf8Size = 1 := by decide
    rw [Value.size, Value.dump, bytes_cons, bytes_append, bytes_dumpItems, opening,
      List.map_cons, enclosed, Value.size]
    omega

/-- Bytes of a member: the key in quotes, a colon and the value. -/
def member (entry : String × Value) : Nat := quoted entry.1 + 1 + entry.2.size

theorem bytes_dumpMembers (members : List (String × Value)) :
    bytes (dumpMembers members) = ((members.map member).map (· + 1)).sum + 1 := by
  induction members with
  | nil => decide
  | cons entry rest ih =>
    obtain ⟨key, value⟩ := entry
    have comma : (',' : Char).utf8Size = 1 := by decide
    have colon : (':' : Char).utf8Size = 1 := by decide
    simp only [dumpMembers, bytes_cons, bytes_append, ih, comma, colon, List.map_cons,
      List.sum_cons, member, quoted, Value.size]
    omega

@[simp] theorem size_object (members : List (String × Value)) :
    (Value.object members).size = enclosed (members.map member) := by
  cases members with
  | nil => decide
  | cons entry rest =>
    obtain ⟨key, value⟩ := entry
    have opening : ('{' : Char).utf8Size = 1 := by decide
    have colon : (':' : Char).utf8Size = 1 := by decide
    simp only [Value.size, Value.dump, bytes_cons, bytes_append, bytes_dumpMembers, opening, colon,
      List.map_cons, enclosed, member, quoted]
    omega

theorem two_le_quoted (text : String) : 2 ≤ quoted text := by
  have mark : ('"' : Char).utf8Size = 1 := by decide
  simp only [quoted, quote, bytes_cons, bytes_append, bytes_nil, mark]
  omega

end Counselle.CompactJson

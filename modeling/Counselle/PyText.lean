import Mathlib.Data.List.DropRight

/-! Text as Python's `str`, `re` and `int` read it, on lists of characters. -/
namespace Counselle.PyText

inductive PyError where
  | valueError | typeError | overflowError | keyError | attributeError
  deriving DecidableEq

/-- `str.isspace` of one character, and `\s` of `re`. -/
def isSpace (c : Char) : Bool :=
  let n := c.toNat
  (9 ≤ n && n ≤ 13) || (28 ≤ n && n ≤ 32) || n == 0x85 || n == 0xa0 || n == 0x1680 ||
    (0x2000 ≤ n && n ≤ 0x200a) || n == 0x2028 || n == 0x2029 || n == 0x202f || n == 0x205f ||
    n == 0x3000

/-- The zeros of the decimal digits of Unicode 15: each begins a block of ten. -/
def decimalZeros : List Nat :=
  [0x30, 0x660, 0x6f0, 0x7c0, 0x966, 0x9e6, 0xa66, 0xae6, 0xb66, 0xbe6, 0xc66, 0xce6, 0xd66,
    0xde6, 0xe50, 0xed0, 0xf20, 0x1040, 0x1090, 0x17e0, 0x1810, 0x1946, 0x19d0, 0x1a80, 0x1a90,
    0x1b50, 0x1bb0, 0x1c40, 0x1c50, 0xa620, 0xa8d0, 0xa900, 0xa9d0, 0xa9f0, 0xaa50, 0xabf0,
    0xff10, 0x104a0, 0x10d30, 0x11066, 0x110f0, 0x11136, 0x111d0, 0x112f0, 0x11450, 0x114d0,
    0x11650, 0x116c0, 0x11730, 0x118e0, 0x11950, 0x11c50, 0x11d50, 0x11da0, 0x11f50, 0x16a60,
    0x16ac0, 0x16b50, 0x1d7ce, 0x1d7d8, 0x1d7e2, 0x1d7ec, 0x1d7f6, 0x1e140, 0x1e2f0, 0x1e4f0,
    0x1e950, 0x1fbf0]

def digitValue (c : Char) : Option Nat :=
  (decimalZeros.find? fun start => start ≤ c.toNat && c.toNat < start + 10).map (c.toNat - ·)

/-- `\d` of `re`. -/
def isDigit (c : Char) : Bool := (digitValue c).isSome

def strip (text : List Char) : List Char :=
  ((text.dropWhile isSpace).reverse.dropWhile isSpace).reverse

def decimal (digits : List Char) : Nat :=
  digits.foldl (fun n c => 10 * n + (digitValue c).getD 0) 0

def maxStrDigits : Nat := 4300

/-- `int` of a text that holds digits only. -/
def intOfDigits (digits : List Char) : Except PyError Nat :=
  if digits = [] then .error .valueError
  else if maxStrDigits < digits.length then .error .valueError
  else .ok (decimal digits)

theorem strip_eq (text : List Char) : strip text = (text.dropWhile isSpace).rdropWhile isSpace := rfl

theorem strip_eq_nil {text : List Char} : strip text = [] ↔ ∀ c ∈ text, isSpace c = true := by
  rw [strip_eq, List.rdropWhile_eq_nil_iff]
  constructor
  · intro blank
    have stopped := List.head?_dropWhile_not isSpace text
    cases rest : text.dropWhile isSpace with
    | nil => exact List.dropWhile_eq_nil_iff.mp rest
    | cons c _ =>
      simp only [rest, List.head?_cons] at stopped
      have space := blank c (by rw [rest]; exact List.mem_cons_self)
      simp [space] at stopped
  · intro blank c isIn
    exact blank c ((List.dropWhile_suffix isSpace).subset isIn)

theorem strip_ne_nil {text : List Char} {c : Char} (isIn : c ∈ text) (solid : isSpace c = false) :
    strip text ≠ [] := by
  intro blank
  have space := strip_eq_nil.mp blank c isIn
  rw [solid] at space
  contradiction

theorem strip_strip (text : List Char) : strip (strip text) = strip text := by
  have stopped := List.head?_dropWhile_not isSpace text
  have start : (strip text).dropWhile isSpace = strip text := by
    obtain ⟨rest, whole⟩ := List.rdropWhile_prefix isSpace (text.dropWhile isSpace)
    rw [← strip_eq] at whole
    cases head : strip text with
    | nil => rfl
    | cons c tail =>
      rw [← whole, head] at stopped
      have solid : isSpace c = false := by simpa using stopped
      rw [List.dropWhile_cons_of_neg (by simp [solid])]
  rw [strip_eq (strip text), start]
  exact List.rdropWhile_idempotent isSpace _

theorem strip_end {text before after : List Char} (whole : strip text = before ++ after)
    (blank : ∀ c ∈ after, isSpace c = true) : after = [] := by
  by_contra some
  have filled : strip text ≠ [] := by simp [whole, some]
  have solid := List.rdropWhile_last_not isSpace (text.dropWhile isSpace) filled
  apply solid
  have last : (strip text).getLast filled = after.getLast some := by
    simp only [whole]
    exact List.getLast_append_of_ne_nil _ some
  exact last ▸ blank _ (List.getLast_mem some)

theorem isSpace_of_isDigit {c : Char} (digit : isDigit c = true) : isSpace c = false := by
  have apart : ∀ start ∈ decimalZeros, ∀ n ∈ [9, 10, 11, 12, 13, 28, 29, 30, 31, 32, 0x85, 0xa0, 0x1680, 0x2000, 0x2001,
      0x2002, 0x2003, 0x2004, 0x2005, 0x2006, 0x2007, 0x2008, 0x2009, 0x200a, 0x2028, 0x2029, 0x202f, 0x205f, 0x3000],
      ¬ (start ≤ n ∧ n < start + 10) := by decide +kernel
  obtain ⟨value, isValue⟩ := Option.isSome_iff_exists.mp digit
  obtain ⟨start, found, -⟩ := Option.map_eq_some_iff.mp isValue
  have block := List.find?_some found
  simp only [Bool.and_eq_true, decide_eq_true_eq] at block
  rw [← Bool.not_eq_true]
  intro space
  refine apart start (List.mem_of_find?_eq_some found) c.toNat ?_ block
  simp only [isSpace, Bool.or_eq_true, Bool.and_eq_true, decide_eq_true_eq, beq_iff_eq] at space
  simp only [List.mem_cons, List.not_mem_nil, or_false]
  omega

theorem strip_solid {first last : Char} {middle : List Char} (start : isSpace first = false) (stop : isSpace last = false) :
    strip (first :: middle ++ [last]) = first :: middle ++ [last] := by
  rw [strip_eq, List.cons_append, List.dropWhile_cons_of_neg (by simp [start]), ← List.cons_append,
    List.rdropWhile_concat_neg _ _ _ (by simp [stop])]

end Counselle.PyText

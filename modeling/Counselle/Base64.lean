import Mathlib.Data.List.Basic

/-! Base64 as Python's `b64encode` writes it and `b64decode` reads it: the reader passes over
every character outside of the alphabet and stops at a full padding. -/
namespace Counselle.Base64

def charOf (n : Nat) : Char :=
  if n < 26 then Char.ofNat (65 + n)
  else if n < 52 then Char.ofNat (71 + n)
  else if n < 62 then Char.ofNat (n - 4)
  else if n = 62 then '+'
  else '/'

def valueOf (c : Char) : Option Nat :=
  let n := c.toNat
  if 65 ≤ n ∧ n ≤ 90 then some (n - 65)
  else if 97 ≤ n ∧ n ≤ 122 then some (n - 71)
  else if 48 ≤ n ∧ n ≤ 57 then some (n + 4)
  else if c = '+' then some 62
  else if c = '/' then some 63
  else none

/-- `b64encode` -/
def encode : List UInt8 → List Char
  | [] => []
  | [a] => [charOf (a.toNat / 4), charOf (a.toNat % 4 * 16), '=', '=']
  | [a, b] =>
    [charOf (a.toNat / 4), charOf (a.toNat % 4 * 16 + b.toNat / 16), charOf (b.toNat % 16 * 4), '=']
  | a :: b :: c :: rest =>
    charOf (a.toNat / 4) :: charOf (a.toNat % 4 * 16 + b.toNat / 16) ::
      charOf (b.toNat % 16 * 4 + c.toNat / 64) :: charOf (c.toNat % 64) :: encode rest

/-- `place` characters of a group of four are read, `left` are the bits that are not yet in a
byte, and `pads` padding characters stand in front. -/
def decodeFrom : Nat → Nat → Nat → List Char → Option (List UInt8)
  | place, _, _, [] => if place = 0 then some [] else none
  | place, left, pads, c :: rest =>
    if c = '=' then
      if 2 ≤ place then
        if 4 ≤ place + (pads + 1) then some [] else decodeFrom place left (pads + 1) rest
      else decodeFrom place left pads rest
    else
      match valueOf c with
      | none => decodeFrom place left pads rest
      | some value =>
        match place with
        | 0 => decodeFrom 1 value 0 rest
        | 1 => (decodeFrom 2 (value % 16) 0 rest).map (UInt8.ofNat (left * 4 + value / 16) :: ·)
        | 2 => (decodeFrom 3 (value % 4) 0 rest).map (UInt8.ofNat (left * 16 + value / 4) :: ·)
        | _ => (decodeFrom 0 0 0 rest).map (UInt8.ofNat (left * 64 + value) :: ·)

/-- `b64decode(text.encode("ascii"))`; `none` is the exception of either. -/
def decode (text : List Char) : Option (List UInt8) :=
  if text.all fun c => c.toNat < 128 then decodeFrom 0 0 0 text else none

attribute [local simp] decodeFrom encode

theorem charOf_spec : ∀ n < 64, valueOf (charOf n) = some n ∧ charOf n ≠ '=' ∧ (charOf n).toNat < 128 := by
  decide

section Steps
variable {n left pads : Nat} {rest : List Char}

theorem decodeFrom_zero (isSmall : n < 64) : decodeFrom 0 left pads (charOf n :: rest) =
    decodeFrom 1 n 0 rest := by
  obtain ⟨isValue, apart, -⟩ := charOf_spec n isSmall
  simp only [decodeFrom, if_neg apart, isValue]

theorem decodeFrom_one (isSmall : n < 64) : decodeFrom 1 left pads (charOf n :: rest) =
    (decodeFrom 2 (n % 16) 0 rest).map (UInt8.ofNat (left * 4 + n / 16) :: ·) := by
  obtain ⟨isValue, apart, -⟩ := charOf_spec n isSmall
  simp only [decodeFrom, if_neg apart, isValue]

theorem decodeFrom_two (isSmall : n < 64) : decodeFrom 2 left pads (charOf n :: rest) =
    (decodeFrom 3 (n % 4) 0 rest).map (UInt8.ofNat (left * 16 + n / 4) :: ·) := by
  obtain ⟨isValue, apart, -⟩ := charOf_spec n isSmall
  simp only [decodeFrom, if_neg apart, isValue]

theorem decodeFrom_three (isSmall : n < 64) : decodeFrom 3 left pads (charOf n :: rest) =
    (decodeFrom 0 0 0 rest).map (UInt8.ofNat (left * 64 + n) :: ·) := by
  obtain ⟨isValue, apart, -⟩ := charOf_spec n isSmall
  simp only [decodeFrom, if_neg apart, isValue]

end Steps

theorem ofNat_of_eq {a : UInt8} {n : Nat} (same : n = a.toNat) : UInt8.ofNat n = a := by
  rw [same, UInt8.ofNat_toNat]

theorem decodeFrom_encode (bytes : List UInt8) : decodeFrom 0 0 0 (encode bytes) = some bytes := by
  induction bytes using encode.induct with
  | case1 => rfl
  | case2 a =>
    have isByte : a.toNat < 256 := a.toNat_lt
    have first : UInt8.ofNat (a.toNat / 4 * 4 + a.toNat % 4 * 16 / 16) = a := ofNat_of_eq (by omega)
    rw [encode, decodeFrom_zero (by omega), decodeFrom_one (by omega), first]
    simp [decodeFrom]
  | case3 a b =>
    have isByte : a.toNat < 256 := a.toNat_lt
    have isNext : b.toNat < 256 := b.toNat_lt
    have first : UInt8.ofNat (a.toNat / 4 * 4 + (a.toNat % 4 * 16 + b.toNat / 16) / 16) = a :=
      ofNat_of_eq (by omega)
    have second : UInt8.ofNat ((a.toNat % 4 * 16 + b.toNat / 16) % 16 * 16 + b.toNat % 16 * 4 / 4) = b :=
      ofNat_of_eq (by omega)
    rw [encode, decodeFrom_zero (by omega), decodeFrom_one (by omega), decodeFrom_two (by omega), first, second]
    simp [decodeFrom]
  | case4 a b c rest ih =>
    have isByte : a.toNat < 256 := a.toNat_lt
    have isNext : b.toNat < 256 := b.toNat_lt
    have isLast : c.toNat < 256 := c.toNat_lt
    have first : UInt8.ofNat (a.toNat / 4 * 4 + (a.toNat % 4 * 16 + b.toNat / 16) / 16) = a :=
      ofNat_of_eq (by omega)
    have second : UInt8.ofNat ((a.toNat % 4 * 16 + b.toNat / 16) % 16 * 16 +
        (b.toNat % 16 * 4 + c.toNat / 64) / 4) = b := ofNat_of_eq (by omega)
    have third : UInt8.ofNat ((b.toNat % 16 * 4 + c.toNat / 64) % 4 * 64 + c.toNat % 64) = c :=
      ofNat_of_eq (by omega)
    rw [encode, decodeFrom_zero (by omega), decodeFrom_one (by omega), decodeFrom_two (by omega),
      decodeFrom_three (by omega), ih, first, second, third]
    rfl

theorem ascii_encode (bytes : List UInt8) : ∀ c ∈ encode bytes, c.toNat < 128 := by
  have ascii : ∀ n < 64, (charOf n).toNat < 128 := fun n isSmall => (charOf_spec n isSmall).2.2
  have isByte : ∀ a : UInt8, a.toNat < 256 := fun a => a.toNat_lt
  induction bytes using encode.induct with
  | case1 => simp [encode]
  | case2 a =>
    have bound := isByte a
    simp only [encode, List.forall_mem_cons]
    exact ⟨ascii _ (by omega), ascii _ (by omega), by decide, by decide, by simp⟩
  | case3 a b =>
    have bound := isByte a
    have isNext := isByte b
    simp only [encode, List.forall_mem_cons]
    exact ⟨ascii _ (by omega), ascii _ (by omega), ascii _ (by omega), by decide, by simp⟩
  | case4 a b c rest ih =>
    have bound := isByte a
    have isNext := isByte b
    have isLast := isByte c
    simp only [encode, List.forall_mem_cons]
    exact ⟨ascii _ (by omega), ascii _ (by omega), ascii _ (by omega), ascii _ (by omega), ih⟩

theorem decode_encode (bytes : List UInt8) : decode (encode bytes) = some bytes := by
  have all : (encode bytes).all (fun c => c.toNat < 128) = true :=
    List.all_eq_true.mpr fun c isIn => decide_eq_true (ascii_encode bytes c isIn)
  rw [decode, if_pos all, decodeFrom_encode]

end Counselle.Base64

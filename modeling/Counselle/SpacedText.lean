import Counselle.Words
import Mathlib.Data.List.Infix

/-! A text in blocks: its characters with the gaps between the blocks. The same text is read
with any separator put into its gaps; offsets of the characters alone find their places
there. Edits that keep off the gaps replace parts of it, all at once or one by one. -/
namespace Counselle.SpacedText

inductive Token where
  | char (c : Char)
  | gap
  deriving DecidableEq

/-- The text with `separator` in its gaps. -/
def render (separator : List Char) : List Token → List Char
  | [] => []
  | .char c :: rest => c :: render separator rest
  | .gap :: rest => separator ++ render separator rest

def gapsFrom (base : Nat) : List Token → List Nat
  | [] => []
  | .char _ :: rest => gapsFrom (base + 1) rest
  | .gap :: rest => base :: gapsFrom base rest

def ofText (text : List Char) : List Token := text.map .char

variable {separator : List Char}

@[simp] theorem render_nil : render separator [] = [] := rfl

@[simp] theorem render_append (a b : List Token) : render separator (a ++ b) = render separator a ++ render separator b := by
  induction a with
  | nil => rfl
  | cons token a ih => cases token <;> simp [render, ih]

@[simp] theorem render_ofText (text : List Char) : render separator (ofText text) = text := by
  induction text with
  | nil => rfl
  | cons c text ih => exact congrArg (c :: ·) ih

theorem gapsFrom_append (base : Nat) (a b : List Token) :
    gapsFrom base (a ++ b) = gapsFrom base a ++ gapsFrom (base + (render [] a).length) b := by
  induction a generalizing base with
  | nil => rfl
  | cons token a ih =>
    cases token with
    | char c =>
      have shifted : base + (render [] (.char c :: a)).length = base + 1 + (render [] a).length := by
        simp only [render, List.length_cons]
        omega
      rw [shifted]
      exact ih (base + 1)
    | gap => exact congrArg (base :: ·) (ih base)

@[simp] theorem gapsFrom_ofText (base : Nat) (text : List Char) : gapsFrom base (ofText text) = [] := by
  induction text generalizing base with
  | nil => rfl
  | cons c text ih => exact ih (base + 1)

theorem gapsFrom_bounds {base offset : Nat} {tokens : List Token} (isIn : offset ∈ gapsFrom base tokens) :
    base ≤ offset ∧ offset ≤ base + (render [] tokens).length := by
  induction tokens generalizing base with
  | nil => cases isIn
  | cons token tokens ih =>
    cases token with
    | char c =>
      obtain ⟨least, most⟩ := ih isIn
      simp only [render, List.length_cons]
      omega
    | gap =>
      obtain rfl | isIn := List.mem_cons.mp isIn
      · omega
      · exact ih isIn

theorem length_render (base : Nat) (tokens : List Token) :
    (render separator tokens).length =
      (render [] tokens).length + separator.length * (gapsFrom base tokens).length := by
  induction tokens generalizing base with
  | nil => rfl
  | cons token tokens ih =>
    cases token with
    | char c =>
      have rest := ih (base + 1)
      simp only [render, gapsFrom, List.length_cons]
      omega
    | gap =>
      have rest := ih base
      simp only [render, gapsFrom, List.length_append, List.length_cons, List.nil_append, Nat.mul_succ]
      omega

theorem exists_cut {tokens : List Token} {offset : Nat} (within : offset ≤ (render [] tokens).length) :
    ∃ front back, tokens = front ++ back ∧ (render [] front).length = offset ∧ ∀ rest, back ≠ .gap :: rest := by
  induction tokens generalizing offset with
  | nil =>
    obtain rfl : offset = 0 := Nat.le_zero.mp within
    exact ⟨[], [], rfl, rfl, nofun⟩
  | cons token tokens ih =>
    cases token with
    | gap =>
      obtain ⟨front, back, rfl, reached, sharp⟩ := ih within
      exact ⟨.gap :: front, back, rfl, reached, sharp⟩
    | char c =>
      cases offset with
      | zero => exact ⟨[], .char c :: tokens, rfl, rfl, nofun⟩
      | succ offset =>
        obtain ⟨front, back, rfl, reached, sharp⟩ := ih (Nat.le_of_succ_le_succ within)
        exact ⟨.char c :: front, back, rfl, congrArg (· + 1) reached, sharp⟩

theorem exists_ofText {text : List Char} {tokens : List Token} {base : Nat} (found : text <+: render [] tokens)
    (unbroken : ∀ offset ∈ gapsFrom base tokens, ¬ (base ≤ offset ∧ offset < base + text.length)) :
    ∃ rest, tokens = ofText text ++ rest := by
  induction text generalizing tokens base with
  | nil => exact ⟨tokens, rfl⟩
  | cons c text ih =>
    cases tokens with
    | nil => cases List.prefix_nil.mp found
    | cons token tokens =>
      cases token with
      | gap =>
        refine absurd ?_ (unbroken base List.mem_cons_self)
        simp only [List.length_cons]
        omega
      | char d =>
        obtain ⟨same, later⟩ := List.cons_prefix_cons.mp found
        have apart : ∀ offset ∈ gapsFrom (base + 1) tokens, ¬ (base + 1 ≤ offset ∧ offset < base + 1 + text.length) := by
          intro offset isIn
          have outside := unbroken offset isIn
          simp only [List.length_cons] at outside
          omega
        obtain ⟨rest, rfl⟩ := ih later apart
        exact ⟨rest, congrArg (Token.char · :: _) same.symm⟩

theorem gaps_before {front back : List Token} (sharp : ∀ rest, back ≠ .gap :: rest) :
    (gapsFrom 0 (front ++ back)).filter (· ≤ (render [] front).length) = gapsFrom 0 front := by
  rw [gapsFrom_append, List.filter_append]
  have all : (gapsFrom 0 front).filter (· ≤ (render [] front).length) = gapsFrom 0 front := by
    apply List.filter_eq_self.mpr
    intro offset isIn
    have bounds := gapsFrom_bounds isIn
    simp only [decide_eq_true_eq]
    omega
  have none : (gapsFrom (0 + (render [] front).length) back).filter (· ≤ (render [] front).length) = [] := by
    apply List.filter_eq_nil_iff.mpr
    intro offset isIn
    cases back with
    | nil => cases isIn
    | cons token back =>
      cases token with
      | gap => exact absurd rfl (sharp back)
      | char c =>
        have bounds := @gapsFrom_bounds _ offset back isIn
        simp only [decide_eq_true_eq]
        omega
  rw [all, none, List.append_nil]

theorem starts_render {blank : Char → Bool} {other : List Char} (blanks : ∀ c ∈ separator, blank c = true)
    (others : ∀ c ∈ other, blank c = true) (nonempty : separator ≠ []) (also : other ≠ []) (fresh : Bool)
    (tokens : List Token) :
    Words.starts blank fresh (render separator tokens) = Words.starts blank fresh (render other tokens) := by
  have skip {gap : List Char} (isBlank : ∀ c ∈ gap, blank c = true) (nonempty : gap ≠ []) (fresh : Bool)
      (text : List Char) : Words.starts blank fresh (gap ++ text) = Words.starts blank true text := by
    rw [Words.starts_append, Words.starts_blanks fresh isBlank, Nat.zero_add]
    congr 1
    induction gap generalizing fresh with
    | nil => exact absurd rfl nonempty
    | cons c gap ih =>
      rw [Words.freshAfter, isBlank c List.mem_cons_self]
      cases gap with
      | nil => rfl
      | cons d gap => exact ih (fun e isIn => isBlank e (List.mem_cons_of_mem c isIn)) (List.cons_ne_nil d gap) true
  induction tokens generalizing fresh with
  | nil => rfl
  | cons token tokens ih =>
    cases token with
    | char c => simp only [render, Words.starts, ih]
    | gap =>
      simp only [render]
      rw [skip blanks nonempty, skip others also, ih true]

end Counselle.SpacedText

import Counselle.Calendar
import Counselle.PyJson

/-! SQL conditions with numbered parameters, over rows whose columns may be null. A text
with placeholders is a condition over `Unit`, the text that the database gets is one over
the numbers of the parameters. -/
namespace Counselle.Sql
open Calendar (Date)
open PyJson (PyFloat)

/-- `none` is unknown. -/
abbrev Truth := Option Bool

namespace Truth

def and : Truth → Truth → Truth
  | some false, _ | _, some false => some false
  | some true, some true => some true
  | _, _ => none

def or : Truth → Truth → Truth
  | some true, _ | _, some true => some true
  | some false, some false => some false
  | _, _ => none

@[simp] theorem and_eq_true {a b : Truth} : a.and b = some true ↔ a = some true ∧ b = some true := by
  rcases a with _ | _ | _ <;> rcases b with _ | _ | _ <;> decide

@[simp] theorem or_eq_true {a b : Truth} : a.or b = some true ↔ a = some true ∨ b = some true := by
  rcases a with _ | _ | _ <;> rcases b with _ | _ | _ <;> decide

theorem and_eq_none {a b : Truth} :
    a.and b = none ↔ (a = none ∨ b = none) ∧ a ≠ some false ∧ b ≠ some false := by
  rcases a with _ | _ | _ <;> rcases b with _ | _ | _ <;> decide

theorem or_eq_none {a b : Truth} :
    a.or b = none ↔ (a = none ∨ b = none) ∧ a ≠ some true ∧ b ≠ some true := by
  rcases a with _ | _ | _ <;> rcases b with _ | _ | _ <;> decide

end Truth

inductive Value where
  | integer (n : Int)
  | numeric (x : PyFloat)
  | text (s : String)
  | boolean (b : Bool)
  | date (d : Date)
  | texts (items : List String)
  deriving DecidableEq

/-- What depends on the database and its driver: the integer that a float argument of an
integer comparison is sent as, the quotient of two numerics, and the two pattern matchings. -/
structure Engine where
  toInteger : PyFloat → Int
  quotient : Int → Int → PyFloat
  like : String → String → Bool
  ilike : String → String → Bool

instance : Inhabited Engine := ⟨fun _ => 0, fun _ _ => .nan, fun _ _ => false, fun _ _ => false⟩

/-- The order of `numeric`, in which NaN is the greatest value and equals itself. -/
def numericLe : PyFloat → PyFloat → Bool
  | _, .nan => true
  | .nan, _ => false
  | .infinite true, _ | _, .infinite false => true
  | .infinite false, _ | _, .infinite true => false
  | .finite x, .finite y => x ≤ y

def dateLe (a b : Date) : Bool :=
  a.year < b.year || a.year = b.year && (a.month < b.month || a.month = b.month && a.day ≤ b.day)

namespace Engine
variable (engine : Engine)

def le : Value → Value → Bool
  | .integer m, .integer n => m ≤ n
  | .integer m, .numeric x => m ≤ engine.toInteger x
  | .numeric x, .integer n => engine.toInteger x ≤ n
  | .numeric x, .numeric y => numericLe x y
  | .date c, .date d => dateLe c d
  | _, _ => false

/-- `x::numeric / NULLIF(y, 0)` -/
def divide : Option Value → Option Value → Option Value
  | some (.integer m), some (.integer n) => if n = 0 then none else some (.numeric (engine.quotient m n))
  | _, _ => none

def compare (x y : Option Value) : Truth :=
  match x, y with
  | some x, some y => some (engine.le x y)
  | _, _ => none

end Engine

variable {C P Q : Type}

inductive Term (C P : Type) where
  | column (c : C)
  | placeholder (p : P)
  | integer (n : Int)
  /-- `x || 'suffix'` -/
  | append (x : Term C P) (suffix : String)
  | ratio (x y : Term C P)
  /-- `CASE WHEN x = y THEN a ELSE b END` -/
  | choose (x y a b : Term C P)

inductive Condition (C P : Type) where
  | le (x y : Term C P)
  | ge (x y : Term C P)
  | between (x low high : Term C P)
  | eq (x y : Term C P)
  | isTrue (x : Term C P)
  | isNotTrue (x : Term C P)
  | like (x pattern : Term C P)
  | ilike (x pattern : Term C P)
  /-- `x = ANY(y)` -/
  | any (x y : Term C P)
  /-- `x @> ARRAY[y]::text[]` -/
  | contains (x y : Term C P)
  | isNull (x : Term C P)
  | isNotNull (x : Term C P)
  | and (a b : Condition C P)
  | or (a b : Condition C P)

/-- A text with `{}` for its placeholders, and one without any. -/
abbrev Template (C : Type) := Condition C Unit
abbrev Plain (C : Type) := Condition C Empty

namespace Term

def holes : Term C P → Nat
  | column _ | integer _ => 0
  | placeholder _ => 1
  | append x _ => x.holes
  | ratio x y => x.holes + y.holes
  | choose x y a b => x.holes + y.holes + a.holes + b.holes

/-- The placeholders, from left to right, become `$k`, `$(k + 1)` and so on. -/
def number (k : Nat) : Term C P → Term C Nat
  | column c => column c
  | integer n => integer n
  | placeholder _ => placeholder k
  | append x suffix => append (x.number k) suffix
  | ratio x y => ratio (x.number k) (y.number (k + x.holes))
  | choose x y a b => choose (x.number k) (y.number (k + x.holes)) (a.number (k + x.holes + y.holes))
      (b.number (k + x.holes + y.holes + a.holes))

section Eval
variable (engine : Engine) (get : C → Option Value) (arg : P → Option Value)

def eval : Term C P → Option Value
  | column c => get c
  | placeholder p => arg p
  | integer n => some (.integer n)
  | append x suffix =>
    match x.eval with
    | some (.text s) => some (.text (s ++ suffix))
    | _ => none
  | ratio x y => engine.divide x.eval y.eval
  | choose x y a b =>
    match x.eval, y.eval with
    | some v, some w => if v = w then a.eval else b.eval
    | _, _ => b.eval

end Eval

theorem eval_number (engine : Engine) (get : C → Option Value) {f g : Nat → Option Value} (term : Term C P) :
    ∀ {j k : Nat}, (∀ i < term.holes, f (j + i) = g (k + i)) →
      (term.number j).eval engine get f = (term.number k).eval engine get g := by
  induction term with
  | column => exact fun _ => rfl
  | integer => exact fun _ => rfl
  | placeholder => exact fun same => same 0 Nat.one_pos
  | append x suffix ih =>
    intro j k same
    simp only [number, eval, ih same]
  | ratio x y ihx ihy =>
    intro j k same
    simp only [holes] at same
    have left := ihx fun i h => same i (by omega)
    have right := @ihy (j + x.holes) (k + x.holes) fun i h => by
      simpa only [Nat.add_assoc] using same (x.holes + i) (by omega)
    simp only [number, eval, left, right]
  | choose x y a b ihx ihy iha ihb =>
    intro j k same
    simp only [holes] at same
    have first := ihx fun i h => same i (by omega)
    have second := @ihy (j + x.holes) (k + x.holes) fun i h => by
      simpa only [Nat.add_assoc] using same (x.holes + i) (by omega)
    have third := @iha (j + x.holes + y.holes) (k + x.holes + y.holes) fun i h => by
      simpa only [Nat.add_assoc] using same (x.holes + (y.holes + i)) (by omega)
    have fourth := @ihb (j + x.holes + y.holes + a.holes) (k + x.holes + y.holes + a.holes)
      fun i h => by
        simpa only [Nat.add_assoc] using same (x.holes + (y.holes + (a.holes + i))) (by omega)
    simp only [number, eval, first, second, third, fourth]

end Term

namespace Condition

def holes : Condition C P → Nat
  | le x y | ge x y | eq x y | like x y | ilike x y | any x y | contains x y => x.holes + y.holes
  | between x low high => x.holes + low.holes + high.holes
  | isTrue x | isNotTrue x | isNull x | isNotNull x => x.holes
  | and a b | or a b => a.holes + b.holes

def number (k : Nat) : Condition C P → Condition C Nat
  | le x y => le (x.number k) (y.number (k + x.holes))
  | ge x y => ge (x.number k) (y.number (k + x.holes))
  | between x low high => between (x.number k) (low.number (k + x.holes))
      (high.number (k + x.holes + low.holes))
  | eq x y => eq (x.number k) (y.number (k + x.holes))
  | isTrue x => isTrue (x.number k)
  | isNotTrue x => isNotTrue (x.number k)
  | like x y => like (x.number k) (y.number (k + x.holes))
  | ilike x y => ilike (x.number k) (y.number (k + x.holes))
  | any x y => any (x.number k) (y.number (k + x.holes))
  | contains x y => contains (x.number k) (y.number (k + x.holes))
  | isNull x => isNull (x.number k)
  | isNotNull x => isNotNull (x.number k)
  | and a b => and (a.number k) (b.number (k + a.holes))
  | or a b => or (a.number k) (b.number (k + a.holes))

section Eval
variable (engine : Engine) (get : C → Option Value) (arg : P → Option Value)

/-- A comparison of two texts, unknown when one is missing. -/
def onTexts (holds : String → String → Bool) : Option Value → Option Value → Truth
  | some (.text s), some (.text t) => some (holds s t)
  | none, _ | _, none => none
  | _, _ => some false

def eval : Condition C P → Truth
  | le x y => engine.compare (x.eval engine get arg) (y.eval engine get arg)
  | ge x y => engine.compare (y.eval engine get arg) (x.eval engine get arg)
  | between x low high =>
    (engine.compare (low.eval engine get arg) (x.eval engine get arg)).and
      (engine.compare (x.eval engine get arg) (high.eval engine get arg))
  | eq x y =>
    match x.eval engine get arg, y.eval engine get arg with
    | some v, some w => some (v = w)
    | _, _ => none
  | isTrue x =>
    match x.eval engine get arg with
    | some v => some (v = .boolean true)
    | none => none
  | isNotTrue x => some (x.eval engine get arg ≠ some (.boolean true))
  | like x pattern => onTexts engine.like (x.eval engine get arg) (pattern.eval engine get arg)
  | ilike x pattern => onTexts engine.ilike (x.eval engine get arg) (pattern.eval engine get arg)
  | any x y =>
    match x.eval engine get arg, y.eval engine get arg with
    | some (.text s), some (.texts items) => some (items.contains s)
    | none, _ | _, none => none
    | _, _ => some false
  | contains x y =>
    match x.eval engine get arg, y.eval engine get arg with
    | some (.texts items), some (.text s) => some (items.contains s)
    | none, _ | _, none => none
    | _, _ => some false
  | isNull x => some (x.eval engine get arg = none)
  | isNotNull x => some (x.eval engine get arg ≠ none)
  | and a b => a.eval.and b.eval
  | or a b => a.eval.or b.eval

end Eval

theorem eval_number (engine : Engine) (get : C → Option Value) {f g : Nat → Option Value}
    (condition : Condition C P) :
    ∀ {j k : Nat}, (∀ i < condition.holes, f (j + i) = g (k + i)) →
      (condition.number j).eval engine get f = (condition.number k).eval engine get g := by
  have two : ∀ (x y : Term C P) {j k : Nat}, (∀ i < x.holes + y.holes, f (j + i) = g (k + i)) →
      (x.number j).eval engine get f = (x.number k).eval engine get g ∧
        (y.number (j + x.holes)).eval engine get f = (y.number (k + x.holes)).eval engine get g := by
    intro x y j k same
    exact ⟨x.eval_number engine get fun i h => same i (by omega),
      y.eval_number engine get fun i h => by
        simpa only [Nat.add_assoc] using same (x.holes + i) (by omega)⟩
  induction condition with
  | le x y | ge x y | eq x y | like x y | ilike x y | any x y | contains x y =>
    intro j k same
    obtain ⟨left, right⟩ := two x y same
    simp only [number, eval, left, right]
  | between x low high =>
    intro j k same
    simp only [holes] at same
    obtain ⟨subject, bottom⟩ := @two x low j k fun i h => same i (by omega)
    have top := @Term.eval_number C P engine get f g high (j + x.holes + low.holes)
      (k + x.holes + low.holes) fun i h => by
        simpa only [Nat.add_assoc] using same (x.holes + (low.holes + i)) (by omega)
    simp only [number, eval, subject, bottom, top]
  | isTrue x | isNotTrue x | isNull x | isNotNull x =>
    intro j k same
    simp only [number, eval, x.eval_number engine get same]
  | and a b iha ihb | or a b iha ihb =>
    intro j k same
    simp only [holes] at same
    have left := iha fun i h => same i (by omega)
    have right := @ihb (j + a.holes) (k + a.holes) fun i h => by
      simpa only [Nat.add_assoc] using same (a.holes + i) (by omega)
    simp only [number, eval, left, right]

end Condition

theorem Term.holes_plain (term : Term C Empty) : term.holes = 0 := by
  induction term with
  | column | integer => rfl
  | placeholder p => exact p.elim
  | append x suffix ih => exact ih
  | ratio x y ihx ihy => simp only [holes, ihx, ihy]
  | choose x y a b ihx ihy iha ihb => simp only [holes, ihx, ihy, iha, ihb]

theorem Plain.holes (plain : Plain C) : Condition.holes plain = 0 := by
  induction plain with
  | le x y | ge x y | eq x y | like x y | ilike x y | any x y | contains x y =>
    simp only [Condition.holes, x.holes_plain, y.holes_plain]
  | between x low high =>
    simp only [Condition.holes, x.holes_plain, low.holes_plain, high.holes_plain]
  | isTrue x | isNotTrue x | isNull x | isNotNull x => exact x.holes_plain
  | and a b iha ihb | or a b iha ihb => simp only [Condition.holes, iha, ihb]

theorem Plain.eval_number (engine : Engine) (get : C → Option Value) (f g : Nat → Option Value)
    (plain : Plain C) (k : Nat) :
    (Condition.number k plain).eval engine get f = (Condition.number k plain).eval engine get g := by
  apply Condition.eval_number
  rw [plain.holes]
  exact fun i none => absurd none i.not_lt_zero

/-- The argument of `$n`. -/
def argument (params : List Value) (n : Nat) : Option Value := params[n - 1]?

section Rows
variable (engine : Engine) (get : C → Option Value)

/-- The conjunction of several conditions; of none it is `TRUE`. -/
def conjunction (parts : List (Condition C Nat)) (params : List Value) : Truth :=
  parts.foldr (fun part rest => (part.eval engine get (argument params)).and rest) (some true)

theorem conjunction_eq_true {parts : List (Condition C Nat)} {params : List Value} :
    conjunction engine get parts params = some true ↔
      ∀ part ∈ parts, part.eval engine get (argument params) = some true := by
  induction parts with
  | nil => simp [conjunction]
  | cons part rest ih =>
    rw [conjunction, List.foldr_cons, Truth.and_eq_true, ← conjunction, ih, List.forall_mem_cons]

def Template.eval (template : Template C) (params : List Value) : Truth :=
  (template.number 1).eval engine get (argument params)

theorem Template.eval_number {template : Template C} {params : List Value}
    (fits : params.length = template.holes) (before after : List Value) :
    (template.number (before.length + 1)).eval engine get (argument (before ++ params ++ after)) =
      template.eval engine get params := by
  apply Condition.eval_number
  intro i inside
  rw [argument, argument, show before.length + 1 + i - 1 = before.length + i by omega,
    show 1 + i - 1 = i by omega, List.append_assoc, List.getElem?_append_right (by omega),
    Nat.add_sub_cancel_left, List.getElem?_append_left (by omega)]

end Rows

end Counselle.Sql

import Mathlib.Data.Rat.Defs
import Mathlib.Data.List.Basic

/-! JSON values as Python's `json` module hands them over, with Python's `==` on
them. A finite float is the rational it stands for. -/
namespace Counselle.PyJson

inductive PyFloat where
  | finite (value : ℚ)
  | infinite (negative : Bool)
  | nan
  deriving DecidableEq

inductive JsonValue where
  | null
  | bool (value : Bool)
  | int (value : Int)
  | float (value : PyFloat)
  | str (value : String)
  | list (items : List JsonValue)
  | dict (members : List (String × JsonValue))

namespace JsonValue

/-- The number a scalar is to `==`: `True` is one and `False` is zero. -/
def number : JsonValue → Option ℚ
  | .bool b => some (if b then 1 else 0)
  | .int n => some n
  | .float (.finite q) => some q
  | _ => none

mutual
def eq : JsonValue → JsonValue → Bool
  | .null, .null => true
  | .str s, .str t => s == t
  | .float (.infinite s), .float (.infinite t) => s == t
  | .list xs, .list ys => eqItems xs ys
  | .dict xs, .dict ys => xs.length == ys.length && eqMembers xs ys
  | .bool b, other => other.number == some (if b then 1 else 0)
  | .int n, other => other.number == some (n : ℚ)
  | .float (.finite q), other => other.number == some q
  | _, _ => false

def eqItems : List JsonValue → List JsonValue → Bool
  | [], [] => true
  | x :: xs, y :: ys => eq x y && eqItems xs ys
  | _, _ => false

/-- Every member of the first is a member of the second: the order is not compared. -/
def eqMembers : List (String × JsonValue) → List (String × JsonValue) → Bool
  | [], _ => true
  | (key, x) :: xs, ys => ys.any (fun member => member.1 == key && eq x member.2) && eqMembers xs ys
end

mutual
/-- What `reject_non_finite_json` lets through. -/
def isFinite : JsonValue → Bool
  | .float (.infinite _) | .float .nan => false
  | .list items => allFinite items
  | .dict members => membersFinite members
  | _ => true

def allFinite : List JsonValue → Bool
  | [] => true
  | x :: xs => isFinite x && allFinite xs

def membersFinite : List (String × JsonValue) → Bool
  | [] => true
  | (_, x) :: xs => isFinite x && membersFinite xs
end

mutual
theorem eq_refl : ∀ value : JsonValue, value.isFinite = true → eq value value = true
  | .null, _ => by simp [eq]
  | .bool _, _ => by simp [eq, number]
  | .int _, _ => by simp [eq, number]
  | .float (.finite _), _ => by simp [eq, number]
  | .float (.infinite _), bad => by simp [isFinite] at bad
  | .float .nan, bad => by simp [isFinite] at bad
  | .str _, _ => by simp [eq]
  | .list items, finite => by
    rw [isFinite] at finite
    simpa [eq] using eqItems_refl items finite
  | .dict members, finite => by
    rw [isFinite] at finite
    simpa [eq] using eqMembers_refl members members finite fun _ isIn => isIn

theorem eqItems_refl : ∀ items : List JsonValue, allFinite items = true → eqItems items items = true
  | [], _ => by simp [eqItems]
  | x :: xs, finite => by
    rw [allFinite, Bool.and_eq_true] at finite
    simp [eqItems, eq_refl x finite.1, eqItems_refl xs finite.2]

theorem eqMembers_refl : ∀ members all : List (String × JsonValue), membersFinite members = true →
    (∀ member ∈ members, member ∈ all) → eqMembers members all = true
  | [], _, _, _ => by simp [eqMembers]
  | (key, x) :: xs, all, finite, inside => by
    rw [membersFinite, Bool.and_eq_true] at finite
    have rest := eqMembers_refl xs all finite.2 fun _ isIn => inside _ (List.mem_cons_of_mem _ isIn)
    have here : ∃ member ∈ all, member.1 = key ∧ eq x member.2 = true :=
      ⟨(key, x), inside _ List.mem_cons_self, rfl, eq_refl x finite.1⟩
    simpa [eqMembers, rest] using here
end

def truthy : JsonValue → Bool
  | .null => false
  | .bool b => b
  | .int n => n != 0
  | .float q => q != .finite 0
  | .str s => s != ""
  | .list items => !items.isEmpty
  | .dict members => !members.isEmpty

/-- `d.get(key)` on a dict. -/
def get (members : List (String × JsonValue)) (key : String) : Option JsonValue := members.lookup key

end JsonValue
end Counselle.PyJson

import Counselle.Calendar
import Counselle.PyJson

/-! The typed values the facts mapper and store hand around. A value whose fields
contradict each other cannot be built. -/
namespace Counselle.Facts
open PyJson (JsonValue PyFloat)
open Calendar (Date)

inductive TabName where
  | overview | admission | moneyMatters | academics | campusLife | students
  deriving DecidableEq

inductive ValueKind where
  | money | percent | count | decimal | bool | enum | date | range | address | url | text | list
  | ordinal | table | matrix | distribution
  deriving DecidableEq

def ValueKind.name : ValueKind → String
  | money => "money"
  | percent => "percent"
  | count => "count"
  | decimal => "decimal"
  | bool => "bool"
  | enum => "enum"
  | date => "date"
  | range => "range"
  | address => "address"
  | url => "url"
  | text => "text"
  | list => "list"
  | ordinal => "ordinal"
  | table => "table"
  | matrix => "matrix"
  | distribution => "distribution"

structure Typed where
  num : Option PyFloat := none
  text : Option String := none
  bool : Option Bool := none
  date : Option Date := none
  deriving DecidableEq

def Typed.columns (typed : Typed) : Nat :=
  typed.num.isSome.toNat + typed.text.isSome.toNat + typed.bool.isSome.toNat +
    typed.date.isSome.toNat

theorem null_isFinite : JsonValue.null.isFinite = true := rfl

theorem no_year : (none : Option Int).isSome → (none : Option String).isSome := id

structure NormalizedValue where
  kind : ValueKind
  display : String
  unit : Option String := none
  typed : Typed := {}
  value : JsonValue := .null
  shown : display ≠ "" := by decide
  oneTyped : typed.columns ≤ 1 := by decide
  finite : value.isFinite = true := by decide
  /-- The digits that are read as a number can exceed a double, never be none. -/
  number : typed.num ≠ some .nan := by decide

/-- One mapped fact; no value stands for an unmapped label or an explicit absence. -/
structure FactRow where
  factKey : String
  tab : TabName
  section_ : String
  label : String
  value : Option NormalizedValue
  sourcePath : String
  reportedPeriod : Option String := none
  reportedPeriodYear : Option Int := none
  named : factKey ≠ "" ∧ section_ ≠ "" ∧ label ≠ "" ∧ sourcePath ≠ "" := by decide
  yearHasPeriod : reportedPeriodYear.isSome → reportedPeriod.isSome := by decide

end Counselle.Facts

import BoundSql.Number.Binary

/-! # Dynamic values
**`Value`** — what a caller may bind or a row may hold: a JSON value whose numbers are told apart
as integers and floating-point numbers. -/

namespace BoundSql

/-- A dynamically typed value. -/
inductive Value
  /-- No value. -/
  | null
  /-- A boolean. -/
  | bool (b : Bool)
  /-- An integer. -/
  | int (n : Int)
  /-- A floating-point number. -/
  | float (x : Binary64)
  /-- A text. -/
  | str (s : String)
  /-- A list. -/
  | list (items : List Value)
  /-- Named fields. -/
  | object (fields : List (String × Value))
  deriving Repr, Inhabited

namespace Value

/-- The name of a value's type, as error texts give it. -/
def typeName : Value → String
  | null => "null"
  | bool _ => "boolean"
  | float _ => "float"
  | int _ => "integer"
  | str _ => "string"
  | list _ => "array"
  | object _ => "object"

/-! ### Equality
It follows the structure of a value; no handler derives it for a type that occurs in lists of
itself. -/

mutual

/-- Whether two values are the same. -/
def same : Value → Value → Bool
  | null, null => true
  | bool b, bool c => b == c
  | int m, int n => m == n
  | float x, float y => x == y
  | str s, str t => s == t
  | list us, list vs => sameAll us vs
  | object us, object vs => sameFields us vs
  | _, _ => false
termination_by structural u => u

/-- Whether two lists hold the same values. -/
def sameAll : List Value → List Value → Bool
  | [], [] => true
  | u :: us, v :: vs => u.same v && sameAll us vs
  | _, _ => false
termination_by structural us => us

/-- Whether two lists hold the same values under the same names. -/
def sameFields : List (String × Value) → List (String × Value) → Bool
  | [], [] => true
  | (m, u) :: us, (n, v) :: vs => m == n && u.same v && sameFields us vs
  | _, _ => false
termination_by structural us => us

end

mutual

/-- Values that are the same are equal. -/
theorem same_iff (u v : Value) : u.same v = true ↔ u = v := by
  cases u with
  | list us => cases v <;> simp [same, sameAll_iff]
  | object us => cases v <;> simp [same, sameFields_iff]
  | _ => cases v <;> simp [same]

/-- Lists of the same values are equal. -/
theorem sameAll_iff (us vs : List Value) : sameAll us vs = true ↔ us = vs := by
  match us, vs with
  | [], [] => simp [sameAll]
  | [], v :: vs => simp [sameAll]
  | u :: us, [] => simp [sameAll]
  | u :: us, v :: vs => simp [sameAll, same_iff u v, sameAll_iff us vs]

/-- Lists of the same values under the same names are equal. -/
theorem sameFields_iff (us vs : List (String × Value)) : sameFields us vs = true ↔ us = vs := by
  match us, vs with
  | [], [] => simp [sameFields]
  | [], v :: vs => simp [sameFields]
  | u :: us, [] => simp [sameFields]
  | (m, u) :: us, (n, v) :: vs => simp [sameFields, same_iff u v, sameFields_iff us vs]

end

instance : DecidableEq Value := fun u v => decidable_of_iff _ (same_iff u v)

end Value

end BoundSql

import BoundSql.Dialect
import BoundSql.Error
import BoundSql.Number.DecimalText
import BoundSql.Text.Blank
import BoundSql.Value

/-! # Wire values
The four categories of values a server parameter can carry:
* **`WireType`**, **`WireValue`** — text, 64-bit integer, boolean, null.
* **`Value.coerce`** — the wire value of a dynamic value, each value once and in one category.
* **`Value.coerceAs`** — the same under a declared category; a conversion that would lose
  information fails.
* **`WireValue.literal`** — a wire value as statement text. -/

namespace BoundSql

/-- A category of wire values. -/
inductive WireType
  /-- Text. -/
  | str
  /-- A 64-bit integer. -/
  | int
  /-- A boolean. -/
  | bool
  /-- No value. -/
  | null
  deriving DecidableEq, Repr, Inhabited

/-- The name of a category in error texts. -/
def WireType.name : WireType → String
  | str => "Str"
  | int => "Int"
  | bool => "Bool"
  | null => "Null"

/-- A value as a server parameter carries it. -/
inductive WireValue
  /-- Text. -/
  | str (s : String)
  /-- A 64-bit integer. -/
  | int (n : Int64)
  /-- A boolean. -/
  | bool (b : Bool)
  /-- No value. -/
  | null
  deriving DecidableEq, Repr, Inhabited

namespace WireValue

/-- The category of a value. -/
def type : WireValue → WireType
  | str _ => .str
  | int _ => .int
  | bool _ => .bool
  | null => .null

/-- A boolean as the digit `0` or `1`. -/
def digit (b : Bool) : String := if b then "1" else "0"

/-- A text of `max` or more characters cut to its first `max`, followed by dots. A maximum of zero
cuts nothing. -/
def preserve (max : Option Nat) (s : String) : String :=
  match max with
  | some n =>
    if 0 < n ∧ n ≤ s.toList.length then String.ofList (s.toList.take n) ++ "..." else s
  | none => s

/-- A value as a literal of statement text, long texts cut. -/
def literal (d : Dialect) (max : Option Nat) : WireValue → String
  | str s => d.quoteString (preserve max s)
  | int n => toString n.toInt
  | bool b => digit b
  | null => "NULL"

end WireValue

namespace Value

/-- The integer as a 64-bit one, if it is in range. -/
def int64? (n : Int) : Option Int64 :=
  if -(Nat.pow 2 63 : Nat) ≤ n ∧ n < (Nat.pow 2 63 : Nat) then some (Int64.ofInt n) else none

/-- The error of a value that no parameter can carry. -/
def unsupported (parameter : String) (v : Value) : DbError :=
  .unsupportedBindType parameter v.typeName

/-- The wire value of a dynamic value, in the category of its own type. -/
def coerce (parameter : String) : Value → Except DbError WireValue
  | str s => .ok (.str s)
  | int n =>
    match int64? n with
    | some i => .ok (.int i)
    | none => .error (unsupported parameter (.int n))
  | bool b => .ok (.bool b)
  | null => .ok .null
  | v => .error (unsupported parameter v)

/-- A wire value in a declared category; nothing if the conversion would lose information. -/
def convert? : WireValue → WireType → Option WireValue
  | _, .null => some .null
  | .null, _ => some .null
  | .str s, .str => some (.str s)
  | .int n, .str => some (.str (toString n.toInt))
  | .bool b, .str => some (.str (WireValue.digit b))
  | .str s, .int =>
    match Number.readSigned 64 (Text.trim s.toList) with
    | .ok n => some (.int (Int64.ofInt n))
    | .error _ => none
  | .int n, .int => some (.int n)
  | .bool b, .int => some (.int (if b then 1 else 0))
  | .str s, .bool =>
    if s = "0" ∨ s = "false" then some (.bool false)
    else if s = "1" ∨ s = "true" then some (.bool true)
    else none
  | .int n, .bool =>
    if n = 0 then some (.bool false) else if n = 1 then some (.bool true) else none
  | .bool b, .bool => some (.bool b)

/-- The wire value of a dynamic value in a declared category. -/
def coerceAs (parameter : String) (v : Value) (declared : WireType) : Except DbError WireValue :=
  match v.coerce parameter with
  | .error e => .error e
  | .ok natural =>
    match convert? natural declared with
    | some w => .ok w
    | none =>
      .error (.unsupportedBindType parameter s!"{v.typeName} declared as {declared.name}")

end Value

end BoundSql

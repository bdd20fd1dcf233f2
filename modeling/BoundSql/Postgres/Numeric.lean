import BoundSql.Number.BigEndian
import BoundSql.Number.DecimalText

/-! # Exact decimal numbers
**`Numeric`** — a decimal number as PostgreSQL exchanges it: groups of four decimal digits, the
weight of the first group, a sign, and the number of digits shown after the point.
* **`Numeric.ofText`** — the number a decimal text writes. Its groups start and end with none that
  is zero, so numbers of one value and scale are the same.
* **`Numeric.bytes`** — the number as a server reads it. -/

namespace BoundSql.Postgres

/-- Why a text makes no decimal number. -/
inductive NumericError
  /-- The text has another form. -/
  | invalid
  /-- The number of digits exceeds what the format can state. -/
  | tooLarge
  deriving DecidableEq, Repr

/-- A decimal number: its `i`-th group is worth `10000 ^ (weight - i)` times the group. -/
structure Numeric where
  /-- Whether the sign is negative. -/
  negative : Bool
  /-- The weight of the first group. -/
  weight : Int
  /-- The number of digits after the point. -/
  scale : Nat
  /-- Digits in groups of four, from the highest on. -/
  groups : List Nat
  deriving DecidableEq, Repr, Inhabited

namespace Numeric

/-! ### Parts of a text -/

/-- Whether text starts with a minus sign, and what follows its sign. -/
def splitSign : List Char → Bool × List Char
  | '-' :: cs => (true, cs)
  | '+' :: cs => (false, cs)
  | cs => (false, cs)

/-- What stands before the first point, and what follows it. -/
def splitPoint (cs : List Char) : List Char × List Char :=
  (cs.takeWhile (· != '.'), (cs.dropWhile (· != '.')).drop 1)

/-- Whether the parts around the point hold digits only, and at least one. -/
def isDecimal (whole fraction : List Char) : Bool :=
  !(whole.isEmpty && fraction.isEmpty) && whole.all Char.isDigit && fraction.all Char.isDigit

/-! ### Groups -/

/-- The number of zeros that make a number of digits a multiple of four. -/
def padding (digits : Nat) : Nat := (4 - digits % 4) % 4

/-- Digits before the point, with zeros in front that fill the first group. -/
def padWhole (digits : List Char) : List Char :=
  List.replicate (padding digits.length) '0' ++ digits

/-- Digits after the point, with zeros behind that fill the last group. -/
def padFraction (digits : List Char) : List Char :=
  digits ++ List.replicate (padding digits.length) '0'

/-- Digits in groups of four. -/
def groupsOf : List Char → List Nat
  | a :: b :: c :: d :: rest => Number.digitsValue 0 [a, b, c, d] :: groupsOf rest
  | [] => []
  | digits => [Number.digitsValue 0 digits]

/-- Whether a group is zero. -/
def isZeroGroup (group : Nat) : Bool := group == 0

/-- Groups without the zero groups at the end. -/
def dropTrailing (groups : List Nat) : List Nat :=
  (groups.reverse.dropWhile isZeroGroup).reverse

/-- The number of groups, of which the first has a weight, without the zero groups at either end.
Zero has no groups, no weight and no sign. -/
def ofGroups (negative : Bool) (weight : Int) (scale : Nat) (groups : List Nat) : Numeric :=
  let leading := (groups.takeWhile isZeroGroup).length
  let kept := dropTrailing (groups.dropWhile isZeroGroup)
  if kept.isEmpty then ⟨false, 0, scale, []⟩ else ⟨negative, weight - leading, scale, kept⟩

/-! ### Limits -/

/-- The largest number of digits after the point. -/
def maxScale : Nat := 65535

/-- The largest number of groups, in all and before the point. -/
def maxGroups : Nat := 32767

/-- The number with the given digits before and after the point. -/
def ofParts (negative : Bool) (whole fraction : List Char) : Except NumericError Numeric :=
  let whole := padWhole (whole.dropWhile (· == '0'))
  let wholeGroups := whole.length / 4
  let n := ofGroups negative ((wholeGroups : Int) - 1) fraction.length
    (groupsOf (whole ++ padFraction fraction))
  if maxScale < fraction.length || maxGroups < wholeGroups || maxGroups < n.groups.length then
    .error .tooLarge
  else .ok n

/-- The number that a text writes: an optional sign, and digits with an optional point. -/
def ofText (cs : List Char) : Except NumericError Numeric :=
  let signed := splitSign cs
  let parts := splitPoint signed.2
  if isDecimal parts.1 parts.2 then ofParts signed.1 parts.1 parts.2 else .error .invalid

/-! ### Bytes -/

/-- The code of a sign. -/
def signCode (negative : Bool) : Nat := if negative then 0x4000 else 0

/-- A number as a server reads it: the number of groups, the weight, the sign, the scale and the
groups, each in two bytes. -/
def bytes (n : Numeric) : Bytes :=
  Number.bigEndian 2 n.groups.length ++ Number.bigEndian 2 n.weight ++
    Number.bigEndian 2 (signCode n.negative) ++ Number.bigEndian 2 n.scale ++
    n.groups.flatMap fun (g : Nat) => Number.bigEndian 2 g

end Numeric

end BoundSql.Postgres

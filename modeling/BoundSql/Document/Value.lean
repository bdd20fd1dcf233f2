import BoundSql.Document.Text
import BoundSql.Number.DecimalText
import BoundSql.OrderedMap
import BoundSql.Value

/-! # The value of a JSON document
**`Document.value?`** — the dynamic value of a document whose strings are valid text, whose numbers
are in range and whose parts are nested at most `maxDepth` deep. Of fields with one name the last
counts.

Integers keep their value while 64 bits hold it. All other numbers are floating-point numbers: as
many leading digits as 64 bits hold, scaled by powers of ten that are floating-point numbers
themselves. -/

namespace BoundSql.Document

/-! ### Numbers -/

/-- The parts of a number. -/
structure NumberParts where
  /-- Whether it has a minus sign. -/
  negative : Bool
  /-- The digits before the point. -/
  whole : List Char
  /-- The digits after the point, if there is one. -/
  fraction : Option (List Char)
  /-- Whether the exponent is negative, and its digits, if there is one. -/
  exponent : Option (Bool × List Char)

/-- The parts of a number that has been scanned. -/
def numberParts (text : List Char) : NumberParts :=
  let (negative, magnitude) : Bool × List Char := match text with
    | '-' :: cs => (true, cs)
    | cs => (false, cs)
  let afterWhole := magnitude.dropWhile Char.isDigit
  let fraction : Option (List Char) := match afterWhole with
    | '.' :: cs => some (cs.takeWhile Char.isDigit)
    | _ => none
  let afterFraction := match afterWhole with
    | '.' :: cs => cs.dropWhile Char.isDigit
    | cs => cs
  let exponent : Option (Bool × List Char) := match afterFraction with
    | _ :: '-' :: cs => some (true, cs)
    | _ :: '+' :: cs => some (false, cs)
    | _ :: cs => some (false, cs)
    | [] => none
  { negative, whole := magnitude.takeWhile Char.isDigit, fraction, exponent }

/-- The leading digits that 64 bits hold after `n`, as a number, and how many they are. -/
def takeSignificant : Nat → List Char → Nat × Nat
  | n, [] => (n, 0)
  | n, c :: cs =>
    if n * 10 + Number.digitValue c < Nat.pow 2 64 then
      let r := takeSignificant (n * 10 + Number.digitValue c) cs
      (r.1, r.2 + 1)
    else (n, 0)

/-- The quotient or product of a finite number and another one's magnitude, rounded. -/
def scale (x pow : Binary64) (divide : Bool) : Binary64 :=
  match x.finite?, pow.finite? with
  | some x, some p =>
    let (xn, xd) := x.ratio
    let (pn, pd) := p.ratio
    if divide then Binary64.ofRatio (xn * pd) (xd * pn) else Binary64.ofRatio (xn * pn) (xd * pd)
  | _, _ => x

/-- The largest exponent of a power of ten that is a finite number. -/
def maxPower : Nat := 308

/-- A number divided by powers of ten, one for every `maxPower` of the exponent. Three powers take
every significand to zero. -/
def divideByTens (x : Binary64) (exponent : Nat) : Nat → Binary64
  | 0 => x
  | n + 1 =>
    if exponent ≤ maxPower then scale x (Binary64.ofRatio (Nat.pow 10 exponent) 1) true
    else if x.bits = 0 then x
    else
      divideByTens (scale x (Binary64.ofRatio (Nat.pow 10 maxPower) 1) true) (exponent - maxPower) n

/-- The largest exponent that is told apart from larger ones. -/
def maxExponent : Nat := Nat.pow 2 31 - 1

/-- The magnitude of a significand times a power of ten; nothing if it is out of range. -/
def scaledMagnitude (significand : Nat) (exponent : Int) : Option Binary64 :=
  let x := Binary64.ofRatio significand 1
  if exponent < 0 then some (divideByTens x exponent.natAbs 3)
  else if (maxPower : Int) < exponent then if significand = 0 then some x else none
  else
    let r := scale x (Binary64.ofRatio (Nat.pow 10 exponent.toNat) 1) false
    if r.finite?.isSome then some r else none

/-- The floating-point number of the parts of a number; nothing if it is out of range. -/
def floatOf (p : NumberParts) : Option Binary64 :=
  let (whole, wholeKept) := takeSignificant 0 p.whole
  let fraction := p.fraction.getD []
  let (significand, fractionKept) := takeSignificant whole fraction
  let point : Int := ((p.whole.length - wholeKept : Nat) : Int) - fractionKept
  let magnitude : Option Binary64 := match p.exponent with
    | none => scaledMagnitude significand point
    | some (negative, digits) =>
      let n := Number.digitsValue 0 digits
      if maxExponent < n then
        if significand = 0 || negative then some (Binary64.ofRatio 0 1) else none
      else scaledMagnitude significand (if negative then point - n else point + n)
  magnitude.map fun x => if p.negative then x.negate else x

/-- The value of a number: an integer while 64 bits hold it, and a floating-point number
otherwise. -/
def numberValue? (text : Bytes) : Option Value :=
  let p := numberParts (text.map fun b => Char.ofNat b.toNat)
  let n := Number.digitsValue 0 p.whole
  if p.fraction.isSome || p.exponent.isSome then (floatOf p).map Value.float
  else if p.negative then
    if 0 < n ∧ n ≤ Nat.pow 2 63 then some (.int (-(n : Int))) else (floatOf p).map Value.float
  else if n < Nat.pow 2 64 then some (.int n)
  else (floatOf p).map Value.float

/-! ### Values -/

/-- How deep the parts of a document may be nested. -/
def maxDepth : Nat := 127

mutual

/-- The value of a document with at most `depth` levels of lists and objects. -/
def valueWithin : Nat → Document → Option Value
  | _, null => some .null
  | _, bool b => some (.bool b)
  | _, number text => numberValue? text
  | _, string raw => (unescape raw).map Value.str
  | 0, list _ => none
  | 0, object _ => none
  | depth + 1, list items => (itemValues depth items).map Value.list
  | depth + 1, object fields =>
    (fieldValues depth fields).map fun fs => .object (OrderedMap.ofList fs).entries

/-- The values of the items of a list. -/
def itemValues : Nat → List Document → Option (List Value)
  | _, [] => some []
  | depth, d :: ds =>
    (valueWithin depth d).bind fun v => (itemValues depth ds).map fun vs => v :: vs

/-- The names and values of the fields of an object. -/
def fieldValues : Nat → List (Bytes × Document) → Option (List (String × Value))
  | _, [] => some []
  | depth, (name, d) :: fields =>
    (unescape name).bind fun n =>
      (valueWithin depth d).bind fun v => (fieldValues depth fields).map fun fs => (n, v) :: fs

end

/-- The dynamic value of a document. -/
def value? (d : Document) : Option Value := valueWithin maxDepth d

/-- The dynamic value of a JSON text. -/
def parseValue (bs : Bytes) : Option Value := (read bs).bind value?

end BoundSql.Document

import BoundSql.Number.Binary

/-! # Shortest decimal text
**`Binary64.shortest?`** — the decimal with the fewest digits that reads back as a given finite
number, the nearest one if there are several; **`Binary64.text`** writes it, positionally where the
exponent is small and with an exponent otherwise. -/

namespace BoundSql.Binary64

/-- The reals that round to a positive finite number, in quarters of its last bit. -/
structure Interval where
  /-- The number itself, as a numerator over `scale`. -/
  value : Nat
  /-- The distance down to the lower end. -/
  below : Nat
  /-- The distance up to the upper end. -/
  above : Nat
  /-- The common denominator. -/
  scale : Nat
  /-- Whether the two ends belong to the interval. -/
  closed : Bool

/-- The interval of a positive finite number. The gap below a power of two is half the gap above
it, and ties go to the even significand. -/
def Finite.interval (x : Finite) : Interval :=
  let up := Nat.pow 2 x.exponent.toNat
  let powerOfTwo : Bool :=
    x.significand == Nat.pow 2 52 && x.exponent != Binary.Format.double.leastExponent
  { value := 4 * x.significand * up
    below := if powerOfTwo then up else 2 * up
    above := 2 * up
    scale := 4 * Nat.pow 2 (-x.exponent).toNat
    closed := x.significand % 2 == 0 }

/-- Whether `numerator / denominator` lies in an interval. -/
def Interval.contains (i : Interval) (numerator denominator : Nat) : Bool :=
  let scaled := numerator * i.scale
  let low := (i.value - i.below) * denominator
  let high := (i.value + i.above) * denominator
  if i.closed then low ≤ scaled && scaled ≤ high else low < scaled && scaled < high

/-- The distance of `numerator / denominator` from the number, in units common to one
denominator. -/
def Interval.distance (i : Interval) (numerator denominator : Nat) : Nat :=
  let scaled := numerator * i.scale
  let exact := i.value * denominator
  (scaled - exact) + (exact - scaled)

/-- The exponent of the first decimal digit of a positive quotient. -/
def decimalExponent (numerator denominator : Nat) : Int :=
  if denominator ≤ numerator then
    ((Nat.toDigits 10 (numerator / denominator)).length : Int) - 1
  else
    -((Nat.toDigits 10 ((denominator + numerator - 1) / numerator - 1)).length : Int)

/-- The nearer of the two decimals with the given last place that surround the number, if one of
them lies in the interval; of two equally near ones the one with an even last digit. -/
def Interval.candidate? (i : Interval) (place : Int) : Option Nat :=
  let up := Nat.pow 10 place.toNat
  let down := Nat.pow 10 (-place).toNat
  let lower := i.value * down / (i.scale * up)
  let inside (n : Nat) := i.contains (n * up) down
  let distance (n : Nat) := i.distance (n * up) down
  if inside lower then
    if inside (lower + 1) && (distance (lower + 1) < distance lower ||
        distance (lower + 1) == distance lower && lower % 2 == 1) then
      some (lower + 1)
    else some lower
  else if inside (lower + 1) then some (lower + 1)
  else none

/-- The first place, going down from `first`, that has a decimal in the interval. -/
def Interval.search (i : Interval) (first : Int) : Nat → Option (Nat × Int)
  | 0 => none
  | n + 1 =>
    match i.candidate? first with
    | some c => some (c, first)
    | none => i.search (first - 1) n

/-- The digits and the exponent of the last digit of the shortest decimal of a positive finite
number. Seventeen digits always suffice. -/
def Finite.shortest? (x : Finite) : Option (Nat × Int) :=
  let i := x.interval
  i.search (decimalExponent i.value i.scale) 17

/-- An exponent with its sign. -/
def exponentText (e : Int) : List Char :=
  'e' :: (if e < 0 then '-' else '+') :: Nat.toDigits 10 e.natAbs

/-- Digits with their last place, in plain notation up to sixteen digits before the point and five
zeros after it, and with an exponent otherwise. -/
def layout (digits : List Char) (place : Int) : List Char :=
  let n : Int := digits.length
  let point := n + place
  if 0 ≤ place ∧ point ≤ 16 then digits ++ List.replicate place.toNat '0' ++ ['.', '0']
  else if 0 < point ∧ point ≤ 16 then
    digits.take point.toNat ++ '.' :: digits.drop point.toNat
  else if -5 < point ∧ point ≤ 0 then
    '0' :: '.' :: (List.replicate (-point).toNat '0' ++ digits)
  else
    let exponent := exponentText (point - 1)
    match digits with
    | [d] => d :: exponent
    | d :: ds => d :: '.' :: (ds ++ exponent)
    | [] => exponent

/-- A decimal without the zeros that end it. -/
def stripZeros (digits : List Char) (place : Int) : List Char × Int :=
  let zeros := (digits.reverse.takeWhile (· == '0')).length
  (digits.take (digits.length - zeros), place + zeros)

/-- The shortest text of a finite number; nothing for an infinity or no number. -/
def text (x : Binary64) : Option String :=
  x.finite?.bind fun f =>
    let sign := if f.negative then ['-'] else []
    if f.significand = 0 then some (String.ofList (sign ++ ['0', '.', '0']))
    else f.shortest?.map fun (digits, place) =>
      let (digits, place) := stripZeros (Nat.toDigits 10 digits) place
      String.ofList (sign ++ layout digits place)

end BoundSql.Binary64

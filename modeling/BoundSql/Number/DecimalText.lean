import BoundSql.Number.Binary

/-! # Decimal text
Numbers written in decimal:
* **`readInteger`** — a signed integer within bounds, with the cause why a text is none
  (`IntegerError`).
* **`readBinary`** — a floating-point number in plain or scientific notation, `inf`, `infinity` or
  `nan`. -/

namespace BoundSql.Number

/-- The value of a decimal digit. -/
def digitValue (c : Char) : Nat := c.toNat - '0'.toNat

/-- The value of a run of digits, read after digits worth `start`. -/
def digitsValue (start : Nat) (digits : List Char) : Nat :=
  digits.foldl (fun n c => n * 10 + digitValue c) start

/-! ### Integers -/

/-- Why a text is no integer within the bounds. -/
inductive IntegerError
  /-- There is no text. -/
  | empty
  /-- A character is no digit, or there is none after the sign. -/
  | invalidDigit
  /-- The digits exceed the upper bound. -/
  | tooLarge
  /-- The digits fall below the lower bound. -/
  | tooSmall
  deriving DecidableEq, Repr

/-- The value of digits up to `limit`. The first fault from the left is reported: a character that
is no digit, or the digit that takes the value past the limit. -/
def readDigits (limit : Nat) (overflow : IntegerError) :
    Nat → List Char → Except IntegerError Nat
  | n, [] => .ok n
  | n, c :: cs =>
    if !c.isDigit then .error .invalidDigit
    else if limit < n * 10 + digitValue c then .error overflow
    else readDigits limit overflow (n * 10 + digitValue c) cs

/-- An integer from `-low` to `high`: digits with an optional sign, a minus only if `low` allows
one. -/
def readInteger (low high : Nat) : List Char → Except IntegerError Int
  | [] => .error .empty
  | '+' :: [] => .error .invalidDigit
  | '-' :: [] => .error .invalidDigit
  | '+' :: cs => (readDigits high .tooLarge 0 cs).map Int.ofNat
  | '-' :: cs =>
    if low = 0 then .error .invalidDigit
    else (readDigits low .tooSmall 0 cs).map fun n => -(n : Int)
  | cs => (readDigits high .tooLarge 0 cs).map Int.ofNat

/-- A signed integer of a given number of bits. -/
def readSigned (bits : Nat) : List Char → Except IntegerError Int :=
  readInteger (Nat.pow 2 (bits - 1)) (Nat.pow 2 (bits - 1) - 1)

/-! ### Floating-point numbers -/

/-- Why a text is no floating-point number. -/
inductive BinaryError
  /-- There is no text. -/
  | empty
  /-- The text has another form. -/
  | invalid
  deriving DecidableEq, Repr

/-- The value of an exponent's digits, held at a bound that every larger exponent shares. -/
def exponentValue (digits : List Char) : Nat :=
  digits.foldl (fun n c => min (n * 10 + digitValue c) 1000000) 0

/-- The exponent part that ends a number: nothing, or `e`, an optional sign and digits. -/
def readExponent : List Char → Option Int
  | [] => some 0
  | c :: cs =>
    if c ≠ 'e' ∧ c ≠ 'E' then none
    else
      let (negative, digits) : Bool × List Char :=
        match cs with
        | '-' :: ds => (true, ds)
        | '+' :: ds => (false, ds)
        | ds => (false, ds)
      if digits.isEmpty || !digits.all Char.isDigit then none
      else some (if negative then -(exponentValue digits : Int) else exponentValue digits)

/-- A number without sign: digits with an optional point, at least one digit in all, and an
optional exponent. The answer is a coefficient with its decimal exponent. -/
def readScientific (cs : List Char) : Option (Nat × Int) :=
  let whole := cs.takeWhile Char.isDigit
  let (fraction, rest) : List Char × List Char :=
    match cs.dropWhile Char.isDigit with
    | '.' :: ds => (ds.takeWhile Char.isDigit, ds.dropWhile Char.isDigit)
    | ds => ([], ds)
  if whole.isEmpty && fraction.isEmpty then none
  else
    (readExponent rest).map fun e =>
      (digitsValue (digitsValue 0 whole) fraction, e - fraction.length)

/-- The magnitude bits of a number without sign. -/
def readMagnitude (f : Binary.Format) (cs : List Char) : Option Nat :=
  match readScientific cs with
  | some (coefficient, exponent) => some (f.ofDecimal coefficient exponent)
  | none =>
    match String.ofList (cs.map Char.toLower) with
    | "inf" | "infinity" => some f.infinity
    | "nan" => some f.notANumber
    | _ => none

/-- The bits of the floating-point number a text names. -/
def readBinary (f : Binary.Format) : List Char → Except BinaryError Nat
  | [] => .error .empty
  | c :: cs =>
    let (negative, magnitude) : Bool × List Char :=
      if c = '-' then (true, cs) else if c = '+' then (false, cs) else (false, c :: cs)
    match readMagnitude f magnitude with
    | some bits => .ok (f.signed negative bits)
    | none => .error .invalid

end BoundSql.Number

import BoundSql.Bytes

/-! # JSON documents
* **`Document`** — a JSON text as a tree. Numbers and strings are kept as written, so that whoever
  reads a field decides what it must hold.
* **`Document.write`** — the bytes of a document, without blanks.
* **`Document.read`** — the document of bytes, with blanks allowed around every part. -/

namespace BoundSql

/-- A JSON text as a tree. -/
inductive Document
  /-- The literal `null`. -/
  | null
  /-- The literals `true` and `false`. -/
  | bool (b : Bool)
  /-- A number as it is written. -/
  | number (text : Bytes)
  /-- A string as it is written between its quotes. -/
  | string (raw : Bytes)
  /-- A list. -/
  | list (items : List Document)
  /-- Fields in order, a name possibly more than once. -/
  | object (fields : List (Bytes × Document))
  deriving Repr, Inhabited

namespace Document

/-! ### Writing -/

/-- Byte strings with a separator between them. -/
def separated (separator : UInt8) : List Bytes → Bytes
  | [] => []
  | [b] => b
  | b :: bs => b ++ separator :: separated separator bs

/-- Bytes in double quotes. -/
def inQuotes (raw : Bytes) : Bytes := byte '"' :: (raw ++ [byte '"'])

mutual

/-- The bytes of a document. -/
def write : Document → Bytes
  | null => asciiBytes "null"
  | bool b => asciiBytes (if b then "true" else "false")
  | number text => text
  | string raw => inQuotes raw
  | list items => byte '[' :: (separated (byte ',') (writeItems items) ++ [byte ']'])
  | object fields =>
    0x7B :: (separated (byte ',') (writeFields fields) ++ [0x7D])

/-- The bytes of each item of a list. -/
def writeItems : List Document → List Bytes
  | [] => []
  | d :: ds => d.write :: writeItems ds

/-- The bytes of each field of an object. -/
def writeFields : List (Bytes × Document) → List Bytes
  | [] => []
  | (name, d) :: fields => (inQuotes name ++ byte ':' :: d.write) :: writeFields fields

end

/-! ### Reading -/

/-- Whether a byte is a blank between the parts of a document. -/
def isBlankByte (b : UInt8) : Bool := b == 0x20 || b == 0x0A || b == 0x0D || b == 0x09

/-- Bytes without the blanks they start with. -/
def skipBlanks (bs : Bytes) : Bytes := bs.dropWhile isBlankByte

/-- Whether a byte is a decimal digit. -/
def isDigitByte (b : UInt8) : Bool := 0x30 ≤ b && b ≤ 0x39

/-- The value of a hexadecimal digit. -/
def hexValue? (b : UInt8) : Option Nat :=
  if isDigitByte b then some (b.toNat - 0x30)
  else if 0x41 ≤ b && b ≤ 0x46 then some (b.toNat - 0x37)
  else if 0x61 ≤ b && b ≤ 0x66 then some (b.toNat - 0x57)
  else none

/-- Whether a byte after a backslash names a character by itself. -/
def isSimpleEscape (b : UInt8) : Bool := (asciiBytes "\"\\/bfnrt").contains b

/-- A string up to its closing quote, the opening one standing before the bytes, and what follows.
Control characters and unknown escapes do not occur in strings. -/
def scanString : Bytes → Option (Bytes × Bytes)
  | [] => none
  | b :: bs =>
    if b = byte '"' then some ([], bs)
    else if b = byte '\\' then
      match bs with
      | [] => none
      | e :: rest =>
        if e = byte 'u' then
          match rest with
          | h₁ :: h₂ :: h₃ :: h₄ :: rest =>
            if [h₁, h₂, h₃, h₄].all fun h => (hexValue? h).isSome then
              (scanString rest).map fun r => (b :: e :: h₁ :: h₂ :: h₃ :: h₄ :: r.1, r.2)
            else none
          | _ => none
        else if isSimpleEscape e then (scanString rest).map fun r => (b :: e :: r.1, r.2)
        else none
    else if b < 0x20 then none
    else (scanString bs).map fun r => (b :: r.1, r.2)

/-- A run of at least one digit, and what follows. -/
def scanDigits (bs : Bytes) : Option (Bytes × Bytes) :=
  match bs.takeWhile isDigitByte with
  | [] => none
  | digits => some (digits, bs.dropWhile isDigitByte)

/-- The whole part of a number: a zero, or digits that start with none. -/
def scanWhole : Bytes → Option (Bytes × Bytes)
  | [] => none
  | b :: bs => if b = byte '0' then some ([b], bs) else scanDigits (b :: bs)

/-- The fraction of a number, if there is one. -/
def scanFraction : Bytes → Option (Bytes × Bytes)
  | [] => some ([], [])
  | b :: bs =>
    if b = byte '.' then (scanDigits bs).map fun r => (b :: r.1, r.2) else some ([], b :: bs)

/-- The exponent of a number, if there is one. -/
def scanExponent : Bytes → Option (Bytes × Bytes)
  | [] => some ([], [])
  | b :: bs =>
    if b = byte 'e' ∨ b = byte 'E' then
      match bs with
      | [] => none
      | s :: rest =>
        if s = byte '+' ∨ s = byte '-' then (scanDigits rest).map fun r => (b :: s :: r.1, r.2)
        else (scanDigits (s :: rest)).map fun r => (b :: r.1, r.2)
    else some ([], b :: bs)

/-- A number without its sign, and what follows. -/
def scanMagnitude (bs : Bytes) : Option (Bytes × Bytes) :=
  (scanWhole bs).bind fun whole =>
    (scanFraction whole.2).bind fun fraction =>
      (scanExponent fraction.2).map fun exponent =>
        (whole.1 ++ fraction.1 ++ exponent.1, exponent.2)

/-- A number, and what follows. -/
def scanNumber : Bytes → Option (Bytes × Bytes)
  | [] => none
  | b :: bs =>
    if b = byte '-' then (scanMagnitude bs).map fun r => (b :: r.1, r.2)
    else scanMagnitude (b :: bs)

/-- What follows a literal that starts the bytes. -/
def afterLiteral? : Bytes → Bytes → Option Bytes
  | [], bs => some bs
  | _, [] => none
  | l :: ls, b :: bs => if l = b then afterLiteral? ls bs else none

mutual

/-- A document with blanks before it, and what follows. The first argument bounds the number of
steps. -/
def readValue : Nat → Bytes → Option (Document × Bytes)
  | 0, _ => none
  | steps + 1, bs =>
    match skipBlanks bs with
    | [] => none
    | b :: rest =>
      if b = byte '"' then (scanString rest).map fun r => (.string r.1, r.2)
      else if b = byte '[' then
        match skipBlanks rest with
        | [] => none
        | c :: after =>
          if c = byte ']' then some (.list [], after)
          else (readItems steps (c :: after)).map fun r => (.list r.1, r.2)
      else if b = 0x7B then
        match skipBlanks rest with
        | [] => none
        | c :: after =>
          if c = 0x7D then some (.object [], after)
          else (readFields steps (c :: after)).map fun r => (.object r.1, r.2)
      else if b = byte 'n' then
        (afterLiteral? (asciiBytes "ull") rest).map fun r => (.null, r)
      else if b = byte 't' then
        (afterLiteral? (asciiBytes "rue") rest).map fun r => (.bool true, r)
      else if b = byte 'f' then
        (afterLiteral? (asciiBytes "alse") rest).map fun r => (.bool false, r)
      else (scanNumber (b :: rest)).map fun r => (.number r.1, r.2)

/-- The items of a list through its closing bracket, and what follows. -/
def readItems : Nat → Bytes → Option (List Document × Bytes)
  | 0, _ => none
  | steps + 1, bs =>
    match readValue steps bs with
    | none => none
    | some (d, rest) =>
      match skipBlanks rest with
      | [] => none
      | c :: after =>
        if c = byte ']' then some ([d], after)
        else if c = byte ',' then
          (readItems steps after).map fun r => (d :: r.1, r.2)
        else none

/-- The fields of an object through its closing brace, and what follows. -/
def readFields : Nat → Bytes → Option (List (Bytes × Document) × Bytes)
  | 0, _ => none
  | steps + 1, bs =>
    match skipBlanks bs with
    | [] => none
    | q :: rest =>
      if q ≠ byte '"' then none
      else
        match scanString rest with
        | none => none
        | some (name, rest) =>
          match skipBlanks rest with
          | [] => none
          | colon :: rest =>
            if colon ≠ byte ':' then none
            else
              match readValue steps rest with
              | none => none
              | some (d, rest) =>
                match skipBlanks rest with
                | [] => none
                | c :: after =>
                  if c = 0x7D then some ([(name, d)], after)
                  else if c = byte ',' then
                    (readFields steps after).map fun r => ((name, d) :: r.1, r.2)
                  else none

end

/-- The document of bytes, with nothing but blanks around it. -/
def read (bs : Bytes) : Option Document :=
  match readValue (2 * bs.length + 2) bs with
  | some (d, rest) => if (skipBlanks rest).isEmpty then some d else none
  | none => none

end Document

end BoundSql

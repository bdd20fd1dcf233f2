import BoundSql.Document.Basic

/-! # Strings of JSON documents
**`Document.escape`** writes text so that it can stand between quotes: quotes, backslashes and
control characters are escaped and all other bytes stand for themselves. **`Document.unescape`**
undoes it and every other escape; the text must be valid UTF-8, and surrogates must come in
pairs. -/

namespace BoundSql.Document

/-- The lower-case hexadecimal digit of a number below sixteen. -/
def hexDigit (n : Nat) : UInt8 := if n < 10 then (0x30 + n).toUInt8 else (0x57 + n).toUInt8

/-- A byte between quotes. -/
def escapeByte (b : UInt8) : Bytes :=
  if b = byte '"' then asciiBytes "\\\""
  else if b = byte '\\' then asciiBytes "\\\\"
  else if b = 0x08 then asciiBytes "\\b"
  else if b = 0x09 then asciiBytes "\\t"
  else if b = 0x0A then asciiBytes "\\n"
  else if b = 0x0C then asciiBytes "\\f"
  else if b = 0x0D then asciiBytes "\\r"
  else if b < 0x20 then asciiBytes "\\u00" ++ [hexDigit (b.toNat / 16), hexDigit (b.toNat % 16)]
  else [b]

/-- Text between quotes. -/
def escape (s : String) : Bytes := (textBytes s).flatMap escapeByte

/-- The number that four hexadecimal digits write. -/
def codeUnit? (h₁ h₂ h₃ h₄ : UInt8) : Option Nat :=
  match hexValue? h₁, hexValue? h₂, hexValue? h₃, hexValue? h₄ with
  | some a, some b, some c, some d => some (((a * 16 + b) * 16 + c) * 16 + d)
  | _, _, _, _ => none

/-- Whether a code unit starts a surrogate pair. -/
def isHighSurrogate (n : Nat) : Bool := 0xD800 ≤ n && n ≤ 0xDBFF

/-- Whether a code unit ends a surrogate pair. -/
def isLowSurrogate (n : Nat) : Bool := 0xDC00 ≤ n && n ≤ 0xDFFF

/-- The code point of a surrogate pair. -/
def pairValue (high low : Nat) : Nat := 0x10000 + (high - 0xD800) * 0x400 + (low - 0xDC00)

/-- The byte that a simple escape stands for. -/
def simpleEscape (b : UInt8) : UInt8 :=
  if b = byte 'b' then 0x08
  else if b = byte 'f' then 0x0C
  else if b = byte 'n' then 0x0A
  else if b = byte 'r' then 0x0D
  else if b = byte 't' then 0x09
  else b

/-- The bytes that a string stands for. -/
def unescapeBytes : Bytes → Option Bytes
  | [] => some []
  | 0x5C :: 0x75 :: h₁ :: h₂ :: h₃ :: h₄ :: rest =>
    match codeUnit? h₁ h₂ h₃ h₄ with
    | none => none
    | some n =>
      if isLowSurrogate n then none
      else if isHighSurrogate n then
        match rest with
        | 0x5C :: 0x75 :: l₁ :: l₂ :: l₃ :: l₄ :: rest =>
          match codeUnit? l₁ l₂ l₃ l₄ with
          | some low =>
            if isLowSurrogate low then
              (unescapeBytes rest).map fun r =>
                String.utf8EncodeChar (Char.ofNat (pairValue n low)) ++ r
            else none
          | none => none
        | _ => none
      else (unescapeBytes rest).map fun r => String.utf8EncodeChar (Char.ofNat n) ++ r
  | 0x5C :: e :: rest => (unescapeBytes rest).map fun r => simpleEscape e :: r
  | b :: rest => (unescapeBytes rest).map fun r => b :: r

/-- The text that a string stands for. -/
def unescape (raw : Bytes) : Option String := (unescapeBytes raw).bind bytesText?

/-- The text of a document that is a string. -/
def text? : Document → Option String
  | string raw => unescape raw
  | _ => none

end BoundSql.Document

/-! # Bytes
**`Bytes`** — strings of bytes as stores and servers exchange them, and their relation to text
(`textBytes`, `bytesText?`). -/

namespace BoundSql

/-- A string of bytes. -/
abbrev Bytes := List UInt8

/-- The byte of an ASCII character. -/
def byte (c : Char) : UInt8 := c.toNat.toUInt8

/-- The bytes of a text of ASCII characters. -/
def asciiBytes (s : String) : Bytes := s.toList.map byte

/-- The bytes of a text in UTF-8. -/
def textBytes (s : String) : Bytes := s.toList.flatMap String.utf8EncodeChar

/-- The text of bytes, if they are valid UTF-8. -/
def bytesText? (bs : Bytes) : Option String := String.fromUTF8? ⟨bs.toArray⟩

end BoundSql

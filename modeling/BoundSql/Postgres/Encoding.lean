import BoundSql.Postgres.Numeric
import BoundSql.Postgres.ServerType
import BoundSql.Time.Reading
import BoundSql.Wire

/-! # Values under server types
**`WireValue.encode`** — the bytes of a wire value for a parameter of a given type, in the server's
binary formats. A value that the type cannot hold is refused with its cause (`EncodeError`), so no
value is cut or wrapped. -/

namespace BoundSql.Postgres

/-- Why a value cannot be sent under a type. -/
inductive EncodeError
  /-- Text is no integer of the type, or an integer is out of its range. -/
  | integer (cause : Number.IntegerError)
  /-- Text is no floating-point number. -/
  | float (cause : Number.BinaryError)
  /-- Text is no boolean. -/
  | boolean (text : String)
  /-- Text is no decimal number. -/
  | numeric (text : String)
  /-- Text is no date or time. -/
  | temporal
  /-- The category of the value does not fit the type. -/
  | category (value : WireType) (type : ServerType)
  deriving DecidableEq, Repr

/-- The wording of a failed conversion to an integer. -/
def integerMessage : Number.IntegerError → String
  | .empty => "cannot parse integer from empty string"
  | .invalidDigit => "invalid digit found in string"
  | .tooLarge => "number too large to fit in target type"
  | .tooSmall => "number too small to fit in target type"

/-- The wording of a failed conversion to a floating-point number. -/
def floatMessage : Number.BinaryError → String
  | .empty => "cannot parse float from empty string"
  | .invalid => "invalid float literal"

/-- The wording of a category that does not fit a type. -/
def categoryMessage (value : WireType) (type : ServerType) : String :=
  let parameter := " to a " ++ type.displayName ++ " parameter"
  match value with
  | .int => "cannot bind an integer" ++ parameter
  | .bool => "cannot bind a boolean" ++ parameter
  | .str => "cannot bind a string" ++ parameter ++ "; cast it in SQL"
  | .null => "cannot bind null" ++ parameter

/-- The wording of a refused value. Dates and times have none. -/
def EncodeError.message? : EncodeError → Option String
  | integer cause => some (integerMessage cause)
  | float cause => some (floatMessage cause)
  | boolean text => some ("cannot bind '" ++ text ++ "' to a boolean parameter")
  | numeric text => some ("cannot bind '" ++ text ++ "' to a numeric parameter")
  | temporal => none
  | category value type => some (categoryMessage value type)

/-! ### Numbers -/

/-- An integer between bounds as bytes. -/
def boundedBytes (width : Nat) (low high n : Int) : Except EncodeError Bytes :=
  if n < low then .error (.integer .tooSmall)
  else if high < n then .error (.integer .tooLarge)
  else .ok (Number.bigEndian width n)

/-- A signed integer of a number of bytes. -/
def signedBytes (width : Nat) (n : Int) : Except EncodeError Bytes :=
  boundedBytes width (-(Nat.pow 2 (8 * width - 1) : Nat)) ((Nat.pow 2 (8 * width - 1) : Nat) - 1) n

/-- An unsigned integer of a number of bytes. -/
def unsignedBytes (width : Nat) (n : Int) : Except EncodeError Bytes :=
  boundedBytes width 0 ((Nat.pow 256 width : Nat) - 1) n

/-- A boolean as one byte. -/
def boolByte (b : Bool) : Bytes := [if b then 1 else 0]

/-- The floating-point number nearest to an integer. -/
def floatBytes (f : Binary.Format) (width : Nat) (n : Int) : Bytes :=
  Number.bigEndian width (f.ofInt n)

/-- The decimal number that a text writes. -/
def numericBytes (cs : List Char) : Except EncodeError Bytes :=
  match Numeric.ofText cs with
  | .ok n => .ok n.bytes
  | .error .invalid => .error (.numeric (String.ofList cs))
  | .error .tooLarge => .error (.integer .tooLarge)

/-- The signed integer that a text writes. -/
def readSignedBytes (width : Nat) (cs : List Char) : Except EncodeError Bytes :=
  match Number.readSigned (8 * width) cs with
  | .ok n => .ok (Number.bigEndian width n)
  | .error cause => .error (.integer cause)

/-- The floating-point number that a text writes. -/
def readFloatBytes (f : Binary.Format) (width : Nat) (cs : List Char) : Except EncodeError Bytes :=
  match Number.readBinary f cs with
  | .ok bits => .ok (Number.bigEndian width bits)
  | .error cause => .error (.float cause)

/-- The boolean that a text names. -/
def readBoolByte (s : String) : Except EncodeError Bytes :=
  if s = "1" ∨ s = "t" ∨ s = "true" then .ok (boolByte true)
  else if s = "0" ∨ s = "f" ∨ s = "false" then .ok (boolByte false)
  else .error (.boolean s)

/-! ### Dates and times -/

/-- The number of the day from which servers count, 2000-01-01. -/
def epochDay : Int := 10957

/-- The nanosecond from which servers count. -/
def epochNanosecond : Int := epochDay * nanosecondsPerDay

/-- A day by its number from the epoch. -/
def dateBytes (d : Date) : Bytes := Number.bigEndian 4 (d.dayNumber - epochDay)

/-- A time of day in microseconds. -/
def timeBytes (t : TimeOfDay) : Bytes := Number.bigEndian 8 (t.nanoseconds / 1000 : Nat)

/-- An instant, in nanoseconds since the start of 1970, in microseconds from the epoch, rounded
towards it. -/
def instantBytes (nanoseconds : Int) : Bytes :=
  Number.bigEndian 8 (Int.tdiv (nanoseconds - epochNanosecond) 1000)

/-- The bytes of a date or time, if there is one. -/
def temporalBytes {α : Type} (bytes : α → Bytes) : Option α → Except EncodeError Bytes
  | some a => .ok (bytes a)
  | none => .error .temporal

/-! ### Values by category -/

/-- An integer under a type. -/
def encodeInt (n : Int) (type : ServerType) : Except EncodeError Bytes :=
  match type with
  | .int2 => signedBytes 2 n
  | .int4 => signedBytes 4 n
  | .int8 => signedBytes 8 n
  | .bool => .ok (boolByte (n != 0))
  | .oid => unsignedBytes 4 n
  | .float4 => .ok (floatBytes .single 4 n)
  | .float8 => .ok (floatBytes .double 8 n)
  | .numeric => numericBytes (toString n).toList
  | type => if type.isText then .ok (textBytes (toString n)) else .error (.category .int type)

/-- A boolean under a type. -/
def encodeBool (b : Bool) (type : ServerType) : Except EncodeError Bytes :=
  match type with
  | .bool => .ok (boolByte b)
  | .int2 => .ok (Number.bigEndian 2 b.toNat)
  | .int4 => .ok (Number.bigEndian 4 b.toNat)
  | .int8 => .ok (Number.bigEndian 8 b.toNat)
  | type =>
    if type.isText then .ok (textBytes (WireValue.digit b)) else .error (.category .bool type)

/-- A text under a type. Blanks around numbers, dates and times do not count. -/
def encodeText (s : String) (type : ServerType) : Except EncodeError Bytes :=
  let trimmed := Text.trim s.toList
  match type with
  | .int2 => readSignedBytes 2 trimmed
  | .int4 => readSignedBytes 4 trimmed
  | .int8 => readSignedBytes 8 trimmed
  | .bool => readBoolByte s
  | .float4 => readFloatBytes .single 4 trimmed
  | .float8 => readFloatBytes .double 8 trimmed
  | .numeric => numericBytes trimmed
  | .date => temporalBytes dateBytes (Time.readDate trimmed)
  | .time => temporalBytes timeBytes (Time.readTime trimmed)
  | .timestamp => temporalBytes (fun m => instantBytes m.nanoseconds) (Time.readMoment trimmed)
  | .timestamptz => temporalBytes instantBytes (Time.readInstant trimmed)
  | .json => .ok (textBytes s)
  | .jsonb => .ok (1 :: textBytes s)
  | type => if type.isText then .ok (textBytes s) else .error (.category .str type)

/-- The bytes of a wire value under a type; nothing for null. -/
def encode : WireValue → ServerType → Except EncodeError (Option Bytes)
  | .null, _ => .ok none
  | .int n, type => (encodeInt n.toInt type).map some
  | .bool b, type => (encodeBool b type).map some
  | .str s, type => (encodeText s type).map some

end BoundSql.Postgres

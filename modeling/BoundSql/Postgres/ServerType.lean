/-! # Server types
**`ServerType`** — the type a PostgreSQL server infers for a parameter or gives to a column. The
types that values are adapted to have constructors; all others are known by name only. -/

namespace BoundSql.Postgres

/-- The type of a parameter or column. -/
inductive ServerType
  /-- A boolean. -/
  | bool
  /-- A 16-bit integer. -/
  | int2
  /-- A 32-bit integer. -/
  | int4
  /-- A 64-bit integer. -/
  | int8
  /-- An object identifier, an unsigned 32-bit integer. -/
  | oid
  /-- A 32-bit floating-point number. -/
  | float4
  /-- A 64-bit floating-point number. -/
  | float8
  /-- An exact decimal number. -/
  | numeric
  /-- Text. -/
  | text
  /-- Text with a bound on its length. -/
  | varchar
  /-- Text padded with blanks. -/
  | bpchar
  /-- An identifier. -/
  | name
  /-- A literal of undetermined type. -/
  | unknown
  /-- Text compared without regard to case. -/
  | citext
  /-- A day. -/
  | date
  /-- A time of day. -/
  | time
  /-- A day and time without a zone. -/
  | timestamp
  /-- An instant. -/
  | timestamptz
  /-- A JSON document kept as text. -/
  | json
  /-- A JSON document kept in a decomposed form. -/
  | jsonb
  /-- Any other type. -/
  | other (typeName : String)
  deriving DecidableEq, Repr, Inhabited

namespace ServerType

/-- The name of a type, with its schema where that is not searched by default. -/
def displayName : ServerType → String
  | bool => "bool"
  | int2 => "int2"
  | int4 => "int4"
  | int8 => "int8"
  | oid => "oid"
  | float4 => "float4"
  | float8 => "float8"
  | numeric => "numeric"
  | text => "text"
  | varchar => "varchar"
  | bpchar => "bpchar"
  | name => "name"
  | unknown => "unknown"
  | citext => "citext"
  | date => "date"
  | time => "time"
  | timestamp => "timestamp"
  | timestamptz => "timestamptz"
  | json => "json"
  | jsonb => "jsonb"
  | other typeName => typeName

/-- The types that have constructors of their own. -/
def named : List ServerType :=
  [bool, int2, int4, int8, oid, float4, float8, numeric, text, varchar, bpchar, name, unknown,
    citext, date, time, timestamp, timestamptz, json, jsonb]

/-- The type of a name. -/
def ofName (typeName : String) : ServerType :=
  (named.find? fun t => t.displayName == typeName).getD (other typeName)

/-- Whether values of a type are plain text. -/
def isText : ServerType → Bool
  | text | varchar | bpchar | name | unknown | citext => true
  | _ => false

end ServerType

end BoundSql.Postgres

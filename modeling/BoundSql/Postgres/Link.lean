import BoundSql.Error
import BoundSql.Number.BigEndian
import BoundSql.Postgres.ServerType

/-! # Links to PostgreSQL servers
* **`Link`** — what a server answers to the messages of a client: a statement is parsed, and run
  with encoded values; a statement without values can be run at once.
* **`Failure`** — what can go wrong on the way, with the text and code that are reported.
* **`Row`** — a row with its columns, and readers for its cells. -/

namespace BoundSql.Postgres

/-- What goes wrong between a client and its server. -/
inductive Failure
  /-- The server reports an error. -/
  | reported (message code : String)
  /-- The connection is closed. -/
  | closed
  /-- A message cannot be written. -/
  | unwritable
  /-- A value cannot be encoded; parameters count from zero. -/
  | parameter (index : Nat)
  /-- The number of values is not the declared one. -/
  | parameterCount (declared bound : Nat)
  /-- The number of rows is not the expected one. -/
  | rowCount
  /-- A cell cannot be read; columns count from zero. -/
  | cell (column : Nat)
  /-- A row lacks a column. -/
  | missingColumn (name : String)
  deriving DecidableEq, Repr

namespace Failure

/-- The text of a failure as a client words it. -/
def text : Failure → String
  | reported _ _ => "db error"
  | closed => "connection closed"
  | unwritable => "error encoding message to server"
  | parameter index => "error serializing parameter " ++ toString index
  | parameterCount declared bound =>
    "expected " ++ toString declared ++ " parameters but got " ++ toString bound
  | rowCount => "query returned an unexpected number of rows"
  | cell column => "error deserializing column " ++ toString column
  | missingColumn name => "invalid column \x60" ++ name ++ "\x60"

/-- A failure as a connection reports it: what the server says in its words and with its code, and
everything else without one. -/
def toBackendError : Failure → BackendError
  | reported message code => ⟨message, some code⟩
  | f => .ofMessage f.text

end Failure

/-! ### Statements and rows -/

/-- A column of a result. -/
structure ColumnShape where
  /-- Its name. -/
  name : String
  /-- Its type. -/
  type : ServerType
  deriving DecidableEq, Repr

/-- A parsed statement: the types of its parameters and the columns of its result. -/
structure Prepared where
  /-- The types of the parameters. -/
  params : List ServerType := []
  /-- The columns of the result. -/
  columns : List ColumnShape := []
  deriving DecidableEq, Repr, Inhabited

/-- The bytes of a cell or parameter; nothing for null. -/
abbrev Cell := Option Bytes

/-- A row of a result. -/
structure Row where
  /-- The columns. -/
  columns : List ColumnShape
  /-- The cells of the columns. -/
  cells : List Cell
  deriving DecidableEq, Repr

namespace Row

/-- The cell of a column that must have a type of a kind. -/
def cellOf (r : Row) (fits : ServerType → Bool) (column : Nat) : Except Failure Bytes :=
  match r.columns[column]?, r.cells[column]? with
  | some shape, some (some bs) => if fits shape.type then .ok bs else .error (.cell column)
  | some _, _ => .error (.cell column)
  | none, _ => .error (.missingColumn (toString column))

/-- The value that bytes of a cell stand for. -/
def readCell {α : Type} (read : Bytes → Option α) (column : Nat) :
    Except Failure Bytes → Except Failure α
  | .error e => .error e
  | .ok bs =>
    match read bs with
    | some a => .ok a
    | none => .error (.cell column)

/-- The boolean of one byte. -/
def boolOf? : Bytes → Option Bool
  | [b] => some (b != 0)
  | _ => none

/-- The 64-bit integer of eight bytes. -/
def int8Of? (bs : Bytes) : Option Int :=
  if bs.length = 8 then some (Number.ofBigEndianSigned bs) else none

/-- The text of a column. -/
def text (r : Row) (column : Nat) : Except Failure String :=
  readCell bytesText? column (r.cellOf ServerType.isText column)

/-- The boolean of a column. -/
def bool (r : Row) (column : Nat) : Except Failure Bool :=
  readCell boolOf? column (r.cellOf (· == .bool) column)

/-- The 64-bit integer of a column. -/
def int8 (r : Row) (column : Nat) : Except Failure Int :=
  readCell int8Of? column (r.cellOf (· == .int8) column)

/-- The column of a name: the first that has it, or else the first that has it in another case. -/
def column (r : Row) (name : String) : Except Failure Nat :=
  let names := r.columns.map fun shape => shape.name.toList
  let lower := fun (cs : List Char) => cs.map Char.toLower
  match names.findIdx? (· == name.toList), names.findIdx? (lower · == lower name.toList) with
  | some i, _ => .ok i
  | none, some i => .ok i
  | none, none => .error (.missingColumn name)

end Row

/-! ### Links -/

/-- What running a statement yields. -/
structure Outcome where
  /-- The cells of each row. -/
  rows : List (List Cell)
  /-- What the server says it did, its last word being the number of rows if there is one. -/
  tag : String
  deriving DecidableEq, Repr

/-- A function on the state of a link that may fail. -/
abbrev Exchange (σ α : Type) := σ → Except Failure α × σ

/-- A link to a server. -/
structure Link (σ : Type) where
  /-- Has a statement parsed. -/
  parse : String → Exchange σ Prepared
  /-- Runs a parsed statement with values for its parameters. -/
  run : Prepared → List Cell → Exchange σ Outcome
  /-- Runs a statement at once. -/
  runSimple : String → Exchange σ Unit

end BoundSql.Postgres

import BoundSql.Error
import BoundSql.Text.Blank

/-! # Table metadata
* **`Column`** — a column as a server describes it.
* **`isNumericType`** — whether a declared type holds numbers.
* **`Metadata`** — the columns of a source by their roles, derived by `Metadata.ofColumns`. -/

namespace BoundSql

/-- A column of a table. -/
structure Column where
  /-- Its name. -/
  name : String
  /-- Its declared type. -/
  dataType : String
  /-- Whether it belongs to the primary key. -/
  primaryKey : Bool
  /-- Whether the server numbers it. -/
  autoIncrement : Bool
  deriving DecidableEq, Repr

/-! ### Numeric types -/

/-- The names of types that hold numbers. -/
def numericTypes : List String :=
  ["tinyint", "smallint", "mediumint", "int", "integer", "bigint", "int2", "int4", "int8",
    "decimal", "dec", "numeric", "fixed", "float", "float4", "float8", "double",
    "double precision", "real", "serial", "smallserial", "bigserial", "serial2", "serial4",
    "serial8"]

/-- The words that may follow a numeric type. -/
def typeAttributes : List String := ["unsigned", "signed", "zerofill"]

/-- Whether a character separates the words of a type. -/
def isTypeSeparator (c : Char) : Bool := c == '(' || c == ')' || Text.isBlank c

/-- Whether a word of a type is a precision. -/
def isPrecision (word : List Char) : Bool := word.all fun c => c.isDigit || c == ','

/-- The words of a type, precisions left out. -/
def typeWords (cs : List Char) : List (List Char) :=
  (Text.words isTypeSeparator cs).filter fun w => !isPrecision w

/-- Words without the attributes they end with. -/
def dropAttributes (ws : List (List Char)) : List (List Char) :=
  (ws.reverse.dropWhile fun w => typeAttributes.contains (String.ofList w)).reverse

/-- Whether a declared type holds numbers: in any ASCII case its words, without precisions and
attributes at the end, spell a numeric type. Arrays never do. -/
def isNumericType (dataType : String) : Bool :=
  let lower := dataType.toList.map Char.toLower
  let name := " ".intercalate ((dropAttributes (typeWords lower)).map String.ofList)
  !lower.contains '[' && numericTypes.contains name

/-! ### Entries -/

/-- The columns of a source, by their roles. -/
structure Metadata where
  /-- All columns in table order. -/
  attributes : List String
  /-- The columns of the primary key. -/
  primaryKey : List String
  /-- All other columns. -/
  nonPrimaryKey : List String
  /-- The columns of numeric types. -/
  numeric : List String
  /-- The column that the server numbers. -/
  autoIncrement : Option String
  deriving DecidableEq, Repr, Inhabited

namespace Metadata

/-- The names of the columns with a property. -/
def namesWhere (p : Column → Bool) (columns : List Column) : List String :=
  (columns.filter p).map Column.name

/-- The metadata of a source with the given columns, of which there must be one. The last numbered
column counts. -/
def ofColumns (source : String) (columns : List Column) : Except DbError Metadata :=
  if columns.isEmpty then .error (.configuration (.noColumns source))
  else
    .ok {
      attributes := columns.map Column.name
      primaryKey := namesWhere Column.primaryKey columns
      nonPrimaryKey := namesWhere (fun c => !c.primaryKey) columns
      numeric := namesWhere (fun c => isNumericType c.dataType) columns
      autoIncrement := (namesWhere Column.autoIncrement columns).getLast? }

/-- Whether a source has a column. -/
def hasAttribute (m : Metadata) (name : String) : Bool := m.attributes.contains name

/-- Whether a source has a numeric column. -/
def isNumeric (m : Metadata) (name : String) : Bool := m.numeric.contains name

end Metadata

end BoundSql

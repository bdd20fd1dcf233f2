import BoundSql.Backend
import BoundSql.Postgres.Encoding
import BoundSql.Postgres.Link
import BoundSql.Postgres.Placement
import BoundSql.Session.Basic

/-! # Connections to PostgreSQL servers
* **`client`** — a link to a server as a connection that sessions can use. Every statement is
  parsed before it runs; values are put in the order of their positions and encoded for the types
  the server declares, and nothing is sent unless all of them can be.
* **`connect`** — the session of a newly opened link. -/

namespace BoundSql.Postgres

variable {σ α β : Type}

/-! ### Running statements -/

/-- How a parameter is encoded for its type. -/
abbrev Encoder := ServerType → Except EncodeError Cell

/-- Parameters encoded for their types; the first that cannot be is reported. -/
def encodeAll (index : Nat) : List Encoder → List ServerType → Except Failure (List Cell)
  | encoder :: encoders, type :: types =>
    match encoder type with
    | .error _ => .error (.parameter index)
    | .ok cell => (encodeAll (index + 1) encoders types).map (cell :: ·)
  | _, _ => .ok []

/-- Parameters encoded for a statement, which must declare as many. -/
def encodeFor (stmt : Prepared) (encoders : List Encoder) : Except Failure (List Cell) :=
  if encoders.length = stmt.params.length then encodeAll 0 encoders stmt.params
  else .error (.parameterCount stmt.params.length encoders.length)

/-- Whether a statement can be written into a message, where a zero byte ends it. -/
def isWritable (sql : String) : Bool := !sql.toList.contains '\x00'

/-- Has a statement parsed. -/
def parse (link : Link σ) (sql : String) : Exchange σ Prepared := fun s =>
  if isWritable sql then link.parse sql s else (.error .unwritable, s)

/-- Runs a parsed statement. -/
def run (link : Link σ) (stmt : Prepared) (encoders : List Encoder) : Exchange σ Outcome :=
  fun s =>
    match encodeFor stmt encoders with
    | .error e => (.error e, s)
    | .ok cells => link.run stmt cells s

/-- Has a statement parsed and runs it. -/
def parseAndRun (link : Link σ) (sql : String) (encoders : List Encoder) :
    Exchange σ (Prepared × Outcome) := fun s =>
  match parse link sql s with
  | (.error e, s) => (.error e, s)
  | (.ok stmt, s) =>
    match run link stmt encoders s with
    | (.error e, s) => (.error e, s)
    | (.ok outcome, s) => (.ok (stmt, outcome), s)

/-- The rows of an outcome. -/
def rowsOf (stmt : Prepared) (outcome : Outcome) : List Row :=
  outcome.rows.map fun cells => ⟨stmt.columns, cells⟩

/-- The last word of a text. -/
def lastWord (cs : List Char) : List Char := (cs.reverse.takeWhile (· != ' ')).reverse

/-- The number of rows that an outcome says were affected; none if it says nothing of them. -/
def affectedOf (outcome : Outcome) : Nat :=
  match Number.readInteger 0 (Nat.pow 2 64 - 1) (lastWord outcome.tag.toList) with
  | .ok n => n.toNat
  | .error _ => 0

/-- An exchange as a request of a connection. -/
def asRequest (exchange : Exchange σ α) : Request σ α := fun s =>
  let r := exchange s
  (r.1.mapError Failure.toBackendError, r.2)

/-- An exchange with a function of its answer. -/
def mapAnswer (f : α → β) (exchange : Exchange σ α) : Exchange σ β := fun s =>
  let r := exchange s
  (r.1.map f, r.2)

/-- Runs a parsed statement with parameters, which are put in order first. -/
def runPrepared (link : Link σ) (read : Prepared → Outcome → α) (stmt : Prepared)
    (params : List Param) : Request σ α := fun s =>
  match inOrder params with
  | .error e => (.error (.ofMessage e.message), s)
  | .ok values => asRequest (mapAnswer (read stmt) (run link stmt (values.map encode))) s

/-- Runs a statement without parameters. -/
def runPlain (link : Link σ) (read : Prepared → Outcome → α) (sql : String) : Request σ α :=
  asRequest (mapAnswer (fun r => read r.1 r.2) (parseAndRun link sql []))

/-! ### Generated ids -/

/-- The statement that asks for the latest generated id. -/
def lastIdSql : String := "SELECT lastval()"

/-- The id of a result, which must be a single row. -/
def lastIdOf (rows : List Row) : Except Failure Int :=
  match rows with
  | [row] => row.int8 0
  | _ => .error .rowCount

/-- The latest generated id. -/
def lastId (link : Link σ) : Exchange σ Int := fun s =>
  match parseAndRun link lastIdSql [] s with
  | (.error e, s) => (.error e, s)
  | (.ok r, s) => (lastIdOf (rowsOf r.1 r.2), s)

/-! ### Descriptions of tables -/

/-- The statement that describes the columns of a table. -/
def describeSql : String := "\n".intercalate
  ["", "SELECT",
    "  a.attname::text AS column_name,",
    "  pg_catalog.format_type(a.atttypid, a.atttypmod) AS data_type,",
    "  COALESCE(i.indisprimary, false) AS primary_key,",
    "  (a.attidentity <> '' OR COALESCE(pg_get_expr(ad.adbin, ad.adrelid), '') " ++
      "LIKE 'nextval(%') AS auto_increment",
    "FROM pg_catalog.pg_class c",
    "JOIN pg_catalog.pg_namespace n ON n.oid = c.relnamespace",
    "JOIN pg_catalog.pg_attribute a ON a.attrelid = c.oid",
    "LEFT JOIN pg_catalog.pg_attrdef ad ON ad.adrelid = c.oid AND ad.adnum = a.attnum",
    "LEFT JOIN pg_catalog.pg_index i ON i.indrelid = c.oid AND i.indisprimary " ++
      "AND a.attnum = ANY(i.indkey)",
    "WHERE c.relname::text = $1",
    "  AND n.nspname::text = COALESCE($2, current_schema()::text)",
    "  AND a.attnum > 0",
    "  AND NOT a.attisdropped",
    "ORDER BY a.attnum", ""]

/-- An optional text as a parameter, which must be declared as text. -/
def encodeName (name : Option String) : Encoder := fun type =>
  if type.isText then .ok (name.map textBytes) else .error (.category .str type)

/-- The cell of a named column, read in a given way. -/
def readNamed (read : Row → Nat → Except Failure α) (row : Row) (name : String) :
    Except Failure α :=
  match row.column name with
  | .error e => .error e
  | .ok i => read row i

/-- The column that a row describes. -/
def columnOf (row : Row) : Except Failure Column := do
  let name ← readNamed Row.text row "column_name"
  let dataType ← readNamed Row.text row "data_type"
  let primaryKey ← readNamed Row.bool row "primary_key"
  let autoIncrement ← readNamed Row.bool row "auto_increment"
  return { name, dataType, primaryKey, autoIncrement }

/-- The columns that rows describe; the first row that describes none is reported. -/
def columnsOf : List Row → Except Failure (List Column)
  | [] => .ok []
  | row :: rows =>
    match columnOf row with
    | .error e => .error e
    | .ok c => (columnsOf rows).map (c :: ·)

/-- A failure to describe a table. -/
def describeError (source : Source) (e : Failure) : DbError :=
  .query e.toBackendError.message none ("describe " ++ source.table)

/-- The columns of a source's table. -/
def describe (link : Link σ) (source : Source) (s : σ) : Except DbError (List Column) × σ :=
  match parseAndRun link describeSql [encodeName (some source.table), encodeName source.schema] s
    with
  | (.error e, s) => (.error (describeError source e), s)
  | (.ok r, s) => ((columnsOf (rowsOf r.1 r.2)).mapError (describeError source), s)

/-! ### Connections -/

/-- A link to a server as a connection. -/
def client (link : Link σ) : Backend σ Prepared Row where
  dialect := .postgres
  prepare sql := asRequest (parse link sql)
  queryPrepared := runPrepared link rowsOf
  executePrepared := runPrepared link fun _ outcome => affectedOf outcome
  query := runPlain link rowsOf
  execute := runPlain link fun _ outcome => affectedOf outcome
  beginTransaction := asRequest (link.runSimple "BEGIN")
  commit := asRequest (link.runSimple "COMMIT")
  rollback := asRequest (link.runSimple "ROLLBACK")
  lastInsertId := asRequest (lastId link)
  describe := describe link

/-- The session of a link that was opened, or not, for a configuration. -/
def connect {ι : Type} (config : Config) (opened : Except Failure Unit) :
    Except DbError (Session ι) :=
  match config.databaseUrl, opened with
  | none, _ => .error (.configuration .noDatabaseUrl)
  | some _, .error e => .error (.connection e.text)
  | some _, .ok _ => .ok (Session.withConfig {} config)

end BoundSql.Postgres

/-! # Errors
What can go wrong between building a statement and running it. **`DbError`** is the error of every
operation; its causes are told apart by constructors (`ConfigurationError`, `CompositionError`,
`TransactionError`), and the wording stands in the `message` functions. **`BackendError`** is what
a server connection reports; the session attaches the statement to it. -/

namespace BoundSql

/-- A builder or helper is used in a way that makes no statement. -/
inductive ConfigurationError
  /-- A query selects from nothing. -/
  | noSource
  /-- A query asks for both row locks. -/
  | conflictingLocks
  /-- A query has an offset and no limit. -/
  | offsetWithoutLimit
  /-- A name is no dialect. -/
  | unknownDialect (name : String)
  /-- A logical source is not registered. -/
  | unknownSource (name : String)
  /-- An insert has no values. -/
  | insertWithoutData (table : String)
  /-- An update has no values. -/
  | updateWithoutData (table : String)
  /-- An update has no condition. -/
  | updateWithoutConditions (table : String)
  /-- A delete has no condition. -/
  | deleteWithoutConditions (table : String)
  /-- A key of an insert is no column name. -/
  | invalidInsertColumn (key table : String)
  /-- A key of an update is no column name. -/
  | invalidUpdateColumn (key table : String)
  /-- A column of an update is also a parameter of its filter. -/
  | columnCollision (name : String)
  /-- A table has no columns to describe. -/
  | noColumns (source : String)
  /-- There is no connection string. -/
  | noDatabaseUrl
  /-- The environment holds no connection string. -/
  | noDatabaseUrlInEnvironment
  /-- A cause given by the caller. -/
  | other (message : String)
  deriving DecidableEq, Repr

/-- The wording of a configuration error. -/
def ConfigurationError.message : ConfigurationError → String
  | noSource => "at least one source is required to build the query"
  | conflictingLocks => "FOR UPDATE and shared lock cannot be combined"
  | offsetWithoutLimit => "offset is invalid: limit is missing"
  | unknownDialect name => s!"unknown dialect '{name}'"
  | unknownSource name => s!"unknown source '{name}'"
  | insertWithoutData table => s!"unable to insert into {table} without data"
  | updateWithoutData table => s!"unable to update {table} without data"
  | updateWithoutConditions table => s!"unable to update {table} without conditions"
  | deleteWithoutConditions table => s!"unable to delete from {table} without conditions"
  | invalidInsertColumn key table => s!"invalid column '{key}' for insert into {table}"
  | invalidUpdateColumn key table => s!"invalid column '{key}' for update of {table}"
  | columnCollision name => s!"column '{name}' collides with a filter parameter"
  | noColumns source => s!"cannot obtain table columns for source '{source}'"
  | noDatabaseUrl => "database_url is not set"
  | noDatabaseUrlInEnvironment => "DATABASE_URL is not set"
  | other message => message

/-- A template cannot be turned into native statement text. -/
inductive CompositionError
  /-- An opening bracket, at a byte offset of the statement, has no closing one. -/
  | unclosedBracket (offset : Nat) (sql : String)
  /-- The brackets at a byte offset of the statement hold only blanks. -/
  | emptyIdentifier (offset : Nat) (sql : String)
  /-- A named placeholder stands in a statement with positional binds. -/
  | mixedPlaceholder (name : String)
  /-- A named placeholder has no value. -/
  | unboundName (name : String)
  /-- A positional placeholder, counted from one, has no value. -/
  | unboundPosition (position : Nat)
  /-- A source the statement names has no physical table. -/
  | unresolvedSource (name : String)
  /-- A bind name starts with a colon. -/
  | colonName (name : String)
  /-- A cause given by the caller. -/
  | other (message : String)
  deriving DecidableEq, Repr

/-- The wording of a composition error. -/
def CompositionError.message : CompositionError → String
  | unclosedBracket offset sql => s!"unclosed bracket at offset {offset}: {sql}"
  | emptyIdentifier offset sql => s!"empty identifier at offset {offset}: {sql}"
  | mixedPlaceholder name => s!"named placeholder ':{name}:' mixed with positional binds"
  | unboundName name => s!"parameter ':{name}:' is not bound"
  | unboundPosition position => s!"positional parameter {position} is not bound"
  | unresolvedSource name => s!"source '{name}' was not resolved"
  | colonName name => s!"bind name '{name}' must not start with ':'"
  | other message => message

/-- A transaction operation does not fit the transaction state. -/
inductive TransactionError
  /-- A transaction begins inside a transaction. -/
  | alreadyActive
  /-- A transaction ends although none is open. -/
  | notActive
  /-- The rollback after a failed body fails too; both messages are kept. -/
  | rollbackFailed (body rollback : String)
  /-- A cause given by the caller. -/
  | other (message : String)
  deriving DecidableEq, Repr

/-- The wording of a transaction error. -/
def TransactionError.message : TransactionError → String
  | alreadyActive => "there is an active transaction already"
  | notActive => "there is no active transaction"
  | rollbackFailed body rollback => s!"{body} (rollback failed: {rollback})"
  | other message => message

/-- An error of a statement or of the session that runs it. -/
inductive DbError
  /-- A builder or helper is misused. -/
  | configuration (cause : ConfigurationError)
  /-- A template has no native form. -/
  | composition (cause : CompositionError)
  /-- A bound value is of a type that no server parameter can carry. -/
  | unsupportedBindType (parameter typeName : String)
  /-- The transaction state forbids an operation. -/
  | transaction (cause : TransactionError)
  /-- The server failed. The statement is shown with its values inlined. -/
  | query (message : String) (code : Option String) (sql : String)
  /-- No connection could be made. -/
  | connection (message : String)
  /-- The metadata store could not be read or written. -/
  | store (message : String)
  /-- A document could not be read or written. -/
  | serialization (message : String)
  deriving DecidableEq, Repr

namespace DbError

/-- The text of an error. -/
def message : DbError → String
  | configuration cause => "Configuration error: " ++ cause.message
  | composition cause => "Composition error: " ++ cause.message
  | unsupportedBindType parameter typeName =>
    s!"The type of parameter '{parameter}' is not supported: {typeName}"
  | transaction cause => "Transaction error: " ++ cause.message
  | query message _ sql => s!"Query error: {message}: {sql}"
  | connection message => "Connection error: " ++ message
  | store message => "Store error: " ++ message
  | serialization message => "Serialization error: " ++ message

/-- Whether a builder or helper was misused. -/
def isConfiguration : DbError → Bool
  | configuration _ => true
  | _ => false

/-- Whether a template had no native form. -/
def isComposition : DbError → Bool
  | composition _ => true
  | _ => false

/-- Whether the transaction state forbade an operation. -/
def isTransaction : DbError → Bool
  | transaction _ => true
  | _ => false

/-- The codes under which servers report a violated uniqueness constraint. -/
def uniqueViolationCodes : List String := ["23505", "1062"]

/-- Whether the server reported a violated uniqueness constraint. -/
def isUniqueViolation : DbError → Bool
  | query _ (some code) _ => uniqueViolationCodes.contains code
  | _ => false

/-- The statement attached to an error. -/
def sql? : DbError → Option String
  | query _ _ sql => some sql
  | _ => none

end DbError

/-- A failure that a server connection reports. -/
structure BackendError where
  /-- What went wrong. -/
  message : String
  /-- The server's code for it. -/
  code : Option String
  deriving DecidableEq, Repr

/-- A failure of the connection itself, without a server code. -/
def BackendError.ofMessage (message : String) : BackendError := ⟨message, none⟩

/-- The failure as an error of a statement or activity. -/
def BackendError.during (e : BackendError) (sql : String) : DbError := .query e.message e.code sql

end BoundSql

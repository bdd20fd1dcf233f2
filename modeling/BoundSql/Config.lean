import BoundSql.Error
import BoundSql.Log
import BoundSql.Text.Quoted

/-! # Configuration
**`Config`** — where to connect, how to log, and how the keys of persisted metadata start. Its
diagnostic text (`Config.display`) hides the connection string. -/

namespace BoundSql

/-- The start of persisted metadata keys unless configured otherwise. -/
def defaultKeyPrefix : String := "meta-"

/-- The configuration of a session. -/
structure Config where
  /-- The connection string, where the library opens the connection. -/
  databaseUrl : Option String := none
  /-- How statements are logged. -/
  log : StatementLog := {}
  /-- The start of persisted metadata keys. -/
  keyPrefix : String := defaultKeyPrefix
  deriving DecidableEq, Repr

instance : Inhabited Config := ⟨{}⟩

namespace Config

/-- The configuration with the connection string that the environment holds. -/
def ofEnvironment (databaseUrl : Option String) : Except DbError Config :=
  match databaseUrl with
  | some url => .ok { databaseUrl := some url }
  | none => .error (.configuration .noDatabaseUrlInEnvironment)

/-- An optional text as diagnostic output shows it. -/
def displayOption : Option String → String
  | some s => "Some(" ++ s ++ ")"
  | none => "None"

/-- A number of milliseconds with its unit: whole or decimal seconds from one second on. -/
def displayMilliseconds (ms : Nat) : String :=
  if ms = 0 then "0ns"
  else if ms < 1000 then toString ms ++ "ms"
  else if ms % 1000 = 0 then toString (ms / 1000) ++ "s"
  else
    let padded := (toString (1000 + ms % 1000)).toList.drop 1
    let fraction := (padded.reverse.dropWhile (· == '0')).reverse
    toString (ms / 1000) ++ "." ++ String.ofList fraction ++ "s"

/-- Named fields behind a type's name, as diagnostic output shows them. -/
def displayFields (type : String) (fields : List (String × String)) : String :=
  type ++ " \x7b " ++ ", ".intercalate (fields.map fun f => f.1 ++ ": " ++ f.2) ++ " \x7d"

/-- The diagnostic text of how statements are logged. -/
def displayLog (log : StatementLog) : String :=
  displayFields "SqlLogConfig"
    [("level", "Level(" ++ log.level.title ++ ")"),
      ("max_sql_length", displayOption (log.maxLength.map toString)),
      ("preserved_string_length", displayOption (log.preservedLength.map toString)),
      ("slow_query_threshold", displayOption (log.slowThreshold.map displayMilliseconds))]

/-- The diagnostic text of a configuration, without the connection string. -/
def display (c : Config) : String :=
  displayFields "DbConfig"
    [("database_url", displayOption (c.databaseUrl.map fun _ => Text.quoted "<redacted>")),
      ("log", displayLog c.log), ("metadata_key_prefix", Text.quoted c.keyPrefix)]

end Config

end BoundSql

import BoundSql.Error
import BoundSql.Identifier
import BoundSql.OrderedMap

/-! # Logical sources
**`Source`** — a logical name bound to a physical table; **`Registry`** — the sources that are
known, by name. -/

namespace BoundSql

/-- A logical name with the physical table it stands for. -/
structure Source where
  /-- The logical name. -/
  name : String
  /-- The physical table. -/
  table : String
  /-- The schema that qualifies the table. -/
  schema : Option String
  deriving DecidableEq, Repr, Inhabited

/-- The source whose table has its own name. -/
def Source.ofName (name : String) : Source := ⟨name, name, none⟩

/-- The quoted, schema-qualified table of a source. -/
def Source.tableReference (source : Source) (d : Dialect) : String :=
  match source.schema with
  | some schema => d.escapeIdentifier schema ++ "." ++ d.escapeIdentifier source.table
  | none => d.escapeIdentifier source.table

/-- The known sources, by logical name. -/
abbrev Registry := OrderedMap String Source

namespace Registry

/-- The registry with a source, in place of one of the same name. -/
def register (r : Registry) (source : Source) : Registry := r.insert source.name source

/-- The registry of a list of sources. -/
def ofSources (sources : List Source) : Registry := sources.foldl register OrderedMap.empty

/-- The source of a name. -/
def require (r : Registry) (name : String) : Except DbError Source :=
  match r.get? name with
  | some source => .ok source
  | none => .error (.configuration (.unknownSource name))

end Registry

end BoundSql

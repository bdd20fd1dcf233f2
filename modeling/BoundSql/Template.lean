import BoundSql.Bind
import BoundSql.Source

/-! # Statement templates
A template is a statement in the notation shared by all dialects: `[name]` stands for an identifier
or a logical source, `:name:` for a named parameter, and `?` for the next positional one.
* **`Template`** — the text with its binds and the sources it names.
* **`Native`** — a statement in a server's own form. -/

namespace BoundSql

/-- A name the way a template marks it: in brackets. -/
def bracketed (name : String) : String := "[" ++ name ++ "]"

/-- A statement in template notation. -/
structure Template where
  /-- The text. -/
  sql : String
  /-- The values of its parameters. -/
  binds : BindMap
  /-- The declared categories of its parameters. -/
  types : BindTypes
  /-- The logical sources it names, each once. -/
  sources : List String
  deriving DecidableEq

/-- A statement in a server's own form. The keys of its maps name its tokens. -/
structure Native where
  /-- The text. -/
  sql : String
  /-- The values of its tokens. -/
  binds : BindMap
  /-- The declared categories of its tokens. -/
  types : BindTypes
  deriving DecidableEq

end BoundSql

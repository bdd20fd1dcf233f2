import BoundSql.Error
import BoundSql.Text.Delimited

/-! # Dialects
**`Dialect`** — the two families of database servers: how each quotes identifiers, writes string
literals and marks a bound parameter. -/

namespace BoundSql

/-- How a server writes identifiers, string literals and bind tokens. -/
inductive Dialect
  /-- Backquoted identifiers, tokens `:name` and `?`. -/
  | mysql
  /-- Double-quoted identifiers, tokens `$1`, `$2`, ... only. -/
  | postgres
  deriving DecidableEq, Repr, Inhabited

namespace Dialect

/-- The character that quotes identifiers. -/
def quoteChar : Dialect → Char
  | mysql => '\x60'
  | postgres => '"'

/-- Whether the server takes `:name` tokens. -/
def supportsNamed : Dialect → Bool
  | mysql => true
  | postgres => false

/-- Whether a backslash escapes the character after it in a string literal. -/
def backslashEscapes : Dialect → Bool
  | mysql => true
  | postgres => false

/-- Whether a character opens a string literal. -/
def opensLiteral (d : Dialect) (c : Char) : Bool :=
  c == '\'' || (c == '"' && d == mysql)

/-- The token of the positional parameter with a given 0-based index. -/
def positionalToken (d : Dialect) (index : Nat) : String :=
  match d with
  | mysql => "?"
  | postgres => "$" ++ toString (index + 1)

/-- The token of a named parameter. -/
def namedToken (name : String) : String := ":" ++ name

/-- A text as a string literal: quotes are doubled, and backslashes too where they escape. -/
def quoteChars (d : Dialect) (cs : List Char) : List Char :=
  let inside := cs.flatMap fun c =>
    if c == '\'' || (c == '\\' && d.backslashEscapes) then [c, c] else [c]
  '\'' :: (inside ++ ['\''])

/-- A text as a string literal. -/
def quoteString (d : Dialect) (s : String) : String := String.ofList (d.quoteChars s.toList)

/-- The rest of the string literal opened by `delimiter`, and what follows it. -/
def splitLiteral (d : Dialect) (delimiter : Char) (cs : List Char) : List Char × List Char :=
  Text.splitClosing d.backslashEscapes delimiter cs

/-- The rest of the identifier opened by the quote character, and what follows it. A doubled quote
stays inside. -/
def splitQuoted (d : Dialect) (cs : List Char) : List Char × List Char :=
  Text.splitClosing false d.quoteChar cs

/-- The name of a dialect. -/
def name : Dialect → String
  | mysql => "mysql"
  | postgres => "postgres"

/-- The dialect a text names, in any ASCII case. -/
def ofName? (text : String) : Option Dialect :=
  match text.toLower with
  | "mysql" | "mariadb" => some mysql
  | "postgres" | "postgresql" | "pg" => some postgres
  | _ => none

/-- The dialect a text names; a text that names none is reported in lower case. -/
def parse (text : String) : Except DbError Dialect :=
  match ofName? text with
  | some d => .ok d
  | none => .error (.configuration (.unknownDialect text.toLower))

end Dialect

end BoundSql

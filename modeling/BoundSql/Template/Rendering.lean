import BoundSql.Template
import BoundSql.Template.Segment
import BoundSql.Text.Blank

/-! # From templates to native statements
A template is rendered segment by segment, from left to right.
* **`Numbering`** — the tokens handed out so far and the values under them.
* **`Rendering.segment`** — the native text of one segment: literals, quoted identifiers and
  plain characters stand for themselves, a bracket for a table or an escaped name, a placeholder
  for a token.
* **`Template.resolve`**, **`Template.render`** — a whole statement, with and without the
  physical tables of its sources. -/

namespace BoundSql

/-- The tokens a rendering has handed out. -/
structure Numbering where
  /-- The values under the tokens. -/
  binds : BindMap := OrderedMap.empty
  /-- The declared categories under the tokens. -/
  types : BindTypes := OrderedMap.empty
  /-- The names that have numbers, in the order of their numbers. -/
  names : List String := []
  /-- The number of positional tokens. -/
  positions : Nat := 0
  deriving DecidableEq

instance : Inhabited Numbering := ⟨{}⟩

/-- What a rendering reads: the dialect, the tables of resolved sources, the values and declared
categories of parameters, and the whole text for its error messages. -/
structure Rendering where
  /-- The dialect of the native statement. -/
  dialect : Dialect
  /-- The resolved sources by the names the template uses. -/
  resolved : OrderedMap String Source
  /-- The values of parameters. -/
  binds : BindMap
  /-- The declared categories of parameters. -/
  types : BindTypes
  /-- The whole template text. -/
  sql : String

namespace Numbering

/-- The numbering with a value, and its declared category if there is one, under a key. -/
def record (n : Numbering) (key : BindKey) (v : Value) (type : Option WireType) : Numbering :=
  { n with
    binds := n.binds.insert key v
    types := match type with
      | some t => n.types.insert key t
      | none => n.types }

/-- The number of a name, and the names that have one afterwards. -/
def number (n : Numbering) (name : String) : Nat × List String :=
  match n.names.idxOf? name with
  | some i => (i, n.names)
  | none => (n.names.length, n.names ++ [name])

end Numbering

namespace Rendering

/-- The token of a named parameter. A dialect without named tokens numbers the names in the order
they first appear. -/
def named (t : Rendering) (name : String) (n : Numbering) :
    Except CompositionError (String × Numbering) :=
  match t.binds.get? (.name name) with
  | none => .error (.unboundName name)
  | some v =>
    let type := t.types.get? (.name name)
    -- The name stays the key only where the server takes names.
    if t.dialect.supportsNamed then
      .ok (Dialect.namedToken name, n.record (.name name) v type)
    else
      let (i, names) := n.number name
      .ok (t.dialect.positionalToken i, { n with names }.record (.index i) v type)

/-- The token of the next positional parameter. -/
def positional (t : Rendering) (n : Numbering) :
    Except CompositionError (String × Numbering) :=
  match t.binds.get? (.index n.positions) with
  | none => .error (.unboundPosition (n.positions + 1))
  | some v =>
    let type := t.types.get? (.index n.positions)
    .ok (t.dialect.positionalToken n.positions,
      { n.record (.index n.positions) v type with positions := n.positions + 1 })

/-- The identifier a bracketed name stands for: the table of a resolved source, or the name
itself. -/
def identifier (t : Rendering) (name : String) : String :=
  match t.resolved.get? name with
  | some source => source.tableReference t.dialect
  | none => t.dialect.escapeIdentifier name

/-- The native text of a segment that starts at a byte offset. -/
def segment (t : Rendering) (offset : Nat) (n : Numbering) :
    Template.Segment → Except CompositionError (String × Numbering)
  | .bracket inner =>
    match Text.trim inner with
    | [] => .error (.emptyIdentifier offset t.sql)
    | name => .ok (t.identifier (String.ofList name), n)
  | .unclosed _ => .error (.unclosedBracket offset t.sql)
  | .placeholder name =>
    if t.binds.isPositional then .error (.mixedPlaceholder (String.ofList name))
    else t.named (String.ofList name) n
  | .question => if t.binds.isPositional then t.positional n else .ok ("?", n)
  | .literal text => .ok (String.ofList text, n)
  | .quoted text => .ok (String.ofList text, n)
  | .plain c => .ok (String.singleton c, n)

/-- The native text of segments, the first of which starts at a byte offset. -/
def segments (t : Rendering) (offset : Nat) (n : Numbering) :
    List Template.Segment → Except CompositionError (String × Numbering)
  | [] => .ok ("", n)
  | s :: rest =>
    match t.segment offset n s with
    | .error e => .error e
    | .ok (out, n) =>
      match t.segments (offset + (String.ofList s.source).utf8ByteSize) n rest with
      | .error e => .error e
      | .ok (following, n) => .ok (out ++ following, n)

/-- The native statement of the whole text. -/
def run (t : Rendering) : Except DbError Native :=
  match t.segments 0 {} (Template.scan t.dialect t.sql.toList) with
  | .error e => .error (.composition e)
  | .ok (sql, n) => .ok ⟨sql, n.binds, n.types⟩

end Rendering

namespace Template

/-- The native form of template text whose brackets all stand for identifiers. -/
def render (d : Dialect) (sql : String) (binds : BindMap) (types : BindTypes) :
    Except DbError Native :=
  Rendering.run ⟨d, OrderedMap.empty, binds, types, sql⟩

/-- The native form of a template. Every source it names must be resolved. -/
def resolve (t : Template) (d : Dialect) (resolved : OrderedMap String Source) :
    Except DbError Native :=
  match t.sources.find? fun name => !resolved.contains name with
  | some missing => .error (.composition (.unresolvedSource missing))
  | none => Rendering.run ⟨d, resolved, t.binds, t.types, t.sql⟩

end Template

end BoundSql

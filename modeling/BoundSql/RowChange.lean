import BoundSql.Filter
import BoundSql.Template.Rendering

/-! # Statements that change rows
**`RowChange.insert`**, **`RowChange.update`** and **`RowChange.delete`** — the native statements
that insert one row, and update or delete the rows of a filter. They are written as templates and
rendered without sources, so a table name stands for itself. -/

namespace BoundSql.RowChange

/-- The names of keys that are all plain words; the first other key is reported. -/
def columnNames (invalid : String → ConfigurationError) :
    List BindKey → Except ConfigurationError (List String)
  | [] => .ok []
  | .name n :: rest =>
    if Text.isWord n.toList then
      match columnNames invalid rest with
      | .error e => .error e
      | .ok names => .ok (n :: names)
    else .error (invalid n)
  | key :: _ => .error (invalid key.text)

/-- The template that inserts one row: under named columns, or in table order if all keys are
positions. -/
def insertText (table : String) (values : BindMap) : Except ConfigurationError String :=
  if values.isEmpty then .error (.insertWithoutData table)
  else if values.isPositional then
    let slots := ",".intercalate (List.replicate values.size "?")
    .ok ("INSERT INTO " ++ bracketed table ++ " VALUES (" ++ slots ++ ")")
  else
    match columnNames (fun key => .invalidInsertColumn key table) values.keys with
    | .error e => .error e
    | .ok columns =>
      let names := ",".intercalate (columns.map bracketed)
      let slots := ",".intercalate (columns.map Filter.placeholder)
      .ok ("INSERT INTO " ++ bracketed table ++ " (" ++ names ++ ") VALUES (" ++ slots ++ ")")

/-- The statement that inserts one row. -/
def insert (d : Dialect) (table : String) (values : BindMap) : Except DbError Native :=
  match insertText table values with
  | .error e => .error (.configuration e)
  | .ok sql => Template.render d sql values OrderedMap.empty

/-- The columns of an update: plain words that are no parameters of its filter. The first key that
is at fault is reported. -/
def updateColumns (table : String) (filter : Filter) :
    List BindKey → Except ConfigurationError (List String)
  | [] => .ok []
  | .name n :: rest =>
    if !Text.isWord n.toList then .error (.invalidUpdateColumn n table)
    else if filter.binds.contains (.name n) then .error (.columnCollision n)
    else
      match updateColumns table filter rest with
      | .error e => .error e
      | .ok names => .ok (n :: names)
  | key :: _ => .error (.invalidUpdateColumn key.text table)

/-- The template that updates the rows of a filter. -/
def updateText (table : String) (values : BindMap) (filter : Filter) :
    Except ConfigurationError String :=
  if values.isEmpty then .error (.updateWithoutData table)
  else if filter.isEmpty then .error (.updateWithoutConditions table)
  else
    match updateColumns table filter values.keys with
    | .error e => .error e
    | .ok columns =>
      let sets := columns.map fun c => bracketed c ++ "=" ++ Filter.placeholder c
      .ok ("UPDATE " ++ bracketed table ++ " SET " ++ ",".intercalate sets ++ " WHERE " ++
        filter.expr)

/-- The statement that updates the rows of a filter. Values are bound under their column names,
after the values of the filter. -/
def update (d : Dialect) (table : String) (values : BindMap) (filter : Filter) :
    Except DbError Native :=
  match updateText table values filter with
  | .error e => .error (.configuration e)
  | .ok sql => Template.render d sql (filter.binds.merge values) filter.types

/-- The statement that deletes the rows of a filter. -/
def delete (d : Dialect) (table : String) (filter : Filter) : Except DbError Native :=
  if filter.isEmpty then .error (.configuration (.deleteWithoutConditions table))
  else
    Template.render d ("DELETE FROM " ++ bracketed table ++ " WHERE " ++ filter.expr)
      filter.binds filter.types

end BoundSql.RowChange

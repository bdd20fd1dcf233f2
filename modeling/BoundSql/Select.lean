import BoundSql.Filter
import BoundSql.Template
import BoundSql.Text.Blank
import BoundSql.Text.Word

/-! # SELECT queries
**`Select`** — the clauses of a query, filled in one by one; **`Select.compile`** — the template of
the query. Filling in a clause never fails: what does not fit together is reported on compiling. -/

namespace BoundSql

/-- The kinds of joins that are written out. -/
inductive JoinKind
  /-- Rows with a partner. -/
  | inner
  /-- All rows of the left side. -/
  | left
  /-- All rows of the right side. -/
  | right
  deriving DecidableEq, Repr

/-- The keyword of a kind of join. -/
def JoinKind.keyword : JoinKind → String
  | inner => "INNER"
  | left => "LEFT"
  | right => "RIGHT"

namespace Select

/-- A column of the result. -/
structure Column where
  /-- The expression. -/
  expr : String
  /-- The name it is given. -/
  aliasName : Option String
  deriving DecidableEq, Repr

/-- An entry of the FROM clause. -/
structure FromItem where
  /-- The logical source, or statement text if it holds a bracket. -/
  source : String
  /-- The name it is given. -/
  aliasName : Option String
  deriving DecidableEq, Repr

/-- A joined source. -/
structure Join where
  /-- The logical source, or statement text if it holds a bracket. -/
  source : String
  /-- The join condition. -/
  condition : Option String
  /-- The name it is given. -/
  aliasName : Option String
  /-- The kind of join; a plain one is not written out. -/
  kind : Option JoinKind
  deriving DecidableEq, Repr

/-- The items of an ordering or grouping clause. -/
inductive ItemList
  /-- Items; plain words among them are bracketed. -/
  | items (list : List String)
  /-- The clause as it is. -/
  | raw (clause : String)
  deriving DecidableEq, Repr

end Select

/-- The clauses of a query. -/
structure Select where
  /-- `some true` asks for distinct rows, `some false` for all of them explicitly. -/
  distinct : Option Bool := none
  /-- The columns; without any, all columns of the sources. -/
  columns : List Select.Column := []
  /-- The FROM clause. -/
  sources : List Select.FromItem := []
  /-- The joins. -/
  joins : List Select.Join := []
  /-- The WHERE clause. -/
  filter : Filter := {}
  /-- The GROUP BY clause. -/
  group : Option Select.ItemList := none
  /-- The HAVING clause. -/
  having : Option Condition := none
  /-- The ORDER BY clause. -/
  order : Option Select.ItemList := none
  /-- The largest number of rows. -/
  limit : Option UInt64 := none
  /-- The number of rows to skip. -/
  offset : Option UInt64 := none
  /-- Whether rows are locked for writing. -/
  forUpdate : Bool := false
  /-- Whether rows are locked for reading. -/
  sharedLock : Bool := false
  /-- The query's own values. -/
  binds : BindMap := OrderedMap.empty
  /-- The query's own declared categories. -/
  types : BindTypes := OrderedMap.empty

instance : Inhabited Select := ⟨{}⟩

namespace Select

/-! ### Filling in clauses -/

/-- The query with one more source. -/
def addSource (q : Select) (source : String) : Select :=
  { q with sources := q.sources ++ [⟨source, none⟩] }

/-- Entries with one under an alias: in place of the first entry with that alias, or at the end. -/
def putAliased (entry : FromItem) : List FromItem → List FromItem
  | [] => [entry]
  | s :: rest => if s.aliasName = entry.aliasName then entry :: rest else s :: putAliased entry rest

/-- The query with a source under an alias, in place of the one that had the alias. -/
def addSourceAs (q : Select) (source aliasName : String) : Select :=
  { q with sources := putAliased ⟨source, some aliasName⟩ q.sources }

/-- The query with one source only. -/
def setSource (q : Select) (source : String) (aliasName : Option String) : Select :=
  let cleared := { q with sources := [] }
  match aliasName with
  | some a => cleared.addSourceAs source a
  | none => cleared.addSource source

/-- The query of one logical source. -/
def ofSource (source : String) : Select := ({} : Select).addSource source

/-- The query with one more join. Empty conditions and aliases count as absent. -/
def addJoin (q : Select) (source : String) (condition aliasName : Option String)
    (kind : Option JoinKind) : Select :=
  let present := Option.filter fun s : String => !s.isEmpty
  { q with joins := q.joins ++ [⟨source, present condition, present aliasName, kind⟩] }

/-- The query with exactly the given columns. -/
def setColumns (q : Select) (exprs : List String) : Select :=
  { q with columns := exprs.map fun e => ⟨e, none⟩ }

/-- The query with one more column. -/
def addColumn (q : Select) (expr : String) (aliasName : Option String) : Select :=
  { q with columns := q.columns ++ [⟨expr, aliasName⟩] }

/-- The query with another limit. The offset changes only if one is given. -/
def setLimit (q : Select) (limit : UInt64) (offset : Option UInt64) : Select :=
  { q with limit := some limit, offset := offset.or q.offset }

/-! ### Rendering clauses -/

/-- Whether a source is statement text rather than a logical name. -/
def isRaw (source : String) : Bool := source.toList.contains '['

/-- A source the way a template names it. -/
def sourceText (source : String) : String := if isRaw source then source else bracketed source

/-- A direction of an ordering, in upper case, if a word is one. -/
def direction? (word : List Char) : Option (List Char) :=
  let upper := word.map Char.toUpper
  if upper = "ASC".toList ∨ upper = "DESC".toList then some upper else none

/-- A plain word with an optional direction, if an item is one. -/
def bareItem? (item : List Char) : Option (List Char × Option (List Char)) :=
  match Text.words Text.isBlank item with
  | [name] => if name.all Text.isWordChar then some (name, none) else none
  | [name, word] =>
    if name.all Text.isWordChar then (direction? word).map fun d => (name, some d) else none
  | _ => none

/-- An item of an ordering or grouping clause. -/
def itemText (item : String) : String :=
  match bareItem? item.toList with
  | some (name, some direction) =>
    bracketed (String.ofList name) ++ " " ++ String.ofList direction
  | some (name, none) => bracketed (String.ofList name)
  | none => Text.trimmed item

/-- An ordering or grouping clause. -/
def ItemList.text : ItemList → String
  | raw clause => clause
  | items list => ", ".intercalate (list.map itemText)

/-- All columns of one entry of the FROM clause. -/
def FromItem.allColumns (s : FromItem) : String :=
  match s.aliasName with
  | some a => bracketed a ++ ".*"
  | none => if isRaw s.source then "*" else bracketed s.source ++ ".*"

/-- An entry of the FROM clause. -/
def FromItem.text (s : FromItem) : String :=
  match s.aliasName with
  | some a => sourceText s.source ++ " AS " ++ bracketed a
  | none => sourceText s.source

/-- A column; an alias that holds a bracket stands as it is. -/
def Column.text (c : Column) : String :=
  match c.aliasName with
  | some a => c.expr ++ " AS " ++ sourceText a
  | none => c.expr

/-- A join, with a blank in front. -/
def Join.text (j : Join) : String :=
  let kind := match j.kind with
    | some k => k.keyword ++ " "
    | none => ""
  let aliasName := match j.aliasName with
    | some a => " AS " ++ bracketed a
    | none => ""
  let condition := match j.condition with
    | some c => " ON " ++ c
    | none => ""
  " " ++ kind ++ "JOIN " ++ sourceText j.source ++ aliasName ++ condition

/-- The keyword that distinct or all rows are asked for with. -/
def distinctText : Option Bool → String
  | some true => "DISTINCT "
  | some false => "ALL "
  | none => ""

/-- The columns of the result. -/
def columnsText (q : Select) : String :=
  if q.columns.isEmpty then ", ".intercalate (q.sources.map FromItem.allColumns)
  else ", ".intercalate (q.columns.map Column.text)

/-- A clause with its keyword, or nothing. -/
def clause (keyword : String) : Option String → String
  | some text => " " ++ keyword ++ " " ++ text
  | none => ""

/-- An expression, unless it is empty. -/
def nonEmpty (expr : String) : Option String := if expr.isEmpty then none else some expr

/-- The query up to its ordering. -/
def bodyText (q : Select) : String :=
  "SELECT " ++ distinctText q.distinct ++ q.columnsText ++ " FROM " ++
    ", ".intercalate (q.sources.map FromItem.text) ++ String.join (q.joins.map Join.text) ++
    clause "WHERE" (nonEmpty q.filter.expr) ++
    clause "GROUP BY" (q.group.map ItemList.text) ++
    clause "HAVING" (q.having.bind fun h => nonEmpty h.expr) ++
    clause "ORDER BY" (q.order.map ItemList.text)

/-! ### Compiling -/

/-- The parameter that carries the limit. -/
def limitName : String := "ABP_LIMIT"

/-- The parameter that carries the offset. -/
def offsetName : String := "ABP_OFFSET"

/-- The logical sources of the FROM clause and the joins, each once, in order. -/
def logicalSources (q : Select) : List String :=
  let all := q.sources.map FromItem.source ++ q.joins.map Join.source
  all.foldl (fun names s => if isRaw s || names.contains s then names else names ++ [s]) []

/-- The values of the clauses: later ones overwrite, in the order filter, HAVING, own values. -/
def clauseBinds (q : Select) : BindMap :=
  let filtered := q.filter.binds
  let grouped := match q.having with
    | some h => filtered.merge h.binds
    | none => filtered
  grouped.merge q.binds

/-- The declared categories of the clauses, merged in the same order as the values. -/
def clauseTypes (q : Select) : BindTypes :=
  let filtered := q.filter.types
  let grouped := match q.having with
    | some h => filtered.merge h.types
    | none => filtered
  grouped.merge q.types

/-- A keyword with the placeholder of a number, or nothing. -/
def pagingText (keyword name : String) : Option UInt64 → String
  | some _ => " " ++ keyword ++ " :" ++ name ++ ":"
  | none => ""

/-- A bind map with a number under a name, if there is one. -/
def pagingBinds (name : String) (n : Option UInt64) (binds : BindMap) : BindMap :=
  match n with
  | some n => binds.bind name (.int n.toNat)
  | none => binds

/-- Declared categories with an integer under a name, if there is one. -/
def pagingTypes (name : String) (n : Option UInt64) (types : BindTypes) : BindTypes :=
  match n with
  | some _ => types.insert (.name name) .int
  | none => types

/-- The lock clause. -/
def lockText (q : Select) : String :=
  if q.forUpdate then " FOR UPDATE" else if q.sharedLock then " FOR SHARE" else ""

/-- Why the clauses make no query, if they do not. -/
def fault? (q : Select) : Option ConfigurationError :=
  if q.sources.isEmpty then some .noSource
  else if q.forUpdate && q.sharedLock then some .conflictingLocks
  else if q.offset.isSome && q.limit.isNone then some .offsetWithoutLimit
  else none

/-- The template that the clauses make. -/
def template (q : Select) : Template where
  sql := q.bodyText ++ pagingText "LIMIT" limitName q.limit ++
    pagingText "OFFSET" offsetName q.offset ++ q.lockText
  binds := pagingBinds offsetName q.offset (pagingBinds limitName q.limit q.clauseBinds)
  types := pagingTypes offsetName q.offset (pagingTypes limitName q.limit q.clauseTypes)
  sources := q.logicalSources

/-- The template of a query, unless its clauses are at fault. -/
def compile (q : Select) : Except DbError Template :=
  match q.fault? with
  | some e => .error (.configuration e)
  | none => .ok q.template

end Select

end BoundSql

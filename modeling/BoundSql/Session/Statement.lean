import BoundSql.RowChange
import BoundSql.Select
import BoundSql.Session.Basic

/-! # Running statements
* **`Engine.query`**, **`Engine.execute`** — a native statement for its rows or the number of rows
  it affects. It is prepared exactly if values are bound to it.
* **`Engine.select`** — a query, compiled and resolved against the session's sources.
* **`Engine.insert`**, **`Engine.update`**, **`Engine.delete`** — row changes.
* **`Engine.metadata`** — the metadata of a source. -/

namespace BoundSql

/-- A statement with a literal limit, and an offset if there is one. -/
def limited (sql : String) (number : Nat) (offset : Option Nat) : String :=
  let start := sql ++ " LIMIT " ++ toString number
  match offset with
  | some offset => start ++ " OFFSET " ++ toString offset
  | none => start

namespace Engine

variable {σ τ ι Stmt Row α : Type}

/-- Sends a statement: as it is without values, and prepared with them. -/
def send (e : Engine σ τ ι Stmt Row) (plain : String → Request σ α)
    (prepared : Stmt → List Param → Request σ α) (sql : String) (params : List Param) :
    Request σ α := fun server =>
  if params.isEmpty then plain sql server
  else
    match e.backend.prepare sql server with
    | (.error failure, server) => (.error failure, server)
    | (.ok stmt, server) => prepared stmt params server

/-- The state after the last statement was logged. -/
def logStatement (e : Engine σ τ ι Stmt Row) (s : State σ τ ι) : State σ τ ι :=
  let log := s.session.config.log
  if log.enabled s.world.log.most then
    let sql := s.session.inlinedSql e.backend.dialect log.preservedLength
    let recorder :=
      log.record s.world.log sql s.session.lastParams.length s.session.affectedRows e.host.elapsed
    { s with world := { s.world with log := recorder } }
  else s

/-- Runs a statement that yields `count a` rows with its answer `a`. -/
def dispatch (e : Engine σ τ ι Stmt Row) (plain : String → Request σ α)
    (prepared : Stmt → List Param → Request σ α) (count : α → Nat) (sql : String)
    (binds : BindMap) (types : BindTypes) : Operation σ τ ι α := fun s =>
  let s := s.withAffected 0
  match binds.params types with
  | .error failure => (.error failure, s)
  | .ok params =>
    match e.send plain prepared sql params s.world.server with
    | (.error failure, server) =>
      let s := (s.withServer server).withLast sql params
      let shown := s.session.inlinedSql e.backend.dialect s.session.config.log.preservedLength
      (.error (failure.during shown), s)
    | (.ok a, server) =>
      (.ok a, e.logStatement (((s.withServer server).withLast sql params).withAffected (count a)))

/-- Runs a native statement for its rows. -/
def query (e : Engine σ τ ι Stmt Row) (sql : String) (binds : BindMap) (types : BindTypes) :
    Operation σ τ ι (List Row) :=
  e.dispatch e.backend.query e.backend.queryPrepared List.length sql binds types

/-- Runs a native statement for the number of rows it affects. -/
def execute (e : Engine σ τ ι Stmt Row) (sql : String) (binds : BindMap) (types : BindTypes) :
    Operation σ τ ι Nat :=
  e.dispatch e.backend.execute e.backend.executePrepared id sql binds types

/-- The first row of a list of rows that were asked for. -/
def firstRow (r : Except DbError (List Row) × State σ τ ι) :
    Except DbError (Option Row) × State σ τ ι :=
  (r.1.map List.head?, r.2)

/-- Runs a native statement for its first row. -/
def queryFirst (e : Engine σ τ ι Stmt Row) (sql : String) (binds : BindMap) :
    Operation σ τ ι (Option Row) := fun s =>
  firstRow (e.query sql binds OrderedMap.empty s)

/-- The sources of names, by name. The first name that is not registered is reported. -/
def resolveSources (sources : Registry) :
    List String → OrderedMap String Source → Except DbError (OrderedMap String Source)
  | [], resolved => .ok resolved
  | name :: rest, resolved =>
    match sources.require name with
    | .error failure => .error failure
    | .ok source => resolveSources sources rest (resolved.insert name source)

/-- The native form of a template, its sources resolved among the registered ones. -/
def resolve (e : Engine σ τ ι Stmt Row) (sources : Registry) (t : Template) :
    Except DbError Native :=
  match resolveSources sources t.sources OrderedMap.empty with
  | .error failure => .error failure
  | .ok resolved => t.resolve e.backend.dialect resolved

/-- The native form of a query. -/
def compile (e : Engine σ τ ι Stmt Row) (sources : Registry) (q : Select) :
    Except DbError Native :=
  match q.compile with
  | .error failure => .error failure
  | .ok t => e.resolve sources t

/-- Runs a query for its rows. -/
def select (e : Engine σ τ ι Stmt Row) (q : Select) : Operation σ τ ι (List Row) := fun s =>
  match e.compile s.session.sources q with
  | .error failure => (.error failure, s)
  | .ok native => e.query native.sql native.binds native.types s

/-- Runs a query for its first row. -/
def selectFirst (e : Engine σ τ ι Stmt Row) (q : Select) : Operation σ τ ι (Option Row) := fun s =>
  firstRow (e.select q s)

/-- Runs a row change, if it could be composed. -/
def change (e : Engine σ τ ι Stmt Row) (composed : Except DbError Native) : Operation σ τ ι Nat :=
  fun s =>
    match composed with
    | .error failure => (.error failure, s)
    | .ok native => e.execute native.sql native.binds native.types s

/-- Inserts one row. -/
def insert (e : Engine σ τ ι Stmt Row) (table : String) (values : BindMap) :
    Operation σ τ ι Nat :=
  e.change (RowChange.insert e.backend.dialect table values)

/-- Updates the rows of a filter. -/
def update (e : Engine σ τ ι Stmt Row) (table : String) (values : BindMap) (filter : Filter) :
    Operation σ τ ι Nat :=
  e.change (RowChange.update e.backend.dialect table values filter)

/-- Deletes the rows of a filter. -/
def delete (e : Engine σ τ ι Stmt Row) (table : String) (filter : Filter) : Operation σ τ ι Nat :=
  e.change (RowChange.delete e.backend.dialect table filter)

/-- The id generated by the latest insert. -/
def lastInsertId (e : Engine σ τ ι Stmt Row) : Operation σ τ ι Int := fun s =>
  match e.backend.lastInsertId s.world.server with
  | (.error failure, server) => (.error (failure.during "last insert id"), s.withServer server)
  | (.ok id, server) => (.ok id, s.withServer server)

/-- The metadata of a registered source. -/
def metadata (e : Engine σ τ ι Stmt Row) (name : String) : Operation σ τ ι Metadata := fun s =>
  match s.session.sources.require name with
  | .error failure => (.error failure, s)
  | .ok source =>
    let r := s.session.metadata.entry e.stores e.host.now e.backend.describe source s.world
    (r.1, ⟨{ s.session with metadata := r.2.1 }, r.2.2⟩)

end Engine

end BoundSql

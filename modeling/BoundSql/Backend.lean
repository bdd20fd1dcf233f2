import BoundSql.Bind
import BoundSql.Metadata.Entry
import BoundSql.Source

/-! # Server connections
* **`Backend`** — one connection to a server, as functions on the server's state `σ`. `Stmt` is what
  preparing a statement yields, and `Row` what a query returns.
* **`Call`** — a request sent over a connection.
* **`Backend.recording`** — the same connection with every request noted down, in order. -/

namespace BoundSql

/-- A function on the server's state that may fail. -/
abbrev Request (σ α : Type) := σ → Except BackendError α × σ

/-- A connection to a server. -/
structure Backend (σ Stmt Row : Type) where
  /-- How the server writes identifiers and tokens. -/
  dialect : Dialect
  /-- Prepares a statement. -/
  prepare : String → Request σ Stmt
  /-- Runs a prepared statement for its rows. -/
  queryPrepared : Stmt → List Param → Request σ (List Row)
  /-- Runs a prepared statement for the number of rows it affects. -/
  executePrepared : Stmt → List Param → Request σ Nat
  /-- Runs a statement without parameters for its rows. -/
  query : String → Request σ (List Row)
  /-- Runs a statement without parameters for the number of rows it affects. -/
  execute : String → Request σ Nat
  /-- Starts a transaction. -/
  beginTransaction : Request σ Unit
  /-- Makes a transaction's changes permanent. -/
  commit : Request σ Unit
  /-- Undoes a transaction's changes. -/
  rollback : Request σ Unit
  /-- The id generated by the latest insert. -/
  lastInsertId : Request σ Int
  /-- The columns of a source's table, in table order. -/
  describe : Source → σ → Except DbError (List Column) × σ

/-- A request sent over a connection. -/
inductive Call (Stmt : Type)
  /-- A statement is prepared. -/
  | prepare (sql : String)
  /-- A prepared statement is run for its rows. -/
  | queryPrepared (stmt : Stmt) (params : List Param)
  /-- A prepared statement is run for the rows it affects. -/
  | executePrepared (stmt : Stmt) (params : List Param)
  /-- A statement is run for its rows. -/
  | query (sql : String)
  /-- A statement is run for the rows it affects. -/
  | execute (sql : String)
  /-- A transaction starts. -/
  | beginTransaction
  /-- A transaction is committed. -/
  | commit
  /-- A transaction is rolled back. -/
  | rollback
  /-- The latest generated id is asked for. -/
  | lastInsertId
  /-- A table is described. -/
  | describe (source : Source)
  deriving Repr

/-- A server with the requests it has received. -/
structure Recorded (σ Stmt : Type) where
  /-- The server. -/
  server : σ
  /-- The requests, in order. -/
  calls : List (Call Stmt) := []

namespace Backend

variable {σ Stmt Row α ε : Type}

/-- A request that is noted down before it is answered. -/
def note (call : Call Stmt) (request : σ → Except ε α × σ) (r : Recorded σ Stmt) :
    Except ε α × Recorded σ Stmt :=
  let answer := request r.server
  (answer.1, ⟨answer.2, r.calls ++ [call]⟩)

/-- The connection with every request noted down. -/
def recording (b : Backend σ Stmt Row) : Backend (Recorded σ Stmt) Stmt Row where
  dialect := b.dialect
  prepare sql := note (.prepare sql) (b.prepare sql)
  queryPrepared stmt params := note (.queryPrepared stmt params) (b.queryPrepared stmt params)
  executePrepared stmt params :=
    note (.executePrepared stmt params) (b.executePrepared stmt params)
  query sql := note (.query sql) (b.query sql)
  execute sql := note (.execute sql) (b.execute sql)
  beginTransaction := note .beginTransaction b.beginTransaction
  commit := note .commit b.commit
  rollback := note .rollback b.rollback
  lastInsertId := note .lastInsertId b.lastInsertId
  describe source := note (.describe source) (b.describe source)

end Backend

end BoundSql

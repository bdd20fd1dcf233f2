import BoundSql.Backend
import BoundSql.Value

/-! # A scripted server
**`Script`** — a server that answers from queues: row sets, affected counts and failures that are
put in beforehand, and columns of tables. It is a connection of either dialect
(`Script.backend`). -/

namespace BoundSql

/-- The kinds of requests that a failure can be aimed at. -/
inductive Aim
  /-- Preparing. -/
  | prepare
  /-- Running a prepared statement for rows. -/
  | queryPrepared
  /-- Running a prepared statement for a count. -/
  | executePrepared
  /-- Running a statement for rows. -/
  | query
  /-- Running a statement for a count. -/
  | execute
  /-- Starting a transaction. -/
  | beginTransaction
  /-- Committing. -/
  | commit
  /-- Rolling back. -/
  | rollback
  /-- Asking for the latest id. -/
  | lastInsertId
  /-- Describing a table. -/
  | describe
  /-- Any statement or transaction boundary. -/
  | any
  deriving DecidableEq, Repr

/-- Whether a failure aimed at `a` hits requests of kind `kind`. -/
def Aim.hits (a kind : Aim) : Bool :=
  a == kind || (a == .any && kind != .prepare && kind != .lastInsertId && kind != .describe)

/-- The state of a scripted server. -/
structure Script where
  /-- Answers to queries. -/
  rowSets : List (List Value) := []
  /-- Answers to statements that affect rows. -/
  affected : List Nat := []
  /-- Failures, each with the kind of request it is aimed at. -/
  failures : List (Aim × BackendError) := []
  /-- The latest generated id. -/
  insertId : Int := 0
  /-- The columns of tables; a table without columns to give fails. -/
  tables : OrderedMap String (Option (List Column)) := OrderedMap.empty

instance : Inhabited Script := ⟨{}⟩

namespace Script

/-- The oldest failure that hits a kind of request, and the others. -/
def takeFailure (kind : Aim) :
    List (Aim × BackendError) → Option BackendError × List (Aim × BackendError)
  | [] => (none, [])
  | f :: fs =>
    if f.1.hits kind then (some f.2, fs)
    else
      let r := takeFailure kind fs
      (r.1, f :: r.2)

/-- A request of a kind: the failure aimed at it, or else its answer. -/
def request {α : Type} (kind : Aim) (answer : Script → α × Script) : Request Script α := fun s =>
  match takeFailure kind s.failures with
  | (some e, failures) => (.error e, { s with failures })
  | (none, failures) =>
    let r := answer { s with failures }
    (.ok r.1, r.2)

/-- The next row set; no rows if none is queued. -/
def nextRows (s : Script) : List Value × Script :=
  match s.rowSets with
  | [] => ([], s)
  | rows :: rowSets => (rows, { s with rowSets })

/-- The next affected count; one if none is queued. -/
def nextAffected (s : Script) : Nat × Script :=
  match s.affected with
  | [] => (1, s)
  | n :: affected => (n, { s with affected })

/-- An answer that changes nothing. -/
def constant {α : Type} (a : α) (s : Script) : α × Script := (a, s)

/-- The columns of a table. A failure aimed at describing is used up without effect. -/
def describe (source : Source) (s : Script) : Except DbError (List Column) × Script :=
  let s := { s with failures := (takeFailure .describe s.failures).2 }
  match s.tables.get? source.table with
  | some none => (.error (.query "describe failed" none ("describe " ++ source.table)), s)
  | some (some columns) => (.ok columns, s)
  | none => (.ok [], s)

/-- The scripted server as a connection. A prepared statement is its text. -/
def backend (d : Dialect) : Backend Script String Value where
  dialect := d
  prepare sql := request .prepare (constant sql)
  queryPrepared _ _ := request .queryPrepared nextRows
  executePrepared _ _ := request .executePrepared nextAffected
  query _ := request .query nextRows
  execute _ := request .execute nextAffected
  beginTransaction := request .beginTransaction (constant ())
  commit := request .commit (constant ())
  rollback := request .rollback (constant ())
  lastInsertId := request .lastInsertId fun s => (s.insertId, s)
  describe := describe

end Script

end BoundSql

import BoundSql.Scripted
import BoundSql.Session.Statement
import BoundSql.Session.Transaction

/-! # Runs of a session
What a caller can ask of a session, in any order.
* **`StatementCall`**, **`Boundary`**, **`Action`** — the operations.
* **`Engine.perform`**, **`Engine.cross`**, **`Engine.act`**, **`Engine.run`** — one operation, and
  one after another.
* **`Engine.perform_eq`** — a statement operation either has no native statement, and then changes
  nothing, or runs it.
* **`Engine.cross_of_refused`**, **`cross_of_error`**, **`cross_of_ok`** — a boundary is refused
  without a request, or sent, and only the server's agreement moves the level. -/

namespace BoundSql

/-! ### Operations -/

/-- An operation that runs a statement. -/
inductive StatementCall
  /-- A native statement for its rows. -/
  | query (sql : String) (binds : BindMap) (types : BindTypes)
  /-- A native statement for the number of rows it affects. -/
  | execute (sql : String) (binds : BindMap) (types : BindTypes)
  /-- A native statement for its first row. -/
  | queryFirst (sql : String) (binds : BindMap)
  /-- A query for its rows. -/
  | select (q : Select)
  /-- A query for its first row. -/
  | selectFirst (q : Select)
  /-- One row is inserted. -/
  | insert (table : String) (values : BindMap)
  /-- The rows of a filter are updated. -/
  | update (table : String) (values : BindMap) (filter : Filter)
  /-- The rows of a filter are deleted. -/
  | delete (table : String) (filter : Filter)

/-- A boundary of a transaction. -/
inductive Boundary
  /-- The transaction starts. -/
  | begin
  /-- It is committed. -/
  | commit
  /-- It is rolled back. -/
  | rollback
  deriving DecidableEq, Repr

/-- An operation of a session. -/
inductive Action
  /-- A statement is run. -/
  | statement (call : StatementCall)
  /-- A transaction starts or ends. -/
  | boundary (b : Boundary)

/-- What a statement operation answers. -/
inductive Outcome (Row : Type)
  /-- The rows of a query. -/
  | rows (rows : List Row)
  /-- The first of the rows of a query. -/
  | first (row : Option Row)
  /-- The number of affected rows. -/
  | count (count : Nat)

namespace Engine

variable {σ τ ι Stmt Row α β : Type}

/-- An operation whose answer is put into another form. -/
def mapAnswer (f : α → β) (op : Operation σ τ ι α) : Operation σ τ ι β := fun s =>
  ((op s).1.map f, (op s).2)

/-- Runs a statement operation. -/
def perform (e : Engine σ τ ι Stmt Row) : StatementCall → Operation σ τ ι (Outcome Row)
  | .query sql binds types => mapAnswer .rows (e.query sql binds types)
  | .execute sql binds types => mapAnswer .count (e.execute sql binds types)
  | .queryFirst sql binds => mapAnswer .first (e.queryFirst sql binds)
  | .select q => mapAnswer .rows (e.select q)
  | .selectFirst q => mapAnswer .first (e.selectFirst q)
  | .insert table values => mapAnswer .count (e.insert table values)
  | .update table values filter => mapAnswer .count (e.update table values filter)
  | .delete table filter => mapAnswer .count (e.delete table filter)

/-- Crosses a boundary of a transaction. -/
def cross (e : Engine σ τ ι Stmt Row) : Boundary → Operation σ τ ι Unit
  | .begin => e.begin
  | .commit => e.commit
  | .rollback => e.rollback

/-- The session after an operation, and whether the operation succeeded. -/
def act (e : Engine σ τ ι Stmt Row) (a : Action) (s : State σ τ ι) : Bool × State σ τ ι :=
  match a with
  | .statement call => ((e.perform call s).1.toBool, (e.perform call s).2)
  | .boundary b => ((e.cross b s).1.toBool, (e.cross b s).2)

/-- The session after operations, and which of them succeeded. -/
def run (e : Engine σ τ ι Stmt Row) : List Action → State σ τ ι → List (Action × Bool) × State σ τ ι
  | [], s => ([], s)
  | a :: rest, s =>
    let r := e.act a s
    let later := e.run rest r.2
    ((a, r.1) :: later.1, later.2)

/-! ### Statements behind operations -/

/-- The native statement of an operation. -/
def native (e : Engine σ τ ι Stmt Row) (sources : Registry) : StatementCall → Except DbError Native
  | .query sql binds types => .ok ⟨sql, binds, types⟩
  | .execute sql binds types => .ok ⟨sql, binds, types⟩
  | .queryFirst sql binds => .ok ⟨sql, binds, OrderedMap.empty⟩
  | .select q => e.compile sources q
  | .selectFirst q => e.compile sources q
  | .insert table values => RowChange.insert e.backend.dialect table values
  | .update table values filter => RowChange.update e.backend.dialect table values filter
  | .delete table filter => RowChange.delete e.backend.dialect table filter

/-- Runs the native statement of an operation. -/
def runNative (e : Engine σ τ ι Stmt Row) (n : Native) :
    StatementCall → Operation σ τ ι (Outcome Row)
  | .query _ _ _ | .select _ => mapAnswer .rows (e.query n.sql n.binds n.types)
  | .queryFirst _ _ | .selectFirst _ =>
    mapAnswer (fun rows => .first rows.head?) (e.query n.sql n.binds n.types)
  | _ => mapAnswer .count (e.execute n.sql n.binds n.types)

/-- An operation without a native statement changes nothing; any other runs it. -/
theorem perform_eq (e : Engine σ τ ι Stmt Row) (call : StatementCall) (s : State σ τ ι) :
    e.perform call s =
      match e.native s.session.sources call with
      | .error failure => (.error failure, s)
      | .ok n => e.runNative n call s := by
  have hfirst : ∀ r : Except DbError (List Row) × State σ τ ι,
      ((firstRow r).1.map Outcome.first, (firstRow r).2) =
        (r.1.map fun rows => Outcome.first rows.head?, r.2) := by
    rintro ⟨answer, s'⟩
    cases answer <;> rfl
  have hselect : ∀ q, e.select q s = match e.compile s.session.sources q with
      | .error failure => (.error failure, s)
      | .ok n => e.query n.sql n.binds n.types s := fun q => rfl
  have hchange : ∀ composed, e.change composed s = match composed with
      | .error failure => (.error failure, s)
      | .ok n => e.execute n.sql n.binds n.types s := fun composed => rfl
  -- Text that is given is its own native statement; all else is composed before it is sent.
  cases call with
  | query sql binds types => rfl
  | execute sql binds types => rfl
  | queryFirst sql binds => exact hfirst _
  | select q =>
    rw [perform, mapAnswer, hselect, native]
    cases e.compile s.session.sources q <;> rfl
  | selectFirst q =>
    rw [perform, mapAnswer, selectFirst, hfirst, hselect, native]
    cases e.compile s.session.sources q <;> rfl
  | insert table values =>
    rw [perform, mapAnswer, Engine.insert, hchange, native]
    cases RowChange.insert e.backend.dialect table values <;> rfl
  | update table values filter =>
    rw [perform, mapAnswer, Engine.update, hchange, native]
    cases RowChange.update e.backend.dialect table values filter <;> rfl
  | delete table filter =>
    rw [perform, mapAnswer, Engine.delete, hchange, native]
    cases RowChange.delete e.backend.dialect table filter <;> rfl

end Engine

/-! ### Boundaries -/

namespace Boundary

/-- Whether a boundary is refused at a level: a transaction starts only where none is open, and
ends only where one is. -/
def Refused : Boundary → Nat → Prop
  | begin, level => level ≠ 0
  | commit, level => level = 0
  | rollback, level => level = 0

instance : (b : Boundary) → (level : Nat) → Decidable (b.Refused level)
  | begin, level => inferInstanceAs (Decidable (level ≠ 0))
  | commit, level => inferInstanceAs (Decidable (level = 0))
  | rollback, level => inferInstanceAs (Decidable (level = 0))

/-- The error of a refused boundary. -/
def refusal : Boundary → TransactionError
  | begin => .alreadyActive
  | commit => .notActive
  | rollback => .notActive

/-- The statement that stands for a boundary in errors. -/
def sql : Boundary → String
  | begin => "BEGIN"
  | commit => "COMMIT"
  | rollback => "ROLLBACK"

/-- The name of a boundary in events. -/
def message : Boundary → String
  | begin => "begin"
  | commit => "commit"
  | rollback => "rollback"

/-- The level after a boundary. -/
def levelAfter : Boundary → Nat → Nat
  | begin, level => level + 1
  | commit, level => level - 1
  | rollback, level => level - 1

end Boundary

/-- The request of a boundary. -/
def Backend.boundary {σ Stmt Row : Type} (k : Backend σ Stmt Row) : Boundary → Request σ Unit
  | .begin => k.beginTransaction
  | .commit => k.commit
  | .rollback => k.rollback

namespace Engine

variable {σ τ ι Stmt Row : Type} (e : Engine σ τ ι Stmt Row) {b : Boundary} {s : State σ τ ι}

/-- The boundaries differ in when they are refused, in their request and in where the level goes. -/
theorem cross_eq (b : Boundary) (s : State σ τ ι) :
    e.cross b s =
      if b.Refused s.session.transactionLevel then (.error (.transaction b.refusal), s)
      else boundary (e.backend.boundary b) b.sql b.message
        (b.levelAfter s.session.transactionLevel) s := by
  cases b <;> rfl

/-- A refused boundary changes nothing. -/
theorem cross_of_refused (h : b.Refused s.session.transactionLevel) :
    e.cross b s = (.error (.transaction b.refusal), s) := by
  rw [cross_eq, if_pos h]

/-- A boundary that the server does not agree to changes the server only. -/
theorem cross_of_error (h : ¬ b.Refused s.session.transactionLevel) {failure : BackendError}
    {server : σ} (hb : e.backend.boundary b s.world.server = (.error failure, server)) :
    e.cross b s = (.error (failure.during b.sql), s.withServer server) := by
  rw [cross_eq, if_neg h, boundary, hb]

/-- A boundary that the server agrees to moves the level. -/
theorem cross_of_ok (h : ¬ b.Refused s.session.transactionLevel) {server : σ}
    (hb : e.backend.boundary b s.world.server = (.ok (), server)) :
    e.cross b s = (.ok (), ((s.withServer server).withLevel
      (b.levelAfter s.session.transactionLevel)).emit
        (transactionEvent (b.levelAfter s.session.transactionLevel) b.message)) := by
  rw [cross_eq, if_neg h, boundary, hb]

/-- Of the session, a boundary changes the level only, and that only if it succeeds. -/
theorem session_cross (b : Boundary) (s : State σ τ ι) :
    (e.cross b s).2.session = { s.session with
      transactionLevel :=
        if (e.cross b s).1.toBool then b.levelAfter s.session.transactionLevel
        else s.session.transactionLevel } := by
  by_cases hr : b.Refused s.session.transactionLevel
  · rw [cross_of_refused e hr]
    rfl
  · rcases h : e.backend.boundary b s.world.server with ⟨failure | _, server⟩
    · rw [cross_of_error e hr h]
      rfl
    · rw [cross_of_ok e hr h]
      rfl

end Engine

/-! ### Sessions on a scripted server -/

namespace Script

/-- The operations on a scripted server. -/
def engine (d : Dialect) : Engine Script MemoryStore Unit String Value :=
  ⟨backend d, MemoryStore.access, ⟨⟨Date.first, .midnight⟩, 1⟩⟩

/-- A new session on a scripted server. -/
def start (server : Script) : State Script MemoryStore Unit :=
  ⟨{}, ⟨server, OrderedMap.empty, {}⟩⟩

end Script

end BoundSql

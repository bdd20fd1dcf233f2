import BoundSql.Session.Basic

/-! # Transactions
**`Engine.begin`**, **`Engine.commit`** and **`Engine.rollback`** — at most one transaction is open,
and the session counts it only once the server has answered. **`Engine.transaction`** runs a body
inside one: it is committed if the body succeeds and rolled back if it fails. -/

namespace BoundSql.Engine

variable {σ τ ι Stmt Row α : Type}

/-- The event of a transaction boundary. -/
def transactionEvent (level : Nat) (message : String) : Event :=
  ⟨.debug, transactionTarget, [("level", .number level), ("message", .text message)]⟩

/-- A request at a transaction boundary. The level changes only if the server agrees. -/
def boundary (request : Request σ Unit) (sql message : String) (level : Nat) :
    Operation σ τ ι Unit := fun s =>
  match request s.world.server with
  | (.error e, server) => (.error (e.during sql), s.withServer server)
  | (.ok _, server) =>
    (.ok (), ((s.withServer server).withLevel level).emit (transactionEvent level message))

/-- Starts a transaction. -/
def begin (e : Engine σ τ ι Stmt Row) : Operation σ τ ι Unit := fun s =>
  if s.session.transactionLevel ≠ 0 then (.error (.transaction .alreadyActive), s)
  else boundary e.backend.beginTransaction "BEGIN" "begin" (s.session.transactionLevel + 1) s

/-- Commits the open transaction. -/
def commit (e : Engine σ τ ι Stmt Row) : Operation σ τ ι Unit := fun s =>
  if s.session.transactionLevel = 0 then (.error (.transaction .notActive), s)
  else boundary e.backend.commit "COMMIT" "commit" (s.session.transactionLevel - 1) s

/-- Rolls the open transaction back. -/
def rollback (e : Engine σ τ ι Stmt Row) : Operation σ τ ι Unit := fun s =>
  if s.session.transactionLevel = 0 then (.error (.transaction .notActive), s)
  else boundary e.backend.rollback "ROLLBACK" "rollback" (s.session.transactionLevel - 1) s

/-- Ends the transaction around a body that has answered: with its value if the commit succeeds,
and with its error, or that of a failed rollback, otherwise. -/
def conclude (e : Engine σ τ ι Stmt Row) (answer : Except DbError α) : Operation σ τ ι α := fun s =>
  match answer with
  | .ok a =>
    match e.commit s with
    | (.error failure, s) => (.error failure, s)
    | (.ok _, s) => (.ok a, s)
  | .error cause =>
    match e.rollback s with
    | (.ok _, s) => (.error cause, s)
    | (.error failure, s) =>
      (.error (.transaction (.rollbackFailed cause.message failure.message)), s)

/-- Runs a body inside a transaction. -/
def transaction (e : Engine σ τ ι Stmt Row) (body : Operation σ τ ι α) : Operation σ τ ι α :=
  fun s =>
    match e.begin s with
    | (.error failure, s) => (.error failure, s)
    | (.ok _, s) =>
      let r := body s
      e.conclude r.1 r.2

end BoundSql.Engine

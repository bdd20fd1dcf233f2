import BoundSql.Session.Statement

/-! # How a statement runs
The ways a statement can go, each with its answer and the state it leaves.
* **`Engine.send_plain`**, **`send_unprepared`**, **`send_prepared`** — without values it is sent as
  it is; with values it is prepared, and run if that succeeds.
* **`Engine.dispatch_of_params_error`**, **`dispatch_of_send_error`**, **`dispatch_of_send_ok`** —
  nothing is sent unless all values coerce; the last statement is kept as soon as it is sent. -/

namespace BoundSql.Engine

variable {σ τ ι Stmt Row α : Type}

/-! ### Sending -/

section

variable (e : Engine σ τ ι Stmt Row) (plain : String → Request σ α)
  (prepared : Stmt → List Param → Request σ α) (sql : String)

/-- Without values a statement is sent as it is. -/
theorem send_plain (server : σ) : e.send plain prepared sql [] server = plain sql server := rfl

/-- With values it fails where preparing it fails. -/
theorem send_unprepared {params : List Param} (hp : params ≠ []) {server server' : σ}
    {failure : BackendError} (h : e.backend.prepare sql server = (.error failure, server')) :
    e.send plain prepared sql params server = (.error failure, server') := by
  rw [send, if_neg (by simpa using hp), h]

/-- With values it is run once it is prepared. -/
theorem send_prepared {params : List Param} (hp : params ≠ []) {server server' : σ} {stmt : Stmt}
    (h : e.backend.prepare sql server = (.ok stmt, server')) :
    e.send plain prepared sql params server = prepared stmt params server' := by
  rw [send, if_neg (by simpa using hp), h]

end

/-! ### Running -/

section

variable {e : Engine σ τ ι Stmt Row} {plain : String → Request σ α}
  {prepared : Stmt → List Param → Request σ α} {count : α → Nat} {sql : String} {binds : BindMap}
  {types : BindTypes} {s : State σ τ ι}

/-- Nothing is sent if a value does not coerce. -/
theorem dispatch_of_params_error {failure : DbError} (h : binds.params types = .error failure) :
    e.dispatch plain prepared count sql binds types s = (.error failure, s.withAffected 0) := by
  rw [dispatch, h]

/-- A failure of the server is reported with the statement and its values. -/
theorem dispatch_of_send_error {params : List Param} (h : binds.params types = .ok params)
    {failure : BackendError} {server : σ}
    (hs : e.send plain prepared sql params s.world.server = (.error failure, server)) :
    e.dispatch plain prepared count sql binds types s =
      (.error (failure.during
        (inlined e.backend.dialect s.session.config.log.preservedLength params sql)),
        ((s.withAffected 0).withServer server).withLast sql params) := by
  have hs' : e.send plain prepared sql params (s.withAffected 0).world.server =
      (.error failure, server) := hs
  rw [dispatch, h]
  simp only [hs']
  rfl

/-- An answer of the server is passed on. -/
theorem dispatch_of_send_ok {params : List Param} (h : binds.params types = .ok params)
    {a : α} {server : σ}
    (hs : e.send plain prepared sql params s.world.server = (.ok a, server)) :
    e.dispatch plain prepared count sql binds types s =
      (.ok a, e.logStatement
        ((((s.withAffected 0).withServer server).withLast sql params).withAffected (count a))) := by
  have hs' : e.send plain prepared sql params (s.withAffected 0).world.server =
      (.ok a, server) := hs
  rw [dispatch, h]
  simp only [hs']

end

/-- Logging a statement changes the log only. -/
theorem exists_logStatement_eq (e : Engine σ τ ι Stmt Row) (s : State σ τ ι) :
    ∃ log, e.logStatement s = ⟨s.session, { s.world with log }⟩ := by
  by_cases h : s.session.config.log.enabled s.world.log.most = true
  · exact ⟨_, by rw [logStatement, if_pos h]⟩
  · exact ⟨s.world.log, by rw [logStatement, if_neg h]⟩

end BoundSql.Engine

import BoundSql.Proofs.Session.Performed

/-! # The number of affected rows
A session keeps the number of rows that its last statement affected or returned.
* **`Engine.tally?`**, **`Engine.tallies`** — what the server's replies say of the operations that
  have a statement. The others leave the number as it is.
* **`Engine.affectedRows_act`**, **`Engine.affectedRows_run`** — the number after an operation and
  after a run.
* **`Engine.affected_rows_iff`** — the number after a statement operation. After a failure it is
  zero only if the operation has a statement or the number was zero before. -/

namespace BoundSql

section

variable {σ τ ι Stmt Row : Type}

/-! ### What operations tell -/

namespace Engine

/-- The server's replies to a statement operation. -/
def repliesTo (e : Engine σ τ ι Stmt Row) (call : StatementCall) (s : State σ τ ι) :
    List (Reply Row) :=
  e.backend.replies s.world.server
    ((e.traced.perform call (s.traced Stmt)).2.world.server.exchanges.map Exchange.call)

/-- The number of rows that an operation with a statement affects or returns, by the server's last
reply. -/
def tally? (e : Engine σ τ ι Stmt Row) (a : Action) (s : State σ τ ι) : Option Nat :=
  match a with
  | .statement call =>
    (e.native s.session.sources call).toOption.map fun _ =>
      (e.repliesTo call s).getLast?.elim 0 Reply.size
  | .boundary _ => none

/-- The numbers of the operations of a run that have a statement, in order. -/
def tallies (e : Engine σ τ ι Stmt Row) : List Action → State σ τ ι → List Nat
  | [], _ => []
  | a :: rest, s => (e.tally? a s).toList ++ e.tallies rest (e.act a s).2

end Engine

/-! ### The number a session keeps -/

namespace Engine.Went

variable {e : Engine σ τ ι Stmt Row} {call : StatementCall} {s : State σ τ ι}
  {answer : Except DbError (Outcome Row)} {session : Session ι} {xs : List (Exchange Stmt)}

/-- An operation with a statement leaves the size of the server's last reply. -/
theorem affectedRows_eq (h : e.Went call s answer session xs) :
    session.affectedRows =
      ((e.native s.session.sources call).toOption.map fun _ =>
        (e.backend.replies s.world.server (xs.map Exchange.call)).getLast?.elim 0 Reply.size).getD
          s.session.affectedRows := by
  cases h with
  | unwritten native => simp [native, Except.toOption]
  | uncoerced native coerced => simp [native, Except.toOption, Backend.replies]
  | sent native coerced sends replies answers =>
    obtain ⟨earlier, hlast, -⟩ := replies
    simp [native, Except.toOption, hlast]

/-- An answer is made of the server's last reply, whose size is kept. -/
theorem exists_reply (h : e.Went call s answer session xs) {a : Outcome Row}
    (ha : answer = .ok a) :
    ∃ reply shown, (e.backend.replies s.world.server (xs.map Exchange.call)).getLast? = some reply ∧
      reply.Answers shown (.ok a) ∧ session.affectedRows = reply.size := by
  cases h with
  | unwritten native => cases ha
  | uncoerced native coerced => cases ha
  | @sent n params answer xs reply native coerced sends replies answers =>
    obtain ⟨earlier, hlast, -⟩ := replies
    exact ⟨reply, _, by rw [hlast, List.getLast?_concat], ha ▸ answers, rfl⟩

/-- A statement that fails leaves zero, and an operation without one leaves what was there. -/
theorem affectedRows_of_error (h : e.Went call s answer session xs) {failure : DbError}
    (ha : answer = .error failure) :
    session.affectedRows =
      match e.native s.session.sources call with
      | .ok _ => 0
      | .error _ => s.session.affectedRows := by
  subst ha
  cases h with
  | unwritten native => rw [native]
  | uncoerced native coerced => rw [native]
  | sent native coerced sends replies answers =>
    obtain ⟨cause, rfl, -⟩ := answers.exists_failed
    rw [native]
    rfl

end Engine.Went

namespace Engine

/-- A statement operation leaves the number that the server tells, and the number from before if it
has no statement. -/
theorem affectedRows_perform (e : Engine σ τ ι Stmt Row) (call : StatementCall)
    (s : State σ τ ι) :
    (e.perform call s).2.session.affectedRows =
      (e.tally? (.statement call) s).getD s.session.affectedRows :=
  (e.perform_went call s).2.affectedRows_eq

/-- A boundary leaves the number. -/
theorem affectedRows_cross (e : Engine σ τ ι Stmt Row) (b : Boundary) (s : State σ τ ι) :
    (e.cross b s).2.session.affectedRows = s.session.affectedRows := by
  rw [session_cross]

/-- An operation leaves the number that the server tells, or the number from before. -/
theorem affectedRows_act (e : Engine σ τ ι Stmt Row) (a : Action) (s : State σ τ ι) :
    (e.act a s).2.session.affectedRows = (e.tally? a s).getD s.session.affectedRows := by
  cases a with
  | statement call => exact e.affectedRows_perform call s
  | boundary b => exact e.affectedRows_cross b s

/-- A run leaves the number of its last operation that has a statement. -/
theorem affectedRows_run (e : Engine σ τ ι Stmt Row) (actions : List Action) (s : State σ τ ι) :
    (e.run actions s).2.session.affectedRows =
      (e.tallies actions s).getLastD s.session.affectedRows := by
  induction actions generalizing s with
  | nil => rfl
  | cons a rest ih =>
    show (e.run rest (e.act a s).2).2.session.affectedRows = _
    -- What the first operation leaves is what the rest of the run falls back on.
    rw [ih, affectedRows_act, tallies]
    cases e.tally? a s with
    | none => rfl
    | some n => exact (List.getLastD_cons ..).symm

/-- The number after a statement operation that ends a run. If the operation succeeds, it is the
count it answers or the number of rows that the server returned. If it fails, the number is zero
exactly if the operation has a statement, or the last operation before it that has one left zero. -/
theorem affected_rows_iff (e : Engine σ τ ι Stmt Row) (s : State σ τ ι) (actions : List Action)
    (call : StatementCall) :
    let before := (e.run actions s).2
    let r := e.perform call before
    let affected := r.2.session.affectedRows
    (∀ count, r.1 = .ok (.count count) → affected = count) ∧
      (∀ rows, r.1 = .ok (.rows rows) → affected = rows.length) ∧
      (∀ row, r.1 = .ok (.first row) →
        ∃ rows, (e.repliesTo call before).getLast? = some (.rows rows) ∧ row = rows.head? ∧
          affected = rows.length) ∧
      (∀ failure, r.1 = .error failure → (affected = 0 ↔
        (∃ n, e.native before.session.sources call = .ok n) ∨
          (e.tallies actions s).getLastD s.session.affectedRows = 0)) := by
  intro before r affected
  obtain ⟨-, hwent⟩ := e.perform_went call before
  -- The last reply tells both the answer and the count.
  refine ⟨fun count hr => ?_, fun rows hr => ?_, fun row hr => ?_, fun failure hr => ?_⟩
  · obtain ⟨reply, shown, -, hanswers, hsize⟩ := hwent.exists_reply hr
    cases hanswers
    exact hsize
  · obtain ⟨reply, shown, -, hanswers, hsize⟩ := hwent.exists_reply hr
    cases hanswers
    exact hsize
  · obtain ⟨reply, shown, hlast, hanswers, hsize⟩ := hwent.exists_reply hr
    cases hanswers with
    | first rows => exact ⟨rows, hlast, rfl, hsize⟩
  · have hbefore : before.session.affectedRows = _ := e.affectedRows_run actions s
    have haffected : affected = _ := hwent.affectedRows_of_error hr
    rw [haffected, ← hbefore]
    cases e.native before.session.sources call <;> simp

end Engine

end

namespace Script

/-- An insert without values has no statement, and leaves the count of the statement before it. -/
theorem failed_insert_keeps_count :
    let update := Action.statement (.execute "U" OrderedMap.empty OrderedMap.empty)
    let before := ((engine .mysql).run [update] (start { affected := [3] })).2
    let r := (engine .mysql).perform (.insert "student" OrderedMap.empty) before
    r.1 = .error (.configuration (.insertWithoutData "student")) ∧
      r.2.session.affectedRows = 3 ∧ r.2.session.affectedRows ≠ 0 := by
  intro update before r
  have haffected : r.2.session.affectedRows = 3 := rfl
  exact ⟨rfl, haffected, by rw [haffected]; decide⟩

end Script

end BoundSql

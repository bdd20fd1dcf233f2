import BoundSql.Proofs.Session.Run

/-! # Bodies inside a transaction
How `Engine.transaction` ends for a body that leaves the level alone, on a server that agrees to
starts and rollbacks.
* **`Engine.conclude_of_commit_ok`**, **`conclude_of_commit_error`**,
  **`conclude_of_rollback_ok`** — the three ways a body that has answered is concluded.
* **`Engine.begin_refused_iff`** — a start is refused exactly at a level other than zero.
* **`Engine.transaction_settled_iff`** — the answer in each of these ways, and that a transaction is
  left open exactly after a commit that failed. -/

namespace BoundSql

variable {σ τ ι Stmt Row α : Type}

namespace Engine

variable (e : Engine σ τ ι Stmt Row) {s : State σ τ ι}

/-- A start is refused exactly where a transaction is open. -/
theorem begin_refused_iff : (e.begin s).1 = .error (.transaction .alreadyActive) ↔
    s.session.transactionLevel ≠ 0 := by
  constructor
  · intro h hzero
    have hr : ¬ Boundary.begin.Refused s.session.transactionLevel := fun hne => hne hzero
    rcases hb : e.backend.boundary .begin s.world.server with ⟨failure | _, server⟩
    · have hanswer : (e.begin s).1 = .error (failure.during "BEGIN") :=
        congrArg Prod.fst (e.cross_of_error hr hb)
      rw [hanswer] at h
      simp [BackendError.during] at h
    · have hanswer : (e.begin s).1 = .ok () := congrArg Prod.fst (e.cross_of_ok hr hb)
      rw [hanswer] at h
      cases h
  · intro hr
    exact congrArg Prod.fst (e.cross_of_refused (b := .begin) hr)

/-! ### Concluding -/

section

variable {level : Nat} {server : σ}

/-- A value is passed on once it is committed, and the transaction is closed. -/
theorem conclude_of_commit_ok (hlevel : s.session.transactionLevel = level + 1)
    (hc : e.backend.commit s.world.server = (.ok (), server)) (a : α) :
    (e.conclude (.ok a) s).1 = .ok a ∧
      (e.conclude (.ok a) s).2.session.transactionLevel = level := by
  have hr : ¬ Boundary.commit.Refused s.session.transactionLevel := by
    simp [Boundary.Refused, hlevel]
  have hcommit : e.commit s = _ := e.cross_of_ok (b := .commit) hr hc
  rw [conclude, hcommit]
  refine ⟨rfl, ?_⟩
  show s.session.transactionLevel - 1 = level
  omega

/-- A commit that fails is reported, and the transaction stays open. -/
theorem conclude_of_commit_error (hlevel : s.session.transactionLevel = level + 1)
    {failure : BackendError} (hc : e.backend.commit s.world.server = (.error failure, server))
    (a : α) :
    (e.conclude (.ok a) s).1 = .error (failure.during "COMMIT") ∧
      (e.conclude (.ok a) s).2.session.transactionLevel = level + 1 := by
  have hr : ¬ Boundary.commit.Refused s.session.transactionLevel := by
    simp [Boundary.Refused, hlevel]
  have hcommit : e.commit s = _ := e.cross_of_error (b := .commit) hr hc
  rw [conclude, hcommit]
  exact ⟨rfl, hlevel⟩

/-- An error is passed on once the transaction is rolled back. -/
theorem conclude_of_rollback_ok (hlevel : s.session.transactionLevel = level + 1)
    (hr : e.backend.rollback s.world.server = (.ok (), server)) (cause : DbError) :
    (e.conclude (.error cause : Except DbError α) s).1 = .error cause ∧
      (e.conclude (.error cause : Except DbError α) s).2.session.transactionLevel = level := by
  have hrefused : ¬ Boundary.rollback.Refused s.session.transactionLevel := by
    simp [Boundary.Refused, hlevel]
  have hrollback : e.rollback s = _ := e.cross_of_ok (b := .rollback) hrefused hr
  rw [conclude, hrollback]
  refine ⟨rfl, ?_⟩
  show s.session.transactionLevel - 1 = level
  omega

end

/-- A body runs once the server agrees to a start, at one level more. -/
theorem transaction_of_begin_ok (body : Operation σ τ ι α)
    (hlevel : s.session.transactionLevel = 0)
    (hb : (e.backend.beginTransaction s.world.server).1 = .ok ()) :
    (e.begin s).2.session.transactionLevel = 1 ∧
      e.transaction body s = e.conclude (body (e.begin s).2).1 (body (e.begin s).2).2 := by
  rcases h : e.backend.beginTransaction s.world.server with ⟨answer, server⟩
  obtain rfl : answer = .ok () := by rw [← hb, h]
  have hr : ¬ Boundary.begin.Refused s.session.transactionLevel := by
    simp [Boundary.Refused, hlevel]
  have hbegin : e.begin s = _ := e.cross_of_ok (b := .begin) hr h
  rw [transaction, hbegin]
  refine ⟨?_, rfl⟩
  show s.session.transactionLevel + 1 = 1
  omega

/-- A transaction around a body that leaves the level alone, in a session without one and on a
server that agrees to the start and to a rollback. It answers with the body's value exactly if the
commit succeeds too, and else with the body's error or the commit's. The session is left without a
transaction, and a later start is not refused, exactly if it was not the commit that failed. -/
theorem transaction_settled_iff (e : Engine σ τ ι Stmt Row) (body : Operation σ τ ι α)
    (s : State σ τ ι) (hlevel : s.session.transactionLevel = 0)
    (hbegin : (e.backend.beginTransaction s.world.server).1 = .ok ())
    (hbody : (body (e.begin s).2).2.session.transactionLevel =
      (e.begin s).2.session.transactionLevel)
    (hrollback : (e.backend.rollback (body (e.begin s).2).2.world.server).1 = .ok ()) :
    let r := body (e.begin s).2
    let committed := (e.backend.commit r.2.world.server).1
    let t := e.transaction body s
    (∀ v, t.1 = .ok v ↔ r.1 = .ok v ∧ committed = .ok ()) ∧
      (∀ cause, r.1 = .error cause → t.1 = .error cause) ∧
      (∀ v failure, r.1 = .ok v → committed = .error failure →
        t.1 = .error (failure.during "COMMIT")) ∧
      (t.2.session.transactionLevel = 0 ↔
        ¬ ∃ v failure, r.1 = .ok v ∧ committed = .error failure) ∧
      ((e.begin t.2).1 = .error (.transaction .alreadyActive) ↔
        ∃ v failure, r.1 = .ok v ∧ committed = .error failure) := by
  intro r committed t
  obtain ⟨hone, ht⟩ := e.transaction_of_begin_ok body hlevel hbegin
  have hopen : r.2.session.transactionLevel = 0 + 1 := hbody.trans hone
  have ht : t = e.conclude r.1 r.2 := ht
  -- What is left is how the body's answer is concluded, at level one.
  rw [begin_refused_iff, ht]
  cases hr : r.1 with
  | error cause =>
    rcases hback : e.backend.rollback r.2.world.server with ⟨answer, server⟩
    obtain rfl : answer = .ok () := by rw [← hrollback, hback]
    obtain ⟨hanswer, hzero⟩ := e.conclude_of_rollback_ok (α := α) hopen hback cause
    rw [hanswer, hzero]
    simp
  | ok v =>
    rcases hcommit : e.backend.commit r.2.world.server with ⟨failure | _, server⟩
    · obtain ⟨hanswer, hstuck⟩ := e.conclude_of_commit_error hopen hcommit v
      have hcommitted : committed = .error failure := congrArg Prod.fst hcommit
      rw [hanswer, hstuck, hcommitted]
      simp
    · obtain ⟨hanswer, hzero⟩ := e.conclude_of_commit_ok hopen hcommit v
      have hcommitted : committed = .ok () := congrArg Prod.fst hcommit
      rw [hanswer, hzero, hcommitted]
      simp

end Engine

namespace Script

/-- A body of one statement. -/
def runU : Operation Script MemoryStore Unit Nat :=
  (engine .mysql).execute "U" OrderedMap.empty OrderedMap.empty

theorem transaction_settled_iff_failed_body :
    let s := start { failures := [(.execute, ⟨"dead", none⟩)] }
    let started := ((engine .mysql).begin s).2
    let t := (engine .mysql).transaction runU s
    s.session.transactionLevel = 0 ∧
      ((backend .mysql).beginTransaction s.world.server).1 = .ok () ∧
      (runU started).2.session.transactionLevel = started.session.transactionLevel ∧
      ((backend .mysql).rollback (runU started).2.world.server).1 = .ok () ∧
      t.1 = .error (.query "dead" none "U") ∧ t.2.session.transactionLevel = 0 := by
  intro s started t
  have hbegin : ((backend .mysql).beginTransaction s.world.server).1 = .ok () := rfl
  have hbody : (runU started).2.session.transactionLevel = started.session.transactionLevel := rfl
  have hrollback : ((backend .mysql).rollback (runU started).2.world.server).1 = .ok () := rfl
  have hfailed : (runU started).1 = .error (.query "dead" none "U") := rfl
  obtain ⟨-, herror, -, hzero, -⟩ :=
    Engine.transaction_settled_iff (engine .mysql) runU s rfl hbegin hbody hrollback
  refine ⟨rfl, hbegin, hbody, hrollback, herror _ hfailed, hzero.2 ?_⟩
  rintro ⟨v, failure, hok, -⟩
  rw [hfailed] at hok
  cases hok

/-- A commit that fails leaves the transaction open, and a later start is refused. -/
theorem failed_commit_leaves_open :
    let s := start { failures := [(.commit, ⟨"gone", none⟩)] }
    let started := ((engine .mysql).begin s).2
    let t := (engine .mysql).transaction runU s
    s.session.transactionLevel = 0 ∧
      ((backend .mysql).beginTransaction s.world.server).1 = .ok () ∧
      (runU started).2.session.transactionLevel = started.session.transactionLevel ∧
      ((backend .mysql).rollback (runU started).2.world.server).1 = .ok () ∧
      t.1 = .error (.query "gone" none "COMMIT") ∧ t.2.session.transactionLevel = 1 ∧
      ((engine .mysql).begin t.2).1 = .error (.transaction .alreadyActive) :=
  ⟨rfl, rfl, rfl, rfl, rfl, rfl, rfl⟩

end Script

end BoundSql

import BoundSql.Proofs.Session.Performed

/-! # The level of a session
A session counts its open transactions, and asks the server for a boundary only where the count
allows it. Main results:
* **`Engine.level_perform`**, **`Engine.level_cross`** — the level moves with boundaries that
  succeed, and with nothing else.
* **`Balanced`** — what ties the level to the boundaries that were tried and to those that reached
  the server; **`Balanced.act`** keeps it over one operation and **`Balanced.run`** over a run.
* **`Engine.level_balanced`** — the level of a session that started without a transaction. -/

namespace BoundSql

/-! ### Boundaries of a run -/

/-- The boundary that a request crosses. -/
def Call.boundary? {Stmt : Type} : Call Stmt → Option Boundary
  | .beginTransaction => some .begin
  | .commit => some .commit
  | .rollback => some .rollback
  | _ => none

@[simp] theorem Boundary.boundary?_call {Stmt : Type} (b : Boundary) :
    (b.call : Call Stmt).boundary? = some b := by
  cases b <;> rfl

/-- The boundary that an operation asks for. -/
def Action.boundary? : Action → Option Boundary
  | .statement _ => none
  | .boundary b => some b

/-- The boundaries among operations, each with whether it succeeded. -/
def attempts (results : List (Action × Bool)) : List (Boundary × Bool) :=
  results.filterMap fun r => r.1.boundary?.map fun b => (b, r.2)

/-- The boundaries that reached the server, each with whether it agreed. -/
def boundaries {Stmt : Type} (exchanges : List (Exchange Stmt)) : List (Boundary × Bool) :=
  exchanges.filterMap fun x => x.call.boundary?.map fun b => (b, x.agreed)

/-- Whether the server has a transaction open: what it agreed to last is the start of one. -/
def isOpen (sent : List (Boundary × Bool)) : Bool :=
  sent.foldl (fun opened x => if x.2 then x.1 == .begin else opened) false

@[simp] theorem isOpen_concat (sent : List (Boundary × Bool)) (b : Boundary) (agreed : Bool) :
    isOpen (sent ++ [(b, agreed)]) = if agreed then b == .begin else isOpen sent := by
  simp [isOpen]

/-- Boundaries that reach the server in turn: a start only where no transaction is open there, and
an end only where one is. -/
def Orderly (sent : List (Boundary × Bool)) : Prop :=
  ∀ before b agreed after, sent = before ++ (b, agreed) :: after →
    (b = .begin ↔ isOpen before = false)

theorem Orderly.nil : Orderly [] := by
  intro before b agreed after h
  simp at h

/-- One more boundary in turn. -/
theorem Orderly.concat {sent : List (Boundary × Bool)} (h : Orderly sent) {b : Boundary}
    (hb : b = .begin ↔ isOpen sent = false) (agreed : Bool) :
    Orderly (sent ++ [(b, agreed)]) := by
  intro before b' agreed' after heq
  rcases List.eq_nil_or_concat after with rfl | ⟨after, last, rfl⟩
  · obtain ⟨rfl, hlast⟩ := List.append_inj' heq rfl
    obtain ⟨rfl, -⟩ : b = b' ∧ agreed = agreed' := by simpa using hlast
    exact hb
  · have heq' : sent ++ [(b, agreed)] = (before ++ (b', agreed') :: after) ++ [last] := by
      simpa using heq
    exact h before b' agreed' after (List.append_inj' heq' rfl).1

/-! ### What one operation does -/

section

variable {σ τ ι Stmt Row : Type}

namespace Engine

/-- A statement operation leaves the level. -/
theorem level_perform (e : Engine σ τ ι Stmt Row) (call : StatementCall) (s : State σ τ ι) :
    (e.perform call s).2.session.transactionLevel = s.session.transactionLevel :=
  (e.perform_went call s).2.transactionLevel_eq

/-- A boundary moves the level if it succeeds, and leaves it otherwise. -/
theorem level_cross (e : Engine σ τ ι Stmt Row) (b : Boundary) (s : State σ τ ι) :
    (e.cross b s).2.session.transactionLevel =
      if (e.cross b s).1.toBool then b.levelAfter s.session.transactionLevel
      else s.session.transactionLevel :=
  congrArg Session.transactionLevel (e.session_cross b s)

/-- An operation that is no boundary or does not succeed leaves the level. -/
theorem level_act_of_failed (e : Engine σ τ ι Stmt Row) {a : Action} {s : State σ τ ι}
    (h : a.boundary? = none ∨ (e.act a s).1 = false) :
    (e.act a s).2.session.transactionLevel = s.session.transactionLevel := by
  cases a with
  | statement call => exact e.level_perform call s
  | boundary b =>
    have hfailed : (e.cross b s).1.toBool = false := h.resolve_left (by simp [Action.boundary?])
    show (e.cross b s).2.session.transactionLevel = _
    rw [level_cross, hfailed]
    rfl

end Engine

/-! ### What reaches the server -/

/-- The boundaries that have reached a traced server. -/
def State.sent (s : State (Traced σ Stmt) τ ι) : List (Boundary × Bool) :=
  boundaries s.world.server.exchanges

theorem boundaries_append (xs ys : List (Exchange Stmt)) :
    boundaries (xs ++ ys) = boundaries xs ++ boundaries ys := List.filterMap_append

/-- A statement crosses no boundary. -/
theorem Sends.boundaries_eq_nil {plain : String → Call Stmt}
    {prepared : Stmt → List Param → Call Stmt} (hplain : ∀ sql, (plain sql).boundary? = none)
    (hprepared : ∀ stmt params, (prepared stmt params).boundary? = none) {sql : String}
    {params : List Param} {xs : List (Exchange Stmt)} (h : Sends plain prepared sql params xs) :
    boundaries xs = [] := by
  cases h with
  | plain _ agreed => simp [boundaries, hplain]
  | unprepared _ => rfl
  | prepared _ stmt agreed =>
    have hprepare : (Call.prepare sql : Call Stmt).boundary? = none := rfl
    simp [boundaries, hprepare, hprepared]

namespace Engine

/-- However a statement operation goes, it crosses no boundary. -/
theorem Went.boundaries_eq_nil {e : Engine σ τ ι Stmt Row} {call : StatementCall}
    {s : State σ τ ι} {answer : Except DbError (Outcome Row)} {session : Session ι}
    {xs : List (Exchange Stmt)} (h : e.Went call s answer session xs) : boundaries xs = [] := by
  cases h with
  | unwritten native => rfl
  | uncoerced native coerced => rfl
  | sent native coerced sends replies answers =>
    refine sends.boundaries_eq_nil (fun sql => ?_) fun stmt params => ?_
    · rw [StatementCall.plain]
      split <;> rfl
    · rw [StatementCall.prepared]
      split <;> rfl

/-- A statement operation crosses no boundary. -/
theorem sent_perform (e : Engine σ τ ι Stmt Row) (call : StatementCall)
    (s : State (Traced σ Stmt) τ ι) : (e.traced.perform call s).2.sent = s.sent := by
  obtain ⟨xs, hexchanges, hwent⟩ := e.traced_perform_went call s
  rw [State.sent, hexchanges, boundaries_append, hwent.boundaries_eq_nil, List.append_nil]
  rfl

/-- A refused boundary does not succeed. -/
theorem toBool_cross_of_refused (e : Engine σ τ ι Stmt Row) {b : Boundary} {s : State σ τ ι}
    (hr : b.Refused s.session.transactionLevel) : (e.cross b s).1.toBool = false := by
  rw [cross_of_refused e hr]
  rfl

/-- A boundary is one exchange, with whether the server agrees, unless it is refused. -/
theorem exchanges_cross (e : Engine σ τ ι Stmt Row) (b : Boundary)
    (s : State (Traced σ Stmt) τ ι) :
    (e.traced.cross b s).2.world.server.exchanges =
      if b.Refused s.session.transactionLevel then s.world.server.exchanges
      else s.world.server.exchanges ++ [⟨b.call, (e.traced.cross b s).1.toBool⟩] := by
  by_cases hr : b.Refused s.session.transactionLevel
  · rw [if_pos hr, cross_of_refused _ hr]
  · have hwatch : ∀ (answer : Except BackendError Unit) (t : Traced σ Stmt),
        e.traced.backend.boundary b s.world.server = (answer, t) →
        t.exchanges = s.world.server.exchanges ++ [⟨b.call, answer.toBool⟩] := by
      intro answer t h
      rw [backend_traced, Backend.boundary_traced, Backend.watch] at h
      obtain ⟨rfl, rfl⟩ := Prod.mk.inj h
      rfl
    rw [if_neg hr]
    rcases h : e.traced.backend.boundary b s.world.server with ⟨failure | _, t⟩
    · rw [cross_of_error _ hr h]
      exact hwatch _ t h
    · rw [cross_of_ok _ hr h]
      exact hwatch _ t h

/-- A boundary reaches the server unless it is refused, and succeeds if the server agrees. -/
theorem sent_cross (e : Engine σ τ ι Stmt Row) (b : Boundary) (s : State (Traced σ Stmt) τ ι) :
    (e.traced.cross b s).2.sent =
      if b.Refused s.session.transactionLevel then s.sent
      else s.sent ++ [(b, (e.traced.cross b s).1.toBool)] := by
  rw [State.sent, exchanges_cross]
  split
  · rfl
  · rw [boundaries_append]
    simp [boundaries, State.sent]

end Engine

end

/-! ### The invariant -/

/-- The level of a session against the boundaries that were tried and those that reached the
server. -/
structure Balanced (level : Nat) (tried sent : List (Boundary × Bool)) : Prop where
  /-- The level tells whether the server has a transaction open. -/
  level_eq : level = if isOpen sent then 1 else 0
  /-- It is the number of starts less the number of ends. -/
  level_add : level + (tried.count (.commit, true) + tried.count (.rollback, true)) =
    tried.count (.begin, true)
  /-- What succeeded is what the server agreed to. -/
  agreed_eq : tried.filter Prod.snd = sent.filter Prod.snd
  /-- The server is asked in turn. -/
  orderly : Orderly sent

namespace Balanced

variable {level : Nat} {tried sent : List (Boundary × Bool)}

theorem zero : Balanced 0 [] [] := ⟨rfl, rfl, rfl, Orderly.nil⟩

/-- A boundary is refused exactly if it is out of turn. -/
theorem refused_iff (h : Balanced level tried sent) (b : Boundary) :
    b.Refused level ↔ ¬ (b = .begin ↔ isOpen sent = false) := by
  have hlevel := h.level_eq
  cases hopen : isOpen sent <;> rw [hopen] at hlevel <;> subst hlevel <;> cases b <;>
    simp [Boundary.Refused]

/-- A boundary that fails without reaching the server. -/
theorem refuse (h : Balanced level tried sent) (b : Boundary) :
    Balanced level (tried ++ [(b, false)]) sent where
  level_eq := h.level_eq
  level_add := by simpa [List.count_append, List.count_singleton] using h.level_add
  agreed_eq := by simpa using h.agreed_eq
  orderly := h.orderly

/-- A boundary that reaches the server. -/
theorem concat (h : Balanced level tried sent) {b : Boundary} (hr : ¬ b.Refused level)
    (agreed : Bool) :
    Balanced (if agreed then b.levelAfter level else level) (tried ++ [(b, agreed)])
      (sent ++ [(b, agreed)]) := by
  have hturn : b = .begin ↔ isOpen sent = false := by
    simpa using (not_congr (h.refused_iff b)).1 hr
  have hlevel := h.level_eq
  have hadd := h.level_add
  refine ⟨?_, ?_, ?_, h.orderly.concat hturn agreed⟩
  · rw [isOpen_concat]
    cases agreed with
    | false => exact hlevel
    | true => cases b <;> simp_all [Boundary.levelAfter]
  · cases agreed with
    | false => simpa [List.count_append, List.count_singleton] using hadd
    | true =>
      -- An end finds the level at one, so taking one off loses nothing.
      have hpos : b ≠ .begin → level = 1 := fun hb => by simp_all
      cases b <;> simp_all [Boundary.levelAfter, List.count_append] <;> omega
  · rw [List.filter_append, List.filter_append, h.agreed_eq]

end Balanced

section

variable {σ τ ι Stmt Row : Type}

/-- One operation keeps the balance. -/
theorem Balanced.act (e : Engine σ τ ι Stmt Row) (a : Action) {s : State (Traced σ Stmt) τ ι}
    {tried : List (Boundary × Bool)} (h : Balanced s.session.transactionLevel tried s.sent) :
    Balanced (e.traced.act a s).2.session.transactionLevel
      (tried ++ attempts [(a, (e.traced.act a s).1)]) (e.traced.act a s).2.sent := by
  cases a with
  | statement call =>
    have hattempts :
        attempts [(Action.statement call, (e.traced.act (.statement call) s).1)] = [] := rfl
    rw [hattempts, List.append_nil]
    show Balanced (e.traced.perform call s).2.session.transactionLevel tried
      (e.traced.perform call s).2.sent
    rw [Engine.level_perform, Engine.sent_perform]
    exact h
  | boundary b =>
    show Balanced (e.traced.cross b s).2.session.transactionLevel
      (tried ++ [(b, (e.traced.cross b s).1.toBool)]) (e.traced.cross b s).2.sent
    rw [Engine.level_cross, Engine.sent_cross]
    by_cases hr : b.Refused s.session.transactionLevel
    · rw [if_pos hr, Engine.toBool_cross_of_refused _ hr]
      exact h.refuse b
    · rw [if_neg hr]
      exact h.concat hr _

theorem attempts_cons (r : Action × Bool) (results : List (Action × Bool)) :
    attempts (r :: results) = attempts [r] ++ attempts results :=
  List.filterMap_append (l := [r])

/-- A run keeps the balance. -/
theorem Balanced.run (e : Engine σ τ ι Stmt Row) (actions : List Action)
    {s : State (Traced σ Stmt) τ ι} {tried : List (Boundary × Bool)}
    (h : Balanced s.session.transactionLevel tried s.sent) :
    Balanced (e.traced.run actions s).2.session.transactionLevel
      (tried ++ attempts (e.traced.run actions s).1) (e.traced.run actions s).2.sent := by
  induction actions generalizing s tried with
  | nil =>
    rw [Engine.run, show attempts [] = [] from rfl, List.append_nil]
    exact h
  | cons a rest ih =>
    have hrest := ih (h.act e a)
    rw [Engine.run, attempts_cons, ← List.append_assoc]
    exact hrest

namespace Engine

/-- A session that starts without a transaction, after any operations over a connection whose
requests may fail in any way: its level is zero or one and counts the starts that succeeded less
the ends, which are those the server agreed to; the server is asked for a start only where no
transaction is open there, and for an end only where one is; and an operation that fails or is no
boundary leaves the level. -/
theorem level_balanced (e : Engine σ τ ι Stmt Row) (s : State σ τ ι)
    (h : s.session.transactionLevel = 0) (actions : List Action) :
    let r := e.run actions s
    let t := e.traced.run actions (s.traced Stmt)
    let level := r.2.session.transactionLevel
    let tried := attempts r.1
    State.answer t = r ∧
      level ≤ 1 ∧
      level + (tried.count (.commit, true) + tried.count (.rollback, true)) =
        tried.count (.begin, true) ∧
      tried.filter Prod.snd = t.2.sent.filter Prod.snd ∧
      (∀ before b agreed after, t.2.sent = before ++ (b, agreed) :: after →
        (b = .begin ↔ isOpen before = false)) ∧
      ∀ a, a.boundary? = none ∨ (e.act a r.2).1 = false →
        (e.act a r.2).2.session.transactionLevel = level := by
  intro r t level tried
  have hanswer : State.answer t = r := e.run_follows actions (s.traced Stmt)
  -- The invariant is that of the traced run, which answers as the run itself does.
  have hbalanced : Balanced t.2.session.transactionLevel (attempts t.1) t.2.sent := by
    have hstart : Balanced (s.traced Stmt).session.transactionLevel [] (s.traced Stmt).sent := by
      show Balanced s.session.transactionLevel [] []
      rw [h]
      exact Balanced.zero
    exact hstart.run e actions
  have hlevel : t.2.session.transactionLevel = level :=
    congrArg (fun x => x.2.session.transactionLevel) hanswer
  have htried : attempts t.1 = tried := congrArg (fun x => attempts x.1) hanswer
  rw [hlevel, htried] at hbalanced
  refine ⟨hanswer, ?_, hbalanced.level_add, hbalanced.agreed_eq, hbalanced.orderly,
    fun a ha => e.level_act_of_failed ha⟩
  have hle := hbalanced.level_eq
  split at hle <;> omega

end Engine

end

namespace Script

/-- A server that fails the first start and the first commit. -/
def failingTwice : Script :=
  { failures := [(.beginTransaction, ⟨"busy", none⟩), (.commit, ⟨"gone", none⟩)] }

/-- Three starts, the first of which fails there and the last of which is refused, a statement, a
commit that fails there, a rollback, a commit that is refused and a start. -/
def crossings : List Action :=
  [.boundary .begin, .boundary .begin, .boundary .begin,
    .statement (.execute "U" OrderedMap.empty OrderedMap.empty), .boundary .commit,
    .boundary .rollback, .boundary .commit, .boundary .begin]

theorem level_balanced_crossings :
    let r := (engine .mysql).run crossings (start failingTwice)
    let t := (engine .mysql).traced.run crossings ((start failingTwice).traced String)
    (start failingTwice).session.transactionLevel = 0 ∧
      attempts r.1 = [(.begin, false), (.begin, true), (.begin, false), (.commit, false),
        (.rollback, true), (.commit, false), (.begin, true)] ∧
      t.2.sent = [(.begin, false), (.begin, true), (.commit, false), (.rollback, true),
        (.begin, true)] ∧
      r.2.session.transactionLevel + (0 + 1) = 2 ∧
      (Boundary.commit = .begin ↔ isOpen [(.begin, false), (.begin, true)] = false) := by
  intro r t
  have htried : attempts r.1 = [(.begin, false), (.begin, true), (.begin, false), (.commit, false),
      (.rollback, true), (.commit, false), (.begin, true)] := by decide +kernel
  have hsent : t.2.sent = [(.begin, false), (.begin, true), (.commit, false), (.rollback, true),
      (.begin, true)] := by decide +kernel
  obtain ⟨-, -, hadd, -, horderly, -⟩ :=
    Engine.level_balanced (engine .mysql) (start failingTwice) rfl crossings
  refine ⟨rfl, htried, hsent, ?_, horderly _ _ _ _ hsent⟩
  have hends : (attempts r.1).count (.commit, true) + (attempts r.1).count (.rollback, true) =
      0 + 1 := by
    rw [htried]
    rfl
  have hbegins : (attempts r.1).count (.begin, true) = 2 := by
    rw [htried]
    rfl
  rw [← hends, ← hbegins]
  exact hadd

end Script

end BoundSql

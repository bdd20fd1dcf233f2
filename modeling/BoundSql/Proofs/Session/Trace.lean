import BoundSql.Proofs.Session.Dispatch
import BoundSql.Proofs.Session.Replies

/-! # What the server sees of a run
* **`Backend.traced`** — a connection that keeps every request with its outcome (`Exchange`).
* **`Engine.run_follows`** — keeping them changes nothing: a run over the traced connection answers
  as the run over the connection itself, and leaves the same session.
* **`Sends`**, **`Engine.dispatch_sends`** — the exchanges of a statement. It is prepared exactly if
  values are bound to it, and nothing is sent if a value does not coerce.
* **`Engine.dispatch_replies`** — what the server replies in the end is what a statement answers. -/

namespace BoundSql

/-! ### Exchanges -/

/-- A request, and whether the server agreed to it. -/
structure Exchange (Stmt : Type) where
  /-- The request. -/
  call : Call Stmt
  /-- Whether it was answered without failure. -/
  agreed : Bool

/-- A server with the requests it has received and their outcomes. -/
structure Traced (σ Stmt : Type) where
  /-- The server. -/
  server : σ
  /-- The exchanges, in order. -/
  exchanges : List (Exchange Stmt) := []

namespace Backend

variable {σ Stmt Row α ε : Type}

/-- A request that is kept with its outcome. -/
def watch (call : Call Stmt) (request : σ → Except ε α × σ) (t : Traced σ Stmt) :
    Except ε α × Traced σ Stmt :=
  let answer := request t.server
  (answer.1, ⟨answer.2, t.exchanges ++ [⟨call, answer.1.toBool⟩]⟩)

/-- The connection with every request kept. -/
def traced (b : Backend σ Stmt Row) : Backend (Traced σ Stmt) Stmt Row where
  dialect := b.dialect
  prepare sql := watch (.prepare sql) (b.prepare sql)
  queryPrepared stmt params := watch (.queryPrepared stmt params) (b.queryPrepared stmt params)
  executePrepared stmt params :=
    watch (.executePrepared stmt params) (b.executePrepared stmt params)
  query sql := watch (.query sql) (b.query sql)
  execute sql := watch (.execute sql) (b.execute sql)
  beginTransaction := watch .beginTransaction b.beginTransaction
  commit := watch .commit b.commit
  rollback := watch .rollback b.rollback
  lastInsertId := watch .lastInsertId b.lastInsertId
  describe source := watch (.describe source) (b.describe source)

end Backend

/-- The request that crosses a boundary, as the server sees it. -/
def Boundary.call {Stmt : Type} : Boundary → Call Stmt
  | .begin => .beginTransaction
  | .commit => .commit
  | .rollback => .rollback

theorem Backend.boundary_traced {σ Stmt Row : Type} (k : Backend σ Stmt Row) (b : Boundary) :
    k.traced.boundary b = watch b.call (k.boundary b) := by
  cases b <;> rfl

namespace Engine

variable {σ τ ι Stmt Row : Type}

/-- The operations over the traced connection. -/
def traced (e : Engine σ τ ι Stmt Row) : Engine (Traced σ Stmt) τ ι Stmt Row :=
  ⟨e.backend.traced, e.stores, e.host⟩

@[simp] theorem backend_traced (e : Engine σ τ ι Stmt Row) :
    e.traced.backend = e.backend.traced := rfl

end Engine

namespace State

variable {σ τ ι Stmt : Type}

/-- The state with a server that has received nothing yet. -/
def traced (Stmt : Type) (s : State σ τ ι) : State (Traced σ Stmt) τ ι :=
  ⟨s.session, ⟨⟨s.world.server, []⟩, s.world.stores, s.world.log⟩⟩

/-- The state without the exchanges. -/
def untraced (s : State (Traced σ Stmt) τ ι) : State σ τ ι :=
  ⟨s.session, ⟨s.world.server.server, s.world.stores, s.world.log⟩⟩

@[simp] theorem untraced_traced (s : State σ τ ι) : (s.traced Stmt).untraced = s := rfl

@[simp] theorem session_untraced (s : State (Traced σ Stmt) τ ι) :
    s.untraced.session = s.session := rfl

end State

/-! ### Keeping the exchanges changes nothing -/

section

variable {σ τ ι Stmt Row α β : Type}

/-- The answer of a request, without the exchanges. -/
def Traced.answer (r : α × Traced σ Stmt) : α × σ := (r.1, r.2.server)

/-- The answer of an operation, without the exchanges. -/
def State.answer (r : α × State (Traced σ Stmt) τ ι) : α × State σ τ ι := (r.1, r.2.untraced)

/-- A request over a traced server that answers as the request over the server itself. -/
def Traced.Follows (traced : Request (Traced σ Stmt) α) (request : Request σ α) : Prop :=
  ∀ t, Traced.answer (traced t) = request t.server

theorem Backend.watch_follows (call : Call Stmt) (request : Request σ α) :
    Traced.Follows (watch call request) request := fun _ => rfl

theorem Backend.boundary_follows (k : Backend σ Stmt Row) (b : Boundary) :
    Traced.Follows (k.traced.boundary b) (k.boundary b) := by
  rw [boundary_traced]
  exact watch_follows _ _

namespace Engine

/-- Sending a statement answers as without the exchanges. -/
theorem send_follows (e : Engine σ τ ι Stmt Row) {plain : String → Request σ α}
    {plain' : String → Request (Traced σ Stmt) α} {prepared : Stmt → List Param → Request σ α}
    {prepared' : Stmt → List Param → Request (Traced σ Stmt) α}
    (hplain : ∀ sql, Traced.Follows (plain' sql) (plain sql))
    (hprepared : ∀ stmt params, Traced.Follows (prepared' stmt params) (prepared stmt params))
    (sql : String) (params : List Param) :
    Traced.Follows (e.traced.send plain' prepared' sql params)
      (e.send plain prepared sql params) := by
  intro t
  by_cases hp : params = []
  · rw [hp, send_plain, send_plain]
    exact hplain sql t
  · -- Both prepare alike, and go on alike from the server that is left.
    have hfollows := Backend.watch_follows (.prepare sql) (e.backend.prepare sql) t
    rcases h : e.traced.backend.prepare sql t with ⟨failure | stmt, t'⟩
    · have hserver : e.backend.prepare sql t.server = (.error failure, t'.server) :=
        hfollows.symm.trans (congrArg Traced.answer h)
      rw [send_unprepared _ _ _ _ hp h, send_unprepared _ _ _ _ hp hserver]
      rfl
    · have hserver : e.backend.prepare sql t.server = (.ok stmt, t'.server) :=
        hfollows.symm.trans (congrArg Traced.answer h)
      rw [send_prepared _ _ _ _ hp h, send_prepared _ _ _ _ hp hserver]
      exact hprepared stmt params t'

/-- Logging a statement looks at the session only. -/
theorem untraced_logStatement (e : Engine σ τ ι Stmt Row) (s : State (Traced σ Stmt) τ ι) :
    (e.traced.logStatement s).untraced = e.logStatement s.untraced := by
  by_cases h : s.session.config.log.enabled s.world.log.most = true
  · have h' : s.untraced.session.config.log.enabled s.untraced.world.log.most = true := h
    rw [logStatement, logStatement, if_pos h, if_pos h']
    rfl
  · have h' : ¬ s.untraced.session.config.log.enabled s.untraced.world.log.most = true := h
    rw [logStatement, logStatement, if_neg h, if_neg h']

/-- Running a statement answers as without the exchanges. -/
theorem dispatch_follows (e : Engine σ τ ι Stmt Row) {plain : String → Request σ α}
    {plain' : String → Request (Traced σ Stmt) α} {prepared : Stmt → List Param → Request σ α}
    {prepared' : Stmt → List Param → Request (Traced σ Stmt) α}
    (hplain : ∀ sql, Traced.Follows (plain' sql) (plain sql))
    (hprepared : ∀ stmt params, Traced.Follows (prepared' stmt params) (prepared stmt params))
    (count : α → Nat) (sql : String) (binds : BindMap) (types : BindTypes)
    (s : State (Traced σ Stmt) τ ι) :
    State.answer (e.traced.dispatch plain' prepared' count sql binds types s) =
      e.dispatch plain prepared count sql binds types s.untraced := by
  cases hparams : binds.params types with
  | error failure =>
    rw [dispatch_of_params_error hparams, dispatch_of_params_error hparams]
    rfl
  | ok params =>
    have hfollows := e.send_follows hplain hprepared sql params s.world.server
    rcases h : e.traced.send plain' prepared' sql params s.world.server with ⟨failure | a, t⟩
    · have hserver : e.send plain prepared sql params s.untraced.world.server =
          (.error failure, t.server) := hfollows.symm.trans (congrArg Traced.answer h)
      rw [dispatch_of_send_error hparams h, dispatch_of_send_error hparams hserver]
      rfl
    · have hserver : e.send plain prepared sql params s.untraced.world.server =
          (.ok a, t.server) := hfollows.symm.trans (congrArg Traced.answer h)
      rw [dispatch_of_send_ok hparams h, dispatch_of_send_ok hparams hserver]
      exact congrArg (Prod.mk (Except.ok a)) (e.untraced_logStatement _)

/-- A statement operation answers as without the exchanges. -/
theorem perform_follows (e : Engine σ τ ι Stmt Row) (call : StatementCall)
    (s : State (Traced σ Stmt) τ ι) :
    State.answer (e.traced.perform call s) = e.perform call s.untraced := by
  have hmap : ∀ {γ δ : Type} (f : γ → δ) (op : Operation (Traced σ Stmt) τ ι γ)
      (op' : Operation σ τ ι γ), State.answer (op s) = op' s.untraced →
      State.answer (mapAnswer f op s) = mapAnswer f op' s.untraced := by
    intro γ δ f op op' h
    rw [mapAnswer, mapAnswer, ← h]
    rfl
  have hquery : ∀ n : Native, State.answer (e.traced.query n.sql n.binds n.types s) =
      e.query n.sql n.binds n.types s.untraced := fun n =>
    e.dispatch_follows (fun _ => Backend.watch_follows _ _) (fun _ _ => Backend.watch_follows _ _)
      List.length n.sql n.binds n.types s
  have hexecute : ∀ n : Native, State.answer (e.traced.execute n.sql n.binds n.types s) =
      e.execute n.sql n.binds n.types s.untraced := fun n =>
    e.dispatch_follows (fun _ => Backend.watch_follows _ _) (fun _ _ => Backend.watch_follows _ _)
      id n.sql n.binds n.types s
  have hnative : e.traced.native s.session.sources call =
      e.native s.untraced.session.sources call := by
    cases call <;> rfl
  -- The statement is written before the server is asked, so it is the same for both.
  rw [perform_eq, perform_eq, hnative]
  cases e.native s.untraced.session.sources call with
  | error failure => rfl
  | ok n =>
    cases call with
    | query _ _ _ | select _ | queryFirst _ _ | selectFirst _ => exact hmap _ _ _ (hquery n)
    | _ => exact hmap _ _ _ (hexecute n)

/-- A boundary of a transaction answers as without the exchanges. -/
theorem cross_follows (e : Engine σ τ ι Stmt Row) (b : Boundary)
    (s : State (Traced σ Stmt) τ ι) :
    State.answer (e.traced.cross b s) = e.cross b s.untraced := by
  by_cases hr : b.Refused s.session.transactionLevel
  · have hr' : b.Refused s.untraced.session.transactionLevel := hr
    rw [cross_of_refused _ hr, cross_of_refused _ hr']
    rfl
  · have hr' : ¬ b.Refused s.untraced.session.transactionLevel := hr
    have hfollows := e.backend.boundary_follows b s.world.server
    rcases h : e.traced.backend.boundary b s.world.server with ⟨failure | _, t⟩
    · have hserver : e.backend.boundary b s.untraced.world.server = (.error failure, t.server) :=
        hfollows.symm.trans (congrArg Traced.answer h)
      rw [cross_of_error _ hr h, cross_of_error _ hr' hserver]
      rfl
    · have hserver : e.backend.boundary b s.untraced.world.server = (.ok (), t.server) :=
        hfollows.symm.trans (congrArg Traced.answer h)
      rw [cross_of_ok _ hr h, cross_of_ok _ hr' hserver]
      rfl

/-- An operation answers as without the exchanges. -/
theorem act_follows (e : Engine σ τ ι Stmt Row) (a : Action) (s : State (Traced σ Stmt) τ ι) :
    State.answer (e.traced.act a s) = e.act a s.untraced := by
  cases a with
  | statement call =>
    rw [act, act, ← e.perform_follows call s]
    rfl
  | boundary b =>
    rw [act, act, ← e.cross_follows b s]
    rfl

/-- A run answers as without the exchanges. -/
theorem run_follows (e : Engine σ τ ι Stmt Row) (actions : List Action)
    (s : State (Traced σ Stmt) τ ι) :
    State.answer (e.traced.run actions s) = e.run actions s.untraced := by
  induction actions generalizing s with
  | nil => rfl
  | cons a rest ih =>
    have hact := e.act_follows a s
    have hanswer : (e.act a s.untraced).1 = (e.traced.act a s).1 := congrArg Prod.fst hact.symm
    have hstate : (e.act a s.untraced).2 = (e.traced.act a s).2.untraced :=
      congrArg Prod.snd hact.symm
    rw [run, run, hanswer, hstate, ← ih]
    rfl

end Engine

/-! ### The exchanges of a statement -/

/-- The exchanges that a statement with its values makes: it is sent as `plain` without values;
with values it is prepared and, unless that fails, run as `prepared`. -/
inductive Sends (plain : String → Call Stmt) (prepared : Stmt → List Param → Call Stmt)
    (sql : String) (params : List Param) : List (Exchange Stmt) → Prop
  /-- A statement without values. -/
  | plain (h : params = []) (agreed : Bool) : Sends plain prepared sql params [⟨plain sql, agreed⟩]
  /-- A statement with values that cannot be prepared. -/
  | unprepared (h : params ≠ []) : Sends plain prepared sql params [⟨.prepare sql, false⟩]
  /-- A statement with values that is prepared. -/
  | prepared (h : params ≠ []) (stmt : Stmt) (agreed : Bool) :
    Sends plain prepared sql params [⟨.prepare sql, true⟩, ⟨prepared stmt params, agreed⟩]

namespace Engine

variable (e : Engine σ τ ι Stmt Row) (plain : String → Request σ α)
  (prepared : Stmt → List Param → Request σ α) (callPlain : String → Call Stmt)
  (callPrepared : Stmt → List Param → Call Stmt)

/-- Sending a statement adds its exchanges, and what the server replies in the end is the answer. -/
theorem send_replies (sql : String) (params : List Param) (t : Traced σ Stmt) :
    let r := e.traced.send (fun sql => Backend.watch (callPlain sql) (plain sql))
      (fun stmt params => Backend.watch (callPrepared stmt params) (prepared stmt params))
      sql params t
    ∃ xs, Sends callPlain callPrepared sql params xs ∧ r.2.exchanges = t.exchanges ++ xs ∧
      ∀ kind, (∀ sql, e.backend.Serves kind (callPlain sql) (plain sql)) →
        (∀ stmt params, e.backend.Serves kind (callPrepared stmt params) (prepared stmt params)) →
        e.backend.Concludes t.server (xs.map Exchange.call) (.ofAnswer kind r.1) := by
  by_cases hp : params = []
  · subst hp
    exact ⟨_, .plain rfl _, rfl, fun kind hplain _ => Backend.concludes_singleton (hplain sql) _⟩
  · rcases h : e.traced.backend.prepare sql t with ⟨failure | stmt, t'⟩
    · obtain ⟨hanswer, rfl⟩ := Prod.mk.inj h
      rw [send_unprepared _ _ _ _ hp h]
      refine ⟨_, .unprepared hp, ?_, fun kind _ _ => ?_⟩
      · simp only [hanswer]
        rfl
      · -- The failed preparation is itself the last request.
        have hprepare := Backend.concludes_singleton (e.backend.serves_prepare sql) t.server
        rw [hanswer] at hprepare
        exact hprepare
    · obtain ⟨hanswer, rfl⟩ := Prod.mk.inj h
      rw [send_prepared _ _ _ _ hp h]
      refine ⟨_, .prepared hp stmt
        (prepared stmt params (e.backend.prepare sql t.server).2).1.toBool, ?_,
        fun kind _ hprepared => ?_⟩
      · simp only [Backend.watch, hanswer, List.append_assoc]
        rfl
      · refine (Backend.concludes_singleton (hprepared stmt params) _).cons ?_
        rw [e.backend.serves_prepare sql, Prod.map, hanswer]
        rfl

/-- A statement whose values do not all coerce sends nothing. Any other adds its exchanges, is kept
with its values, and is answered with what the server replies in the end. -/
theorem dispatch_replies (count : α → Nat) (sql : String) (binds : BindMap) (types : BindTypes)
    (s : State (Traced σ Stmt) τ ι) :
    let r := e.traced.dispatch (fun sql => Backend.watch (callPlain sql) (plain sql))
      (fun stmt params => Backend.watch (callPrepared stmt params) (prepared stmt params))
      count sql binds types s
    (∃ failure, binds.params types = .error failure ∧ r = (.error failure, s.withAffected 0)) ∨
      ∃ params xs answer, binds.params types = .ok params ∧
        Sends callPlain callPrepared sql params xs ∧
        r.2.world.server.exchanges = s.world.server.exchanges ++ xs ∧
        r.1 = answer.mapError (BackendError.during ·
          (inlined e.backend.dialect s.session.config.log.preservedLength params sql)) ∧
        r.2.session = { s.session with
          affectedRows := answer.toOption.elim 0 count, lastSql := sql, lastParams := params } ∧
        ∀ kind, (∀ sql, e.backend.Serves kind (callPlain sql) (plain sql)) →
          (∀ stmt params, e.backend.Serves kind (callPrepared stmt params) (prepared stmt params)) →
          e.backend.Concludes s.world.server.server (xs.map Exchange.call)
            (.ofAnswer kind answer) := by
  intro r
  cases hparams : binds.params types with
  | error failure => exact .inl ⟨failure, rfl, dispatch_of_params_error hparams⟩
  | ok params =>
    obtain ⟨xs, hxs, hsend, hreplies⟩ :=
      e.send_replies plain prepared callPlain callPrepared sql params s.world.server
    rcases h : e.traced.send (fun sql => Backend.watch (callPlain sql) (plain sql))
      (fun stmt params => Backend.watch (callPrepared stmt params) (prepared stmt params))
      sql params s.world.server with ⟨answer, t⟩
    rw [h] at hsend hreplies
    refine .inr ⟨params, xs, answer, rfl, hxs, ?_⟩
    cases answer with
    | error failure =>
      have hr : r = _ := dispatch_of_send_error hparams h
      rw [hr]
      exact ⟨hsend, rfl, rfl, hreplies⟩
    | ok a =>
      -- Logging comes last, and adds to the log only.
      have hr : r = _ := dispatch_of_send_ok hparams h
      obtain ⟨log, hlog⟩ := e.traced.exists_logStatement_eq
        ((((s.withAffected 0).withServer t).withLast sql params).withAffected (count a))
      rw [hr, hlog]
      exact ⟨hsend, rfl, rfl, hreplies⟩

/-- A statement whose values do not all coerce sends nothing; any other adds its exchanges. -/
theorem dispatch_sends (count : α → Nat) (sql : String) (binds : BindMap) (types : BindTypes)
    (s : State (Traced σ Stmt) τ ι) :
    let r := e.traced.dispatch (fun sql => Backend.watch (callPlain sql) (plain sql))
      (fun stmt params => Backend.watch (callPrepared stmt params) (prepared stmt params))
      count sql binds types s
    (∃ failure, binds.params types = .error failure ∧ r = (.error failure, s.withAffected 0)) ∨
      ∃ params xs, binds.params types = .ok params ∧ Sends callPlain callPrepared sql params xs ∧
        r.2.world.server.exchanges = s.world.server.exchanges ++ xs := by
  intro r
  rcases e.dispatch_replies plain prepared callPlain callPrepared count sql binds types s with
    hfailed | ⟨params, xs, answer, hparams, hxs, hexchanges, -⟩
  · exact .inl hfailed
  · exact .inr ⟨params, xs, hparams, hxs, hexchanges⟩

end Engine

end

end BoundSql

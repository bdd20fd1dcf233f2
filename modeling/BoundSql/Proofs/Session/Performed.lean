import BoundSql.Proofs.Session.Trace

/-! # What a statement operation leaves
* **`Engine.Went`** — the ways an operation can go: without a statement, without values for it, or
  with what the server replies to it; **`Engine.perform_went`** — there are no others.
* **`Engine.statement_reported`** — what is kept and what is reported, however the server
  behaves. -/

namespace BoundSql

section

variable {σ τ ι Stmt Row α β : Type}

/-! ### Requests of operations -/

namespace StatementCall

/-- Whether an operation asks for rows. -/
def asksRows : StatementCall → Bool
  | query _ _ _ | queryFirst _ _ | select _ | selectFirst _ => true
  | execute _ _ _ | insert _ _ | update _ _ _ | delete _ _ => false

/-- The request of an operation whose statement has no values. -/
def plain (call : StatementCall) (sql : String) : Call Stmt :=
  if call.asksRows then .query sql else .execute sql

/-- The request of an operation whose statement is prepared. -/
def prepared (call : StatementCall) (stmt : Stmt) (params : List Param) : Call Stmt :=
  if call.asksRows then .queryPrepared stmt params else .executePrepared stmt params

end StatementCall

namespace Engine

/-! ### The ways an operation can go -/

/-- `e.Went call s answer session exchanges`: an operation answers so, leaves such a session and
makes such exchanges. -/
inductive Went (e : Engine σ τ ι Stmt Row) (call : StatementCall) (s : State σ τ ι) :
    Except DbError (Outcome Row) → Session ι → List (Exchange Stmt) → Prop
  /-- There is no statement. -/
  | unwritten {failure : DbError} (native : e.native s.session.sources call = .error failure) :
    Went e call s (.error failure) s.session []
  /-- A value does not coerce. -/
  | uncoerced {n : Native} {failure : DbError} (native : e.native s.session.sources call = .ok n)
      (coerced : n.binds.params n.types = .error failure) :
    Went e call s (.error failure) { s.session with affectedRows := 0 } []
  /-- The statement is sent with its values. -/
  | sent {n : Native} {params : List Param} {answer : Except DbError (Outcome Row)}
      {xs : List (Exchange Stmt)} {reply : Reply Row}
      (native : e.native s.session.sources call = .ok n)
      (coerced : n.binds.params n.types = .ok params)
      (sends : Sends call.plain call.prepared n.sql params xs)
      (replies : e.backend.Concludes s.world.server (xs.map Exchange.call) reply)
      (answers : reply.Answers
        (inlined e.backend.dialect s.session.config.log.preservedLength params n.sql) answer) :
    Went e call s answer
      { s.session with affectedRows := reply.size, lastSql := n.sql, lastParams := params } xs

/-- Running a statement goes in one of the ways of the operation it belongs to. -/
theorem mapAnswer_dispatch_went (e : Engine σ τ ι Stmt Row) {call : StatementCall}
    {s : State (Traced σ Stmt) τ ι} {n : Native}
    (hn : e.native s.session.sources call = .ok n) {plain : String → Request σ α}
    {prepared : Stmt → List Param → Request σ α} {count : α → Nat} {kind : α → Reply Row}
    {f : α → Outcome Row} (hplain : ∀ sql, e.backend.Serves kind (call.plain sql) (plain sql))
    (hprepared : ∀ stmt params,
      e.backend.Serves kind (call.prepared stmt params) (prepared stmt params))
    (hcount : ∀ a, count a = (kind a).size) (hf : ∀ shown a, (kind a).Answers shown (.ok (f a))) :
    let r := mapAnswer f (e.traced.dispatch
      (fun sql => Backend.watch (call.plain sql) (plain sql))
      (fun stmt params => Backend.watch (call.prepared stmt params) (prepared stmt params))
      count n.sql n.binds n.types) s
    ∃ xs, r.2.world.server.exchanges = s.world.server.exchanges ++ xs ∧
      e.Went call s.untraced r.1 r.2.session xs := by
  intro r
  rcases e.dispatch_replies plain prepared call.plain call.prepared count n.sql n.binds n.types s
    with ⟨failure, hparams, hfailed⟩ |
      ⟨params, xs, answer, hparams, hxs, hexchanges, hanswer, hsession, hreplies⟩
  · refine ⟨[], ?_, ?_⟩
    · simp only [r, mapAnswer, hfailed, List.append_nil]
      rfl
    · simp only [r, mapAnswer, hfailed]
      exact .uncoerced hn hparams
  · refine ⟨xs, hexchanges, ?_⟩
    simp only [r, mapAnswer, hanswer, hsession]
    -- The last reply is of the kind that the operation asks for, failed or not.
    have hreply := hreplies kind hplain hprepared
    cases answer with
    | error failure => exact .sent hn hparams hxs hreply (.failed failure)
    | ok a =>
      have hsize : (Except.ok a : Except BackendError α).toOption.elim 0 count = (kind a).size :=
        hcount a
      rw [hsize]
      exact .sent hn hparams hxs hreply (hf _ a)

/-- A statement operation goes in one of the ways. -/
theorem traced_perform_went (e : Engine σ τ ι Stmt Row) (call : StatementCall)
    (s : State (Traced σ Stmt) τ ι) :
    let r := e.traced.perform call s
    ∃ xs, r.2.world.server.exchanges = s.world.server.exchanges ++ xs ∧
      e.Went call s.untraced r.1 r.2.session xs := by
  intro r
  have hr : r = _ := e.traced.perform_eq call s
  -- The statement is written before the server is asked, so keeping exchanges has no part in it.
  have hnative : e.traced.native s.session.sources call = e.native s.session.sources call := by
    cases call <;> rfl
  rw [hnative] at hr
  rw [hr]
  cases hn : e.native s.session.sources call with
  | error failure => exact ⟨[], by simp, .unwritten hn⟩
  | ok n =>
    cases call with
    | query _ _ _ | select _ =>
      exact e.mapAnswer_dispatch_went hn (fun _ _ => rfl) (fun _ _ _ => rfl) (fun _ => rfl)
        fun _ => .rows
    | queryFirst _ _ | selectFirst _ =>
      exact e.mapAnswer_dispatch_went hn (fun _ _ => rfl) (fun _ _ _ => rfl) (fun _ => rfl)
        fun _ => .first
    | _ =>
      exact e.mapAnswer_dispatch_went hn (fun _ _ => rfl) (fun _ _ _ => rfl) (fun _ => rfl)
        fun _ => .count

/-- A statement operation goes in one of the ways, with the exchanges that the server would keep. -/
theorem perform_went (e : Engine σ τ ι Stmt Row) (call : StatementCall) (s : State σ τ ι) :
    let t := e.traced.perform call (s.traced Stmt)
    State.answer t = e.perform call s ∧
      e.Went call s (e.perform call s).1 (e.perform call s).2.session
        t.2.world.server.exchanges := by
  intro t
  have hanswer : State.answer t = e.perform call s := e.perform_follows call (s.traced Stmt)
  obtain ⟨xs, hexchanges, hwent⟩ := e.traced_perform_went call (s.traced Stmt)
  rw [← hanswer, hexchanges]
  exact ⟨rfl, hwent⟩

end Engine

/-! ### Failures before the server is asked -/

/-- Whether an error is a failure of the server. -/
def DbError.isQuery : DbError → Bool
  | query _ _ _ => true
  | _ => false

/-- Whether an answer is no failure of the server. -/
def IsLocal (answer : Except DbError α) : Prop :=
  ∀ failure, answer = .error failure → failure.isQuery = false

@[simp] theorem isLocal_ok (a : α) : IsLocal (.ok a) := by
  intro failure h
  cases h

@[simp] theorem isLocal_error (failure : DbError) :
    IsLocal (.error failure : Except DbError α) ↔ failure.isQuery = false := by
  simp [IsLocal]

theorem IsLocal.of_eq_error {answer : Except DbError α} (h : IsLocal answer) {failure : DbError}
    (hfailure : answer = .error failure) : IsLocal (.error failure : Except DbError β) :=
  (isLocal_error failure).2 (h failure hfailure)

theorem Rendering.isLocal_run (t : Rendering) : IsLocal t.run := by
  rw [run]
  split <;> simp [DbError.isQuery]

theorem Template.isLocal_resolve (t : Template) (d : Dialect)
    (resolved : OrderedMap String Source) : IsLocal (t.resolve d resolved) := by
  rw [resolve]
  split
  · simp [DbError.isQuery]
  · exact Rendering.isLocal_run _

namespace Engine

theorem isLocal_resolveSources (sources : Registry) (names : List String)
    (resolved : OrderedMap String Source) : IsLocal (resolveSources sources names resolved) := by
  induction names generalizing resolved with
  | nil => simp [resolveSources]
  | cons name rest ih =>
    rw [resolveSources, Registry.require]
    cases sources.get? name with
    | none => simp [DbError.isQuery]
    | some source => exact ih _

theorem isLocal_compile (e : Engine σ τ ι Stmt Row) (sources : Registry) (q : Select) :
    IsLocal (e.compile sources q) := by
  rw [compile, Select.compile]
  cases q.fault? with
  | some fault => simp [DbError.isQuery]
  | none =>
    simp only [resolve]
    split
    · rename_i failure h
      exact (isLocal_resolveSources _ _ _).of_eq_error h
    · exact Template.isLocal_resolve _ _ _

/-- That an operation has no statement is no failure of the server. -/
theorem isLocal_native (e : Engine σ τ ι Stmt Row) (sources : Registry) (call : StatementCall) :
    IsLocal (e.native sources call) := by
  cases call with
  | query _ _ _ | execute _ _ _ | queryFirst _ _ => simp [native]
  | select q | selectFirst q => exact e.isLocal_compile sources q
  | insert _ _ | update _ _ _ | delete _ _ =>
    simp only [native, RowChange.insert, RowChange.update, RowChange.delete]
    split
    · simp [DbError.isQuery]
    · exact Rendering.isLocal_run _

end Engine

theorem BindKey.isLocal_slot (key : BindKey) : IsLocal key.slot := by
  cases key with
  | index i => exact isLocal_ok _
  | name n =>
    rw [slot]
    split <;> simp [DbError.isQuery]

theorem Value.isLocal_coerce (parameter : String) (v : Value) : IsLocal (v.coerce parameter) := by
  cases v with
  | int n =>
    rw [coerce]
    cases int64? n <;> simp [unsupported, DbError.isQuery]
  | _ => simp [coerce, unsupported, DbError.isQuery]

theorem Value.isLocal_coerceAs (parameter : String) (v : Value) (declared : WireType) :
    IsLocal (v.coerceAs parameter declared) := by
  rw [coerceAs]
  cases hv : v.coerce parameter with
  | error failure => exact (v.isLocal_coerce parameter).of_eq_error hv
  | ok natural =>
    simp only
    split <;> simp [DbError.isQuery]

theorem BindTypes.isLocal_param (types : BindTypes) (key : BindKey) (v : Value) :
    IsLocal (types.param key v) := by
  rw [param]
  cases hslot : key.slot with
  | error failure => exact key.isLocal_slot.of_eq_error hslot
  | ok slot =>
    simp only
    split
    · rename_i failure hcoerced
      split at hcoerced
      · exact (v.isLocal_coerceAs _ _).of_eq_error hcoerced
      · exact (v.isLocal_coerce _).of_eq_error hcoerced
    · exact isLocal_ok _

/-- That values do not coerce is no failure of the server. -/
theorem BindMap.isLocal_params (binds : BindMap) (types : BindTypes) :
    IsLocal (binds.params types) := by
  rw [params]
  induction binds.entries with
  | nil => simp [BindTypes.paramsOf]
  | cons entry rest ih =>
    obtain ⟨key, v⟩ := entry
    rw [BindTypes.paramsOf]
    cases hparam : types.param key v with
    | error failure => exact (types.isLocal_param key v).of_eq_error hparam
    | ok p =>
      cases hrest : types.paramsOf rest with
      | error failure => exact ih.of_eq_error hrest
      | ok ps => exact isLocal_ok _

/-! ### What is reported -/

/-- There are wire values exactly if there is a value to bind. -/
theorem BindMap.params_ne_nil_iff {binds : BindMap} {types : BindTypes} {ps : List Param}
    (h : binds.params types = .ok ps) : ps ≠ [] ↔ binds.isEmpty = false := by
  rw [params] at h
  rw [OrderedMap.isEmpty]
  cases hentries : binds.entries with
  | nil =>
    rw [hentries] at h
    cases h
    simp
  | cons entry rest =>
    rw [hentries, BindTypes.paramsOf] at h
    -- The first value is sent with those of the rest.
    split at h
    · cases h
    · split at h
      · cases h
      · cases h
        simp

/-- Exchanges begin with a preparation exactly if there are values. -/
theorem Sends.head?_eq_prepare_iff {call : StatementCall} {sql : String} {params : List Param}
    {xs : List (Exchange Stmt)} (h : Sends call.plain call.prepared sql params xs) :
    (xs.map Exchange.call).head? = some (.prepare sql) ↔ params ≠ [] := by
  cases h with
  | plain hp agreed =>
    rw [StatementCall.plain]
    split <;> simp [hp]
  | unprepared hp => simp [hp]
  | prepared hp stmt agreed => simp [hp]

theorem Sends.ne_nil {plain : String → Call Stmt} {prepared : Stmt → List Param → Call Stmt}
    {sql : String} {params : List Param} {xs : List (Exchange Stmt)}
    (h : Sends plain prepared sql params xs) : xs ≠ [] := by
  cases h <;> simp

/-- An error is made of a failure. -/
theorem Reply.Answers.exists_failed {shown : String} {reply : Reply Row} {failure : DbError}
    (h : reply.Answers shown (.error failure)) :
    ∃ cause, reply = .failed cause ∧ failure = cause.during shown := by
  cases h with
  | failed cause => exact ⟨cause, rfl, rfl⟩

namespace Engine.Went

variable {e : Engine σ τ ι Stmt Row} {call : StatementCall} {s : State σ τ ι}
  {answer : Except DbError (Outcome Row)} {session : Session ι} {xs : List (Exchange Stmt)}

theorem transactionLevel_eq (h : e.Went call s answer session xs) :
    session.transactionLevel = s.session.transactionLevel := by
  cases h <;> rfl

/-- After an error that is no failure of the server, nothing was sent. -/
theorem of_isQuery_eq_false (h : e.Went call s answer session xs) {failure : DbError}
    (ha : answer = .error failure) (hq : failure.isQuery = false) :
    xs = [] ∧ session.lastSql = s.session.lastSql ∧ session.lastParams = s.session.lastParams := by
  cases h with
  | unwritten native => exact ⟨rfl, rfl, rfl⟩
  | uncoerced native coerced => exact ⟨rfl, rfl, rfl⟩
  | sent native coerced sends replies answers =>
    -- Once the statement is sent, only the server can fail.
    subst ha
    obtain ⟨cause, -, rfl⟩ := answers.exists_failed
    cases hq

/-- A failure of the server is reported with the statement that was sent. -/
theorem answer_eq_of_failed (h : e.Went call s answer session xs) {cause : BackendError}
    (hf : .failed cause ∈ e.backend.replies s.world.server (xs.map Exchange.call)) :
    answer = .error (.query cause.message cause.code
      (inlined e.backend.dialect s.session.config.log.preservedLength session.lastParams
        session.lastSql)) := by
  cases h with
  | unwritten native => cases hf
  | uncoerced native coerced => cases hf
  | sent native coerced sends replies answers =>
    obtain rfl := (replies.failed_mem_iff cause).1 hf
    cases answers
    rfl

/-- Only a failure of the server is reported as one. -/
theorem exists_failed (h : e.Went call s answer session xs) {failure : DbError}
    (ha : answer = .error failure) (hq : failure.isQuery = true) :
    ∃ cause, .failed cause ∈ e.backend.replies s.world.server (xs.map Exchange.call) := by
  subst ha
  cases h with
  | unwritten native =>
    rw [e.isLocal_native _ _ failure native] at hq
    cases hq
  | uncoerced native coerced =>
    rw [BindMap.isLocal_params _ _ failure coerced] at hq
    cases hq
  | sent native coerced sends replies answers =>
    obtain ⟨cause, rfl, -⟩ := answers.exists_failed
    exact ⟨cause, (replies.failed_mem_iff cause).2 rfl⟩

/-- An answer comes from the server. -/
theorem ne_nil_of_ok (h : e.Went call s answer session xs) {a : Outcome Row}
    (ha : answer = .ok a) : xs ≠ [] := by
  cases h with
  | unwritten native => cases ha
  | uncoerced native coerced => cases ha
  | sent native coerced sends replies answers => exact sends.ne_nil

/-- An operation without a statement fails so, and sends nothing. -/
theorem of_native_error (h : e.Went call s answer session xs) {failure : DbError}
    (hn : e.native s.session.sources call = .error failure) :
    answer = .error failure ∧ xs = [] := by
  cases h with
  | unwritten native =>
    cases native.symm.trans hn
    exact ⟨rfl, rfl⟩
  | uncoerced native coerced => cases native.symm.trans hn
  | sent native coerced sends replies answers => cases native.symm.trans hn

/-- An operation with a value that does not coerce fails so, and sends nothing. -/
theorem of_params_error (h : e.Went call s answer session xs) {n : Native} {failure : DbError}
    (hn : e.native s.session.sources call = .ok n)
    (hp : n.binds.params n.types = .error failure) : answer = .error failure ∧ xs = [] := by
  cases h with
  | unwritten native => cases native.symm.trans hn
  | uncoerced native coerced =>
    cases native.symm.trans hn
    cases coerced.symm.trans hp
    exact ⟨rfl, rfl⟩
  | sent native coerced sends replies answers =>
    cases native.symm.trans hn
    cases coerced.symm.trans hp

/-- Any other operation sends its statement, keeps it with its values, and answers with what the
server replies to it. -/
theorem of_params_ok (h : e.Went call s answer session xs) {n : Native} {params : List Param}
    (hn : e.native s.session.sources call = .ok n) (hp : n.binds.params n.types = .ok params) :
    session.lastSql = n.sql ∧ session.lastParams = params ∧
      Sends call.plain call.prepared n.sql params xs ∧
      ∃ reply, e.backend.Concludes s.world.server (xs.map Exchange.call) reply ∧
        reply.Answers
          (inlined e.backend.dialect s.session.config.log.preservedLength params n.sql) answer := by
  cases h with
  | unwritten native => cases native.symm.trans hn
  | uncoerced native coerced =>
    cases native.symm.trans hn
    cases coerced.symm.trans hp
  | sent native coerced sends replies answers =>
    cases native.symm.trans hn
    cases coerced.symm.trans hp
    exact ⟨rfl, rfl, sends, _, replies, answers⟩

/-- What is sent is what is kept. -/
theorem exists_sends (h : e.Went call s answer session xs) (hxs : xs ≠ []) :
    ∃ n, e.native s.session.sources call = .ok n ∧ n.sql = session.lastSql ∧
      n.binds.params n.types = .ok session.lastParams ∧
      Sends call.plain call.prepared session.lastSql session.lastParams xs := by
  cases h with
  | unwritten native => exact absurd rfl hxs
  | uncoerced native coerced => exact absurd rfl hxs
  | sent native coerced sends replies answers => exact ⟨_, native, rfl, coerced, sends⟩

end Engine.Went

namespace Engine

/-- What a statement operation keeps and reports, however the server behaves. The level stays. An
error that is no failure of the server means that nothing was sent, and then the last statement and
its values stay; a failure of the server is reported with its message and code and with the last
statement, its values inlined. The last statement and its values are those that are sent, if any
are, and it is prepared first exactly if there are values.

Nothing is sent only without a statement or with a value that does not coerce, and that is then the
error. Any other statement is sent and kept with its values, prepared first exactly if a value is
bound, and answered with what the server replies to it. -/
theorem statement_reported (e : Engine σ τ ι Stmt Row) (call : StatementCall) (s : State σ τ ι) :
    let r := e.perform call s
    let t := e.traced.perform call (s.traced Stmt)
    let exchanges := t.2.world.server.exchanges
    let calls := exchanges.map Exchange.call
    let replies := e.backend.replies s.world.server calls
    let sql := r.2.session.lastSql
    let params := r.2.session.lastParams
    let native := e.native s.session.sources call
    State.answer t = r ∧
      r.2.session.transactionLevel = s.session.transactionLevel ∧
      (∀ failure, r.1 = .error failure → failure.isQuery = false →
        exchanges = [] ∧ sql = s.session.lastSql ∧ params = s.session.lastParams) ∧
      (∀ cause, .failed cause ∈ replies → r.1 = .error (.query cause.message cause.code
        (inlined e.backend.dialect s.session.config.log.preservedLength params sql))) ∧
      (∀ failure, r.1 = .error failure → failure.isQuery = true →
        ∃ cause, .failed cause ∈ replies) ∧
      (∀ a, r.1 = .ok a → exchanges ≠ []) ∧
      (exchanges ≠ [] → ∃ n, native = .ok n ∧ n.sql = sql ∧ n.binds.params n.types = .ok params ∧
        Sends call.plain call.prepared sql params exchanges ∧
        (calls.head? = some (.prepare sql) ↔ params ≠ [])) ∧
      (∀ failure, native = .error failure → r.1 = .error failure ∧ exchanges = []) ∧
      (∀ n failure, native = .ok n → n.binds.params n.types = .error failure →
        r.1 = .error failure ∧ exchanges = []) ∧
      ∀ n ps, native = .ok n → n.binds.params n.types = .ok ps →
        sql = n.sql ∧ params = ps ∧ Sends call.plain call.prepared n.sql ps exchanges ∧
          (calls.head? = some (.prepare n.sql) ↔ n.binds.isEmpty = false) ∧
          ∃ reply, e.backend.Concludes s.world.server calls reply ∧ reply.Answers
            (inlined e.backend.dialect s.session.config.log.preservedLength ps n.sql) r.1 := by
  intro r t exchanges calls replies sql params native
  -- Whatever way the call went, what it did is read off that way.
  obtain ⟨hanswer, hwent⟩ := e.perform_went call s
  refine ⟨hanswer, hwent.transactionLevel_eq, fun _ => hwent.of_isQuery_eq_false,
    fun _ => hwent.answer_eq_of_failed, fun _ => hwent.exists_failed, fun _ => hwent.ne_nil_of_ok,
    fun hxs => ?_, fun _ => hwent.of_native_error, fun _ _ => hwent.of_params_error,
    fun n ps hn hp => ?_⟩
  · obtain ⟨n, hnative, hsql, hparams, hsends⟩ := hwent.exists_sends hxs
    exact ⟨n, hnative, hsql, hparams, hsends, hsends.head?_eq_prepare_iff⟩
  · obtain ⟨hsql, hparams, hsends, hreply⟩ := hwent.of_params_ok hn hp
    exact ⟨hsql, hparams, hsends,
      hsends.head?_eq_prepare_iff.trans (BindMap.params_ne_nil_iff hp), hreply⟩

end Engine

end

end BoundSql

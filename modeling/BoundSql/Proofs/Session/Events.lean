import BoundSql.Proofs.Session.AffectedRows
import BoundSql.Proofs.Session.TransactionLevel
import Mathlib.Data.List.Forall2

/-! # The events of statements
A session reports the statements that it has run, but only those that did not fail.
* **`Sent`**, **`Engine.sentIn`** — the statements of a run that went to the server, with its
  replies; **`Engine.receives_run`** — they make up all requests there but the boundaries.
* **`Sent.event`** — what a statement is reported with.
* **`Reports`** — what is added to a log when some statements were sent; **`Engine.reports_act`**
  adds the statement of an operation, if it sends one, and **`Engine.reports_run`** those of a run.
* **`Engine.Rejects`**, **`Engine.log_of_rejects`** — an operation that sends nothing logs nothing.
* **`Engine.statements_reported_iff`** — so every statement is reported exactly if none failed. -/

namespace BoundSql

/-! ### Statements that were sent -/

/-- A statement that was sent to the server. -/
structure Sent (Row : Type) where
  /-- Its text. -/
  sql : String
  /-- The values bound to it. -/
  params : List Param
  /-- What the server replied to it in the end. -/
  reply : Reply Row

namespace Sent

variable {Row Stmt : Type}

/-- Whether the server ran it without failure. -/
def succeeded (x : Sent Row) : Bool :=
  match x.reply with
  | .failed _ => false
  | _ => true

/-- Whether exchanges are those of sending it. -/
def Makes (x : Sent Row) (xs : List (Exchange Stmt)) : Prop :=
  ∃ call : StatementCall, Sends call.plain call.prepared x.sql x.params xs

/-- Its event: its text with its values inlined and then cut, the number of its values and the
number of rows that it affected or returned. -/
def event (d : Dialect) (log : StatementLog) (x : Sent Row) : Event :=
  log.statementEvent (inlined d log.preservedLength x.params x.sql) x.params.length x.reply.size

end Sent

section

variable {σ τ ι Stmt Row α β : Type}

namespace Engine

/-- The server's last reply to a statement operation. -/
def replyTo (e : Engine σ τ ι Stmt Row) (call : StatementCall) (s : State σ τ ι) : Reply Row :=
  (e.repliesTo call s).getLastD .agreed

/-- The statement that an operation sends, if it is written and its values coerce. -/
def sent? (e : Engine σ τ ι Stmt Row) (a : Action) (s : State σ τ ι) : Option (Sent Row) :=
  match a with
  | .statement call =>
    match e.native s.session.sources call with
    | .error _ => none
    | .ok n =>
      match n.binds.params n.types with
      | .error _ => none
      | .ok params => some ⟨n.sql, params, e.replyTo call s⟩
  | .boundary _ => none

/-- The statements that a run sends, in order. -/
def sentIn (e : Engine σ τ ι Stmt Row) : List Action → State σ τ ι → List (Sent Row)
  | [], _ => []
  | a :: rest, s => (e.sent? a s).toList ++ e.sentIn rest (e.act a s).2

/-- Whether an operation is rejected before anything is sent: it has no statement, or a value does
not coerce. -/
def Rejects (e : Engine σ τ ι Stmt Row) (call : StatementCall) (s : State σ τ ι) : Prop :=
  ∀ n, e.native s.session.sources call = .ok n →
    ∃ failure, n.binds.params n.types = .error failure

section

variable {e : Engine σ τ ι Stmt Row} {call : StatementCall} {s : State σ τ ι}

theorem sent?_of_native_error {failure : DbError}
    (native : e.native s.session.sources call = .error failure) :
    e.sent? (.statement call) s = none := by
  rw [sent?, native]

theorem sent?_of_params_error {n : Native} {failure : DbError}
    (native : e.native s.session.sources call = .ok n)
    (coerced : n.binds.params n.types = .error failure) :
    e.sent? (.statement call) s = none := by
  simp only [sent?, native, coerced]

theorem sent?_of_params_ok {n : Native} {params : List Param}
    (native : e.native s.session.sources call = .ok n)
    (coerced : n.binds.params n.types = .ok params) :
    e.sent? (.statement call) s = some ⟨n.sql, params, e.replyTo call s⟩ := by
  simp only [sent?, native, coerced]

end

end Engine

/-! ### What the server receives -/

/-- The exchanges that belong to statements. -/
def statements (exchanges : List (Exchange Stmt)) : List (Exchange Stmt) :=
  exchanges.filter fun x => x.call.boundary?.isNone

theorem statements_append (xs ys : List (Exchange Stmt)) :
    statements (xs ++ ys) = statements xs ++ statements ys := List.filter_append ..

/-- Exchanges without boundaries all belong to statements. -/
theorem statements_of_boundaries {xs : List (Exchange Stmt)} (h : boundaries xs = []) :
    statements xs = xs := by
  refine List.filter_eq_self.2 fun x hx => ?_
  have hnone := List.filterMap_eq_nil_iff.1 h x hx
  simpa using hnone

/-- `Receives s s' sent`: between two states of a traced session the server receives the requests of
some statements, one statement after the other, and none but boundaries besides. -/
def Receives (s s' : State (Traced σ Stmt) τ ι) (sent : List (Sent Row)) : Prop :=
  ∃ groups, List.Forall₂ Sent.Makes sent groups ∧
    statements s'.world.server.exchanges = statements s.world.server.exchanges ++ groups.flatten

theorem Receives.trans {s s' s'' : State (Traced σ Stmt) τ ι} {sent later : List (Sent Row)}
    (h : Receives s s' sent) (h' : Receives s' s'' later) : Receives s s'' (sent ++ later) := by
  obtain ⟨groups, hmakes, heq⟩ := h
  obtain ⟨groups', hmakes', heq'⟩ := h'
  refine ⟨groups ++ groups', List.rel_append hmakes hmakes', ?_⟩
  rw [heq', heq, List.flatten_append, List.append_assoc]

/-- Nothing is received but boundaries. -/
theorem receives_nil {s s' : State (Traced σ Stmt) τ ι}
    (h : statements s'.world.server.exchanges = statements s.world.server.exchanges) :
    Receives s s' ([] : List (Sent Row)) :=
  ⟨[], .nil, by rw [h, List.flatten_nil, List.append_nil]⟩

namespace Engine

/-- The server receives the statement of an operation. -/
theorem receives_perform (e : Engine σ τ ι Stmt Row) (call : StatementCall)
    (s : State (Traced σ Stmt) τ ι) :
    Receives s (e.traced.perform call s).2 (e.sent? (.statement call) s.untraced).toList := by
  obtain ⟨xs, hexchanges, hwent⟩ := e.traced_perform_went call s
  have hstatements : statements (e.traced.perform call s).2.world.server.exchanges =
      statements s.world.server.exchanges ++ xs := by
    rw [hexchanges, statements_append, statements_of_boundaries hwent.boundaries_eq_nil]
  generalize (e.traced.perform call s).1 = answer, (e.traced.perform call s).2.session = session
    at hwent
  cases hwent with
  | unwritten native =>
    rw [sent?_of_native_error native]
    exact receives_nil (by rw [hstatements, List.append_nil])
  | uncoerced native coerced =>
    rw [sent?_of_params_error native coerced]
    exact receives_nil (by rw [hstatements, List.append_nil])
  | sent native coerced sends replies answers =>
    rw [sent?_of_params_ok native coerced]
    exact ⟨[xs], .cons ⟨call, sends⟩ .nil, by rw [hstatements, List.flatten_singleton]⟩

/-- A boundary is no statement. -/
theorem receives_cross (e : Engine σ τ ι Stmt Row) (b : Boundary) (s : State (Traced σ Stmt) τ ι) :
    Receives s (e.traced.cross b s).2 ([] : List (Sent Row)) := by
  refine receives_nil ?_
  rw [exchanges_cross]
  split
  · rfl
  · rw [statements_append]
    simp [statements]

/-- The server receives the statements of a run. -/
theorem receives_run (e : Engine σ τ ι Stmt Row) (actions : List Action)
    (s : State (Traced σ Stmt) τ ι) :
    Receives s (e.traced.run actions s).2 (e.sentIn actions s.untraced) := by
  induction actions generalizing s with
  | nil => exact receives_nil rfl
  | cons a rest ih =>
    have hact : Receives s (e.traced.act a s).2 (e.sent? a s.untraced).toList := by
      cases a with
      | statement call => exact e.receives_perform call s
      | boundary b => exact e.receives_cross b s
    have hstate : (e.act a s.untraced).2 = (e.traced.act a s).2.untraced :=
      congrArg Prod.snd (e.act_follows a s).symm
    rw [sentIn, hstate]
    exact hact.trans (ih _)

end Engine

/-! ### What is reported -/

/-- `Reports d s s' sent`: between two states an event is added to the log for each of some
statements that were sent and did not fail, and events of other targets may be. -/
structure Reports (d : Dialect) (s s' : State σ τ ι) (sent : List (Sent Row)) : Prop where
  /-- The configuration stays. -/
  config_eq : s'.session.config = s.session.config
  /-- So do the levels that are seen. -/
  most_eq : s'.world.log.most = s.world.log.most
  /-- The events come behind those of before. -/
  added : ∃ emitted, s'.world.log.events = s.world.log.events ++ emitted ∧
    emitted.filter (·.target = statementTarget) =
      (sent.filter Sent.succeeded).map (Sent.event d s.session.config.log)

namespace Reports

variable {d : Dialect} {s s' s'' : State σ τ ι} {sent later : List (Sent Row)}

/-- Nothing is reported. -/
theorem of_log_eq (hconfig : s'.session.config = s.session.config)
    (hlog : s'.world.log = s.world.log) (h : sent.filter Sent.succeeded = []) :
    Reports d s s' sent :=
  ⟨hconfig, by rw [hlog], [], by rw [hlog, List.append_nil], by rw [h]; rfl⟩

/-- One event is reported. -/
theorem of_emit {event : Event} (hconfig : s'.session.config = s.session.config)
    (hlog : s'.world.log = s.world.log.emit event)
    (hvisible : event.level.visibleUpTo s.world.log.most = true)
    (h : [event].filter (·.target = statementTarget) =
      (sent.filter Sent.succeeded).map (Sent.event d s.session.config.log)) :
    Reports d s s' sent := by
  rw [Recorder.emit, if_pos hvisible] at hlog
  exact ⟨hconfig, by rw [hlog], [event], by rw [hlog], h⟩

theorem trans (h : Reports d s s' sent) (h' : Reports d s' s'' later) :
    Reports d s s'' (sent ++ later) := by
  obtain ⟨emitted, hevents, hsent⟩ := h.added
  obtain ⟨emitted', hevents', hlater⟩ := h'.added
  refine ⟨h'.config_eq.trans h.config_eq, h'.most_eq.trans h.most_eq, emitted ++ emitted', ?_, ?_⟩
  · rw [hevents', hevents, List.append_assoc]
  · rw [List.filter_append, hsent, hlater, h.config_eq, List.filter_append, List.map_append]

end Reports

/-- What a session reports its last statement with. -/
def Session.event (d : Dialect) (s : Session ι) : Event :=
  s.config.log.statementEvent (s.inlinedSql d s.config.log.preservedLength) s.lastParams.length
    s.affectedRows

/-- Whether statement events are seen, and nothing else is reported of a statement. -/
structure State.Reporting (s : State σ τ ι) : Prop where
  /-- Statement events can be observed. -/
  enabled : s.session.config.log.enabled s.world.log.most = true
  /-- No statement counts as slow. -/
  noThreshold : s.session.config.log.slowThreshold = none

namespace State.Reporting

variable {s s' : State σ τ ι}

/-- The level of statement events is seen. -/
theorem visible (h : s.Reporting) :
    s.session.config.log.level.visibleUpTo s.world.log.most = true := by
  have henabled := h.enabled
  rw [StatementLog.enabled, h.noThreshold, Option.isSome_none, Bool.or_false] at henabled
  exact henabled

/-- That depends on the configuration and the levels that are seen only. -/
theorem of_eq (h : s.Reporting) (hconfig : s'.session.config = s.session.config)
    (hmost : s'.world.log.most = s.world.log.most) : s'.Reporting :=
  ⟨by rw [hconfig, hmost]; exact h.enabled, by rw [hconfig]; exact h.noThreshold⟩

end State.Reporting

namespace Engine

/-- Logging adds the event of the last statement. -/
theorem log_logStatement (e : Engine σ τ ι Stmt Row) {s : State σ τ ι} (h : s.Reporting) :
    (e.logStatement s).world.log = s.world.log.emit (s.session.event e.backend.dialect) := by
  rw [logStatement, if_pos h.enabled]
  simp only [StatementLog.record, h.noThreshold]
  rfl

/-- Whether an operation that answers and leaves `r` adds the event of the last statement to the log
if it succeeds, and nothing if it fails. -/
def LogsLast (e : Engine σ τ ι Stmt Row) (s : State σ τ ι) (r : Except DbError α × State σ τ ι) :
    Prop :=
  r.2.world.log =
    if r.1.toBool then s.world.log.emit (r.2.session.event e.backend.dialect) else s.world.log

theorem LogsLast.mapAnswer {e : Engine σ τ ι Stmt Row} {s : State σ τ ι}
    {op : Operation σ τ ι α} (h : e.LogsLast s (op s)) (f : α → β) :
    e.LogsLast s (mapAnswer f op s) := by
  have hbool : (Engine.mapAnswer f op s).1.toBool = (op s).1.toBool := by
    rw [Engine.mapAnswer]
    cases (op s).1 <;> rfl
  rw [LogsLast, hbool]
  exact h

/-- Running a statement logs it if it succeeds. -/
theorem logsLast_dispatch (e : Engine σ τ ι Stmt Row) (plain : String → Request σ α)
    (prepared : Stmt → List Param → Request σ α) (count : α → Nat) (sql : String)
    (binds : BindMap) (types : BindTypes) {s : State σ τ ι} (h : s.Reporting) :
    e.LogsLast s (e.dispatch plain prepared count sql binds types s) := by
  cases hparams : binds.params types with
  | error failure =>
    rw [dispatch_of_params_error hparams]
    rfl
  | ok params =>
    rcases hsend : e.send plain prepared sql params s.world.server with ⟨failure | a, server⟩
    · rw [dispatch_of_send_error hparams hsend]
      rfl
    · rw [dispatch_of_send_ok hparams hsend]
      generalize hs' : (((s.withAffected 0).withServer server).withLast sql params).withAffected
        (count a) = s'
      have hlog : s'.world.log = s.world.log := by rw [← hs']; rfl
      have hreporting : s'.Reporting := h.of_eq (by rw [← hs']; rfl) (by rw [hlog])
      obtain ⟨log, heq⟩ := e.exists_logStatement_eq s'
      have hsession : (e.logStatement s').session = s'.session := by rw [heq]
      show (e.logStatement s').world.log = s.world.log.emit _
      rw [e.log_logStatement hreporting, hlog, hsession]

/-- A statement operation logs its statement if it succeeds. -/
theorem logsLast_perform (e : Engine σ τ ι Stmt Row) (call : StatementCall) {s : State σ τ ι}
    (h : s.Reporting) : e.LogsLast s (e.perform call s) := by
  rw [perform_eq]
  cases e.native s.session.sources call with
  | error failure => rfl
  | ok n =>
    cases call <;> exact (e.logsLast_dispatch _ _ _ n.sql n.binds n.types h).mapAnswer _

/-- An operation that is rejected logs nothing. -/
theorem log_of_rejects {e : Engine σ τ ι Stmt Row} {call : StatementCall} {s : State σ τ ι}
    (h : e.Rejects call s) : (e.perform call s).2.world.log = s.world.log := by
  rw [perform_eq]
  cases hn : e.native s.session.sources call with
  | error failure => rfl
  | ok n =>
    obtain ⟨failure, hparams⟩ := h n hn
    cases call <;>
      simp only [runNative, mapAnswer, query, execute, dispatch_of_params_error hparams] <;> rfl

/-- A statement operation reports the statement that it sends, if that does not fail. -/
theorem reports_perform (e : Engine σ τ ι Stmt Row) (call : StatementCall) {s : State σ τ ι}
    (h : s.Reporting) :
    Reports e.backend.dialect s (e.perform call s).2 (e.sent? (.statement call) s).toList := by
  have hlog := e.logsLast_perform call h
  rw [LogsLast] at hlog
  obtain ⟨-, hwent⟩ := e.perform_went call s
  generalize hxs : (e.traced.perform call (s.traced Stmt)).2.world.server.exchanges = xs at hwent
  generalize hsession : (e.perform call s).2.session = session at hwent hlog
  generalize (e.perform call s).1 = answer at hwent hlog
  cases hwent with
  | unwritten native =>
    rw [sent?_of_native_error native]
    exact .of_log_eq (by rw [hsession]) hlog rfl
  | uncoerced native coerced =>
    rw [sent?_of_params_error native coerced]
    exact .of_log_eq (by rw [hsession]) hlog rfl
  | @sent n params answer xs reply native coerced sends replies answers =>
    have hreply : e.replyTo call s = reply := by
      obtain ⟨earlier, hlast, -⟩ := replies
      rw [replyTo, repliesTo, hxs, hlast, List.getLastD_concat]
    rw [sent?_of_params_ok native coerced, hreply]
    -- The session keeps what the event is made of, so only a failure makes a difference.
    cases answers with
    | failed failure => exact .of_log_eq (by rw [hsession]) hlog rfl
    | rows rows => exact .of_emit (by rw [hsession]) hlog h.visible rfl
    | first rows => exact .of_emit (by rw [hsession]) hlog h.visible rfl
    | count count => exact .of_emit (by rw [hsession]) hlog h.visible rfl

/-- A boundary reports no statement. -/
theorem reports_cross (e : Engine σ τ ι Stmt Row) (b : Boundary) (s : State σ τ ι) :
    Reports e.backend.dialect s (e.cross b s).2 ([] : List (Sent Row)) := by
  have hconfig : (e.cross b s).2.session.config = s.session.config := by rw [session_cross]
  by_cases hr : b.Refused s.session.transactionLevel
  · exact .of_log_eq hconfig (by rw [cross_of_refused _ hr]) rfl
  · rcases hb : e.backend.boundary b s.world.server with ⟨failure | _, server⟩
    · exact .of_log_eq hconfig (by rw [cross_of_error _ hr hb]; rfl) rfl
    · have hlog : (e.cross b s).2.world.log = s.world.log.emit
          (transactionEvent (b.levelAfter s.session.transactionLevel) b.message) := by
        rw [cross_of_ok _ hr hb]
        rfl
      -- The event of a boundary has a level and a target of its own.
      by_cases hvisible : Level.debug.visibleUpTo s.world.log.most = true
      · exact .of_emit hconfig hlog hvisible rfl
      · exact .of_log_eq hconfig (hlog.trans (if_neg hvisible)) rfl

/-- An operation reports the statement that it sends, if it sends one and that does not fail. -/
theorem reports_act (e : Engine σ τ ι Stmt Row) (a : Action) {s : State σ τ ι}
    (h : s.Reporting) : Reports e.backend.dialect s (e.act a s).2 (e.sent? a s).toList := by
  cases a with
  | statement call => exact e.reports_perform call h
  | boundary b => exact e.reports_cross b s

/-- A run reports the statements that it sends, but not those that fail. -/
theorem reports_run (e : Engine σ τ ι Stmt Row) (actions : List Action) {s : State σ τ ι}
    (h : s.Reporting) : Reports e.backend.dialect s (e.run actions s).2 (e.sentIn actions s) := by
  induction actions generalizing s with
  | nil => exact .of_log_eq rfl rfl rfl
  | cons a rest ih =>
    have hact := e.reports_act a h
    exact hact.trans (ih (h.of_eq hact.config_eq hact.most_eq))

/-- When every statement is reported. A session over any connection, that logs statements at a level
that is seen and counts none as slow, after any operations: the statements that it sent make up all
requests that the server has received but the boundaries; the events of statements are those of the
ones that did not fail, in order, each with its own text, values and rows; and so they are those of
all exactly if the server failed none. An operation that is rejected logs nothing. -/
theorem statements_reported_iff (e : Engine σ τ ι Stmt Row) (s : State σ τ ι)
    (henabled : s.session.config.log.enabled s.world.log.most = true)
    (hslow : s.session.config.log.slowThreshold = none) (actions : List Action) :
    let sent := e.sentIn actions s
    let r := e.run actions s
    let t := e.traced.run actions (s.traced Stmt)
    let event := Sent.event e.backend.dialect s.session.config.log
    State.answer t = r ∧
      (∃ groups, List.Forall₂ Sent.Makes sent groups ∧
        statements t.2.world.server.exchanges = groups.flatten) ∧
      ∃ emitted, r.2.world.log.events = s.world.log.events ++ emitted ∧
        let reported := emitted.filter (·.target = statementTarget)
        reported = (sent.filter Sent.succeeded).map event ∧
          (reported = sent.map event ↔ ∀ x ∈ sent, x.succeeded = true) ∧
          ∀ call, e.Rejects call r.2 → (e.perform call r.2).2.world.log = r.2.world.log := by
  intro sent r t event
  have hreports : Reports e.backend.dialect s r.2 sent := e.reports_run actions ⟨henabled, hslow⟩
  obtain ⟨groups, hmakes, hreceived⟩ := e.receives_run actions (s.traced Stmt)
  obtain ⟨emitted, hevents, hreported⟩ := hreports.added
  refine ⟨e.run_follows actions (s.traced Stmt), ⟨groups, hmakes, hreceived⟩, emitted, hevents,
    hreported, ⟨fun hall => ?_, fun hall => ?_⟩, fun _ => log_of_rejects⟩
  · -- As many events as statements means that none was left out.
    have hlength := congrArg List.length (hreported.symm.trans hall)
    rw [List.length_map, List.length_map] at hlength
    exact List.length_filter_eq_length_iff.1 hlength
  · rw [hreported, List.filter_eq_self.2 hall]

end Engine

end

namespace Script

/-- A server that fails the first query. -/
def failingQuery : Script := { failures := [(.query, ⟨"gone", none⟩)] }

/-- A new session on a scripted server, seen by an observer of all levels. -/
def watched (server : Script) : State Script MemoryStore Unit :=
  ⟨{}, ⟨server, OrderedMap.empty, { most := some .trace }⟩⟩

/-- A query that fails, an insert that is not sent, and a statement with a value that is run, inside
of a transaction. -/
def reportedActions : List Action :=
  [.boundary .begin, .statement (.query "S" OrderedMap.empty OrderedMap.empty),
    .statement (.insert "student" OrderedMap.empty),
    .statement (.execute "U ?" (OrderedMap.ofList [(.index 0, .int 5)]) OrderedMap.empty)]

/-- Of the statements of a run the one that is run is reported. -/
theorem statements_reported_iff_failed_query :
    let s := watched failingQuery
    let sent := (engine .mysql).sentIn reportedActions s
    let event := Sent.event .mysql s.session.config.log
    let second : Sent Value := ⟨"U ?", [⟨.position 1, .int 5⟩], .count 1⟩
    s.session.config.log.enabled s.world.log.most = true ∧
      s.session.config.log.slowThreshold = none ∧
      sent = [⟨"S", [], .failed ⟨"gone", none⟩⟩, second] ∧
      ∃ emitted, ((engine .mysql).run reportedActions s).2.world.log.events = [] ++ emitted ∧
        emitted.filter (·.target = statementTarget) = [event second] ∧
        emitted.filter (·.target = statementTarget) ≠ sent.map event := by
  intro s sent event second
  have hsent : sent = [⟨"S", [], .failed ⟨"gone", none⟩⟩, second] := rfl
  obtain ⟨-, -, emitted, hevents, hreported, hiff, -⟩ :=
    Engine.statements_reported_iff (engine .mysql) s rfl rfl reportedActions
  refine ⟨rfl, rfl, hsent, emitted, hevents, hreported, fun hall => ?_⟩
  have hfirst : ⟨"S", [], .failed ⟨"gone", none⟩⟩ ∈ sent := by
    rw [hsent]
    exact List.mem_cons_self
  cases hiff.1 hall _ hfirst

/-- A query that the server fails is reported by nothing. -/
theorem failed_query_unreported :
    let s := watched failingQuery
    let actions := [Action.statement (.query "S" OrderedMap.empty OrderedMap.empty)]
    let sent := (engine .mysql).sentIn actions s
    let reported := ((engine .mysql).run actions s).2.world.log.events.filter
      (·.target = statementTarget)
    sent = [⟨"S", [], .failed ⟨"gone", none⟩⟩] ∧ reported = [] ∧
      reported ≠ sent.map (Sent.event .mysql s.session.config.log) := by
  intro s actions sent reported
  have hsent : sent = [⟨"S", [], .failed ⟨"gone", none⟩⟩] := rfl
  have hreported : reported = [] := rfl
  exact ⟨hsent, hreported, by rw [hsent, hreported]; simp⟩

end Script

end BoundSql

import BoundSql.Proofs.Session.Run

/-! # What a server replies
A server's replies are found by sending it the same requests again, from the same state on.
* **`Reply`** — what a request can be answered with, and **`Reply.Answers`** what an operation makes
  of the reply to its statement.
* **`Backend.reply`**, **`Backend.replies`** — the replies to requests, one after another.
* **`Backend.Concludes`** — the server agrees to all requests but the last and replies so to
  that. -/

namespace BoundSql

/-- What a server replies to a request. -/
inductive Reply (Row : Type)
  /-- A failure. -/
  | failed (failure : BackendError)
  /-- The rows of a statement. -/
  | rows (rows : List Row)
  /-- The number of rows that a statement affected. -/
  | count (count : Nat)
  /-- Anything else that is no failure. -/
  | agreed

namespace Reply

variable {Row α : Type}

/-- The reply of an answer of a kind. -/
def ofAnswer (kind : α → Reply Row) : Except BackendError α → Reply Row
  | .error failure => .failed failure
  | .ok a => kind a

/-- The number of rows that a reply affects or returns. -/
def size : Reply Row → Nat
  | .rows returned => returned.length
  | .count affected => affected
  | _ => 0

/-- What an operation answers to the reply to its statement. A failure is reported with the
statement as `shown`. -/
inductive Answers (shown : String) : Reply Row → Except DbError (Outcome Row) → Prop
  /-- A failure is passed on. -/
  | failed (failure : BackendError) :
    Answers shown (.failed failure) (.error (failure.during shown))
  /-- All rows are passed on. -/
  | rows (rows : List Row) : Answers shown (.rows rows) (.ok (.rows rows))
  /-- The first row is passed on. -/
  | first (rows : List Row) : Answers shown (.rows rows) (.ok (.first rows.head?))
  /-- The count is passed on. -/
  | count (count : Nat) : Answers shown (.count count) (.ok (.count count))

end Reply

namespace Backend

variable {σ Stmt Row α : Type}

/-- A server's reply to a request, and the server after it. -/
def reply (k : Backend σ Stmt Row) (server : σ) : Call Stmt → Reply Row × σ
  | .prepare sql => (k.prepare sql server).map (.ofAnswer fun _ => .agreed) id
  | .queryPrepared stmt params => (k.queryPrepared stmt params server).map (.ofAnswer .rows) id
  | .executePrepared stmt params => (k.executePrepared stmt params server).map (.ofAnswer .count) id
  | .query sql => (k.query sql server).map (.ofAnswer .rows) id
  | .execute sql => (k.execute sql server).map (.ofAnswer .count) id
  | .beginTransaction => (k.beginTransaction server).map (.ofAnswer fun _ => .agreed) id
  | .commit => (k.commit server).map (.ofAnswer fun _ => .agreed) id
  | .rollback => (k.rollback server).map (.ofAnswer fun _ => .agreed) id
  | .lastInsertId => (k.lastInsertId server).map (.ofAnswer fun _ => .agreed) id
  | .describe source =>
    (k.describe source server).map
      (fun answer =>
        .ofAnswer (fun _ => .agreed) (answer.mapError fun e => .ofMessage e.message)) id

/-- A server's replies to requests, one after another. -/
def replies (k : Backend σ Stmt Row) : σ → List (Call Stmt) → List (Reply Row)
  | _, [] => []
  | server, call :: rest => (k.reply server call).1 :: k.replies (k.reply server call).2 rest

/-- Whether a request is a call whose answers are of a kind. -/
def Serves (k : Backend σ Stmt Row) (kind : α → Reply Row) (call : Call Stmt)
    (request : Request σ α) : Prop :=
  ∀ server, k.reply server call = (request server).map (.ofAnswer kind) id

theorem serves_prepare (k : Backend σ Stmt Row) (sql : String) :
    k.Serves (fun _ => .agreed) (.prepare sql) (k.prepare sql) := fun _ => rfl

/-- Whether the server agrees to all requests but the last, and gives `reply` to that. -/
def Concludes (k : Backend σ Stmt Row) (server : σ) (calls : List (Call Stmt))
    (reply : Reply Row) : Prop :=
  ∃ earlier, k.replies server calls = earlier ++ [reply] ∧ ∀ r ∈ earlier, r = .agreed

section

variable {k : Backend σ Stmt Row} {server : σ} {calls : List (Call Stmt)} {reply : Reply Row}

/-- The only request is the last one. -/
theorem concludes_singleton {kind : α → Reply Row} {call : Call Stmt} {request : Request σ α}
    (h : k.Serves kind call request) (server : σ) :
    k.Concludes server [call] (.ofAnswer kind (request server).1) :=
  ⟨[], by rw [replies, replies, h]; rfl, by simp⟩

/-- A request that is agreed to comes before. -/
theorem Concludes.cons {call : Call Stmt} {server' : σ} (h : k.Concludes server' calls reply)
    (hcall : k.reply server call = (.agreed, server')) :
    k.Concludes server (call :: calls) reply := by
  obtain ⟨earlier, hreplies, hagreed⟩ := h
  refine ⟨.agreed :: earlier, ?_, ?_⟩
  · rw [replies, hcall, hreplies, List.cons_append]
  · simpa using hagreed

/-- Only the last request can fail. -/
theorem Concludes.failed_mem_iff (h : k.Concludes server calls reply) (failure : BackendError) :
    .failed failure ∈ k.replies server calls ↔ reply = .failed failure := by
  obtain ⟨earlier, hreplies, hagreed⟩ := h
  rw [hreplies, List.mem_append, List.mem_singleton]
  constructor
  · rintro (hmem | heq)
    · cases hagreed _ hmem
    · exact heq.symm
  · exact fun heq => .inr heq.symm

end

end Backend

end BoundSql

/-! # Log events
What a session reports while it works, as data.
* **`Level`**, **`Event`** — how important an event is, where it comes from and what it says.
* **`StatementLog`** — how statements are logged, and the events of one that succeeded.
* **`Recorder`** — the events so far, as far as an observer asked for their levels. -/

namespace BoundSql

/-- The importance of an event. -/
inductive Level
  /-- Something failed. -/
  | error
  /-- Something is suspicious. -/
  | warn
  /-- Something notable happened. -/
  | info
  /-- A step of the work. -/
  | debug
  /-- A detail of a step. -/
  | trace
  deriving DecidableEq, Repr, Inhabited

namespace Level

/-- Levels by number, the most important first. -/
def rank : Level → Nat
  | error => 1
  | warn => 2
  | info => 3
  | debug => 4
  | trace => 5

/-- The name of a level. -/
def name : Level → String
  | error => "ERROR"
  | warn => "WARN"
  | info => "INFO"
  | debug => "DEBUG"
  | trace => "TRACE"

/-- The name of a level with one capital. -/
def title : Level → String
  | error => "Error"
  | warn => "Warn"
  | info => "Info"
  | debug => "Debug"
  | trace => "Trace"

/-- Whether an observer of the levels up to `most` sees this one. -/
def visibleUpTo (level : Level) : Option Level → Bool
  | some most => level.rank ≤ most.rank
  | none => false

end Level

/-- The value of an event's field. -/
inductive FieldValue
  /-- A number. -/
  | number (n : Nat)
  /-- A text. -/
  | text (s : String)
  deriving DecidableEq, Repr

/-- Something that happened. -/
structure Event where
  /-- Its importance. -/
  level : Level
  /-- The part of the library it comes from. -/
  target : String
  /-- What it says. -/
  fields : List (String × FieldValue)
  deriving DecidableEq, Repr

/-- The target of statement events. -/
def statementTarget : String := "stmtkit.sql"

/-- The target of transaction events. -/
def transactionTarget : String := "stmtkit.tx"

/-- The target of metadata events. -/
def metadataTarget : String := "stmtkit.metadata"

/-- The event of a connection that breaks down. -/
def connectionEvent : Event :=
  ⟨.error, statementTarget, [("message", .text "connection error")]⟩

/-- The events that an observer of the levels up to `most` has seen. -/
structure Recorder where
  /-- The least important level that is seen; none at all if absent. -/
  most : Option Level := none
  /-- The events, in order. -/
  events : List Event := []
  deriving Repr, Inhabited

/-- The recorder after an event. -/
def Recorder.emit (r : Recorder) (e : Event) : Recorder :=
  if e.level.visibleUpTo r.most then { r with events := r.events ++ [e] } else r

/-- How statements are logged. -/
structure StatementLog where
  /-- The level of statement events. -/
  level : Level := .debug
  /-- The number of bytes a logged statement may have; no bound if absent. -/
  maxLength : Option Nat := some 1000
  /-- The number of characters from which on bound texts are cut. -/
  preservedLength : Option Nat := some 64
  /-- The number of milliseconds beyond which a statement counts as slow. -/
  slowThreshold : Option Nat := none
  deriving DecidableEq, Repr

instance : Inhabited StatementLog := ⟨{}⟩

namespace StatementLog

/-- The longest start of text that has at most `n` bytes. -/
def takeBytes : Nat → List Char → List Char
  | _, [] => []
  | n, c :: cs => if c.utf8Size ≤ n then c :: takeBytes (n - c.utf8Size) cs else []

/-- A statement as it is logged: cut to the bound on its bytes, with dots, if it exceeds it. -/
def truncate (log : StatementLog) (sql : String) : String :=
  match log.maxLength with
  | some n =>
    if n < sql.utf8ByteSize then String.ofList (takeBytes n sql.toList) ++ "..." else sql
  | none => sql

/-- Whether statement events can be observed. -/
def enabled (log : StatementLog) (most : Option Level) : Bool :=
  log.level.visibleUpTo most || log.slowThreshold.isSome

/-- The event of a statement. -/
def statementEvent (log : StatementLog) (sql : String) (paramCount rows : Nat) : Event :=
  ⟨log.level, statementTarget,
    [("param_count", .number paramCount), ("rows", .number rows),
      ("sql", .text (log.truncate sql))]⟩

/-- The event of a slow statement. -/
def slowEvent (log : StatementLog) (sql : String) (threshold : Nat) : Event :=
  ⟨.warn, statementTarget,
    [("threshold_ms", .number threshold), ("sql", .text (log.truncate sql)),
      ("message", .text "slow query")]⟩

/-- The recorder after a statement that took `elapsed` nanoseconds. -/
def record (log : StatementLog) (r : Recorder) (sql : String) (paramCount rows elapsed : Nat) :
    Recorder :=
  let r := r.emit (log.statementEvent sql paramCount rows)
  match log.slowThreshold with
  | some threshold =>
    if threshold * 1000000 < elapsed then r.emit (log.slowEvent sql threshold) else r
  | none => r

end StatementLog

end BoundSql

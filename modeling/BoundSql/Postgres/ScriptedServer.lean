import BoundSql.Log
import BoundSql.Postgres.Link

/-! # A scripted PostgreSQL server
**`ScriptedServer`** — a server that answers from queues and notes down the messages it receives. It
can close the connection, which is logged once; **`ScriptedServer.link`** is the link to it. -/

namespace BoundSql.Postgres

/-- A cell as a script states it. -/
inductive ScriptedCell
  /-- No value. -/
  | null
  /-- A boolean. -/
  | bool (b : Bool)
  /-- Text, or a number in decimal. -/
  | text (s : String)
  deriving DecidableEq, Repr

/-- What running a statement yields: rows, and a tag unless the number of rows makes one. -/
structure ScriptedRows where
  /-- The cells of each row. -/
  rows : List (List ScriptedCell) := []
  /-- The tag, if it is stated. -/
  tag : Option String := none
  deriving DecidableEq, Repr, Inhabited

/-- A message that a server receives. -/
inductive Message
  /-- A statement to be parsed. -/
  | parse (sql : String)
  /-- Values to run a parsed statement with. -/
  | bind (values : List Cell)
  /-- A statement to be run at once. -/
  | simple (sql : String)
  deriving DecidableEq, Repr

/-- The state of a scripted server. A queued answer is a value or a failure; the failure of a closed
connection closes it. -/
structure ScriptedServer where
  /-- Answers to statements to be parsed. -/
  parses : List (Except Failure Prepared) := []
  /-- Answers to statements to be run. -/
  runs : List (Except Failure ScriptedRows) := []
  /-- Answers to statements that are run at once. -/
  simples : List (Except Failure Unit) := []
  /-- Whether the connection is closed. -/
  isClosed : Bool := false
  /-- The messages received, in order. -/
  messages : List Message := []
  /-- The events of the connection. -/
  log : Recorder := {}

instance : Inhabited ScriptedServer := ⟨{}⟩

/-- The cell of a script in a column of a type. -/
def ScriptedCell.bytes (type : ServerType) : ScriptedCell → Cell
  | null => none
  | bool b => some [if b then 1 else 0]
  | text s =>
    if type = .int8 then some (Number.bigEndian 8 (s.toInt?.getD 0)) else some (textBytes s)

namespace ScriptedServer

/-- The server after further answers. -/
def enqueue (s : ScriptedServer) (parses : List (Except Failure Prepared))
    (runs : List (Except Failure ScriptedRows)) (simples : List (Except Failure Unit)) :
    ScriptedServer :=
  { s with
    parses := s.parses ++ parses
    runs := s.runs ++ runs
    simples := s.simples ++ simples }

/-- The server after an answer; a connection that breaks down is logged. -/
def after {α : Type} (answer : Except Failure α) (s : ScriptedServer) : ScriptedServer :=
  match answer with
  | .error .closed => { s with isClosed := true, log := s.log.emit connectionEvent }
  | _ => s

/-- Answers a message by what `take` finds next in a queue. A server that has closed its connection
receives nothing. -/
def respond {α : Type} (m : Message)
    (take : ScriptedServer → Except Failure α × ScriptedServer) : Exchange ScriptedServer α :=
  fun s =>
    if s.isClosed then (.error .closed, s)
    else
      let r := take { s with messages := s.messages ++ [m] }
      (r.1, r.2.after r.1)

/-- The next answer of a queue, or the given one if there is none, and the queue without it. -/
def next {α : Type} (otherwise : α) :
    List (Except Failure α) → Except Failure α × List (Except Failure α)
  | [] => (.ok otherwise, [])
  | answer :: rest => (answer, rest)

/-- Parses a statement; one without parameters and columns if no answer is queued. -/
def parse (sql : String) : Exchange ScriptedServer Prepared :=
  respond (.parse sql) fun s =>
    let r := next {} s.parses
    (r.1, { s with parses := r.2 })

/-- The rows of a script under the columns of a statement. -/
def outcome (stmt : Prepared) (r : ScriptedRows) : Outcome :=
  let types := stmt.columns.map ColumnShape.type
  ⟨r.rows.map fun cells => List.zipWith ScriptedCell.bytes types cells,
    r.tag.getD ("SELECT " ++ toString r.rows.length)⟩

/-- Runs a statement; it yields no rows if no answer is queued. -/
def run (stmt : Prepared) (values : List Cell) : Exchange ScriptedServer Outcome :=
  respond (.bind values) fun s =>
    let r := next {} s.runs
    (r.1.map (outcome stmt), { s with runs := r.2 })

/-- Runs a statement at once; it succeeds if no answer is queued. -/
def runSimple (sql : String) : Exchange ScriptedServer Unit :=
  respond (.simple sql) fun s =>
    let r := next () s.simples
    (r.1, { s with simples := r.2 })

/-- The link to a scripted server. -/
def link : Link ScriptedServer where
  parse := parse
  run := run
  runSimple := runSimple

end ScriptedServer

end BoundSql.Postgres

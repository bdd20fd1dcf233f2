import BoundSql.Backend
import BoundSql.Config
import BoundSql.Inlined
import BoundSql.Metadata.Cache

/-! # Sessions
* **`Session`** — what belongs to one connection: its configuration, sources and metadata cache, the
  open transaction and the last statement. `withConfig`, `withSources`, `withMetadata` and
  `withMetadataStore` set it up.
* **`State`** — a session in its world, which operations change.
* **`Engine`** — what they work with and do not change: the connection, the access to stores and
  the machine. -/

namespace BoundSql

/-- What belongs to one connection. -/
structure Session (ι : Type) where
  /-- The configuration. -/
  config : Config := {}
  /-- The known sources. -/
  sources : Registry := OrderedMap.empty
  /-- The metadata cache. -/
  metadata : Cache ι := {}
  /-- Whether the cache was given, to be shared with other sessions. -/
  sharedMetadata : Bool := false
  /-- The number of open transactions. -/
  transactionLevel : Nat := 0
  /-- The rows affected or returned by the last statement. -/
  affectedRows : Nat := 0
  /-- The text of the last statement. -/
  lastSql : String := ""
  /-- The values bound to the last statement. -/
  lastParams : List Param := []

namespace Session

variable {ι : Type}

instance : Inhabited (Session ι) := ⟨{}⟩

/-- An empty cache of the session's own, under the configured keys. -/
def privateCache (s : Session ι) (store : Option ι) : Cache ι :=
  { store, keyPrefix := s.config.keyPrefix }

/-- The session with a configuration. A cache of its own is made anew, over the same store. -/
def withConfig (s : Session ι) (config : Config) : Session ι :=
  let s := { s with config }
  if s.sharedMetadata then s else { s with metadata := s.privateCache s.metadata.store }

/-- The session with the known sources. -/
def withSources (s : Session ι) (sources : Registry) : Session ι := { s with sources }

/-- The session with a cache that is shared. -/
def withMetadata (s : Session ι) (metadata : Cache ι) : Session ι :=
  { s with metadata, sharedMetadata := true }

/-- The session with a cache of its own over a store. -/
def withMetadataStore (s : Session ι) (store : ι) : Session ι :=
  { s with metadata := s.privateCache (some store), sharedMetadata := false }

/-- Whether a transaction is open. -/
def isUnderTransaction (s : Session ι) : Bool := 0 < s.transactionLevel

/-- The last statement with its values inlined. -/
def inlinedSql (s : Session ι) (d : Dialect) (max : Option Nat) : String :=
  inlined d max s.lastParams s.lastSql

/-- The name of a dialect in diagnostic texts. -/
def dialectTitle : Dialect → String
  | .mysql => "MySql"
  | .postgres => "Postgres"

/-- The diagnostic text of a session. -/
def display (s : Session ι) (d : Dialect) : String :=
  "Db \x7b dialect: " ++ dialectTitle d ++ ", transaction_level: " ++
    toString s.transactionLevel ++ ", affected_rows: " ++ toString s.affectedRows ++
    ", last_sql: " ++ Text.quoted s.lastSql ++ ", .. \x7d"

end Session

/-- What the operations of a session work with. -/
structure Engine (σ τ ι Stmt Row : Type) where
  /-- The connection. -/
  backend : Backend σ Stmt Row
  /-- The access to stores. -/
  stores : StoreAccess ι τ
  /-- The machine. -/
  host : Host

/-- A session in its world. -/
structure State (σ τ ι : Type) where
  /-- The session. -/
  session : Session ι
  /-- The world around it. -/
  world : World σ τ

/-- An operation that may fail. What it changed before a failure stays changed. -/
abbrev Operation (σ τ ι α : Type) := State σ τ ι → Except DbError α × State σ τ ι

namespace State

variable {σ τ ι : Type}

/-- The state with another server. -/
def withServer (s : State σ τ ι) (server : σ) : State σ τ ι :=
  { s with world := { s.world with server } }

/-- The state after an event. -/
def emit (s : State σ τ ι) (e : Event) : State σ τ ι := { s with world := s.world.emit e }

/-- The state with another number of affected rows. -/
def withAffected (s : State σ τ ι) (affectedRows : Nat) : State σ τ ι :=
  { s with session := { s.session with affectedRows } }

/-- The state with another number of open transactions. -/
def withLevel (s : State σ τ ι) (transactionLevel : Nat) : State σ τ ι :=
  { s with session := { s.session with transactionLevel } }

/-- The state with another last statement. -/
def withLast (s : State σ τ ι) (lastSql : String) (lastParams : List Param) : State σ τ ι :=
  { s with session := { s.session with lastSql, lastParams } }

end State

end BoundSql

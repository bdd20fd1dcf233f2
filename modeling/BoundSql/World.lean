import BoundSql.Log
import BoundSql.Time.Civil

/-! # The world around a session
**`World`** — everything outside a session that its operations change: the server, the stores and
what an observer has seen. **`Host`** — what they read from the machine they run on. -/

namespace BoundSql

/-- What the operations of a session change outside of it. -/
structure World (σ τ : Type) where
  /-- The server. -/
  server : σ
  /-- The key-value stores. -/
  stores : τ
  /-- The events an observer has seen. -/
  log : Recorder := {}

/-- What the operations of a session read from their machine. -/
structure Host where
  /-- The time. -/
  now : Moment
  /-- The nanoseconds that a statement takes. -/
  elapsed : Nat
  deriving Repr

/-- The world after an event. -/
def World.emit {σ τ : Type} (w : World σ τ) (e : Event) : World σ τ :=
  { w with log := w.log.emit e }

end BoundSql

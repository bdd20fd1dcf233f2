import BoundSql.Bytes
import BoundSql.Error
import BoundSql.OrderedMap

/-! # Key-value stores
* **`StoreAccess`** — how stores are read and written: `ι` names a store, and `τ` is the state of
  all of them together. Reading changes nothing; reading and writing may fail.
* **`MemoryStore`** — values kept in a map.
* **`StoreAccess.failing`** — stores whose reads or writes can be made to fail. -/

namespace BoundSql

/-- Access to key-value stores. -/
structure StoreAccess (ι τ : Type) where
  /-- The value under a key, if there is one. -/
  read : ι → String → τ → Except DbError (Option Bytes)
  /-- The stores with a value under a key of one of them. -/
  write : ι → String → Bytes → τ → Except DbError Unit × τ

/-- Values kept in a map. -/
abbrev MemoryStore := OrderedMap String Bytes

/-- Access to one map. -/
def MemoryStore.access : StoreAccess Unit MemoryStore where
  read _ key m := .ok (m.get? key)
  write _ key value m := (.ok (), m.insert key value)

/-- Stores with switches that make every read or write fail. -/
structure Failing (τ : Type) where
  /-- The stores. -/
  inner : τ
  /-- Whether reads fail. -/
  read : Bool := false
  /-- Whether writes fail. -/
  write : Bool := false

/-- Access to stores with switches. A failing operation does not reach the store. -/
def StoreAccess.failing {ι τ : Type} (a : StoreAccess ι τ) : StoreAccess ι (Failing τ) where
  read i key s :=
    if s.read then .error (.store "scripted read failure") else a.read i key s.inner
  write i key value s :=
    if s.write then (.error (.store "scripted write failure"), s)
    else
      let r := a.write i key value s.inner
      (r.1, { s with inner := r.2 })

end BoundSql

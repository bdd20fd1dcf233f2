import BoundSql.Config
import BoundSql.Metadata.Payload
import BoundSql.Source
import BoundSql.Store.Basic
import BoundSql.World

/-! # Metadata cache
**`Cache`** — the metadata of sources, kept once it is known. **`Cache.entry`** answers from the
cache, else from the cache's store, else by having the server describe the table; what the server
describes is put into the store. Stored bytes that are no payload of the current version count as
absent, and a store that cannot be written does not fail the answer. -/

namespace BoundSql

/-- Metadata of sources, with the store it is persisted in. -/
structure Cache (ι : Type) where
  /-- What is known, by source. -/
  entries : OrderedMap String Metadata := OrderedMap.empty
  /-- The store, if there is one. -/
  store : Option ι := none
  /-- The start of the store's keys. -/
  keyPrefix : String := defaultKeyPrefix

/-- How a server describes the table of a source. -/
abbrev Describe (σ : Type) := Source → σ → Except DbError (List Column) × σ

namespace Cache

variable {ι σ τ : Type}

instance : Inhabited (Cache ι) := ⟨{}⟩

/-- An event about metadata. -/
def event (level : Level) (fields : List (String × FieldValue)) (message : String) : Event :=
  ⟨level, metadataTarget, fields ++ [("message", .text message)]⟩

/-- The key of a source in the store. -/
def storeKey (c : Cache ι) (name : String) : String := c.keyPrefix ++ name

/-- What is known of a source. -/
def cached (c : Cache ι) (name : String) : Option Metadata := c.entries.get? name

/-- The cache with the metadata of a source. -/
def insert (c : Cache ι) (name : String) (m : Metadata) : Cache ι :=
  { c with entries := c.entries.insert name m }

/-- The cache without a source, and whether it was there. The store is not touched. -/
def invalidate (c : Cache ι) (name : String) : Bool × Cache ι :=
  (c.entries.contains name, { c with entries := c.entries.erase name })

/-- The cache without any source. -/
def reset (c : Cache ι) : Cache ι := { c with entries := OrderedMap.empty }

/-- The number of sources. -/
def size (c : Cache ι) : Nat := c.entries.size

/-- The diagnostic text of a cache. -/
def display (c : Cache ι) : String :=
  Config.displayFields "MetadataCache"
    [("entries", toString c.size),
      ("persistent", if c.store.isSome then "true" else "false"),
      ("key_prefix", Text.quoted c.keyPrefix)]

/-- The metadata that stored bytes hold, and the event of bytes that hold none. -/
def decodeStored (key : String) (bs : Bytes) : Option Metadata × List Event :=
  match Payload.decode bs with
  | none =>
    (none, [event .warn [("key", .text key)] "ignoring unreadable metadata"])
  | some p =>
    if p.version = payloadVersion then (some p.entry, [])
    else
      (none, [event .warn [("key", .text key), ("version", .number p.version)]
        "ignoring metadata with unknown version"])

/-- The metadata under a key of the store. -/
def load (c : Cache ι) (access : StoreAccess ι τ) (key : String) (w : World σ τ) :
    Except DbError (Option Metadata) × World σ τ :=
  match c.store with
  | none => (.ok none, w)
  | some i =>
    match access.read i key w.stores with
    | .error e => (.error e, w)
    | .ok none => (.ok none, w)
    | .ok (some bs) =>
      let r := decodeStored key bs
      (.ok r.1, r.2.foldl World.emit w)

/-- The world after metadata was put into the store. -/
def save (c : Cache ι) (access : StoreAccess ι τ) (now : Moment) (key : String) (m : Metadata)
    (w : World σ τ) : World σ τ :=
  match c.store with
  | none => w
  | some i =>
    match access.write i key (Payload.encode m now) w.stores with
    | (.ok _, stores) => { w with stores }
    | (.error _, stores) =>
      World.emit { w with stores }
        (event .warn [("key", .text key)] "failed to persist metadata")

/-- The metadata of a source as its server describes it. -/
def introspect (describe : Describe σ) (source : Source) (w : World σ τ) :
    Except DbError Metadata × World σ τ :=
  match describe source w.server with
  | (.error e, server) => (.error e, { w with server })
  | (.ok columns, server) => (Metadata.ofColumns source.name columns, { w with server })

/-- The metadata of a source that is not cached, from the store or from the server. -/
def fetch (c : Cache ι) (access : StoreAccess ι τ) (now : Moment) (describe : Describe σ)
    (source : Source) (w : World σ τ) : Except DbError Metadata × World σ τ :=
  let key := c.storeKey source.name
  match c.load access key w with
  | (.error e, w) => (.error e, w)
  | (.ok (some m), w) =>
    (.ok m, w.emit (event .debug [("source", .text source.name), ("key", .text key)]
      "metadata loaded from store"))
  | (.ok none, w) =>
    match introspect describe source w with
    | (.error e, w) => (.error e, w)
    | (.ok m, w) =>
      let w := w.emit (event .debug
        [("source", .text source.name), ("columns", .number m.attributes.length)]
        "metadata introspected")
      (.ok m, c.save access now key m w)

/-- The metadata of a source, which is cached afterwards. -/
def entry (c : Cache ι) (access : StoreAccess ι τ) (now : Moment) (describe : Describe σ)
    (source : Source) (w : World σ τ) : Except DbError Metadata × Cache ι × World σ τ :=
  match c.cached source.name with
  | some m => (.ok m, c, w)
  | none =>
    match c.fetch access now describe source w with
    | (.error e, w) => (.error e, c, w)
    | (.ok m, w) => (.ok m, c.insert source.name m, w)

end Cache

end BoundSql

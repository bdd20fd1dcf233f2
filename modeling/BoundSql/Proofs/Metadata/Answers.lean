import BoundSql.Metadata.Cache
import BoundSql.Proofs.Metadata.Payload
import BoundSql.Proofs.Session.Trace
import BoundSql.Proofs.Store.File

/-! # How a cache answers
* **`Cache.Loads`**, **`Cache.ReadFails`** — what the store says to a cache about a source.
* **`Cache.Answers`** — the ways a call for metadata can go; **`Cache.entry_answers`** — there are
  no others.
* **`Cache.requests`** — what a call asks of the server: to describe the table, or nothing
  (`requests_eq`). -/

namespace BoundSql

variable {ι σ τ : Type}

namespace World

@[simp] theorem server_emit (w : World σ τ) (e : Event) : (w.emit e).server = w.server := rfl

@[simp] theorem stores_emit (w : World σ τ) (e : Event) : (w.emit e).stores = w.stores := rfl

/-- Events move neither the server nor the stores. -/
theorem foldl_emit (es : List Event) (w : World σ τ) :
    (es.foldl emit w).server = w.server ∧ (es.foldl emit w).stores = w.stores := by
  induction es generalizing w with
  | nil => exact ⟨rfl, rfl⟩
  | cons e es ih => exact ih (w.emit e)

end World

/-- Columns make metadata unless there are none. -/
theorem Metadata.ofColumns_eq_error_iff {name : String} {columns : List Column} {e : DbError} :
    ofColumns name columns = .error e ↔ columns = [] ∧ e = .configuration (.noColumns name) := by
  cases columns <;> simp [ofColumns, eq_comm]

namespace Cache

/-! ### What the store says -/

/-- Whether a cache loads metadata of a source: its store has a payload of the current version under
the key of the source. -/
def Loads (c : Cache ι) (access : StoreAccess ι τ) (name : String) (stores : τ) (m : Metadata) :
    Prop :=
  ∃ i bs, c.store = some i ∧ access.read i (c.storeKey name) stores = .ok (some bs) ∧
    Payload.decode bs = some ⟨payloadVersion, m⟩

/-- Whether a cache cannot read its store. -/
def ReadFails (c : Cache ι) (access : StoreAccess ι τ) (name : String) (stores : τ) (e : DbError) :
    Prop :=
  ∃ i, c.store = some i ∧ access.read i (c.storeKey name) stores = .error e

/-- Whether a cache needs the server: it does not know the source, and its store, which it can read,
has nothing for it to load. -/
def Asks (c : Cache ι) (access : StoreAccess ι τ) (name : String) (stores : τ) : Prop :=
  c.cached name = none ∧ (∀ e, ¬ c.ReadFails access name stores e) ∧
    ∀ m, ¬ c.Loads access name stores m

/-- The stores after a cache has put metadata of a source into its own. -/
def persisted (c : Cache ι) (access : StoreAccess ι τ) (now : Moment) (name : String) (m : Metadata)
    (stores : τ) : τ :=
  match c.store with
  | none => stores
  | some i => (access.write i (c.storeKey name) (Payload.encode m now) stores).2

variable {c : Cache ι} {access : StoreAccess ι τ} {now : Moment} {describe : Describe σ}
  {source : Source} {w : World σ τ}

/-- Bytes hold the metadata of a payload of the current version, and nothing else. -/
theorem decodeStored_eq_some_iff (key : String) (bs : Bytes) (m : Metadata) :
    (decodeStored key bs).1 = some m ↔ Payload.decode bs = some ⟨payloadVersion, m⟩ := by
  rw [decodeStored]
  cases Payload.decode bs with
  | none => simp
  | some p =>
    obtain ⟨version, entry⟩ := p
    by_cases hversion : version = payloadVersion
    · simp [hversion]
    · simp [hversion]

/-- What the store says, in one: metadata to load, nothing to load, or a failure to read. -/
def stored (c : Cache ι) (access : StoreAccess ι τ) (name : String) (stores : τ) :
    Except DbError (Option Metadata) :=
  match c.store with
  | none => .ok none
  | some i =>
    (access.read i (c.storeKey name) stores).map fun bs? =>
      bs?.bind fun bs => (decodeStored (c.storeKey name) bs).1

theorem stored_eq_error_iff {name : String} {stores : τ} {e : DbError} :
    c.stored access name stores = .error e ↔ c.ReadFails access name stores e := by
  cases hstore : c.store with
  | none => simp [stored, ReadFails, hstore]
  | some i => cases hread : access.read i (c.storeKey name) stores <;>
      simp [stored, ReadFails, hstore, hread, Except.map]

theorem stored_eq_some_iff {name : String} {stores : τ} {m : Metadata} :
    c.stored access name stores = .ok (some m) ↔ c.Loads access name stores m := by
  cases hstore : c.store with
  | none => simp [stored, Loads, hstore]
  | some i => cases hread : access.read i (c.storeKey name) stores <;>
      simp [stored, Loads, hstore, hread, Except.map, Option.bind_eq_some_iff,
        decodeStored_eq_some_iff]

theorem asks_iff {name : String} {stores : τ} :
    c.Asks access name stores ↔
      c.cached name = none ∧ c.stored access name stores = .ok none := by
  simp only [Asks, ← stored_eq_error_iff, ← stored_eq_some_iff]
  rcases c.stored access name stores with e | _ | m <;> simp

/-- Loading answers what the store says. It moves neither the server nor the stores, and if it fails
it reports nothing. -/
theorem load_eq (c : Cache ι) (access : StoreAccess ι τ) (name : String) (w : World σ τ) :
    let r := c.load access (c.storeKey name) w
    r.1 = c.stored access name w.stores ∧ r.2.server = w.server ∧ r.2.stores = w.stores ∧
      ∀ e, r.1 = .error e → r.2 = w := by
  intro r
  cases hstore : c.store with
  | none => simp [r, load, stored, hstore]
  | some i =>
    rcases hread : access.read i (c.storeKey name) w.stores with e | _ | bs
    · simp [r, load, stored, hstore, hread, Except.map]
    · simp [r, load, stored, hstore, hread, Except.map]
    · have hevents := World.foldl_emit (decodeStored (c.storeKey name) bs).2 w
      simp [r, load, stored, hstore, hread, Except.map, hevents]

/-- Saving puts metadata into the store. Whether that fails is reported and nothing else. -/
theorem save_eq (c : Cache ι) (access : StoreAccess ι τ) (now : Moment) (name : String)
    (m : Metadata) (w : World σ τ) :
    let r := c.save access now (c.storeKey name) m w
    r.server = w.server ∧ r.stores = c.persisted access now name m w.stores := by
  intro r
  cases hstore : c.store with
  | none => simp [r, save, persisted, hstore]
  | some i =>
    rcases hwrite : access.write i (c.storeKey name) (Payload.encode m now) w.stores with
      ⟨_ | _, stores⟩ <;> simp [r, save, persisted, hstore, hwrite]

/-! ### The ways a call can go -/

/-- `c.Answers access now describe source w answer c' w'`: a call for the metadata of a source
answers so and leaves such a cache in such a world. -/
inductive Answers (c : Cache ι) (access : StoreAccess ι τ) (now : Moment) (describe : Describe σ)
    (source : Source) (w : World σ τ) : Except DbError Metadata → Cache ι → World σ τ → Prop
  /-- The metadata is known. -/
  | cached {m : Metadata} (known : c.cached source.name = some m) :
    Answers c access now describe source w (.ok m) c w
  /-- The store cannot be read. -/
  | unreadable {e : DbError} (unknown : c.cached source.name = none)
      (fails : c.ReadFails access source.name w.stores e) :
    Answers c access now describe source w (.error e) c w
  /-- The metadata is loaded from the store. -/
  | loaded {m : Metadata} {w' : World σ τ} (unknown : c.cached source.name = none)
      (loads : c.Loads access source.name w.stores m) (server : w'.server = w.server)
      (stores : w'.stores = w.stores) :
    Answers c access now describe source w (.ok m) (c.insert source.name m) w'
  /-- The server fails to describe the table. -/
  | undescribed {e : DbError} {w' : World σ τ} (asks : c.Asks access source.name w.stores)
      (description : (describe source w.server).1 = .error e)
      (server : w'.server = (describe source w.server).2) (stores : w'.stores = w.stores) :
    Answers c access now describe source w (.error e) c w'
  /-- The table has no columns. -/
  | empty {w' : World σ τ} (asks : c.Asks access source.name w.stores)
      (description : (describe source w.server).1 = .ok [])
      (server : w'.server = (describe source w.server).2) (stores : w'.stores = w.stores) :
    Answers c access now describe source w (.error (.configuration (.noColumns source.name))) c w'
  /-- The server describes the table, and the store is written. -/
  | described {columns : List Column} {m : Metadata} {w' : World σ τ}
      (asks : c.Asks access source.name w.stores)
      (description : (describe source w.server).1 = .ok columns)
      (derived : Metadata.ofColumns source.name columns = .ok m)
      (server : w'.server = (describe source w.server).2)
      (stores : w'.stores = c.persisted access now source.name m w.stores) :
    Answers c access now describe source w (.ok m) (c.insert source.name m) w'

/-- A call for metadata goes in one of these ways. -/
theorem entry_answers (c : Cache ι) (access : StoreAccess ι τ) (now : Moment)
    (describe : Describe σ) (source : Source) (w : World σ τ) :
    let r := c.entry access now describe source w
    c.Answers access now describe source w r.1 r.2.1 r.2.2 := by
  intro r
  have hr : r = c.entry access now describe source w := rfl
  -- In the order of the call: what is known, what the store has, what the server says.
  cases hcached : c.cached source.name with
  | some m =>
    simp only [entry, hcached] at hr
    rw [hr]
    exact .cached hcached
  | none =>
    obtain ⟨hanswer, hserver, hstores, hquiet⟩ := c.load_eq access source.name w
    rcases hload : c.load access (c.storeKey source.name) w with ⟨e | _ | m, w₁⟩
    · -- The store cannot be read.
      rw [hload] at hanswer hquiet
      obtain rfl : w₁ = w := hquiet e rfl
      simp only [entry, hcached, fetch, hload] at hr
      rw [hr]
      exact .unreadable hcached (stored_eq_error_iff.1 hanswer.symm)
    · -- There is nothing to load, so the server describes the table.
      rw [hload] at hanswer hserver hstores
      have hasks : c.Asks access source.name w.stores := asks_iff.2 ⟨hcached, hanswer.symm⟩
      simp only at hserver hstores
      rcases hdescribe : describe source w.server with ⟨e | columns, server⟩
      · simp only [entry, hcached, fetch, hload, introspect, hserver, hdescribe] at hr
        rw [hr]
        exact .undescribed hasks (by rw [hdescribe]) (by rw [hdescribe]) hstores
      · cases hderived : Metadata.ofColumns source.name columns with
        | error e =>
          simp only [entry, hcached, fetch, hload, introspect, hserver, hdescribe, hderived] at hr
          obtain ⟨rfl, rfl⟩ := Metadata.ofColumns_eq_error_iff.1 hderived
          rw [hr]
          exact .empty hasks (by rw [hdescribe]) (by rw [hdescribe]) hstores
        | ok m =>
          simp only [entry, hcached, fetch, hload, introspect, hserver, hdescribe, hderived] at hr
          rw [hr]
          refine .described hasks (by rw [hdescribe]) hderived
            ((c.save_eq access now source.name m _).1.trans ?_)
            ((c.save_eq access now source.name m _).2.trans ?_)
          · rw [hdescribe, World.server_emit]
          · rw [World.stores_emit, hstores]
    · -- The store has the metadata.
      rw [hload] at hanswer hserver hstores
      simp only [entry, hcached, fetch, hload] at hr
      rw [hr]
      exact .loaded hcached (stored_eq_some_iff.1 hanswer.symm) hserver hstores

section

variable {answer : Except DbError Metadata} {c' : Cache ι} {w' : World σ τ} {m : Metadata}
  {e : DbError}

/-- A call for metadata that the cache can load goes that way. -/
theorem Answers.of_loads (h : c.Answers access now describe source w answer c' w')
    (unknown : c.cached source.name = none) (loads : c.Loads access source.name w.stores m) :
    answer = .ok m ∧ w'.server = w.server ∧ w'.stores = w.stores := by
  have hstored := stored_eq_some_iff.2 loads
  -- The store says one thing only, which rules the other ways out.
  cases h with
  | cached known => cases unknown.symm.trans known
  | unreadable _ fails => cases hstored.symm.trans (stored_eq_error_iff.2 fails)
  | loaded _ loads' server stores =>
    obtain rfl : _ = m := by simpa [stored_eq_some_iff.2 loads'] using hstored
    exact ⟨rfl, server, stores⟩
  | undescribed asks | empty asks | described asks => exact absurd loads (asks.2.2 m)

/-- A failure leaves the cache and the stores as they were. -/
theorem Answers.of_error (h : c.Answers access now describe source w answer c' w')
    (hanswer : answer = .error e) : c' = c ∧ w'.stores = w.stores := by
  subst hanswer
  cases h with
  | unreadable => exact ⟨rfl, rfl⟩
  | undescribed _ _ _ stores | empty _ _ _ stores => exact ⟨rfl, stores⟩

/-- A call fails if the store cannot be read, or if the server, which is needed, fails or describes
no columns. -/
theorem Answers.eq_error_iff (h : c.Answers access now describe source w answer c' w') :
    answer = .error e ↔
      c.cached source.name = none ∧ c.ReadFails access source.name w.stores e ∨
        c.Asks access source.name w.stores ∧
          ((describe source w.server).1 = .error e ∨
            (describe source w.server).1 = .ok [] ∧
              e = .configuration (.noColumns source.name)) := by
  rw [← stored_eq_error_iff, asks_iff]
  -- Each way tells what is known and what the store says, and that decides both sides.
  cases h with
  | cached known => simp [known]
  | unreadable unknown fails => simp [unknown, stored_eq_error_iff.2 fails]
  | loaded unknown loads => simp [unknown, stored_eq_some_iff.2 loads]
  | undescribed asks description =>
    obtain ⟨unknown, nothing⟩ := asks_iff.1 asks
    simp [unknown, nothing, description]
  | empty asks description =>
    obtain ⟨unknown, nothing⟩ := asks_iff.1 asks
    simp [unknown, nothing, description, eq_comm]
  | described asks description derived =>
    obtain ⟨unknown, nothing⟩ := asks_iff.1 asks
    have hcolumns : ∀ e, Metadata.ofColumns source.name _ ≠ .error e := fun e he => by
      rw [derived] at he
      cases he
    simp only [ne_eq, Metadata.ofColumns_eq_error_iff] at hcolumns
    simpa [unknown, nothing, description] using hcolumns e

/-- What the server describes is put into the store. -/
theorem Answers.stores_of_asks (h : c.Answers access now describe source w answer c' w')
    (asks : c.Asks access source.name w.stores) (hanswer : answer = .ok m) :
    w'.stores = c.persisted access now source.name m w.stores := by
  subst hanswer
  cases h with
  | cached known => cases asks.1.symm.trans known
  | loaded _ loads => exact absurd loads (asks.2.2 m)
  | described _ _ _ _ stores => exact stores

/-- What the server describes is answered, if it is needed. -/
theorem Answers.eq_ok_of_described (h : c.Answers access now describe source w answer c' w')
    (asks : c.Asks access source.name w.stores) {columns : List Column}
    (description : (describe source w.server).1 = .ok columns)
    (derived : Metadata.ofColumns source.name columns = .ok m) : answer = .ok m := by
  cases h with
  | cached known => cases asks.1.symm.trans known
  | unreadable _ fails => exact absurd fails (asks.2.1 _)
  | loaded _ loads => exact absurd loads (asks.2.2 _)
  | undescribed _ description' => cases description.symm.trans description'
  | empty _ description' =>
    obtain rfl := Except.ok.inj (description.symm.trans description')
    cases derived
  | described _ description' derived' =>
    obtain rfl := Except.ok.inj (description.symm.trans description')
    exact derived'.symm.trans derived

end

end Cache

/-! ### What the server is asked -/

variable {Stmt : Type}

/-- The world with a server that keeps its requests and has received none yet. -/
def World.traced (Stmt : Type) (w : World σ τ) : World (Traced σ Stmt) τ :=
  ⟨⟨w.server, []⟩, w.stores, w.log⟩

/-- The world without the requests that its server keeps. -/
def World.untraced (w : World (Traced σ Stmt) τ) : World σ τ :=
  ⟨w.server.server, w.stores, w.log⟩

theorem World.foldl_emit_untraced (es : List Event) (w : World (Traced σ Stmt) τ) :
    es.foldl emit w.untraced = (es.foldl emit w).untraced := by
  induction es generalizing w with
  | nil => rfl
  | cons e es ih => exact ih (w.emit e)

namespace Cache

theorem load_untraced (c : Cache ι) (access : StoreAccess ι τ) (key : String)
    (w : World (Traced σ Stmt) τ) :
    c.load access key w.untraced = ((c.load access key w).1, (c.load access key w).2.untraced) := by
  cases hstore : c.store with
  | none => simp only [load, hstore]
  | some i =>
    have hstores : w.untraced.stores = w.stores := rfl
    rcases hread : access.read i key w.stores with e | _ | bs <;>
      simp only [load, hstore, hstores, hread, World.foldl_emit_untraced]

theorem save_untraced (c : Cache ι) (access : StoreAccess ι τ) (now : Moment) (key : String)
    (m : Metadata) (w : World (Traced σ Stmt) τ) :
    c.save access now key m w.untraced = (c.save access now key m w).untraced := by
  cases hstore : c.store with
  | none => simp only [save, hstore]
  | some i =>
    have hstores : w.untraced.stores = w.stores := rfl
    rcases hwrite : access.write i key (Payload.encode m now) w.stores with ⟨_ | _, stores⟩ <;>
      simp only [save, hstore, hstores, hwrite] <;> rfl

/-- How a server that keeps its requests describes a table. -/
def watched (Stmt : Type) (describe : Describe σ) : Describe (Traced σ Stmt) := fun source =>
  Backend.watch (.describe source) (describe source)

theorem introspect_untraced (describe : Describe σ) (source : Source)
    (w : World (Traced σ Stmt) τ) :
    introspect describe source w.untraced =
      ((introspect (watched Stmt describe) source w).1,
        (introspect (watched Stmt describe) source w).2.untraced) := by
  have hserver : w.untraced.server = w.server.server := rfl
  rcases hdescribe : describe source w.server.server with ⟨_ | _, server⟩ <;>
    simp only [introspect, hserver, hdescribe, watched, Backend.watch] <;> rfl

/-- Keeping the requests changes nothing else. -/
theorem entry_untraced (c : Cache ι) (access : StoreAccess ι τ) (now : Moment)
    (describe : Describe σ) (source : Source) (w : World (Traced σ Stmt) τ) :
    let t := c.entry access now (watched Stmt describe) source w
    c.entry access now describe source w.untraced = (t.1, t.2.1, t.2.2.untraced) := by
  intro t
  have ht : t = c.entry access now (watched Stmt describe) source w := rfl
  rw [ht]
  cases hcached : c.cached source.name with
  | some m => simp only [entry, hcached]
  | none =>
    have hload := c.load_untraced access (c.storeKey source.name) w
    rcases hl : c.load access (c.storeKey source.name) w with ⟨e | _ | m, w₁⟩
    · simp only [entry, hcached, fetch, hload, hl]
    · have hintrospect := introspect_untraced describe source w₁
      rcases hi : introspect (watched Stmt describe) source w₁ with ⟨e | m, w₂⟩
      · simp only [entry, hcached, fetch, hload, hl, hintrospect, hi]
      · simp only [entry, hcached, fetch, hload, hl, hintrospect, hi, ← save_untraced]
        rfl
    · simp only [entry, hcached, fetch, hload, hl]
      rfl

/-- The requests of a call: what a server that keeps them has after it, if it had none before. -/
def requests (Stmt : Type) (c : Cache ι) (access : StoreAccess ι τ) (now : Moment)
    (describe : Describe σ) (source : Source) (w : World σ τ) : List (Call Stmt) :=
  (c.entry access now (watched Stmt describe) source
    (w.traced Stmt)).2.2.server.exchanges.map Exchange.call

/-- A call has the table described once if the cache needs the server, and asks nothing
otherwise. -/
theorem requests_eq (Stmt : Type) (c : Cache ι) (access : StoreAccess ι τ) (now : Moment)
    (describe : Describe σ) (source : Source) (w : World σ τ) :
    let asked := c.requests Stmt access now describe source w
    (c.Asks access source.name w.stores → asked = [.describe source]) ∧
      (¬ c.Asks access source.name w.stores → asked = []) := by
  intro asked
  have hasked : asked = c.requests Stmt access now describe source w := rfl
  have hanswers := c.entry_answers access now (watched Stmt describe) source (w.traced Stmt)
  rw [requests] at hasked
  generalize c.entry access now (watched Stmt describe) source _ = t at hanswers hasked
  obtain ⟨answer, c', w'⟩ := t
  cases hanswers with
  | cached known => exact ⟨fun asks => (by cases asks.1.symm.trans known), fun _ => hasked⟩
  | unreadable _ fails => exact ⟨fun asks => absurd fails (asks.2.1 _), fun _ => hasked⟩
  | loaded _ loads server =>
    rw [server] at hasked
    exact ⟨fun asks => absurd loads (asks.2.2 _), fun _ => hasked⟩
  | undescribed asks _ server | empty asks _ server | described asks _ _ server =>
    rw [server] at hasked
    exact ⟨fun _ => hasked, fun h => absurd asks h⟩

end Cache

end BoundSql

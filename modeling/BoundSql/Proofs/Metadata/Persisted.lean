import BoundSql.Proofs.Metadata.Answers

/-! # Metadata outlives its cache
* **`Cache.fresh`**, **`Cache.Recalls`** — a cache that knows nothing yet, and what it is to have
  metadata from the store alone.
* **`Cache.recalls_of_persisted`** — what was written is recalled from a store that keeps it.
* **`Cache.fresh_recalls_saved`** — the same after a cache has saved metadata, also on its own after
  the server described the table. -/

namespace BoundSql

namespace Cache

variable {ι σ τ : Type}

/-- A cache that knows nothing yet. -/
def fresh (i : ι) (keyPrefix : String) : Cache ι := { store := some i, keyPrefix }

/-- Whether a cache that knows nothing yet has metadata for a name from its store: it answers
whatever the server would say, asks the server nothing, and changes neither of them. -/
def Recalls (i : ι) (keyPrefix : String) (access : StoreAccess ι τ) (name : String) (m : Metadata)
    (w : World σ τ) : Prop :=
  ∀ (source : Source) (now : Moment) (describe : Describe σ), source.name = name →
    let r := (fresh i keyPrefix).entry access now describe source w
    r.1 = .ok m ∧ r.2.2.server = w.server ∧ r.2.2.stores = w.stores ∧
      ∀ Stmt, (fresh i keyPrefix).requests Stmt access now describe source w = []

variable {i : ι} {keyPrefix : String} {access : StoreAccess ι τ} {name : String} {m : Metadata}
  {now : Moment} {w : World σ τ} {c : Cache ι}

/-- What a cache that knows nothing yet can load it recalls. -/
theorem Loads.recalls (h : (fresh i keyPrefix).Loads access name w.stores m) :
    Recalls i keyPrefix access name m w := by
  rintro source now describe rfl r
  have hanswers := (fresh i keyPrefix).entry_answers access now describe source w
  obtain ⟨hanswer, hserver, hstores⟩ := hanswers.of_loads rfl h
  exact ⟨hanswer, hserver, hstores, fun Stmt =>
    ((fresh i keyPrefix).requests_eq Stmt access now describe source w).2 fun asks => asks.2.2 m h⟩

/-- What a store keeps, every cache with the same keys can load. -/
theorem loads_persisted (keeps : access.Keeps i) (hstore : c.store = some i) {stores : τ}
    (written : (access.write i (c.storeKey name) (Payload.encode m now) stores).1 = .ok ()) :
    (fresh i c.keyPrefix).Loads access name (c.persisted access now name m stores) m := by
  have hread := keeps (c.storeKey name) (Payload.encode m now) stores _ (Prod.ext written rfl)
  refine ⟨i, Payload.encode m now, rfl, ?_, Payload.decode_encode m now⟩
  simp only [persisted, hstore]
  exact hread

/-- A world with what was written to a store that keeps it lets a cache recall it. -/
theorem recalls_of_persisted (keeps : access.Keeps i) (hstore : c.store = some i) {stores : τ}
    (written : (access.write i (c.storeKey name) (Payload.encode m now) stores).1 = .ok ())
    (h : w.stores = c.persisted access now name m stores) :
    Recalls i c.keyPrefix access name m w := by
  apply Loads.recalls
  rw [h]
  exact loads_persisted keeps hstore written

/-- Once a cache has saved metadata in a store that keeps what it takes, as maps do and files in a
directory without links (`MemoryStore.keeps`, `FileStore.keeps`), every cache with the same store
and the same keys recalls it. So it is for all metadata that is saved, and for what a cache saves by
itself when the server has described the table of a source. -/
theorem fresh_recalls_saved (keeps : access.Keeps i) (c : Cache ι) (hstore : c.store = some i)
    (source : Source) (m : Metadata) (now : Moment) (w : World σ τ)
    (written :
      (access.write i (c.storeKey source.name) (Payload.encode m now) w.stores).1 = .ok ()) :
    Recalls i c.keyPrefix access source.name m
        (c.save access now (c.storeKey source.name) m w) ∧
      ∀ (describe : Describe σ) (columns : List Column), c.Asks access source.name w.stores →
        (describe source w.server).1 = .ok columns →
        Metadata.ofColumns source.name columns = .ok m →
          (c.entry access now describe source w).1 = .ok m ∧
            Recalls i c.keyPrefix access source.name m
              (c.entry access now describe source w).2.2 := by
  refine ⟨recalls_of_persisted keeps hstore written (c.save_eq access now source.name m w).2, ?_⟩
  intro describe columns hasks hdescription hderived
  have hanswers := c.entry_answers access now describe source w
  have hanswer := hanswers.eq_ok_of_described hasks hdescription hderived
  have hstores := hanswers.stores_of_asks hasks hanswer
  exact ⟨hanswer, recalls_of_persisted keeps hstore written hstores⟩

/-- Columns whose names hold a quote, a backslash, control characters and letters of other
scripts. -/
def oddColumns : List Column :=
  [⟨"a\"b", "bigint", true, true⟩, ⟨"c\\d", "text", false, false⟩,
    ⟨"e\n\u0001", "text", false, false⟩, ⟨"\u00FC\u65E5", "text", false, false⟩]

/-- Such names are recalled under a source whose name needs escapes too. -/
theorem fresh_recalls_saved_odd_names :
    ∃ m, Metadata.ofColumns "or\"ders\\" oddColumns = .ok m ∧
      m.attributes = ["a\"b", "c\\d", "e\n\u0001", "\u00FC\u65E5"] ∧
      m.autoIncrement = some "a\"b" ∧
      let c : Cache Unit := fresh () "meta-"
      let source := Source.ofName "or\"ders\\"
      let w : World Unit MemoryStore := { server := (), stores := OrderedMap.empty }
      let now : Moment := ⟨Date.first, TimeOfDay.midnight⟩
      let r := c.entry MemoryStore.access now (fun _ _ => (.ok oddColumns, ())) source w
      Recalls () "meta-" MemoryStore.access source.name m
          (c.save MemoryStore.access now (c.storeKey source.name) m w) ∧
        r.1 = .ok m ∧ Recalls () "meta-" MemoryStore.access source.name m r.2.2 := by
  refine ⟨_, rfl, rfl, rfl, ?_⟩
  intro c source w now r
  have hasks : c.Asks MemoryStore.access source.name w.stores := asks_iff.2 ⟨rfl, rfl⟩
  obtain ⟨hsaved, hdescribed⟩ := fresh_recalls_saved MemoryStore.keeps c rfl source _ now w rfl
  exact ⟨hsaved, hdescribed _ _ hasks rfl rfl⟩

end Cache

end BoundSql

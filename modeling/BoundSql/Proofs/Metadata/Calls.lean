import BoundSql.Proofs.Metadata.Persisted

/-! # Runs of calls on a cache
* **`CacheCall`**, **`Cache.run`** — the calls of a cache, in any order. Each call for metadata has
  its own access to the stores and to the server, so any of them may fail at any time in any way.
* **`Cache.cached_run`** — what is known stays known until it is dropped.
* **`Cache.entry_in_run`** — what a call for metadata answers, asks and leaves anywhere in a run. -/

namespace BoundSql

/-- A call of a cache. -/
inductive CacheCall (ι σ τ : Type)
  /-- The metadata of a source is asked for. -/
  | entry (source : Source) (access : StoreAccess ι τ) (now : Moment) (describe : Describe σ)
  /-- What is known of a source is dropped. -/
  | invalidate (name : String)
  /-- What is known is dropped. -/
  | reset

variable {ι σ τ : Type}

namespace CacheCall

/-- The cache and the world after a call. -/
def act (s : Cache ι × World σ τ) : CacheCall ι σ τ → Cache ι × World σ τ
  | entry source access now describe => (s.1.entry access now describe source s.2).2
  | invalidate name => ((s.1.invalidate name).2, s.2)
  | reset => (s.1.reset, s.2)

/-- Whether a call drops what is known of a source. -/
def Drops (name : String) : CacheCall ι σ τ → Prop
  | entry _ _ _ _ => False
  | invalidate dropped => dropped = name
  | reset => True

end CacheCall

namespace Cache

/-- The cache and the world after calls, one after another. -/
def run (calls : List (CacheCall ι σ τ)) (s : Cache ι × World σ τ) : Cache ι × World σ τ :=
  calls.foldl CacheCall.act s

/-! ### What stays known -/

/-- What is put into a cache is known, and changes nothing that is known of other sources. -/
theorem cached_insert (c : Cache ι) (name other : String) (m : Metadata) :
    (c.insert name m).cached other = if other = name then some m else c.cached other :=
  c.entries.get?_insert name other m

/-- Invalidation drops what is known of one source. -/
theorem cached_invalidate (c : Cache ι) (name other : String) :
    (c.invalidate name).2.cached other = if other = name then none else c.cached other :=
  c.entries.get?_erase name other

/-- A known source is answered for by the cache alone, whatever the store and the server would
say. -/
theorem entry_of_cached {c : Cache ι} {source : Source} {m : Metadata}
    (known : c.cached source.name = some m) (access : StoreAccess ι τ) (now : Moment)
    (describe : Describe σ) (w : World σ τ) :
    c.entry access now describe source w = (.ok m, c, w) := by
  simp only [entry, known]

section

variable {c c' : Cache ι} {access : StoreAccess ι τ} {now : Moment} {describe : Describe σ}
  {source : Source} {w w' : World σ τ} {answer : Except DbError Metadata} {name : String}
  {m : Metadata} {e : DbError}

/-- An answer is known afterwards. -/
theorem Answers.cached_of_ok (h : c.Answers access now describe source w answer c' w')
    (hanswer : answer = .ok m) : c'.cached source.name = some m := by
  subst hanswer
  cases h with
  | cached known => exact known
  | loaded | described => rw [cached_insert, if_pos rfl]

/-- What is known stays known, as only what is not known is put into the cache. -/
theorem Answers.cached_of_cached (h : c.Answers access now describe source w answer c' w')
    (known : c.cached name = some m) : c'.cached name = some m := by
  -- Metadata is put into the cache under a name that was not known.
  have hne : c.cached source.name = none → name ≠ source.name := by
    rintro unknown rfl
    rw [unknown] at known
    cases known
  cases h with
  | cached | unreadable | undescribed | empty => exact known
  | loaded unknown => rw [cached_insert, if_neg (hne unknown), known]
  | described asks => rw [cached_insert, if_neg (hne asks.1), known]

end

/-- A call that does not drop a known source leaves it known. -/
theorem cached_act {call : CacheCall ι σ τ} {s : Cache ι × World σ τ} {name : String} {m : Metadata}
    (hkeeps : ¬ call.Drops name) (known : s.1.cached name = some m) :
    (call.act s).1.cached name = some m := by
  cases call with
  | entry source access now describe =>
    exact (s.1.entry_answers access now describe source s.2).cached_of_cached known
  | invalidate dropped =>
    have hne : name ≠ dropped := fun h => hkeeps h.symm
    rw [CacheCall.act, cached_invalidate, if_neg hne, known]
  | reset => exact absurd trivial hkeeps

/-- What is known stays known over all calls that do not drop it. -/
theorem cached_run {calls : List (CacheCall ι σ τ)} {s : Cache ι × World σ τ} {name : String}
    {m : Metadata} (hkeeps : ∀ call ∈ calls, ¬ call.Drops name)
    (known : s.1.cached name = some m) : (run calls s).1.cached name = some m := by
  induction calls generalizing s with
  | nil => exact known
  | cons call calls ih =>
    rw [List.forall_mem_cons] at hkeeps
    exact ih hkeeps.2 (cached_act hkeeps.1 known)

/-! ### Calls for metadata -/

/-- The laws of a call for metadata that answers `answer` and takes a cache in a world from `s` to
`s'`. -/
structure EntryLaws (source : Source) (access : StoreAccess ι τ) (now : Moment)
    (describe : Describe σ) (s : Cache ι × World σ τ) (answer : Except DbError Metadata)
    (s' : Cache ι × World σ τ) : Prop where
  /-- What is answered is known afterwards. -/
  known : ∀ m, answer = .ok m → s'.1.cached source.name = some m
  /-- As long as nothing drops it every later call for the same name answers it, whatever the store
  and the server of that call would say. It asks the server nothing and changes nothing. -/
  stays : ∀ m, answer = .ok m → ∀ later : List (CacheCall ι σ τ),
    (∀ call ∈ later, ¬ call.Drops source.name) →
      ∀ (again : Source) (access' : StoreAccess ι τ) (now' : Moment) (describe' : Describe σ),
        again.name = source.name →
          let t := run later s'
          t.1.entry access' now' describe' again t.2 = (.ok m, t) ∧
            ∀ Stmt, t.1.requests Stmt access' now' describe' again t.2 = []
  /-- Keeping the requests of the call changes nothing of it. -/
  follows : ∀ Stmt,
    let t := s.1.entry access now (watched Stmt describe) source (s.2.traced Stmt)
    (t.1, t.2.1, t.2.2.untraced) = (answer, s')
  /-- The table is described once if the source is not known, the store can be read and has no
  payload of the current version for it, and not at all otherwise. -/
  asked : ∀ Stmt, let asked := s.1.requests Stmt access now describe source s.2
    (s.1.Asks access source.name s.2.stores → asked = [.describe source]) ∧
      (¬ s.1.Asks access source.name s.2.stores → asked = [])
  /-- A failure leaves the cache and the stores as they were. -/
  unchanged : ∀ e, answer = .error e → s'.1 = s.1 ∧ s'.2.stores = s.2.stores
  /-- Only a store that cannot be read makes the call fail, and the server when it is needed, by a
  failure or a table without columns. What is stored does not, nor does a store that cannot be
  written. -/
  fails_iff : ∀ e, answer = .error e ↔
    s.1.cached source.name = none ∧ s.1.ReadFails access source.name s.2.stores e ∨
      s.1.Asks access source.name s.2.stores ∧
        ((describe source s.2.server).1 = .error e ∨
          (describe source s.2.server).1 = .ok [] ∧ e = .configuration (.noColumns source.name))
  /-- What the server describes is in a store that keeps what it takes, as a payload of the current
  version, and a cache that knows nothing yet recalls it. -/
  persists : ∀ m i, answer = .ok m → s.1.Asks access source.name s.2.stores →
    s.1.store = some i → access.Keeps i →
    (access.write i (s.1.storeKey source.name) (Payload.encode m now) s.2.stores).1 = .ok () →
      (∃ bs, access.read i (s.1.storeKey source.name) s'.2.stores = .ok (some bs) ∧
        Payload.decode bs = some ⟨payloadVersion, m⟩) ∧
      Recalls i s.1.keyPrefix access source.name m s'.2

/-- A call for metadata obeys its laws in every cache and every world. -/
theorem entry_laws (s : Cache ι × World σ τ) (source : Source) (access : StoreAccess ι τ)
    (now : Moment) (describe : Describe σ) :
    let r := s.1.entry access now describe source s.2
    EntryLaws source access now describe s r.1 r.2 := by
  intro r
  have hanswers : s.1.Answers access now describe source s.2 r.1 r.2.1 r.2.2 :=
    s.1.entry_answers access now describe source s.2
  -- Each law is read off the one way the call has gone.
  exact {
    known := fun m hm => hanswers.cached_of_ok hm
    stays := by
      rintro m hm later hlater again access' now' describe' hname t
      have known : t.1.cached again.name = some m := by
        rw [hname]
        exact cached_run hlater (hanswers.cached_of_ok hm)
      have hasks : ¬ t.1.Asks access' again.name t.2.stores := fun asks => by
        cases asks.1.symm.trans known
      exact ⟨entry_of_cached known access' now' describe' t.2, fun Stmt =>
        (t.1.requests_eq Stmt access' now' describe' again t.2).2 hasks⟩
    follows := fun Stmt => (s.1.entry_untraced access now describe source (s.2.traced Stmt)).symm
    asked := fun Stmt => s.1.requests_eq Stmt access now describe source s.2
    unchanged := fun e he => hanswers.of_error he
    fails_iff := fun e => hanswers.eq_error_iff
    persists := by
      intro m i hm asks hstore keeps written
      have hloads := loads_persisted keeps hstore written
      rw [← hanswers.stores_of_asks asks hm] at hloads
      have hrecalls := hloads.recalls
      obtain ⟨j, bs, hj, hread, hdecode⟩ := hloads
      obtain rfl := Option.some.inj hj
      exact ⟨⟨bs, hread, hdecode⟩, hrecalls⟩ }

/-- A call for metadata obeys its laws anywhere in a run of calls, whatever is known and stored at
the start and whichever reads, writes and descriptions fail on the way. -/
theorem entry_in_run (start : Cache ι) (world : World σ τ) (before : List (CacheCall ι σ τ))
    (source : Source) (access : StoreAccess ι τ) (now : Moment) (describe : Describe σ) :
    let s := run before (start, world)
    let r := s.1.entry access now describe source s.2
    EntryLaws source access now describe s r.1 r.2 :=
  entry_laws (run before (start, world)) source access now describe

/-- After a read that fails the table is described and saved. Later calls answer from the cache,
even over a store that is down, and a cache that knows nothing yet recalls the answer. -/
theorem entry_in_run_after_failed_read :
    let source := Source.ofName "orders"
    let now : Moment := ⟨Date.first, TimeOfDay.midnight⟩
    let down : StoreAccess Unit MemoryStore :=
      ⟨fun _ _ _ => .error (.store "down"), fun _ _ _ m => (.error (.store "down"), m)⟩
    let describe : Describe Unit := fun _ _ => (.ok [⟨"id", "bigint", true, true⟩], ())
    let start : Cache Unit × World Unit MemoryStore :=
      (fresh () "meta-", { server := (), stores := OrderedMap.empty })
    let s := run [.entry source down now describe] start
    let r := s.1.entry MemoryStore.access now describe source s.2
    let t := run [.invalidate "users", .entry (Source.ofName "users") down now describe] r.2
    ∃ m, m.attributes = ["id"] ∧ r.1 = .ok m ∧
      t.1.entry down now (fun _ _ => (.ok [], ())) source t.2 = (.ok m, t) ∧
      Recalls () "meta-" MemoryStore.access source.name m r.2.2 := by
  intro source now down describe start s r t
  have laws := entry_in_run start.1 start.2 [.entry source down now describe] source
    MemoryStore.access now describe
  have hasks : s.1.Asks MemoryStore.access source.name s.2.stores := asks_iff.2 ⟨rfl, rfl⟩
  have hlater : ∀ call ∈ [CacheCall.invalidate "users",
      CacheCall.entry (Source.ofName "users") down now describe], ¬ call.Drops source.name := by
    simp [CacheCall.Drops, source, Source.ofName]
  obtain ⟨m, hm⟩ : ∃ m, r.1 = .ok m := ⟨_, rfl⟩
  have hattributes : m.attributes = ["id"] := by
    obtain rfl := Except.ok.inj hm
    rfl
  exact ⟨m, hattributes, hm, (laws.stays m hm _ hlater source down now _ rfl).1,
    (laws.persists m () hm hasks rfl MemoryStore.keeps rfl).2⟩

end Cache

end BoundSql

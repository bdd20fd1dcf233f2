import BoundSql.Session.Basic
import Mathlib.Data.List.Induction

/-! # Setting up the metadata cache
A new session has a cache of its own. Configurations, given caches and stores replace it, in any
order.
* **`SetupCall`**, **`Session.setUp`** — the calls, and the session they lead to.
* **`lastGiven`**, **`lastPrefix`**, **`lastStore`** — what counts among the calls.
* **`PlacedSession`** — a session that knows its cache by the place among all caches there are, so
  that a cache is told apart from another one that holds the same.
* **`PlacedSession.Reached`** — what calls can lead to. A call can give any cache there is, also one
  that the session made itself.
* **`PlacedSession.cache_of_reached`** — the cache after any calls. -/

namespace BoundSql

/-- A call that sets up a session. Caches are given as members of `γ`. -/
inductive SetupCall (γ ι : Type)
  /-- A configuration. -/
  | config (c : Config)
  /-- A cache, to be shared. -/
  | metadata (cache : γ)
  /-- A store for a cache of the session's own. -/
  | metadataStore (store : ι)

variable {γ δ ι : Type}

namespace SetupCall

/-- The configuration of a call. -/
def config? : SetupCall γ ι → Option Config
  | config c => some c
  | metadata _ | metadataStore _ => none

/-- The store of a call. -/
def store? : SetupCall γ ι → Option ι
  | metadataStore store => some store
  | config _ | metadata _ => none

/-- What a call that is about the cache gives: a cache, or a store and no cache. -/
def given? : SetupCall γ ι → Option (Option γ)
  | metadata cache => some (some cache)
  | metadataStore _ => some none
  | config _ => none

/-- A call on another kind of caches. -/
def map (f : γ → δ) : SetupCall γ ι → SetupCall δ ι
  | config c => config c
  | metadata cache => metadata (f cache)
  | metadataStore store => metadataStore store

end SetupCall

/-! ### The last calls -/

/-- The last configuration. -/
def lastConfig (calls : List (SetupCall γ ι)) : Config :=
  (calls.filterMap SetupCall.config?).getLast?.getD {}

/-- The key prefix of the last configuration, or the default one. -/
def lastPrefix (calls : List (SetupCall γ ι)) : String :=
  ((calls.filterMap SetupCall.config?).getLast?.map Config.keyPrefix).getD defaultKeyPrefix

/-- The last store. -/
def lastStore (calls : List (SetupCall γ ι)) : Option ι :=
  (calls.filterMap SetupCall.store?).getLast?

/-- The cache that is given by the last call about the cache, if that call gives one. -/
def lastGiven (calls : List (SetupCall γ ι)) : Option γ :=
  (calls.filterMap SetupCall.given?).getLast?.join

section Last

variable (calls : List (SetupCall γ ι)) (call : SetupCall γ ι)

theorem getLast?_filterMap_concat {α β : Type} (f : α → Option β) (l : List α) (a : α) :
    ((l ++ [a]).filterMap f).getLast? = (f a).or (l.filterMap f).getLast? := by
  cases h : f a <;> simp [h]

theorem lastPrefix_eq : lastPrefix calls = (lastConfig calls).keyPrefix := by
  unfold lastPrefix lastConfig
  cases (calls.filterMap SetupCall.config?).getLast? <;> rfl

theorem lastConfig_concat :
    lastConfig (calls ++ [call]) = call.config?.getD (lastConfig calls) := by
  unfold lastConfig
  rw [getLast?_filterMap_concat]
  cases call.config? <;> rfl

theorem lastStore_concat : lastStore (calls ++ [call]) = call.store?.or (lastStore calls) :=
  getLast?_filterMap_concat _ _ _

theorem lastGiven_concat : lastGiven (calls ++ [call]) = call.given?.getD (lastGiven calls) := by
  unfold lastGiven
  rw [getLast?_filterMap_concat]
  cases call.given? <;> rfl

end Last

/-- The cache that a session makes for itself after calls. -/
def ownCache (calls : List (SetupCall γ ι)) : Cache ι :=
  { store := lastStore calls, keyPrefix := lastPrefix calls }

/-! ### Sessions -/

namespace Session

/-- The session after a call. -/
def apply (s : Session ι) : SetupCall (Cache ι) ι → Session ι
  | .config c => s.withConfig c
  | .metadata cache => s.withMetadata cache
  | .metadataStore store => s.withMetadataStore store

/-- The session that calls make of a new one. -/
def setUp (calls : List (SetupCall (Cache ι) ι)) : Session ι := calls.foldl apply {}

theorem setUp_append (calls more : List (SetupCall (Cache ι) ι)) :
    setUp (calls ++ more) = more.foldl apply (setUp calls) := List.foldl_append ..

end Session

/-- A cache as it is given: where it is, and what it holds. -/
structure GivenCache (ι : Type) where
  /-- The place among all caches. -/
  place : Nat
  /-- The cache. -/
  cache : Cache ι

/-- A session in the making, with all caches there are and the place of its own among them. -/
structure PlacedSession (ι : Type) where
  /-- The configuration. -/
  config : Config := {}
  /-- All caches there are, each at its place. -/
  caches : List (Cache ι)
  /-- The place of the session's cache. -/
  place : Nat
  /-- Whether the cache was given. -/
  shared : Bool := false

namespace PlacedSession

/-- The cache of the session. -/
def cache (s : PlacedSession ι) : Cache ι := s.caches.getD s.place {}

/-- The session with a new cache over a store, under the configured keys. -/
def make (s : PlacedSession ι) (store : Option ι) : PlacedSession ι :=
  { s with
    caches := s.caches ++ [{ store, keyPrefix := s.config.keyPrefix }]
    place := s.caches.length }

/-- The session with a configuration. A cache that was not given is made anew, over its store. -/
def withConfig (s : PlacedSession ι) (c : Config) : PlacedSession ι :=
  if s.shared then { s with config := c } else { s with config := c }.make s.cache.store

/-- The session with the cache at a place. -/
def withMetadata (s : PlacedSession ι) (place : Nat) : PlacedSession ι :=
  { s with place, shared := true }

/-- The session with a new cache over a store. -/
def withMetadataStore (s : PlacedSession ι) (store : ι) : PlacedSession ι :=
  { s.make (some store) with shared := false }

/-- A new session beside the caches that there are. -/
def start (given : List (Cache ι)) : PlacedSession ι :=
  { caches := given ++ [{}], place := given.length }

/-- What calls lead to, from a new session beside given caches. -/
inductive Reached (given : List (Cache ι)) :
    List (SetupCall (GivenCache ι) ι) → PlacedSession ι → Prop
  /-- A new session. -/
  | start : Reached given [] (start given)
  /-- A configuration. -/
  | config {calls s} (c : Config) (h : Reached given calls s) :
      Reached given (calls ++ [.config c]) (s.withConfig c)
  /-- A cache that there is by then. -/
  | metadata {calls s} (g : GivenCache ι) (h : Reached given calls s)
      (hg : s.caches[g.place]? = some g.cache) :
      Reached given (calls ++ [.metadata g]) (s.withMetadata g.place)
  /-- A store. -/
  | metadataStore {calls s} (store : ι) (h : Reached given calls s) :
      Reached given (calls ++ [.metadataStore store]) (s.withMetadataStore store)

/-- The session without the places. -/
def session (s : PlacedSession ι) : Session ι :=
  { config := s.config, metadata := s.cache, sharedMetadata := s.shared }

section Steps

variable (s : PlacedSession ι)

@[simp] theorem cache_make (store : Option ι) :
    (s.make store).cache = { store, keyPrefix := s.config.keyPrefix } := by
  simp [make, cache]

@[simp] theorem cache_withMetadataStore (store : ι) :
    (s.withMetadataStore store).cache = { store := some store, keyPrefix := s.config.keyPrefix } :=
  cache_make s (some store)

/-- A cache that was given stays through a configuration. -/
theorem withConfig_of_shared {s : PlacedSession ι} (h : s.shared = true) (c : Config) :
    s.withConfig c = { s with config := c } := by
  simp [withConfig, h]

/-- A cache of the session's own does not. -/
theorem withConfig_of_own {s : PlacedSession ι} (h : s.shared = false) (c : Config) :
    s.withConfig c = { s with config := c }.make s.cache.store := by
  simp [withConfig, h]

/-- The cache at a place where there is one. -/
theorem cache_withMetadata {s : PlacedSession ι} {g : GivenCache ι}
    (h : s.caches[g.place]? = some g.cache) : (s.withMetadata g.place).cache = g.cache := by
  simp [withMetadata, cache, h]

theorem session_start (given : List (Cache ι)) : (start given).session = {} := by
  simp [session, start, cache]

theorem session_withConfig (c : Config) : (s.withConfig c).session = s.session.withConfig c := by
  cases h : s.shared with
  | true =>
    rw [withConfig_of_shared h]
    simp [Session.withConfig, session, cache, h]
  | false =>
    rw [withConfig_of_own h, session, cache_make]
    simp [Session.withConfig, Session.privateCache, session, make, h]

theorem session_withMetadata {s : PlacedSession ι} {g : GivenCache ι}
    (h : s.caches[g.place]? = some g.cache) :
    (s.withMetadata g.place).session = s.session.withMetadata g.cache := by
  rw [session, cache_withMetadata h]
  rfl

theorem session_withMetadataStore (store : ι) :
    (s.withMetadataStore store).session = s.session.withMetadataStore store := by
  rw [session, cache_withMetadataStore]
  rfl

end Steps

/-! ### The cache after calls -/

variable {given : List (Cache ι)} {calls : List (SetupCall (GivenCache ι) ι)}
  {s : PlacedSession ι}

/-- The place of no cache that was there at the start or that one of the calls gave. -/
def IsPrivate (given : List (Cache ι)) (calls : List (SetupCall (GivenCache ι) ι))
    (place : Nat) : Prop :=
  given.length ≤ place ∧ ∀ g, .metadata g ∈ calls → g.place < place

/-- The caches that a session has to leave as they were. -/
structure Kept (given : List (Cache ι)) (calls : List (SetupCall (GivenCache ι) ι))
    (caches : List (Cache ι)) : Prop where
  /-- The ones that were there at the start. -/
  given_prefix : given <+: caches
  /-- The ones that were given by a call. -/
  getElem?_place : ∀ g, .metadata g ∈ calls → caches[g.place]? = some g.cache

/-- Caches are kept beside a new one, which is private. -/
theorem Kept.make (h : Kept given calls s.caches) (store : Option ι) :
    Kept given calls (s.make store).caches ∧ IsPrivate given calls (s.make store).place := by
  have hlt : ∀ g, .metadata g ∈ calls → g.place < s.caches.length := fun g hg =>
    (List.getElem?_eq_some_iff.1 (h.getElem?_place g hg)).1
  refine ⟨⟨h.given_prefix.trans (List.prefix_append _ _), ?_⟩, h.given_prefix.length_le, hlt⟩
  intro g hg
  rw [PlacedSession.make, List.getElem?_append_left (hlt g hg)]
  exact h.getElem?_place g hg

/-- Only calls that give a cache count. -/
theorem Kept.concat {caches : List (Cache ι)} (h : Kept given calls caches)
    {call : SetupCall (GivenCache ι) ι}
    (hcall : ∀ g, call = .metadata g → caches[g.place]? = some g.cache) :
    Kept given (calls ++ [call]) caches where
  given_prefix := h.given_prefix
  getElem?_place g hg := by
    rcases List.mem_append.1 hg with hg | hg
    · exact h.getElem?_place g hg
    · exact hcall g (List.mem_singleton.1 hg).symm

theorem IsPrivate.concat {place : Nat} (h : IsPrivate given calls place)
    {call : SetupCall (GivenCache ι) ι} (hcall : ∀ g, call ≠ .metadata g) :
    IsPrivate given (calls ++ [call]) place := by
  refine ⟨h.1, fun g hg => ?_⟩
  rcases List.mem_append.1 hg with hg | hg
  · exact h.2 g hg
  · exact absurd (List.mem_singleton.1 hg).symm (hcall g)

/-- What calls have made of a session, and what they have left. -/
structure SetUpBy (given : List (Cache ι)) (calls : List (SetupCall (GivenCache ι) ι))
    (s : PlacedSession ι) : Prop where
  /-- The last configuration counts. -/
  config_eq : s.config = lastConfig calls
  /-- No cache has changed. -/
  kept : Kept given calls s.caches
  /-- The cache is known to be a given one. -/
  shared_eq : s.shared = (lastGiven calls).isSome
  /-- It is the one given last. -/
  given_last : ∀ g, lastGiven calls = some g → s.place = g.place ∧ s.cache = g.cache
  /-- Or it is one that the session made. -/
  own : lastGiven calls = none → IsPrivate given calls s.place ∧ s.cache = ownCache calls

/-- A new session has a cache of its own. -/
theorem setUpBy_start (given : List (Cache ι)) : SetUpBy given [] (start given) where
  config_eq := rfl
  kept := ⟨List.prefix_append _ _, fun g hg => by cases hg⟩
  shared_eq := rfl
  given_last g hg := by cases hg
  own _ := ⟨⟨Nat.le_refl _, fun g hg => by cases hg⟩,
    by simp [start, cache, ownCache, lastStore, lastPrefix]⟩

theorem SetUpBy.withConfig (h : SetUpBy given calls s) (c : Config) :
    SetUpBy given (calls ++ [.config c]) (s.withConfig c) := by
  have hgiven : lastGiven (calls ++ [.config c]) = lastGiven calls := lastGiven_concat _ _
  have hconfig : lastConfig (calls ++ [.config c]) = c := lastConfig_concat _ _
  have hstore : lastStore (calls ++ [.config c]) = lastStore calls := lastStore_concat _ _
  cases hs : s.shared with
  | true =>
    have hsome : (lastGiven calls).isSome := h.shared_eq ▸ hs
    rw [withConfig_of_shared hs]
    exact
      { config_eq := hconfig.symm
        kept := h.kept.concat nofun
        shared_eq := hgiven ▸ h.shared_eq
        given_last := hgiven ▸ h.given_last
        own := fun hnone => by simp [← hgiven, hnone] at hsome }
  | false =>
    -- The cache that is replaced was the session's own, so its store is the last one.
    have hnone : lastGiven calls = none := by
      rw [← Option.not_isSome_iff_eq_none, ← h.shared_eq, hs]
      decide
    have hcache : s.cache.store = lastStore calls := by rw [(h.own hnone).2, ownCache]
    obtain ⟨hkept, hprivate⟩ := h.kept.make (s := { s with config := c }) s.cache.store
    rw [withConfig_of_own hs]
    exact
      { config_eq := hconfig.symm
        kept := hkept.concat nofun
        shared_eq := hgiven ▸ h.shared_eq
        given_last := fun g hg => by simp [hgiven, hnone] at hg
        own := fun _ => ⟨hprivate.concat nofun, by
          rw [cache_make, ownCache, hstore, lastPrefix_eq, hconfig, hcache]⟩ }

theorem SetUpBy.withMetadata (h : SetUpBy given calls s) {g : GivenCache ι}
    (hg : s.caches[g.place]? = some g.cache) :
    SetUpBy given (calls ++ [.metadata g]) (s.withMetadata g.place) := by
  have hgiven : lastGiven (calls ++ [.metadata g]) = some g := lastGiven_concat _ _
  have hconfig : lastConfig (calls ++ [.metadata g]) = lastConfig calls := lastConfig_concat _ _
  exact
    { config_eq := h.config_eq.trans hconfig.symm
      kept := h.kept.concat fun g' hg' => by
        cases hg'
        exact hg
      shared_eq := by
        rw [hgiven]
        rfl
      given_last := fun g' hg' => by
        obtain rfl : g = g' := Option.some.inj (hgiven.symm.trans hg')
        exact ⟨rfl, cache_withMetadata hg⟩
      own := fun hnone => by simp [hgiven] at hnone }

theorem SetUpBy.withMetadataStore (h : SetUpBy given calls s) (store : ι) :
    SetUpBy given (calls ++ [.metadataStore store]) (s.withMetadataStore store) := by
  have hgiven : lastGiven (calls ++ [.metadataStore store]) = none := lastGiven_concat _ _
  have hstore : lastStore (calls ++ [.metadataStore store]) = some store := lastStore_concat _ _
  have hconfig : lastConfig (calls ++ [.metadataStore store]) = lastConfig calls :=
    lastConfig_concat _ _
  obtain ⟨hkept, hprivate⟩ := h.kept.make (some store)
  exact
    { config_eq := h.config_eq.trans hconfig.symm
      kept := hkept.concat nofun
      shared_eq := by
        rw [hgiven]
        rfl
      given_last := fun g hg => by simp [hgiven] at hg
      own := fun _ => ⟨hprivate.concat nofun, by
        rw [cache_withMetadataStore, ownCache, hstore, lastPrefix_eq, hconfig, h.config_eq]⟩ }

/-- The induction over the calls. -/
theorem Reached.setUpBy (h : Reached given calls s) : SetUpBy given calls s := by
  induction h with
  | start => exact setUpBy_start given
  | config c _ ih => exact ih.withConfig c
  | metadata g _ hg ih => exact ih.withMetadata hg
  | metadataStore store _ ih => exact ih.withMetadataStore store

theorem Reached.session_eq (h : Reached given calls s) :
    s.session = Session.setUp (calls.map (SetupCall.map GivenCache.cache)) := by
  induction h with
  | start => exact session_start given
  | config c _ ih =>
    rw [session_withConfig, ih, List.map_append, Session.setUp_append]
    rfl
  | metadata g _ hg ih =>
    rw [session_withMetadata hg, ih, List.map_append, Session.setUp_append]
    rfl
  | metadataStore store _ ih =>
    rw [session_withMetadataStore, ih, List.map_append, Session.setUp_append]
    rfl

/-- Calls that give caches of the start lead somewhere. -/
theorem exists_reached (h : ∀ g, .metadata g ∈ calls → given[g.place]? = some g.cache) :
    ∃ s, Reached given calls s := by
  induction calls using List.reverseRecOn with
  | nil => exact ⟨_, .start⟩
  | append_singleton calls call ih =>
    obtain ⟨s, hs⟩ := ih fun g hg => h g (List.mem_append_left _ hg)
    cases call with
    | config c => exact ⟨_, hs.config c⟩
    | metadata g =>
      -- The caches that were there at the start are still at their places.
      have hg : given[g.place]? = some g.cache := h g (by simp)
      obtain ⟨made, hmade⟩ := hs.setUpBy.kept.given_prefix
      refine ⟨_, hs.metadata g ?_⟩
      rw [← hmade, List.getElem?_append_left (List.getElem?_eq_some_iff.1 hg).1, hg]
    | metadataStore store => exact ⟨_, hs.metadataStore store⟩

/-- After any calls on a new session, in any order, the caches that there were and that were given
are untouched. If the last call about the cache gave one, the session's cache is that very one, with
the key prefix and the store it had. Otherwise it is a private one, under the key prefix of the last
configuration and over the last store, whatever was given in between. -/
theorem cache_of_reached (h : Reached given calls s) :
    s.session = Session.setUp (calls.map (SetupCall.map GivenCache.cache)) ∧
      Kept given calls s.caches ∧
      match lastGiven calls with
      | some g => s.place = g.place ∧ s.session.metadata = g.cache
      | none => IsPrivate given calls s.place ∧ s.session.metadata = ownCache calls := by
  have hby : SetUpBy given calls s := h.setUpBy
  refine ⟨h.session_eq, hby.kept, ?_⟩
  cases hlast : lastGiven calls with
  | some g => exact hby.given_last g hlast
  | none => exact hby.own hlast

/-- A session is given a cache that it made, which is then kept under a new configuration. -/
theorem cache_of_reached_made_before :
    Reached [({} : Cache Nat)]
        [.metadataStore 7, .metadata ⟨2, { store := some 7 }⟩, .config { keyPrefix := "p:" }]
        ((((start [{}]).withMetadataStore 7).withMetadata 2).withConfig { keyPrefix := "p:" }) ∧
      ((((start [({} : Cache Nat)]).withMetadataStore 7).withMetadata 2).withConfig
        { keyPrefix := "p:" }).session.metadata = { store := some 7 } := by
  have h : Reached [({} : Cache Nat)]
      [.metadataStore 7, .metadata ⟨2, { store := some 7 }⟩, .config { keyPrefix := "p:" }] _ :=
    .config _ (.metadata _ (.metadataStore 7 .start) rfl)
  exact ⟨h, (cache_of_reached h).2.2.2⟩

end PlacedSession

end BoundSql

import BoundSql.Proofs.Store.File

/-! # Runs of calls on stores
* **`StoreAccess.answers`** — what a sequence of reads and writes answers.
* **`lastWritten`**, **`expectedAnswers`** — the last value written under any of some keys, and the
  answers of a store that takes some keys for the same.
* **`MemoryStore.answers_eq`**, **`FileStore.answers_eq`** — a map takes every key for itself only,
  and files take all keys for the same that are written alike in file names. **`FileStore.Holds`**
  is what every call keeps.
* **`FileStore.answers_eq_memory_iff`** — when files answer a run as a map does. -/

namespace BoundSql

/-- A call of a store. -/
inductive StoreCall
  /-- The value of a key. -/
  | read (key : String)
  /-- A value for a key. -/
  | write (key : String) (value : Bytes)
  deriving DecidableEq, Repr

/-! ### Runs -/

namespace StoreAccess

variable {ι τ : Type}

/-- What a call answers, and the stores after it. A write that succeeds answers no value. -/
def act (a : StoreAccess ι τ) (i : ι) (stores : τ) : StoreCall →
    Except DbError (Option Bytes) × τ
  | .read key => (a.read i key stores, stores)
  | .write key value =>
    ((a.write i key value stores).1.map fun _ => none, (a.write i key value stores).2)

/-- What calls answer, one after another. -/
def answers (a : StoreAccess ι τ) (i : ι) : τ → List StoreCall →
    List (Except DbError (Option Bytes))
  | _, [] => []
  | stores, call :: calls =>
    (a.act i stores call).1 :: a.answers i (a.act i stores call).2 calls

end StoreAccess

/-! ### What is expected of a run -/

namespace StoreCall

/-- The value that a call writes under a key with a property. -/
def written (p : String → Bool) : StoreCall → Option Bytes
  | read _ => none
  | write key value => if p key then some value else none

end StoreCall

/-- The last value that calls write under keys with a property. -/
def lastWritten (p : String → Bool) (calls : List StoreCall) : Option Bytes :=
  (calls.filterMap (StoreCall.written p)).getLast?

/-- The answers of a store that takes two keys for the same if `same` says so, to calls that follow
the calls `before`. -/
def expectedAnswers (same : String → String → Bool) : List StoreCall → List StoreCall →
    List (Except DbError (Option Bytes))
  | _, [] => []
  | before, .read key :: calls =>
    .ok (lastWritten (same key) before) :: expectedAnswers same (before ++ [.read key]) calls
  | before, .write key value :: calls =>
    .ok none :: expectedAnswers same (before ++ [.write key value]) calls

theorem lastWritten_concat_read (p : String → Bool) (calls : List StoreCall) (key : String) :
    lastWritten p (calls ++ [.read key]) = lastWritten p calls := by
  simp [lastWritten, List.filterMap_append, StoreCall.written]

theorem lastWritten_concat_write (p : String → Bool) (calls : List StoreCall) (key : String)
    (value : Bytes) :
    lastWritten p (calls ++ [.write key value]) =
      if p key then some value else lastWritten p calls := by
  cases h : p key <;> simp [lastWritten, List.filterMap_append, StoreCall.written, h]

/-- Two expectations of a run agree exactly if they agree on each of its reads. -/
theorem expectedAnswers_eq_iff {same same' : String → String → Bool}
    {before calls : List StoreCall} :
    expectedAnswers same before calls = expectedAnswers same' before calls ↔
      ∀ earlier key later, calls = earlier ++ StoreCall.read key :: later →
        lastWritten (same key) (before ++ earlier) =
          lastWritten (same' key) (before ++ earlier) := by
  induction calls generalizing before with
  | nil =>
    refine iff_of_true rfl fun earlier key later h => ?_
    simp at h
  | cons call calls ih =>
    -- A read of the run is the first call, or a read of the calls after it.
    have hsplit : (∀ earlier key later, call :: calls = earlier ++ StoreCall.read key :: later →
          lastWritten (same key) (before ++ earlier) =
            lastWritten (same' key) (before ++ earlier)) ↔
        (∀ key, call = .read key →
            lastWritten (same key) before = lastWritten (same' key) before) ∧
          expectedAnswers same (before ++ [call]) calls =
            expectedAnswers same' (before ++ [call]) calls := by
      rw [ih]
      constructor
      · intro h
        refine ⟨fun key hkey => ?_, fun earlier key later hcalls => ?_⟩
        · simpa using h [] key calls (by rw [hkey]; rfl)
        · simpa using h (call :: earlier) key later (by rw [hcalls]; rfl)
      · rintro ⟨hfirst, hrest⟩ earlier key later hcalls
        cases earlier with
        | nil =>
          rw [List.append_nil]
          exact hfirst key (List.cons.inj hcalls).1
        | cons c earlier =>
          obtain ⟨rfl, htail⟩ := List.cons.inj hcalls
          simpa using hrest earlier key later htail
    rw [hsplit]
    cases call with
    | read key => simp [expectedAnswers]
    | write key value => simp [expectedAnswers]

/-! ### Maps -/

namespace MemoryStore

/-- A map answers with the last value written under the very key. -/
theorem answers_eq (calls : List StoreCall) :
    access.answers () OrderedMap.empty calls =
      expectedAnswers (fun key k => key == k) [] calls := by
  -- The map holds under each key what was written under it last.
  have hrun : ∀ (m : MemoryStore) (before calls : List StoreCall),
      (∀ key, m.get? key = lastWritten (key == ·) before) →
        access.answers () m calls = expectedAnswers (fun key k => key == k) before calls := by
    intro m before calls hm
    induction calls generalizing m before with
    | nil => rfl
    | cons call calls ih =>
      cases call with
      | read key =>
        have hrest := ih m (before ++ [.read key]) fun k => by rw [hm, lastWritten_concat_read]
        rw [StoreAccess.answers, expectedAnswers, ← hm key, ← hrest]
        rfl
      | write key value =>
        have hrest := ih (m.insert key value) (before ++ [.write key value]) fun k => by
          rw [OrderedMap.get?_insert, hm, lastWritten_concat_write]
          simp only [beq_iff_eq]
        rw [StoreAccess.answers, expectedAnswers, ← hrest]
        rfl
  exact hrun _ [] calls fun _ => rfl

end MemoryStore

/-! ### Files -/

namespace FileStore

/-- Whether two keys share a file. -/
def sharesFile (key key' : String) : Bool := stem key == stem key'

theorem act_read (store : FileStore) (key : String) (d : Directory) :
    store.access.act () d (.read key) = (store.read key d, d) := by
  simp only [StoreAccess.act, access]

theorem act_write (store : FileStore) (key : String) (value : Bytes) (d : Directory) :
    store.access.act () d (.write key value) =
      ((store.write key value d).1.map fun _ => none, (store.write key value d).2) := by
  simp only [StoreAccess.act, access]

variable {store : FileStore} {d : Directory} {calls : List StoreCall}

/-- Before each call, every key has the value that was written last to its file. -/
structure Holds (d : Directory) (before : List StoreCall) : Prop where
  /-- There are no links. -/
  plain : d.IsPlain
  /-- As long as the directory is not there, no key has a value. -/
  there : (∃ t, d = .entries t) ∨ ∀ key, value? key d = none
  /-- The values are those that were written last. -/
  value : ∀ key, value? key d = lastWritten (sharesFile key) before

namespace Holds

variable {d' : Directory} {before : List StoreCall} {key : String} {value : Bytes}

/-- What is read is what was written last, and reading changes nothing. -/
theorem read (h : Holds d before) {v : Option Bytes} (hread : store.read key d = .ok v) :
    v = lastWritten (sharesFile key) before ∧ Holds d (before ++ [.read key]) := by
  refine ⟨(read_eq_ok hread (h.there.imp_right fun hd => hd key)).trans (h.value key), h.plain,
    h.there, fun k => ?_⟩
  rw [h.value, lastWritten_concat_read]

theorem write (h : Holds d before) (hwrite : store.write key value d = (.ok (), d')) :
    Holds d' (before ++ [.write key value]) := by
  have hplain : d'.IsPlain := by
    have hkept := store.isPlain_write key value h.plain
    rwa [hwrite] at hkept
  obtain ⟨t, t', -, rfl, -⟩ := read_of_write h.plain hwrite
  refine ⟨hplain, .inl ⟨t', rfl⟩, fun k => ?_⟩
  rw [value?_write h.plain hwrite, h.value, lastWritten_concat_write]
  simp only [sharesFile, beq_iff_eq]

theorem answers_eq_expected (h : Holds d before)
    (hok : ∀ answer ∈ store.access.answers () d calls, answer.toBool = true) :
    store.access.answers () d calls = expectedAnswers sharesFile before calls := by
  induction calls generalizing d before with
  | nil => rfl
  | cons call calls ih =>
    rw [StoreAccess.answers, List.forall_mem_cons] at hok
    obtain ⟨hfirst, hrest⟩ := hok
    cases call with
    | read key =>
      rw [act_read] at hfirst hrest
      rw [StoreAccess.answers, act_read, expectedAnswers]
      cases hread : store.read key d with
      | error e =>
        rw [hread] at hfirst
        cases hfirst
      | ok v =>
        obtain ⟨rfl, hholds⟩ := h.read hread
        rw [ih hholds hrest]
    | write key value =>
      rw [act_write] at hfirst hrest
      rw [StoreAccess.answers, act_write, expectedAnswers]
      rcases hwrite : store.write key value d with ⟨e | _, d'⟩
      · rw [hwrite] at hfirst
        cases hfirst
      · rw [hwrite] at hrest
        rw [ih (h.write hwrite) hrest]
        rfl

end Holds

/-- While no call fails, files of a directory without links hold what was written last under the
keys that share them, and answer with it. -/
theorem answers_eq (hplain : d.IsPlain) (hd : ∀ key, value? key d = none)
    (hok : ∀ answer ∈ store.access.answers () d calls, answer.toBool = true) :
    store.access.answers () d calls = expectedAnswers sharesFile [] calls :=
  Holds.answers_eq_expected ⟨hplain, .inr hd, hd⟩ hok

/-- Runs in which no call fails, from a directory without links and without values. A map answers
every read with the last value written under that very key, and files answer with the last value
written under any key that shares the file. So files answer as the map exactly if, at every read,
the last of the values written to the file of the key was written under the key itself, or is equal
to the last one that was. -/
theorem answers_eq_memory_iff (store : FileStore) (hplain : d.IsPlain)
    (hd : ∀ key, value? key d = none)
    (hok : ∀ answer ∈ store.access.answers () d calls, answer.toBool = true) :
    MemoryStore.access.answers () OrderedMap.empty calls =
        expectedAnswers (fun key k => key == k) [] calls ∧
      store.access.answers () d calls = expectedAnswers sharesFile [] calls ∧
      (store.access.answers () d calls =
          MemoryStore.access.answers () OrderedMap.empty calls ↔
        ∀ earlier key later, calls = earlier ++ StoreCall.read key :: later →
          lastWritten (sharesFile key) earlier = lastWritten (key == ·) earlier) := by
  refine ⟨MemoryStore.answers_eq calls, answers_eq hplain hd hok, ?_⟩
  rw [answers_eq hplain hd hok, MemoryStore.answers_eq, expectedAnswers_eq_iff]
  rfl

/-- Keys of three sources, one of which is written twice. -/
theorem answers_eq_memory_iff_three_keys :
    let access := FileStore.access ⟨"/tmp/cache"⟩
    let calls : List StoreCall :=
      [.write "meta-a" [1], .write "meta-b" [2], .read "meta-a", .write "meta-a" [3],
        .read "meta-b", .read "meta-a", .read "meta-c"]
    (∀ answer ∈ access.answers () .absent calls, answer.toBool = true) ∧
      access.answers () .absent calls =
        [.ok none, .ok none, .ok (some [1]), .ok none, .ok (some [2]), .ok (some [3]), .ok none] ∧
      (access.answers () .absent calls =
          MemoryStore.access.answers () OrderedMap.empty calls ↔
        ∀ earlier key later, calls = earlier ++ StoreCall.read key :: later →
          lastWritten (sharesFile key) earlier = lastWritten (key == ·) earlier) := by
  dsimp only
  have hanswers : (FileStore.access ⟨"/tmp/cache"⟩).answers () .absent
      [.write "meta-a" [1], .write "meta-b" [2], .read "meta-a", .write "meta-a" [3],
        .read "meta-b", .read "meta-a", .read "meta-c"] =
      [.ok none, .ok none, .ok (some [1]), .ok none, .ok (some [2]), .ok (some [3]), .ok none] := by
    rfl
  have hok : ∀ answer ∈ (FileStore.access ⟨"/tmp/cache"⟩).answers () .absent
      [.write "meta-a" [1], .write "meta-b" [2], .read "meta-a", .write "meta-a" [3],
        .read "meta-b", .read "meta-a", .read "meta-c"], answer.toBool = true := by
    rw [hanswers]
    decide
  exact ⟨hok, hanswers,
    (answers_eq_memory_iff _ Directory.isPlain_absent value?_absent hok).2.2⟩

/-- Files give the metadata of one source for that of another whose name differs in a character that
file names do not have. -/
theorem shared_file_read :
    let access := FileStore.access ⟨"/tmp/cache"⟩
    let calls : List StoreCall := [.write "meta-a b" [1], .read "meta-a_b"]
    access.answers () .absent calls = [.ok none, .ok (some [1])] ∧
      MemoryStore.access.answers () OrderedMap.empty calls = [.ok none, .ok none] ∧
      access.answers () .absent calls ≠
        MemoryStore.access.answers () OrderedMap.empty calls := by
  dsimp only
  have hfiles : (FileStore.access ⟨"/tmp/cache"⟩).answers () .absent
      [.write "meta-a b" [1], .read "meta-a_b"] = [.ok none, .ok (some [1])] := rfl
  have hmap : MemoryStore.access.answers () OrderedMap.empty
      [.write "meta-a b" [1], .read "meta-a_b"] = [.ok none, .ok none] := rfl
  refine ⟨hfiles, hmap, ?_⟩
  rw [hfiles, hmap]
  simp

end FileStore

end BoundSql

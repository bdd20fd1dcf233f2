/-! # Maps in insertion order
**`OrderedMap κ ν`** — a finite map that remembers the order in which its keys were first given.
Storing under a key that is present keeps the key's place and replaces the value, so every key
occurs once. Its view is `entries`; `insert`, `merge`, `erase` and `ofList` say what they do to
it. -/

namespace BoundSql

/-- A finite map with distinct keys, in the order the keys were first stored. -/
structure OrderedMap (κ : Type) (ν : Type) where
  /-- The keys with their values, in order. -/
  entries : List (κ × ν)
  /-- Every key occurs once. -/
  nodup : (entries.map Prod.fst).Nodup

namespace OrderedMap

variable {κ ν : Type}

/-- The map without keys. -/
def empty : OrderedMap κ ν := ⟨[], List.nodup_nil⟩

instance : Inhabited (OrderedMap κ ν) := ⟨empty⟩

/-- The keys in order. -/
def keys (m : OrderedMap κ ν) : List κ := m.entries.map Prod.fst

/-- The number of keys. -/
def size (m : OrderedMap κ ν) : Nat := m.entries.length

/-- Whether there is no key. -/
def isEmpty (m : OrderedMap κ ν) : Bool := m.entries.isEmpty

@[simp] theorem entries_empty : (empty : OrderedMap κ ν).entries = [] := rfl

/-- Two maps with the same entries are the same map. -/
@[ext] theorem ext {m n : OrderedMap κ ν} (h : m.entries = n.entries) : m = n := by
  cases m; cases n; simp_all

instance [DecidableEq κ] [DecidableEq ν] : DecidableEq (OrderedMap κ ν) := fun _ _ =>
  decidable_of_iff _ OrderedMap.ext_iff.symm

variable [DecidableEq κ]

/-- The value stored under a key. -/
def get? (m : OrderedMap κ ν) (k : κ) : Option ν := m.entries.lookup k

/-- Whether a key is present. -/
def contains (m : OrderedMap κ ν) (k : κ) : Bool := (m.get? k).isSome

/-- Entries with `v` under `k`: in place if `k` occurs, at the end otherwise. -/
def store (k : κ) (v : ν) : List (κ × ν) → List (κ × ν)
  | [] => [(k, v)]
  | e :: es => if e.1 = k then (k, v) :: es else e :: store k v es

/-- Storing under a key that occurs keeps the keys, and under a new one appends it. -/
theorem map_fst_store (k : κ) (v : ν) (es : List (κ × ν)) :
    (store k v es).map Prod.fst =
      if k ∈ es.map Prod.fst then es.map Prod.fst else es.map Prod.fst ++ [k] := by
  induction es with
  | nil => rfl
  | cons e es ih =>
    by_cases h : e.1 = k
    · simp [store, h]
    · have h' : ¬ k = e.1 := fun hk => h hk.symm
      simp only [store, h, if_false, List.map_cons, ih, List.mem_cons, h', false_or]
      split <;> simp

/-- Storing keeps keys distinct. -/
theorem nodup_store (k : κ) (v : ν) {es : List (κ × ν)} (h : (es.map Prod.fst).Nodup) :
    ((store k v es).map Prod.fst).Nodup := by
  rw [map_fst_store]
  split
  · exact h
  · rename_i hk
    rw [List.nodup_append]
    refine ⟨h, by simp, ?_⟩
    intro a ha b hb hab
    simp only [List.mem_singleton] at hb
    exact hk (hb ▸ hab ▸ ha)

/-- The map with `v` under `k`: in place if `k` is present, last otherwise. -/
def insert (m : OrderedMap κ ν) (k : κ) (v : ν) : OrderedMap κ ν :=
  ⟨store k v m.entries, nodup_store k v m.nodup⟩

@[simp] theorem entries_insert (m : OrderedMap κ ν) (k : κ) (v : ν) :
    (m.insert k v).entries = store k v m.entries := rfl

/-- The map with the entries of a list stored one after another. -/
def insertAll (m : OrderedMap κ ν) (es : List (κ × ν)) : OrderedMap κ ν :=
  es.foldl (fun m e => m.insert e.1 e.2) m

/-- The map of a list of entries, stored one after another. -/
def ofList (es : List (κ × ν)) : OrderedMap κ ν := empty.insertAll es

/-- The map `m` with every entry of `n` stored in it, in the order of `n`. -/
def merge (m n : OrderedMap κ ν) : OrderedMap κ ν := m.insertAll n.entries

/-- The map without a key. -/
def erase (m : OrderedMap κ ν) (k : κ) : OrderedMap κ ν :=
  ⟨m.entries.filter fun e => e.1 ≠ k, by
    exact List.Nodup.sublist (List.filter_sublist.map Prod.fst) m.nodup⟩

@[simp] theorem insertAll_nil (m : OrderedMap κ ν) : m.insertAll [] = m := rfl

@[simp] theorem insertAll_cons (m : OrderedMap κ ν) (e : κ × ν) (es : List (κ × ν)) :
    m.insertAll (e :: es) = (m.insert e.1 e.2).insertAll es := rfl

end OrderedMap

end BoundSql

import BoundSql.OrderedMap

/-! # Laws of maps in insertion order
What the operations do to the keys of a map and to the value under a key.
* **`get?_insert`**, **`keys_insert`** — storing changes one value and appends at most one key;
  **`get?_erase`** — erasing takes one value away.
* **`get?_insertAll_of_mem`**, **`get?_insertAll_of_not_mem`** — the same for many entries.
* **`get?_merge`**, **`keys_merge`** — where both maps have a key, the later map wins, and the keys
  of the earlier map come first.
* **`merge_assoc`**, **`empty_merge`**, **`merge_self`** — merging is associative, has the empty map
  as its unit and adds nothing twice. -/

namespace BoundSql

namespace OrderedMap

variable {κ ν : Type}

@[simp] theorem keys_empty : (empty : OrderedMap κ ν).keys = [] := rfl

variable [DecidableEq κ]

@[simp] theorem get?_empty (k : κ) : (empty : OrderedMap κ ν).get? k = none := rfl

/-- The first entry answers for its own key, and the others for every other key. -/
theorem lookup_cons_eq_ite [BEq κ] [LawfulBEq κ] (e : κ × ν) (es : List (κ × ν)) (k : κ) :
    (e :: es).lookup k = if k = e.1 then some e.2 else es.lookup k := by
  obtain ⟨a, b⟩ := e
  rw [List.lookup_cons]
  by_cases h : k = a
  · simp [h]
  · simp [h, beq_eq_false_iff_ne.2 h]

/-- Looking up among entries of which those of one key were taken out. -/
theorem lookup_filter_ne [BEq κ] [LawfulBEq κ] (k k' : κ) (es : List (κ × ν)) :
    (es.filter fun e => e.1 ≠ k).lookup k' = if k' = k then none else es.lookup k' := by
  induction es with
  | nil => simp
  | cons e es ih =>
    by_cases he : e.1 = k
    · rw [List.filter_cons_of_neg (by simp [he]), ih, lookup_cons_eq_ite, he]
      by_cases hk : k' = k
      · rw [if_pos hk, if_pos hk]
      · rw [if_neg hk, if_neg hk, if_neg hk]
    · rw [List.filter_cons_of_pos (by simp [he]), lookup_cons_eq_ite, ih, lookup_cons_eq_ite]
      by_cases hk : k' = k
      · rw [if_pos hk, if_pos hk, if_neg fun h => he (h.symm.trans hk)]
      · rw [if_neg hk, if_neg hk]

/-- A key has no value exactly if it is absent. -/
theorem get?_eq_none_iff (m : OrderedMap κ ν) (k : κ) : m.get? k = none ↔ k ∉ m.keys := by
  simp only [get?, keys, List.lookup_eq_none_iff, List.mem_map, not_exists, not_and]
  constructor
  · intro h e he hk
    have := h e he
    simp [hk] at this
  · intro h e he
    exact bne_iff_ne.2 fun hk => h e he hk.symm

/-- A key is found exactly if it is present. -/
theorem contains_iff (m : OrderedMap κ ν) (k : κ) : m.contains k = true ↔ k ∈ m.keys := by
  have h := get?_eq_none_iff m k
  rw [contains]
  cases hv : m.get? k with
  | none => simpa using h.1 hv
  | some v =>
    have hk : ¬ k ∉ m.keys := fun hk => by simp [h.2 hk] at hv
    simpa using Classical.not_not.1 hk

/-- A key is present exactly if it has a value. -/
theorem mem_keys_iff (m : OrderedMap κ ν) (k : κ) : k ∈ m.keys ↔ ∃ v, m.get? k = some v := by
  rw [← contains_iff, contains, Option.isSome_iff_exists]

/-! ### One entry -/

/-- Looking up among entries into which one was stored. -/
theorem lookup_store (k k' : κ) (v : ν) (es : List (κ × ν)) :
    (store k v es).lookup k' = if k' = k then some v else es.lookup k' := by
  induction es with
  | nil => rw [store, lookup_cons_eq_ite]
  | cons e es ih =>
    by_cases hk : e.1 = k
    · rw [store, if_pos hk, lookup_cons_eq_ite, lookup_cons_eq_ite, hk]
      by_cases h' : k' = k
      · rw [if_pos h', if_pos h']
      · rw [if_neg h', if_neg h', if_neg h']
    · rw [store, if_neg hk, lookup_cons_eq_ite, lookup_cons_eq_ite, ih]
      by_cases h' : k' = e.1
      · rw [if_pos h', if_neg (h' ▸ hk), if_pos h']
      · rw [if_neg h', if_neg h']

/-- Storing under a key changes the value under that key only. -/
theorem get?_insert (m : OrderedMap κ ν) (k k' : κ) (v : ν) :
    (m.insert k v).get? k' = if k' = k then some v else m.get? k' :=
  lookup_store k k' v m.entries

@[simp] theorem get?_insert_self (m : OrderedMap κ ν) (k : κ) (v : ν) :
    (m.insert k v).get? k = some v := by
  rw [get?_insert, if_pos rfl]

theorem get?_insert_of_ne (m : OrderedMap κ ν) {k k' : κ} (v : ν) (h : k' ≠ k) :
    (m.insert k v).get? k' = m.get? k' := by
  rw [get?_insert, if_neg h]

/-- Storing under a new key appends it, and under a present one moves no key. -/
theorem keys_insert (m : OrderedMap κ ν) (k : κ) (v : ν) :
    (m.insert k v).keys = if k ∈ m.keys then m.keys else m.keys ++ [k] :=
  map_fst_store k v m.entries

/-- After storing, the keys are those before and the new one. -/
theorem mem_keys_insert (m : OrderedMap κ ν) (k k' : κ) (v : ν) :
    k' ∈ (m.insert k v).keys ↔ k' ∈ m.keys ∨ k' = k := by
  rw [keys_insert]
  split
  · rename_i hk
    exact ⟨Or.inl, fun h => h.elim id fun he => he ▸ hk⟩
  · simp

/-- Storing under a new key appends an entry. -/
theorem entries_insert_of_not_mem {m : OrderedMap κ ν} {k : κ} (v : ν) (h : k ∉ m.keys) :
    (m.insert k v).entries = m.entries ++ [(k, v)] := by
  rw [entries_insert]
  rw [keys] at h
  generalize m.entries = es at h
  induction es with
  | nil => rfl
  | cons e es ih =>
    rw [List.map_cons, List.mem_cons, not_or] at h
    rw [store, if_neg fun he => h.1 he.symm, ih h.2, List.cons_append]

/-- Erasing a key takes away the value under that key only. -/
theorem get?_erase (m : OrderedMap κ ν) (k k' : κ) :
    (m.erase k).get? k' = if k' = k then none else m.get? k' :=
  lookup_filter_ne k k' m.entries

/-! ### Many entries -/

/-- Storing entries leaves the value of every key that is not among them. -/
theorem get?_insertAll_of_not_mem (m : OrderedMap κ ν) {es : List (κ × ν)} {k : κ}
    (h : k ∉ es.map Prod.fst) : (m.insertAll es).get? k = m.get? k := by
  induction es generalizing m with
  | nil => rfl
  | cons e es ih =>
    rw [List.map_cons, List.mem_cons, not_or] at h
    rw [insertAll_cons, ih _ h.2, get?_insert_of_ne _ _ h.1]

/-- Storing entries with distinct keys binds each of them to its value. -/
theorem get?_insertAll_of_mem (m : OrderedMap κ ν) {es : List (κ × ν)}
    (hn : (es.map Prod.fst).Nodup) {e : κ × ν} (he : e ∈ es) :
    (m.insertAll es).get? e.1 = some e.2 := by
  induction es generalizing m with
  | nil => cases he
  | cons a es ih =>
    rw [List.map_cons, List.nodup_cons] at hn
    rw [insertAll_cons]
    rcases List.mem_cons.1 he with rfl | he
    · rw [get?_insertAll_of_not_mem _ hn.1, get?_insert_self]
    · exact ih _ hn.2 he

/-- After storing entries, the keys are those before and those of the entries. -/
theorem mem_keys_insertAll (m : OrderedMap κ ν) (es : List (κ × ν)) (k : κ) :
    k ∈ (m.insertAll es).keys ↔ k ∈ m.keys ∨ k ∈ es.map Prod.fst := by
  induction es generalizing m with
  | nil => simp
  | cons e es ih =>
    rw [insertAll_cons, ih, mem_keys_insert, List.map_cons, List.mem_cons, or_assoc]

/-- The value of an entry is the one under its key. -/
theorem get?_of_mem_entries (m : OrderedMap κ ν) {e : κ × ν} (he : e ∈ m.entries) :
    m.get? e.1 = some e.2 := by
  obtain ⟨es, hn⟩ := m
  rw [get?]
  induction es with
  | nil => cases he
  | cons a es ih =>
    rw [List.map_cons, List.nodup_cons] at hn
    rw [lookup_cons_eq_ite]
    rcases List.mem_cons.1 he with rfl | he
    · rw [if_pos rfl]
    · have hne : e.1 ≠ a.1 := fun h => hn.1 (h ▸ List.mem_map_of_mem he)
      rw [if_neg hne]
      exact ih hn.2 he

/-- The value under a key is that of an entry. -/
theorem mem_entries_of_get?_eq_some {m : OrderedMap κ ν} {k : κ} {v : ν} (h : m.get? k = some v) :
    (k, v) ∈ m.entries := by
  have hk : k ∈ m.keys := (m.mem_keys_iff k).2 ⟨v, h⟩
  obtain ⟨⟨k', v'⟩, he, rfl⟩ := List.mem_map.1 hk
  have hv : v' = v := Option.some.inj ((m.get?_of_mem_entries he).symm.trans h)
  rwa [← hv]

/-- A map is determined by its keys, in order, and the values under them. -/
theorem entries_eq {m : OrderedMap κ ν} {es : List (κ × ν)} (hkeys : m.keys = es.map Prod.fst)
    (hvalues : ∀ e ∈ es, m.get? e.1 = some e.2) : m.entries = es := by
  have hlength : m.entries.length = es.length := by
    have := congrArg List.length hkeys
    simpa [keys] using this
  refine List.ext_getElem hlength fun i hi hi' => ?_
  have hfst : (m.entries[i]).1 = (es[i]).1 := by
    have : m.keys[i]? = (es.map Prod.fst)[i]? := by rw [hkeys]
    simpa [keys, hi, hi'] using this
  have hsnd := m.get?_of_mem_entries (List.getElem_mem hi)
  rw [hfst, hvalues _ (List.getElem_mem hi')] at hsnd
  exact Prod.ext hfst (Option.some.inj hsnd).symm

/-- Maps with the same keys, in order, and the same values under them are the same. -/
theorem ext_get? {m n : OrderedMap κ ν} (hkeys : m.keys = n.keys)
    (hvalues : ∀ k, m.get? k = n.get? k) : m = n :=
  ext (entries_eq hkeys fun e he => by rw [hvalues, n.get?_of_mem_entries he])

/-- Storing entries under new and distinct keys appends them. -/
theorem entries_insertAll_of_not_mem {m : OrderedMap κ ν} {es : List (κ × ν)}
    (hn : (es.map Prod.fst).Nodup) (h : ∀ k ∈ es.map Prod.fst, k ∉ m.keys) :
    (m.insertAll es).entries = m.entries ++ es := by
  induction es generalizing m with
  | nil => rw [insertAll_nil, List.append_nil]
  | cons e es ih =>
    rw [List.map_cons, List.nodup_cons] at hn
    rw [List.map_cons, List.forall_mem_cons] at h
    have hrest : ∀ k ∈ es.map Prod.fst, k ∉ (m.insert e.1 e.2).keys := by
      intro k hk
      rw [mem_keys_insert, not_or]
      exact ⟨h.2 k hk, fun he => hn.1 (he ▸ hk)⟩
    rw [insertAll_cons, ih hn.2 hrest, entries_insert_of_not_mem _ h.1, List.append_assoc,
      List.singleton_append]

/-- The entries of a list with distinct keys are those of its map. -/
theorem entries_ofList {es : List (κ × ν)} (hn : (es.map Prod.fst).Nodup) :
    (ofList es).entries = es :=
  entries_insertAll_of_not_mem hn fun _ _ => List.not_mem_nil

/-- After storing entries with distinct keys, the keys that are new follow those before. -/
theorem keys_insertAll (m : OrderedMap κ ν) {es : List (κ × ν)} (hn : (es.map Prod.fst).Nodup) :
    (m.insertAll es).keys = m.keys ++ (es.map Prod.fst).filter (· ∉ m.keys) := by
  induction es generalizing m with
  | nil => rw [insertAll_nil, List.map_nil, List.filter_nil, List.append_nil]
  | cons e es ih =>
    rw [List.map_cons, List.nodup_cons] at hn
    rw [insertAll_cons, ih _ hn.2, List.map_cons, keys_insert]
    by_cases he : e.1 ∈ m.keys
    · rw [if_pos he, List.filter_cons_of_neg (by simpa using he)]
    · -- The key is none of the later ones, so it changes nothing for them.
      have hlater : (es.map Prod.fst).filter (· ∉ m.keys ++ [e.1]) =
          (es.map Prod.fst).filter (· ∉ m.keys) := by
        refine List.filter_congr fun k hk => ?_
        have hne : k ≠ e.1 := fun h => hn.1 (h ▸ hk)
        simp [hne]
      rw [if_neg he, List.filter_cons_of_pos (by simpa using he), hlater, List.append_assoc,
        List.singleton_append]

theorem ofList_append (l r : List (κ × ν)) : ofList (l ++ r) = (ofList l).insertAll r := by
  rw [ofList, insertAll, List.foldl_append]
  rfl

/-! ### Merging -/

theorem merge_ofList (m : OrderedMap κ ν) {es : List (κ × ν)} (hn : (es.map Prod.fst).Nodup) :
    m.merge (ofList es) = m.insertAll es := by
  rw [merge, entries_ofList hn]

/-- Where both maps have a key, the later map wins. -/
theorem get?_merge (m n : OrderedMap κ ν) (k : κ) :
    (m.merge n).get? k = (n.get? k).or (m.get? k) := by
  rw [merge]
  rcases Decidable.em (k ∈ n.keys) with hk | hk
  · obtain ⟨e, he, rfl⟩ := List.mem_map.1 hk
    rw [get?_insertAll_of_mem _ n.nodup he, get?_of_mem_entries n he, Option.some_or]
  · rw [get?_insertAll_of_not_mem _ hk, (get?_eq_none_iff n k).2 hk, Option.none_or]

/-- The keys of a merged map are those of both. -/
theorem mem_keys_merge (m n : OrderedMap κ ν) (k : κ) :
    k ∈ (m.merge n).keys ↔ k ∈ m.keys ∨ k ∈ n.keys :=
  mem_keys_insertAll m n.entries k

/-- The keys of the later map that are new follow those of the earlier one. -/
theorem keys_merge (m n : OrderedMap κ ν) :
    (m.merge n).keys = m.keys ++ n.keys.filter (· ∉ m.keys) :=
  m.keys_insertAll n.nodup

/-- An entry stored in the later map ends up as one stored after merging. -/
theorem merge_insert (m n : OrderedMap κ ν) (k : κ) (v : ν) :
    m.merge (n.insert k v) = (m.merge n).insert k v := by
  refine ext_get? ?_ fun k' => ?_
  · rw [keys_merge, keys_insert, keys_insert, keys_merge]
    by_cases hn : k ∈ n.keys
    · have hk : k ∈ m.keys ++ n.keys.filter (· ∉ m.keys) := by
        by_cases hm : k ∈ m.keys
        · exact List.mem_append_left _ hm
        · exact List.mem_append_right _ (List.mem_filter.2 ⟨hn, by simpa using hm⟩)
      rw [if_pos hn, if_pos hk]
    · rw [if_neg hn, List.filter_append]
      by_cases hm : k ∈ m.keys
      · rw [if_pos (List.mem_append_left _ hm), List.filter_cons_of_neg (by simpa using hm),
          List.filter_nil, List.append_nil]
      · have hk : k ∉ m.keys ++ n.keys.filter (· ∉ m.keys) := by
          rw [List.mem_append]
          exact fun h => h.elim hm fun hk => hn (List.mem_filter.1 hk).1
        rw [if_neg hk, List.filter_cons_of_pos (by simpa using hm), List.filter_nil,
          List.append_assoc]
  · rw [get?_merge, get?_insert, get?_insert, get?_merge]
    split
    · rw [Option.some_or]
    · rfl

/-- Entries stored in the later map end up as entries stored after merging. -/
theorem merge_insertAll (m n : OrderedMap κ ν) (es : List (κ × ν)) :
    m.merge (n.insertAll es) = (m.merge n).insertAll es := by
  induction es generalizing n with
  | nil => rfl
  | cons e es ih => rw [insertAll_cons, ih, merge_insert, insertAll_cons]

/-- Merging does not depend on what is merged first. -/
theorem merge_assoc (a b c : OrderedMap κ ν) : (a.merge b).merge c = a.merge (b.merge c) :=
  (merge_insertAll a b c.entries).symm

@[simp] theorem merge_empty (m : OrderedMap κ ν) : m.merge empty = m := rfl

@[simp] theorem empty_merge (m : OrderedMap κ ν) : empty.merge m = m := by
  refine ext_get? ?_ fun k => ?_
  · simp [keys_merge]
  · rw [get?_merge, get?_empty, Option.or_none]

/-- A map has nothing new for itself. -/
@[simp] theorem merge_self (m : OrderedMap κ ν) : m.merge m = m := by
  refine ext_get? ?_ fun k => ?_
  · rw [keys_merge, List.filter_eq_nil_iff.2 (by simp), List.append_nil]
  · rw [get?_merge, Option.or_self]

end OrderedMap

end BoundSql

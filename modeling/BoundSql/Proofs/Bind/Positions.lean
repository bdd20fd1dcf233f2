import BoundSql.Bind
import BoundSql.Proofs.OrderedMap
import Mathlib.Data.List.Nodup
import Mathlib.Data.List.Perm.Subperm
import Mathlib.Order.MinMax

/-! # Pushed values
A value is pushed under the number of positions a map has. Whether that position is free depends on
how the map came about.
* **`BindKey.slot_index_of_isCountable`**, **`BindMap.IsGapless.isCountable`** — where positions may
  be counted as words.
* **`BindMap.Construction`**, **`Construction.map`** — the ways to make a map of values, and the map
  made.
* **`BindMap.IsGapless`** — the positions of a map are those from zero up to their number.
* **`BindMap.isGapless_insert_iff`**, **`BindMap.IsGapless.merge`**, **`BindMap.IsGapless.push`** —
  which steps leave a gap.
* **`BindMap.push_appends_iff`** — a push appends exactly if its position is free, and all later
  ones do exactly if there is no gap. -/

namespace BoundSql

/-- The position, if the key is one. -/
def BindKey.asIndex? : BindKey → Option Nat
  | index i => some i
  | name _ => none

@[simp] theorem BindKey.asIndex?_eq_some_iff {key : BindKey} {i : Nat} :
    key.asIndex? = some i ↔ key = .index i := by
  cases key <;> simp [asIndex?]

/-- A position is countable exactly if counting it as a word does not wrap. -/
theorem BindKey.isCountable_index_iff (i : UInt64) :
    (index i.toNat).IsCountable ↔ (i + 1).toNat = i.toNat + 1 := by
  have hi := i.toNat_lt
  have hsize : UInt64.size = 2 ^ 64 := rfl
  rw [IsCountable, hsize, UInt64.toNat_add, UInt64.toNat_one]
  omega

/-- A countable position has the place, and the name, that it has when counted as a word. -/
theorem BindKey.slot_index_of_isCountable {i : UInt64} (h : (index i.toNat).IsCountable) :
    (index i.toNat).slot = .ok (.position (i + 1).toNat, toString (i + 1)) := by
  have hname : toString (i + 1) = toString (i + 1).toNat := rfl
  rw [slot, hname, (isCountable_index_iff i).1 h]

namespace BindMap

variable {m n : BindMap}

/-! ### Making a map -/

/-- How a map of values is made. -/
inductive Construction
  /-- Values at the positions from zero on. -/
  | positional (values : List Value)
  /-- Entries, stored one after another. -/
  | collected (entries : List (BindKey × Value))
  /-- A value under a name. -/
  | bind (start : Construction) (name : String) (v : Value)
  /-- A value under any key. -/
  | insert (start : Construction) (key : BindKey) (v : Value)
  /-- A pushed value. -/
  | push (start : Construction) (v : Value)
  /-- The entries of another map. -/
  | merge (start other : Construction)

/-- The map that is made. -/
def Construction.map : Construction → BindMap
  | positional values => BindMap.positional values
  | collected entries => OrderedMap.ofList entries
  | bind start name v => start.map.bind name v
  | insert start key v => start.map.insert key v
  | push start v => start.map.push v
  | merge start other => start.map.merge other.map

/-! ### Positions -/

/-- The positions among the keys. -/
def positions (m : BindMap) : List Nat := m.keys.filterMap BindKey.asIndex?

@[simp] theorem mem_positions {i : Nat} : i ∈ m.positions ↔ .index i ∈ m.keys := by
  simp [positions]

theorem nodup_positions (m : BindMap) : m.positions.Nodup := by
  refine List.Nodup.filterMap ?_ m.nodup
  intro key key' i hi hi'
  rw [BindKey.asIndex?_eq_some_iff.1 hi, BindKey.asIndex?_eq_some_iff.1 hi']

@[simp] theorem length_positions (m : BindMap) : m.positions.length = m.indexCount := by
  unfold positions indexCount
  induction m.keys with
  | nil => rfl
  | cons key keys ih =>
    cases key <;>
      simp [List.filterMap_cons, List.filter_cons, BindKey.asIndex?, BindKey.isIndex, ih]

/-- A position that is stored counts unless it is there already. -/
theorem indexCount_insert_index (m : BindMap) (i : Nat) (v : Value) :
    indexCount (m.insert (.index i) v) =
      if .index i ∈ m.keys then m.indexCount else m.indexCount + 1 := by
  unfold indexCount
  rw [OrderedMap.keys_insert]
  split
  · rfl
  · simp [List.filter_cons, BindKey.isIndex]

/-! ### Maps without gaps -/

/-- Whether the positions of a map are those from zero up to their number. -/
def IsGapless (m : BindMap) : Prop := ∀ i, .index i ∈ m.keys ↔ i < m.indexCount

/-- The positions below a number are as many as the number says. -/
theorem IsGapless.of_forall_iff {k : Nat} (h : ∀ i, .index i ∈ m.keys ↔ i < k) :
    m.IsGapless := by
  have hperm : m.positions.Perm (List.range k) := by
    refine (List.perm_ext_iff_of_nodup m.nodup_positions List.nodup_range).2 fun i => ?_
    simp [h]
  have hcount : m.indexCount = k := by simpa using hperm.length_eq
  intro i
  rw [h, hcount]

/-- As many distinct numbers below their own number leave none out. -/
theorem isGapless_iff_forall_lt : m.IsGapless ↔ ∀ i, .index i ∈ m.keys → i < m.indexCount := by
  refine ⟨fun h i hi => (h i).1 hi, fun h => ?_⟩
  have hsub : m.positions ⊆ List.range m.indexCount := by
    intro i hi
    rw [List.mem_range]
    exact h i (mem_positions.1 hi)
  have hperm : m.positions.Perm (List.range m.indexCount) :=
    (List.subperm_of_subset m.nodup_positions hsub).perm_of_length_le (by simp)
  intro i
  rw [← mem_positions, hperm.mem_iff, List.mem_range]

theorem isGapless_empty : IsGapless OrderedMap.empty := by
  intro i
  simp [indexCount]

/-- Whether a key is a name, a position of a map, or the one after them. -/
def LeavesNoGap (m : BindMap) : BindKey → Prop
  | .index i => i ≤ m.indexCount
  | .name _ => True

/-- What is stored in a map without gaps makes one exactly if it is a position beyond the next. -/
theorem isGapless_insert_iff (h : m.IsGapless) (key : BindKey) (v : Value) :
    IsGapless (m.insert key v) ↔ m.LeavesNoGap key := by
  cases key with
  | name name =>
    refine iff_of_true (IsGapless.of_forall_iff (k := m.indexCount) fun i => ?_) trivial
    rw [OrderedMap.mem_keys_insert, ← h i]
    simp
  | index i =>
    constructor
    · intro hinsert
      have hi : i < indexCount (m.insert (.index i) v) :=
        (hinsert i).1 ((OrderedMap.mem_keys_insert _ _ _ _).2 (.inr rfl))
      rw [indexCount_insert_index] at hi
      show i ≤ m.indexCount
      split at hi <;> omega
    · intro hi
      have hi : i ≤ m.indexCount := hi
      refine IsGapless.of_forall_iff (k := max m.indexCount (i + 1)) fun j => ?_
      rw [OrderedMap.mem_keys_insert, h j, BindKey.index.injEq]
      omega

/-- The position of a push is the next one. -/
theorem IsGapless.push (h : m.IsGapless) (v : Value) : (m.push v).IsGapless :=
  (isGapless_insert_iff h _ v).2 le_rfl

/-- Two maps without gaps have the positions of the one that has more. -/
theorem IsGapless.merge (hm : m.IsGapless) (hn : n.IsGapless) : IsGapless (m.merge n) := by
  refine IsGapless.of_forall_iff (k := max m.indexCount n.indexCount) fun i => ?_
  rw [OrderedMap.mem_keys_merge, hm i, hn i, lt_max_iff]

/-- The map with values pushed one after another. -/
def pushAll (m : BindMap) (vs : List Value) : BindMap := vs.foldl BindMap.push m

theorem IsGapless.pushAll (h : m.IsGapless) (vs : List Value) : (m.pushAll vs).IsGapless := by
  induction vs generalizing m with
  | nil => exact h
  | cons v vs ih => exact ih (h.push v)

/-- Whether entries that are stored one after another leave no gap. -/
def EntriesLeaveNoGap (m : BindMap) : List (BindKey × Value) → Prop
  | [] => True
  | e :: es => m.LeavesNoGap e.1 ∧ EntriesLeaveNoGap (m.insert e.1 e.2) es

theorem IsGapless.insertAll (h : m.IsGapless) {es : List (BindKey × Value)}
    (hes : m.EntriesLeaveNoGap es) : IsGapless (m.insertAll es) := by
  induction es generalizing m with
  | nil => exact h
  | cons e es ih => exact ih ((isGapless_insert_iff h e.1 e.2).2 hes.1) hes.2

/-- Whether every position that is given explicitly is the next one or was given before. -/
def Construction.IsOrderly : Construction → Prop
  | positional _ => True
  | collected entries => EntriesLeaveNoGap OrderedMap.empty entries
  | bind start _ _ => start.IsOrderly
  | insert start key _ => start.IsOrderly ∧ start.map.LeavesNoGap key
  | push start _ => start.IsOrderly
  | merge start other => start.IsOrderly ∧ other.IsOrderly

/-- A map made in order has no gap. -/
theorem Construction.IsOrderly.isGapless {c : Construction} (h : c.IsOrderly) :
    c.map.IsGapless := by
  induction c with
  | positional values => exact isGapless_empty.pushAll values
  | collected entries => exact isGapless_empty.insertAll h
  | bind start name v ih => exact (isGapless_insert_iff (ih h) (.name name) v).2 trivial
  | insert start key v ih => exact (isGapless_insert_iff (ih h.1) key v).2 h.2
  | push start v ih => exact (ih h).push v
  | merge start other ih ih' => exact (ih h.1).merge (ih' h.2)

/-- The positions of a map without gaps are countable, as long as its size is a word. -/
theorem IsGapless.isCountable (h : m.IsGapless) (hsize : m.size < UInt64.size) {key : BindKey}
    (hkey : key ∈ m.keys) : key.IsCountable := by
  cases key with
  | name name => trivial
  | index i =>
    have hi : i < m.indexCount := (h i).1 hkey
    have hcount : m.indexCount ≤ m.keys.length := List.length_filter_le _ _
    have hlength : m.keys.length = m.size := List.length_map _
    show i + 1 < UInt64.size
    omega

/-! ### Appending -/

/-- Whether a push appends: it binds the value under a position that was not bound, every key before
keeps its value and its place, and there is one key more. -/
def Appends (m : BindMap) (v : Value) : Prop :=
  ∃ i, .index i ∉ m.keys ∧ (m.push v).get? (.index i) = some v ∧
    m.entries <+: (m.push v).entries ∧ (m.push v).size = m.size + 1

/-- A push appends exactly if the number of positions is not one of them. -/
theorem appends_iff (v : Value) : m.Appends v ↔ .index m.indexCount ∉ m.keys := by
  constructor
  · rintro ⟨i, -, -, -, hsize⟩ hmem
    have hkeys : (m.push v).keys = m.keys := by
      unfold push
      rw [OrderedMap.keys_insert, if_pos hmem]
    have hlength := congrArg List.length hkeys
    simp only [OrderedMap.keys, List.length_map] at hlength
    simp only [OrderedMap.size] at hsize
    omega
  · intro hfree
    have hentries : (m.push v).entries = m.entries ++ [(.index m.indexCount, v)] :=
      OrderedMap.entries_insert_of_not_mem v hfree
    refine ⟨m.indexCount, hfree, OrderedMap.get?_insert_self _ _ _, ?_, ?_⟩
    · rw [hentries]
      exact List.prefix_append _ _
    · simp [OrderedMap.size, hentries]

theorem IsGapless.appends (h : m.IsGapless) (v : Value) : m.Appends v := by
  rw [appends_iff, h]
  exact lt_irrefl _

/-- A position beyond the number of positions is reached by pushing. -/
theorem exists_not_appends {p : Nat} (hp : .index p ∈ m.keys) (hle : m.indexCount ≤ p) (v : Value) :
    ∃ vs, ¬ (m.pushAll vs).Appends v := by
  -- Each push that appends brings the number one closer to the position.
  induction hd : p - m.indexCount generalizing m with
  | zero =>
    have hcount : m.indexCount = p := by omega
    exact ⟨[], fun h => (appends_iff v).1 h (hcount ▸ hp)⟩
  | succ d ih =>
    by_cases hmem : .index m.indexCount ∈ m.keys
    · exact ⟨[], fun h => (appends_iff v).1 h hmem⟩
    · have hcount : (m.push v).indexCount = m.indexCount + 1 := by
        unfold push
        rw [indexCount_insert_index, if_neg hmem]
      have hkeys : .index p ∈ (m.push v).keys :=
        (OrderedMap.mem_keys_insert _ _ _ _).2 (.inl hp)
      obtain ⟨vs, hvs⟩ := ih hkeys (by omega) (by omega)
      exact ⟨v :: vs, hvs⟩

/-- However a map was made, a push on it appends exactly if the number of its positions is not one
of them, and it and all later pushes append exactly if the map has no gap. A map has none if every
position that was given explicitly was the next one or one given before. -/
theorem push_appends_iff (c : Construction) :
    (∀ v, c.map.Appends v ↔ .index c.map.indexCount ∉ c.map.keys) ∧
      ((∀ vs v, (c.map.pushAll vs).Appends v) ↔ c.map.IsGapless) ∧
      (c.IsOrderly → c.map.IsGapless) := by
  refine ⟨appends_iff, ⟨fun h => ?_, fun h vs v => (h.pushAll vs).appends v⟩,
    Construction.IsOrderly.isGapless⟩
  rw [isGapless_iff_forall_lt]
  intro i hi
  by_contra hlt
  obtain ⟨vs, hvs⟩ := exists_not_appends hi (by omega) .null
  exact hvs (h vs .null)

/-- Two maps that overlap are merged, and a name and a position given before are stored again. -/
theorem push_appends_iff_merged :
    let c : Construction :=
      .merge (.insert (.bind (.positional [.int 1, .int 2]) "a" .null) (.index 0) (.int 3))
        (.collected [(.index 0, .int 4), (.name "b", .int 5), (.index 1, .int 6),
          (.index 2, .int 7)])
    c.IsOrderly ∧ ∀ vs v, (c.map.pushAll vs).Appends v := by
  intro c
  have horderly : c.IsOrderly := by
    simp only [c, Construction.IsOrderly, EntriesLeaveNoGap, LeavesNoGap]
    decide
  exact ⟨horderly, (push_appends_iff c).2.1.2 ((push_appends_iff c).2.2 horderly)⟩

/-- A value at position one alone is replaced by the next push. -/
theorem push_replaces :
    let c : Construction := .insert (.positional []) (.index 1) (.int 5)
    c.map.entries = [(.index 1, .int 5)] ∧ (c.map.push (.int 6)).entries = [(.index 1, .int 6)] ∧
      ¬ c.map.Appends (.int 6) := by
  intro c
  refine ⟨rfl, rfl, fun h => (appends_iff _).1 h ?_⟩
  decide

end BindMap

end BoundSql

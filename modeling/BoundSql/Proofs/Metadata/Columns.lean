import BoundSql.Metadata.Entry
import Mathlib.Data.List.Induction

/-! # The columns of a table by their roles
Metadata can be derived in one pass over the columns of a table, which enters each column under all
of its roles.
* **`Metadata.add`** — the metadata with one more column.
* **`Metadata.Derived`** — what metadata is derived from columns, kept by `Derived.add`.
* **`Metadata.ofColumns_eq_foldl`** — the metadata of a table is derived in one pass.
* **`Metadata.columns_by_role`** — what it says of each column and of each name. -/

namespace BoundSql

namespace Metadata

/-! ### One pass -/

/-- The metadata of no columns. -/
def empty : Metadata := ⟨[], [], [], [], none⟩

/-- The metadata with one more column. -/
def add (m : Metadata) (c : Column) : Metadata where
  attributes := m.attributes ++ [c.name]
  primaryKey := if c.primaryKey then m.primaryKey ++ [c.name] else m.primaryKey
  nonPrimaryKey := if c.primaryKey then m.nonPrimaryKey else m.nonPrimaryKey ++ [c.name]
  numeric := if isNumericType c.dataType then m.numeric ++ [c.name] else m.numeric
  autoIncrement := if c.autoIncrement then some c.name else m.autoIncrement

/-- The metadata that is derived from columns. -/
structure Derived (columns : List Column) (m : Metadata) : Prop where
  /-- All names. -/
  attributes_eq : m.attributes = columns.map Column.name
  /-- The names of the key. -/
  primaryKey_eq : m.primaryKey = (columns.filter fun c => c.primaryKey).map Column.name
  /-- The names outside the key. -/
  nonPrimaryKey_eq : m.nonPrimaryKey = (columns.filter fun c => !c.primaryKey).map Column.name
  /-- The names of the columns that hold numbers. -/
  numeric_eq : m.numeric = (columns.filter fun c => isNumericType c.dataType).map Column.name
  /-- The last column that the server numbers. -/
  autoIncrement_eq : m.autoIncrement =
    (columns.reverse.find? fun c => c.autoIncrement).map Column.name

theorem derived_nil : Derived [] empty := ⟨rfl, rfl, rfl, rfl, rfl⟩

/-- One more column is entered under its roles, behind the others. -/
theorem Derived.add {columns : List Column} {m : Metadata} (h : Derived columns m) (c : Column) :
    Derived (columns ++ [c]) (m.add c) where
  attributes_eq := by simp [Metadata.add, h.attributes_eq]
  primaryKey_eq := by cases hc : c.primaryKey <;> simp [Metadata.add, h.primaryKey_eq, hc]
  nonPrimaryKey_eq := by cases hc : c.primaryKey <;> simp [Metadata.add, h.nonPrimaryKey_eq, hc]
  numeric_eq := by cases hc : isNumericType c.dataType <;> simp [Metadata.add, h.numeric_eq, hc]
  autoIncrement_eq := by
    cases hc : c.autoIncrement <;> simp [Metadata.add, h.autoIncrement_eq, hc]

theorem derived_foldl (columns : List Column) : Derived columns (columns.foldl add empty) := by
  induction columns using List.reverseRecOn with
  | nil => exact derived_nil
  | append_singleton columns c ih =>
    rw [List.foldl_append]
    exact ih.add c

theorem Derived.unique {columns : List Column} {m n : Metadata} (hm : Derived columns m)
    (hn : Derived columns n) : m = n := by
  obtain ⟨attributes, primaryKey, nonPrimaryKey, numeric, autoIncrement⟩ := m
  obtain ⟨rfl, rfl, rfl, rfl, rfl⟩ := hm
  obtain ⟨attributes, primaryKey, nonPrimaryKey, numeric, autoIncrement⟩ := n
  obtain ⟨rfl, rfl, rfl, rfl, rfl⟩ := hn
  rfl

/-- The metadata of a table is derived in one pass over its columns. -/
theorem ofColumns_eq_foldl (source : String) {columns : List Column} (h : columns ≠ []) :
    ofColumns source columns = .ok (columns.foldl add empty) := by
  have hempty : columns.isEmpty = false := by simpa using h
  rw [ofColumns, hempty]
  refine congrArg Except.ok (Derived.unique ⟨rfl, rfl, rfl, rfl, ?_⟩ (derived_foldl columns))
  show (namesWhere Column.autoIncrement columns).getLast? = _
  rw [namesWhere, List.getLast?_map, List.getLast?_eq_head?_reverse, ← List.filter_reverse,
    List.head?_filter]

/-! ### Columns and names -/

section Roles

variable {columns before after : List Column} {c : Column} {m : Metadata}

/-- A column stands under a role behind the columns before it that have the role too. -/
theorem getElem?_names (p : Column → Bool) (h : columns = before ++ c :: after)
    (hc : p c = true) : ((columns.filter p).map Column.name)[before.countP p]? = some c.name := by
  rw [h, List.filter_append, List.filter_cons_of_pos hc, List.countP_eq_length_filter,
    List.getElem?_map, List.getElem?_append_right (Nat.le_refl _), Nat.sub_self]
  rfl

/-- The last column that the server numbers is the one with none behind it. -/
theorem Derived.autoIncrement_eq_some_iff (h : Derived columns m) (name : String) :
    m.autoIncrement = some name ↔ ∃ before c after, columns = before ++ c :: after ∧
      c.autoIncrement = true ∧ c.name = name ∧ ∀ d ∈ after, d.autoIncrement = false := by
  rw [h.autoIncrement_eq, Option.map_eq_some_iff]
  constructor
  · rintro ⟨c, hfind, rfl⟩
    obtain ⟨hc, after, before, hcolumns, hafter⟩ := List.find?_eq_some_iff_append.1 hfind
    refine ⟨before.reverse, c, after.reverse, ?_, hc, rfl, fun d hd => ?_⟩
    · simpa using congrArg List.reverse hcolumns
    · simpa using hafter d (List.mem_reverse.1 hd)
  · rintro ⟨before, c, after, rfl, hc, rfl, hafter⟩
    refine ⟨c, List.find?_eq_some_iff_append.2 ⟨hc, after.reverse, before.reverse, ?_, ?_⟩, rfl⟩
    · simp
    · intro d hd
      simp [hafter d (List.mem_reverse.1 hd)]

theorem Derived.autoIncrement_eq_none_iff (h : Derived columns m) :
    m.autoIncrement = none ↔ ∀ c ∈ columns, c.autoIncrement = false := by
  simp [h.autoIncrement_eq]

/-- The names of the key and the others are all names, each as often as it occurs. -/
theorem Derived.partition (h : Derived columns m) :
    (m.primaryKey ++ m.nonPrimaryKey).Perm m.attributes := by
  rw [h.primaryKey_eq, h.nonPrimaryKey_eq, h.attributes_eq, ← List.map_append]
  exact (List.filter_append_perm _ columns).map _

end Roles

/-- What metadata says of the columns it is derived from. -/
structure ColumnLaws (columns : List Column) (m : Metadata) : Prop where
  /-- The names are entered by role, in table order. -/
  derived : Derived columns m
  /-- Each column has its place among all names, and one more among those of the key or among the
  others, behind the columns before it that stand there. -/
  place : ∀ before c after, columns = before ++ c :: after →
    m.attributes[before.length]? = some c.name ∧
      if c.primaryKey then
        m.primaryKey[before.countP fun d => d.primaryKey]? = some c.name
      else m.nonPrimaryKey[before.countP fun d => !d.primaryKey]? = some c.name
  /-- The key and the other columns are all columns, with repeated names as often as they occur. -/
  partition : (m.primaryKey ++ m.nonPrimaryKey).Perm m.attributes
  /-- The three lists keep the order of all names. -/
  ordered : ∀ names ∈ [m.primaryKey, m.nonPrimaryKey, m.numeric], names.Sublist m.attributes
  /-- The numbered column is the last one with the flag. -/
  autoIncrement_eq_some_iff : ∀ name, m.autoIncrement = some name ↔
    ∃ before c after, columns = before ++ c :: after ∧ c.autoIncrement = true ∧ c.name = name ∧
      ∀ d ∈ after, d.autoIncrement = false
  /-- It is absent if no column has the flag. -/
  autoIncrement_eq_none_iff : m.autoIncrement = none ↔ ∀ c ∈ columns, c.autoIncrement = false
  /-- A name is an attribute if it is listed. -/
  hasAttribute_iff : ∀ name, m.hasAttribute name = true ↔ name ∈ m.attributes
  /-- A name is numeric if it is listed as such. -/
  isNumeric_iff : ∀ name, m.isNumeric name = true ↔ name ∈ m.numeric

/-- A table with columns has metadata. It is derived in one pass, and says of each column its place,
of the key and the other columns that they share out all columns, of the numbered column that it is
the last one, and of each name whether it is listed. -/
theorem columns_by_role (source : String) {columns : List Column} (h : columns ≠ []) :
    ∃ m, ofColumns source columns = .ok m ∧ m = columns.foldl add empty ∧ ColumnLaws columns m := by
  have hderived : Derived columns (columns.foldl add empty) := derived_foldl columns
  -- The laws follow from what one pass over the columns has derived.
  refine ⟨_, ofColumns_eq_foldl source h, rfl, ?_⟩
  generalize columns.foldl add empty = m at hderived
  exact {
    derived := hderived
    place := by
      intro before c after hcolumns
      constructor
      · rw [hderived.attributes_eq, hcolumns]
        simp
      · cases hc : c.primaryKey with
        | true =>
          rw [if_pos rfl, hderived.primaryKey_eq]
          exact getElem?_names (fun d => d.primaryKey) hcolumns hc
        | false =>
          rw [if_neg Bool.false_ne_true, hderived.nonPrimaryKey_eq]
          exact getElem?_names (fun d => !d.primaryKey) hcolumns (by simp [hc])
    partition := hderived.partition
    ordered := by
      simp only [List.forall_mem_cons, hderived.attributes_eq, hderived.primaryKey_eq,
        hderived.nonPrimaryKey_eq, hderived.numeric_eq]
      exact ⟨List.filter_sublist.map _, List.filter_sublist.map _, List.filter_sublist.map _,
        fun _ hnone => by cases hnone⟩
    autoIncrement_eq_some_iff := hderived.autoIncrement_eq_some_iff
    autoIncrement_eq_none_iff := hderived.autoIncrement_eq_none_iff
    hasAttribute_iff := fun name => List.contains_iff_mem
    isNumeric_iff := fun name => List.contains_iff_mem }

/-- A name that occurs in the key and outside it, and two numbered columns. -/
theorem columns_by_role_repeated_name :
    let columns : List Column := [⟨"id", "int(11) unsigned", true, true⟩, ⟨"a", "text", true, true⟩,
      ⟨"id", "varchar(8)", false, false⟩]
    columns ≠ [] ∧ ∃ m, ofColumns "t" columns = .ok m ∧ m = columns.foldl add empty ∧
      ColumnLaws columns m ∧ m.primaryKey = ["id", "a"] ∧ m.nonPrimaryKey = ["id"] ∧
      m.numeric = ["id"] ∧ m.autoIncrement = some "a" := by
  intro columns
  have hcolumns : columns ≠ [] := by decide
  obtain ⟨m, hm, hfold, hlaws⟩ := columns_by_role "t" hcolumns
  refine ⟨hcolumns, m, hm, hfold, hlaws, ?_⟩
  rw [hfold]
  decide

end Metadata

end BoundSql

import BoundSql.Filter
import BoundSql.Proofs.Number.DecimalText
import BoundSql.Proofs.OrderedMap
import Mathlib.Data.List.Induction
import Mathlib.Data.List.Nodup

/-! # Generated parameter names
The helpers of a filter name the values they bind from the filter's counter, and whoever gives the
filter a condition may bind the same names.
* **`Filter.Call`**, **`Filter.reach`** — the calls on a filter and the filters they lead to.
* **`Filter.mem_keys_reach`** — what a filter has bound: names of conditions it was given and names
  it generated.
* **`Filter.helper_names_fresh_iff`** — the names a helper generates are new exactly if no
  condition given before binds one of them. -/

namespace BoundSql

namespace Filter

/-! ### Calls -/

/-- A call that binds values under generated names. -/
inductive Helper
  /-- A field inside, or outside, two bounds. -/
  | between (inside : Bool) (field : String) (low high : Value)
  /-- A field among, or not among, values. -/
  | inList (inside : Bool) (field : String) (values : List Value)

namespace Helper

/-- The values a helper binds, in order. -/
def values : Helper → List Value
  | between _ _ low high => [low, high]
  | inList _ _ values => values

/-- The condition a helper appends, given the names of its values. -/
def text (names : List String) : Helper → String
  | between inside field _ _ =>
    field ++ " " ++ (if inside then "BETWEEN" else "NOT BETWEEN") ++ " " ++
      " AND ".intercalate (names.map placeholder)
  | inList inside field _ =>
    if names.isEmpty then field ++ " != " ++ field
    else field ++ " " ++ (if inside then "IN" else "NOT IN") ++ " (" ++
      ", ".intercalate (names.map placeholder) ++ ")"

/-- The filter after a helper. -/
def apply (f : Filter) : Helper → Filter
  | between inside field low high => f.between inside field low high
  | inList inside field values => f.inList inside field values

end Helper

/-- A call that changes a filter. -/
inductive Call
  /-- Another expression. -/
  | set (c : Condition)
  /-- One more condition. -/
  | combine (op : Connective) (c : Condition)
  /-- A helper. -/
  | helper (h : Helper)

namespace Call

/-- The filter after a call. -/
def apply (f : Filter) : Call → Filter
  | set c => f.set c
  | combine op c => f.combine op c
  | helper h => h.apply f

/-- The conditions a call gives to the filter. -/
def conditions : Call → List Condition
  | set c => [c]
  | combine _ c => [c]
  | helper _ => []

/-- The values a call binds under generated names. -/
def values : Call → List Value
  | helper h => h.values
  | _ => []

end Call

/-- The filter that merged conditions and calls lead to. -/
def reach (merged : List Condition) (calls : List Call) : Filter :=
  calls.foldl Call.apply (merge merged)

theorem reach_concat (merged : List Condition) (calls : List Call) (call : Call) :
    reach merged (calls ++ [call]) = call.apply (reach merged calls) := by
  rw [reach, List.foldl_append]
  rfl

/-! ### Names of values -/

theorem generatedName_inj {m n : Nat} (h : generatedName m = generatedName n) : m = n :=
  Number.toString_inj ((String.append_right_inj _).1 h)

theorem map_fst_nameValues (first : Nat) (values : List Value) :
    (nameValues first values).map Prod.fst =
      (List.range' first values.length).map generatedName := by
  induction values generalizing first with
  | nil => rfl
  | cons v vs ih => rw [nameValues, List.map_cons, ih]; rfl

theorem map_snd_nameValues (first : Nat) (values : List Value) :
    (nameValues first values).map Prod.snd = values := by
  induction values generalizing first with
  | nil => rfl
  | cons v vs ih => rw [nameValues, List.map_cons, ih]

/-- Generated names are distinct. -/
theorem nodup_nameValues (first : Nat) (values : List Value) :
    ((nameValues first values).map Prod.fst).Nodup := by
  rw [map_fst_nameValues]
  exact (List.nodup_range' 1).map fun m n => generatedName_inj

/-- The keys of named values. -/
def keysOf (named : List (String × Value)) : List BindKey := named.map fun e => .name e.1

theorem mem_keysOf_nameValues {first : Nat} {values : List Value} {key : BindKey} :
    key ∈ keysOf (nameValues first values) ↔
      ∃ i, first ≤ i ∧ i < first + values.length ∧ key = .name (generatedName i) := by
  have hkeys : keysOf (nameValues first values) =
      (List.range' first values.length).map fun i => .name (generatedName i) := by
    rw [keysOf, ← Function.comp_def BindKey.name, ← List.map_map, map_fst_nameValues, List.map_map]
    rfl
  rw [hkeys]
  simp [List.mem_range'_1, and_assoc, eq_comm]

theorem bindNamed_eq_ofList (named : List (String × Value)) :
    bindNamed named = OrderedMap.ofList (named.map fun e => (.name e.1, e.2)) := by
  rw [bindNamed, OrderedMap.ofList, OrderedMap.insertAll, List.foldl_map]
  rfl

theorem mem_keys_bindNamed {named : List (String × Value)} {key : BindKey} :
    key ∈ (bindNamed named).keys ↔ key ∈ keysOf named := by
  rw [bindNamed_eq_ofList, OrderedMap.ofList, OrderedMap.mem_keys_insertAll, List.map_map]
  simp [keysOf]

/-- Values with distinct names are bound to them. -/
theorem get?_bindNamed {named : List (String × Value)} (hn : (named.map Prod.fst).Nodup)
    {e : String × Value} (he : e ∈ named) : (bindNamed named).get? (.name e.1) = some e.2 := by
  have hkeys : ((named.map fun e => (BindKey.name e.1, e.2)).map Prod.fst).Nodup := by
    rw [List.map_map]
    have := hn.map (f := BindKey.name) fun m n h => BindKey.name.inj h
    rwa [List.map_map] at this
  rw [bindNamed_eq_ofList, OrderedMap.ofList]
  exact OrderedMap.get?_insertAll_of_mem _ hkeys (List.mem_map_of_mem he)

/-! ### What one call does -/

/-- The values of a helper under the names the filter generates for them. -/
def named (f : Filter) (h : Helper) : List (String × Value) := nameValues f.generated h.values

/-- A helper appends its condition on generated names and binds these to its values. -/
theorem apply_helper (f : Filter) (h : Helper) :
    (h.apply f).expr = joinExpr .and f.expr (h.text ((f.named h).map Prod.fst)) ∧
      (h.apply f).binds = f.binds.merge (bindNamed (f.named h)) ∧
      (h.apply f).generated = f.generated + h.values.length := by
  cases h with
  | between inside field low high =>
    refine ⟨congrArg (joinExpr .and f.expr) ?_, rfl, rfl⟩
    simp only [Helper.text, named, Helper.values, nameValues, List.map_cons, List.map_nil,
      String.intercalate_cons_cons, String.intercalate_singleton, String.append_assoc]
  | inList inside field values =>
    -- Without values the helper takes another branch, which generates no name.
    cases values with
    | nil => exact ⟨rfl, rfl, rfl⟩
    | cons v vs =>
      refine ⟨congrArg (joinExpr .and f.expr) ?_, rfl, rfl⟩
      simp only [Helper.text, named, Helper.values, List.map_map]
      rfl

/-- The names that merged conditions and calls bind themselves. -/
def givenKeys (merged : List Condition) (calls : List Call) : List BindKey :=
  (merged ++ calls.flatMap Call.conditions).flatMap fun c => c.binds.keys

/-- The number of values bound under generated names. -/
def valueCount (calls : List Call) : Nat := (calls.flatMap Call.values).length

/-- Merging conditions binds what they bind. -/
theorem mem_keys_foldl_absorb (conditions : List Condition) (f : Filter) (key : BindKey) :
    key ∈ (conditions.foldl absorb f).binds.keys ↔
      key ∈ f.binds.keys ∨ ∃ c ∈ conditions, key ∈ c.binds.keys := by
  induction conditions generalizing f with
  | nil => simp
  | cons c rest ih =>
    have habsorb : (f.absorb c).binds = f.binds.merge c.binds := rfl
    rw [List.foldl_cons, ih, habsorb, OrderedMap.mem_keys_merge]
    simp [or_assoc]

/-- Merging conditions generates no name. -/
theorem generated_foldl_absorb (conditions : List Condition) (f : Filter) :
    (conditions.foldl absorb f).generated = f.generated := by
  induction conditions generalizing f with
  | nil => rfl
  | cons c rest ih => exact ih (f.absorb c)

/-- A call binds what its conditions bind and what it generates. -/
theorem mem_keys_apply (f : Filter) (call : Call) (key : BindKey) :
    key ∈ (call.apply f).binds.keys ↔ key ∈ f.binds.keys ∨
      (∃ c ∈ call.conditions, key ∈ c.binds.keys) ∨
        key ∈ keysOf (nameValues f.generated call.values) := by
  cases call with
  | set c =>
    have hset : (f.set c).binds = f.binds.merge c.binds := rfl
    simp [Call.apply, Call.conditions, Call.values, hset, OrderedMap.mem_keys_merge, keysOf,
      nameValues]
  | combine op c =>
    have hcombine : (f.combine op c).binds = f.binds.merge c.binds := rfl
    simp [Call.apply, Call.conditions, Call.values, hcombine, OrderedMap.mem_keys_merge, keysOf,
      nameValues]
  | helper h =>
    rw [Call.apply, (f.apply_helper h).2.1, OrderedMap.mem_keys_merge, mem_keys_bindNamed]
    simp [Call.conditions, Call.values, named]

/-! ### What a run of calls does -/

/-- A call generates one name for each of its values. -/
theorem generated_apply (f : Filter) (call : Call) :
    (call.apply f).generated = f.generated + call.values.length := by
  cases call with
  | set c => rfl
  | combine op c => rfl
  | helper h => exact (f.apply_helper h).2.2

/-- The counter of a filter is the number of values bound under generated names. -/
theorem generated_reach (merged : List Condition) (calls : List Call) :
    (reach merged calls).generated = valueCount calls := by
  induction calls using List.reverseRecOn with
  | nil => exact generated_foldl_absorb merged _
  | append_singleton calls call ih =>
    rw [reach_concat, generated_apply, ih, valueCount, valueCount, List.flatMap_append,
      List.length_append]
    simp

/-- A filter has bound the names of the conditions it was given and those it generated. -/
theorem mem_keys_reach (merged : List Condition) (calls : List Call) (key : BindKey) :
    key ∈ (reach merged calls).binds.keys ↔ key ∈ givenKeys merged calls ∨
      ∃ i < valueCount calls, key = .name (generatedName i) := by
  induction calls using List.reverseRecOn with
  | nil =>
    have hmerge : key ∈ (merge merged).binds.keys ↔
        key ∈ (OrderedMap.empty : BindMap).keys ∨ ∃ c ∈ merged, key ∈ c.binds.keys :=
      mem_keys_foldl_absorb merged _ key
    rw [reach, List.foldl_nil, hmerge]
    simp [givenKeys, valueCount]
  | append_singleton calls call ih =>
    have hgiven : key ∈ givenKeys merged (calls ++ [call]) ↔
        key ∈ givenKeys merged calls ∨ ∃ c ∈ call.conditions, key ∈ c.binds.keys := by
      simp [givenKeys, List.flatMap_append, or_assoc]
    have hcount : valueCount (calls ++ [call]) = valueCount calls + call.values.length := by
      simp [valueCount, List.flatMap_append]
    -- The counter splits the generated names into those before the call and those of the call.
    have hnames : (∃ i < valueCount calls + call.values.length, key = .name (generatedName i)) ↔
        (∃ i < valueCount calls, key = .name (generatedName i)) ∨
          key ∈ keysOf (nameValues (valueCount calls) call.values) := by
      rw [mem_keysOf_nameValues]
      constructor
      · rintro ⟨i, hi, hk⟩
        rcases Nat.lt_or_ge i (valueCount calls) with h | h
        · exact .inl ⟨i, h, hk⟩
        · exact .inr ⟨i, h, hi, hk⟩
      · rintro (⟨i, hi, hk⟩ | ⟨i, -, hi, hk⟩)
        · exact ⟨i, by omega, hk⟩
        · exact ⟨i, hi, hk⟩
    rw [reach_concat, mem_keys_apply, ih, generated_reach, hgiven, hcount, hnames]
    exact or_or_or_comm

/-- A name that a helper generates is bound already exactly if a condition binds it. -/
theorem mem_keys_reach_iff_given {merged : List Condition} {calls : List Call} {h : Helper}
    {key : BindKey} (hk : key ∈ keysOf ((reach merged calls).named h)) :
    key ∈ (reach merged calls).binds.keys ↔ key ∈ givenKeys merged calls := by
  -- Names generated before have smaller numbers.
  rw [mem_keys_reach, or_iff_left]
  rintro ⟨i, hi, he⟩
  rw [named, generated_reach, mem_keysOf_nameValues] at hk
  obtain ⟨j, hj, -, hkj⟩ := hk
  have hij : i = j := generatedName_inj (BindKey.name.inj (he.symm.trans hkj))
  omega

/-! ### What a helper changes -/

/-- After a helper every name it generated has its value. -/
theorem get?_apply_helper {f : Filter} {h : Helper} {e : String × Value} (he : e ∈ f.named h) :
    (h.apply f).binds.get? (.name e.1) = some e.2 := by
  have hbound : (bindNamed (f.named h)).get? (.name e.1) = some e.2 :=
    get?_bindNamed (nodup_nameValues _ _) he
  rw [(f.apply_helper h).2.1, OrderedMap.get?_merge, hbound, Option.some_or]

/-- After a helper every other key has the value it had. -/
theorem get?_apply_helper_of_not_mem {f : Filter} {h : Helper} {key : BindKey}
    (hk : key ∉ keysOf (f.named h)) : (h.apply f).binds.get? key = f.binds.get? key := by
  have hnone : (bindNamed (f.named h)).get? key = none := by
    rw [OrderedMap.get?_eq_none_iff, mem_keys_bindNamed]
    exact hk
  rw [(f.apply_helper h).2.1, OrderedMap.get?_merge, hnone, Option.none_or]

/-- A helper keeps the values bound before exactly if it binds no bound name to another value. -/
theorem keeps_values_iff {f : Filter} {h : Helper} :
    (∀ key v, f.binds.get? key = some v → (h.apply f).binds.get? key = some v) ↔
      ∀ e ∈ f.named h, ∀ v, f.binds.get? (.name e.1) = some v → v = e.2 := by
  constructor
  · intro hkeeps e he v hv
    have hnew := hkeeps _ v hv
    rw [get?_apply_helper he] at hnew
    exact (Option.some.inj hnew).symm
  · intro hsame key v hv
    by_cases hk : key ∈ keysOf (f.named h)
    · obtain ⟨e, he, rfl⟩ := List.mem_map.1 hk
      rw [get?_apply_helper he, hsame e he v hv]
    · rw [get?_apply_helper_of_not_mem hk, hv]

/-- A helper on any filter numbers its names by the values bound so before, so they are distinct;
it binds each of them to its value, in order, and changes no other key. Its names are new exactly
if no condition given before binds one of them, and the values bound before stay exactly if none of
them is bound to another value. -/
theorem helper_names_fresh_iff (merged : List Condition) (calls : List Call) (h : Helper) :
    let f := reach merged calls
    let names := (List.range' (valueCount calls) h.values.length).map generatedName
    (f.named h).map Prod.fst = names ∧ names.Nodup ∧ (f.named h).map Prod.snd = h.values ∧
      (h.apply f).expr = joinExpr .and f.expr (h.text names) ∧
      (∀ e ∈ f.named h, (h.apply f).binds.get? (.name e.1) = some e.2) ∧
      (∀ key ∉ keysOf (f.named h), (h.apply f).binds.get? key = f.binds.get? key) ∧
      ((∀ key ∈ keysOf (f.named h), key ∉ f.binds.keys) ↔
        ∀ key ∈ keysOf (f.named h), key ∉ givenKeys merged calls) ∧
      ((∀ key v, f.binds.get? key = some v → (h.apply f).binds.get? key = some v) ↔
        ∀ e ∈ f.named h, ∀ v, f.binds.get? (.name e.1) = some v → v = e.2) := by
  intro f names
  have hnames : (f.named h).map Prod.fst = names := by
    rw [named, map_fst_nameValues, generated_reach]
  refine ⟨hnames, hnames ▸ nodup_nameValues _ _, map_snd_nameValues _ _, ?_,
    fun e => get?_apply_helper, fun key => get?_apply_helper_of_not_mem, ?_, keeps_values_iff⟩
  · rw [(f.apply_helper h).1, hnames]
  · exact forall₂_congr fun key hk => not_congr (mem_keys_reach_iff_given hk)

/-- A helper on a filter that was given the parts of another one, whose helper has generated the
same name for another value. -/
theorem helper_name_taken :
    let other := (Helper.inList true "a" [.int 1]).apply {}
    let f := reach [⟨other.expr, other.binds, other.types⟩] []
    let h : Helper := .inList true "b" [.int 2]
    .name "ABP0" ∈ keysOf (f.named h) ∧ .name "ABP0" ∈ f.binds.keys ∧
      f.binds.get? (.name "ABP0") = some (.int 1) ∧
      (h.apply f).binds.get? (.name "ABP0") = some (.int 2) ∧
      (h.apply f).expr = "(a IN (:ABP0:)) AND (b IN (:ABP0:))" := by
  intro other f h
  exact ⟨by decide +kernel, by decide +kernel, by decide +kernel, by decide +kernel,
    by decide +kernel⟩

end Filter

end BoundSql

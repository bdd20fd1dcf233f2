import BoundSql.Proofs.OrderedMap
import BoundSql.Proofs.Select.Compiled

/-! # Conditions in groups
Conditions can be put together one by one, or in groups that are put together then.
* **`OrderedMap.mergeAll`** — many maps merged; **`OrderedMap.MergeLaws`** — what merging is.
* **`Filter.Assembled`** — a filter made of a list of conditions, in groups of any shape.
* **`Filter.Assembled.parameters_eq`** — its values and categories are those of the list.
* **`Select.regrouping_keeps_parameters`** — the groups do not matter to what a query binds. -/

namespace BoundSql

namespace OrderedMap

variable {κ ν : Type} [DecidableEq κ]

instance : Std.Associative (merge : OrderedMap κ ν → OrderedMap κ ν → OrderedMap κ ν) :=
  ⟨merge_assoc⟩

/-- The laws of merging three maps. A map stays the same map only if its keys keep their order. -/
structure MergeLaws (a b c : OrderedMap κ ν) : Prop where
  /-- What is merged first does not matter. -/
  assoc : (a.merge b).merge c = a.merge (b.merge c)
  /-- A map replaces the empty one. -/
  empty_left : empty.merge a = a
  /-- The empty map changes nothing. -/
  empty_right : a.merge empty = a
  /-- A map changes itself in nothing. -/
  idempotent : a.merge a = a
  /-- The later map answers for its keys, and the earlier one for all others. -/
  lookup : ∀ k, (a.merge b).get? k = (b.get? k).or (a.get? k)
  /-- The keys of the earlier map keep their places, and the new ones of the later map follow. -/
  order : (a.merge b).keys = a.keys ++ b.keys.filter (· ∉ a.keys)
  /-- No key occurs twice. -/
  distinct : (a.merge b).keys.Nodup

theorem mergeLaws (a b c : OrderedMap κ ν) : MergeLaws a b c where
  assoc := merge_assoc a b c
  empty_left := empty_merge a
  empty_right := merge_empty a
  idempotent := merge_self a
  lookup := get?_merge a b
  order := keys_merge a b
  distinct := (a.merge b).nodup

/-- The maps of a list merged into one, the later ones winning. -/
def mergeAll (maps : List (OrderedMap κ ν)) : OrderedMap κ ν := maps.foldl merge empty

@[simp] theorem mergeAll_nil : mergeAll ([] : List (OrderedMap κ ν)) = empty := rfl

theorem foldl_merge (m : OrderedMap κ ν) (maps : List (OrderedMap κ ν)) :
    maps.foldl merge m = m.merge (mergeAll maps) := by
  have h : maps.foldl merge (m.merge empty) = m.merge (mergeAll maps) := List.foldl_assoc
  rwa [merge_empty] at h

@[simp] theorem mergeAll_cons (m : OrderedMap κ ν) (maps : List (OrderedMap κ ν)) :
    mergeAll (m :: maps) = m.merge (mergeAll maps) := by
  rw [← foldl_merge, mergeAll, List.foldl_cons, empty_merge]

theorem mergeAll_append (l r : List (OrderedMap κ ν)) :
    mergeAll (l ++ r) = (mergeAll l).merge (mergeAll r) := by
  rw [← foldl_merge, mergeAll, List.foldl_append]
  rfl

theorem mergeAll_flatMap {α : Type} (l : List α) (f : α → List (OrderedMap κ ν)) :
    mergeAll (l.flatMap f) = mergeAll (l.map fun a => mergeAll (f a)) := by
  induction l with
  | nil => rfl
  | cons a l ih => rw [List.flatMap_cons, mergeAll_append, ih, List.map_cons, mergeAll_cons]

end OrderedMap

open OrderedMap (mergeAll)

/-! ### Groups of conditions -/

namespace Filter

/-- A filter as one condition of another filter. -/
def condition (f : Filter) : Condition :=
  ((Condition.ofExpr f.expr).withBinds f.binds).withTypes f.types

@[simp] theorem binds_condition (f : Filter) : f.condition.binds = f.binds :=
  OrderedMap.empty_merge f.binds

@[simp] theorem types_condition (f : Filter) : f.condition.types = f.types :=
  OrderedMap.empty_merge f.types

/-- A condition is a group of itself. -/
@[simp] theorem condition_merge_singleton (c : Condition) : (merge [c]).condition = c := by
  have hexpr : (merge [c]).expr = c.expr := by
    by_cases h : c.expr = "" <;> simp [merge, absorb, h]
  have hbinds : (merge [c]).binds = c.binds := OrderedMap.empty_merge c.binds
  have htypes : (merge [c]).types = c.types := OrderedMap.empty_merge c.types
  simp [condition, Condition.withBinds, Condition.withTypes, Condition.ofExpr, hexpr, hbinds,
    htypes]

/-- A filter made of a list of conditions, in order and in groups of any shape. -/
inductive Assembled : List Condition → Filter → Prop
  /-- The filter without conditions. -/
  | empty : Assembled [] {}
  /-- One condition. -/
  | fragment (c : Condition) : Assembled [c] (merge [c])
  /-- Groups joined as they are. -/
  | merged {groups : List (List Condition × Filter)} (h : ∀ g ∈ groups, Assembled g.1 g.2) :
      Assembled (groups.flatMap Prod.fst) (merge (groups.map fun g => g.2.condition))
  /-- A group added under a connective. -/
  | combined {cs ds : List Condition} {f g : Filter} (op : Connective) (hf : Assembled cs f)
      (hg : Assembled ds g) : Assembled (cs ++ ds) (f.combine op g.condition)
  /-- A group whose expression replaces the one before. -/
  | replaced {cs ds : List Condition} {f g : Filter} (hf : Assembled cs f) (hg : Assembled ds g) :
      Assembled (cs ++ ds) (f.set g.condition)

/-- One more condition after a group. -/
theorem Assembled.concat {cs : List Condition} {f : Filter} (h : Assembled cs f) (op : Connective)
    (c : Condition) : Assembled (cs ++ [c]) (f.combine op c) := by
  have hone := h.combined op (.fragment c)
  rwa [condition_merge_singleton] at hone

/-- Two filters made of the same conditions in the same order. -/
def Regrouped (f g : Filter) : Prop := ∃ cs, Assembled cs f ∧ Assembled cs g

/-- Conditions change the values and categories of a filter by merging their own. -/
theorem foldl_absorb (f : Filter) (cs : List Condition) :
    (cs.foldl absorb f).binds = f.binds.merge (mergeAll (cs.map Condition.binds)) ∧
      (cs.foldl absorb f).types = f.types.merge (mergeAll (cs.map Condition.types)) := by
  induction cs generalizing f with
  | nil => exact ⟨rfl, rfl⟩
  | cons c cs ih =>
    obtain ⟨hbinds, htypes⟩ := ih (f.absorb c)
    rw [List.foldl_cons, hbinds, htypes, List.map_cons, List.map_cons, OrderedMap.mergeAll_cons,
      OrderedMap.mergeAll_cons, ← OrderedMap.merge_assoc, ← OrderedMap.merge_assoc]
    exact ⟨rfl, rfl⟩

theorem merge_parameters (cs : List Condition) :
    (merge cs).binds = mergeAll (cs.map Condition.binds) ∧
      (merge cs).types = mergeAll (cs.map Condition.types) := by
  obtain ⟨hbinds, htypes⟩ := foldl_absorb
    { expr := " AND ".intercalate ((cs.map Condition.expr).filter fun e => !e.isEmpty) } cs
  exact ⟨hbinds.trans (OrderedMap.empty_merge _), htypes.trans (OrderedMap.empty_merge _)⟩

/-- A filter has the values and categories of its conditions, merged in their order. -/
theorem Assembled.parameters_eq {cs : List Condition} {f : Filter} (h : Assembled cs f) :
    f.binds = mergeAll (cs.map Condition.binds) ∧ f.types = mergeAll (cs.map Condition.types) := by
  induction h with
  | empty => exact ⟨rfl, rfl⟩
  | fragment c => exact merge_parameters [c]
  | @merged groups _ ih =>
    -- Each group has merged its own conditions; all groups merged are all conditions merged.
    obtain ⟨hbinds, htypes⟩ := merge_parameters (groups.map fun g => g.2.condition)
    rw [hbinds, htypes, List.map_map, List.map_map, List.map_flatMap, List.map_flatMap,
      OrderedMap.mergeAll_flatMap, OrderedMap.mergeAll_flatMap]
    constructor
    · refine congrArg mergeAll (List.map_congr_left fun g hg => ?_)
      simpa using (ih g hg).1
    · refine congrArg mergeAll (List.map_congr_left fun g hg => ?_)
      simpa using (ih g hg).2
  | combined op _ _ ihf ihg =>
    simp [combine, absorb, OrderedMap.mergeAll_append, ihf.1, ihf.2, ihg.1, ihg.2]
  | replaced _ _ ihf ihg =>
    simp [set, absorb, OrderedMap.mergeAll_append, ihf.1, ihf.2, ihg.1, ihg.2]

theorem Regrouped.parameters_eq {f g : Filter} (h : Regrouped f g) :
    f.binds = g.binds ∧ f.types = g.types := by
  obtain ⟨cs, hf, hg⟩ := h
  obtain ⟨hfb, hft⟩ := hf.parameters_eq
  obtain ⟨hgb, hgt⟩ := hg.parameters_eq
  exact ⟨hfb.trans hgb.symm, hft.trans hgt.symm⟩

end Filter

namespace Select

/-- The query with a filter, and another one for its groups. -/
def withFilters (q : Select) (filter : Filter) (having : Option Filter) : Select :=
  { q with filter, having := having.map Filter.condition }

/-- A filter made of the same conditions leaves what a query binds. -/
theorem template_withFilters {f g : Filter} (hfilter : Filter.Regrouped f g) {h k : Option Filter}
    (hhaving : Option.Rel Filter.Regrouped h k) (q : Select) :
    (q.withFilters f h).template.binds = (q.withFilters g k).template.binds ∧
      (q.withFilters f h).template.types = (q.withFilters g k).template.types := by
  have hclauses : (q.withFilters f h).clauseBinds = (q.withFilters g k).clauseBinds ∧
      (q.withFilters f h).clauseTypes = (q.withFilters g k).clauseTypes := by
    obtain ⟨hbinds, htypes⟩ := hfilter.parameters_eq
    cases hhaving with
    | none => simp [clauseBinds, clauseTypes, withFilters, hbinds, htypes]
    | some hgroups =>
      obtain ⟨hbinds', htypes'⟩ := hgroups.parameters_eq
      simp [clauseBinds, clauseTypes, withFilters, hbinds, htypes, hbinds', htypes']
  simp only [template, hclauses.1, hclauses.2]
  exact ⟨rfl, rfl⟩

/-- Merging values, and merging declared categories, is associative with the empty map as its unit
and changes nothing when it is repeated; the later map wins, and every key keeps the place it had
first. So the groups in which the conditions of a query are put together do not matter to the values
and categories of its template, whatever else the query has. -/
theorem regrouping_keeps_parameters :
    (∀ a b c : BindMap, OrderedMap.MergeLaws a b c) ∧
      (∀ a b c : BindTypes, OrderedMap.MergeLaws a b c) ∧
      ∀ (q : Select) (f g : Filter) (h k : Option Filter), Filter.Regrouped f g →
        Option.Rel Filter.Regrouped h k → ∀ t, (q.withFilters f h).compile = .ok t →
          ∃ t', (q.withFilters g k).compile = .ok t' ∧ t'.binds = t.binds ∧ t'.types = t.types := by
  refine ⟨OrderedMap.mergeLaws, OrderedMap.mergeLaws, ?_⟩
  intro q f g h k hfilter hhaving t ht
  obtain ⟨hfault, rfl⟩ := compile_eq_ok_iff.1 ht
  obtain ⟨hbinds, htypes⟩ := template_withFilters hfilter hhaving q
  exact ⟨_, compile_eq_ok_iff.2 ⟨hfault, rfl⟩, hbinds.symm, htypes.symm⟩

/-- Three conditions that bind each other's names, added one by one, and the last two as a group. -/
theorem regrouping_keeps_parameters_overlapping :
    let a := (Condition.ofExpr "x = :x: AND y = :y:").withBinds
      (OrderedMap.ofList [(.name "x", .int 1), (.name "y", .int 2)])
    let b := ((Condition.ofExpr "y > :y: AND z > :z:").withBinds
      (OrderedMap.ofList [(.name "z", .int 3), (.name "y", .int 4)])).typed "y" .str
    let c := ((Condition.ofExpr "x < :x:").bind "x" (.int 5)).typed "x" .int
    let f := ((Filter.merge [a]).or b).and c
    let g := (Filter.merge [a]).or ((Filter.merge [b]).and c).condition
    let q := ofSource "orders"
    Filter.Regrouped f g ∧ ∃ t t', (q.withFilters f none).compile = .ok t ∧
      (q.withFilters g none).compile = .ok t' ∧ t'.binds = t.binds ∧ t'.types = t.types ∧
      t.binds.entries = [(.name "x", .int 5), (.name "y", .int 4), (.name "z", .int 3)] ∧
      t.types.entries = [(.name "y", .str), (.name "x", .int)] := by
  intro a b c f g q
  have hsingly : Filter.Assembled [a, b, c] f :=
    ((Filter.Assembled.fragment a).concat .or b).concat .and c
  have hgroups : Filter.Regrouped f g :=
    ⟨[a, b, c], hsingly, .combined .or (.fragment a) ((Filter.Assembled.fragment b).concat .and c)⟩
  have hfault : (q.withFilters f none).fault? = none := rfl
  obtain ⟨t', ht', hbinds, htypes⟩ := regrouping_keeps_parameters.2.2 q f g none none hgroups
    .none _ (compile_eq_ok_iff.2 ⟨hfault, rfl⟩)
  refine ⟨hgroups, _, t', compile_eq_ok_iff.2 ⟨hfault, rfl⟩, ht', hbinds, htypes, ?_, ?_⟩
  · show f.binds.entries = _
    rw [hsingly.parameters_eq.1]
    rfl
  · show f.types.entries = _
    rw [hsingly.parameters_eq.2]
    rfl

end Select

end BoundSql

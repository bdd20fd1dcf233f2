import BoundSql.Proofs.Template.Image

/-! # Parameters that are not referred to
What a template becomes depends on the parameters that its text refers to and on no others.
* **`Rendering.AgreeOn`** — two renderings of one text that have the same values and declared
  categories under some keys.
* **`Rendering.AgreeOn.segment_eq`**, **`AgreeOn.run_eq`** — they do the same at a segment, and so
  with the whole text, if those are the keys referred to.
* **`Rendering.unreferenced_ignored`** — the order of values, values of other names and categories
  of other parameters change nothing. -/

namespace BoundSql

/-! ### Values in another order -/

namespace OrderedMap

variable {κ ν : Type} [DecidableEq κ]

/-- The order of entries does not matter to looking up. -/
theorem get?_of_perm {m n : OrderedMap κ ν} (h : m.entries.Perm n.entries) (k : κ) :
    m.get? k = n.get? k := by
  have hkeys : m.keys.Perm n.keys := h.map Prod.fst
  by_cases hk : k ∈ m.keys
  · obtain ⟨e, he, rfl⟩ := List.mem_map.1 hk
    rw [get?_of_mem_entries m he, get?_of_mem_entries n (h.mem_iff.1 he)]
  · rw [(get?_eq_none_iff m k).2 hk, (get?_eq_none_iff n k).2 (mt hkeys.mem_iff.2 hk)]

/-- Entries below those of a map do not show under the keys that the map has. -/
theorem get?_merge_of_imp {m n : OrderedMap κ ν} {k : κ} (h : k ∈ m.keys → k ∈ n.keys) :
    (m.merge n).get? k = n.get? k := by
  rw [get?_merge]
  by_cases hk : k ∈ n.keys
  · obtain ⟨v, hv⟩ := (mem_keys_iff n k).1 hk
    rw [hv, Option.some_or]
  · rw [(get?_eq_none_iff n k).2 hk, (get?_eq_none_iff m k).2 (mt h hk), Option.none_or]

end OrderedMap

namespace BindMap

/-- The order of values does not matter to whether all of them are positional. -/
theorem isPositional_of_perm {m n : BindMap} (h : m.entries.Perm n.entries) :
    m.isPositional = n.isPositional := by
  have hkeys : m.keys.Perm n.keys := h.map Prod.fst
  have hempty : m.isEmpty = n.isEmpty := by
    rw [OrderedMap.isEmpty, OrderedMap.isEmpty, Bool.eq_iff_iff, List.isEmpty_iff,
      List.isEmpty_iff]
    exact ⟨fun hm => (hm ▸ h).nil_eq.symm, fun hn => (hn ▸ h).eq_nil⟩
  rw [isPositional, isPositional, hempty, hkeys.all_eq]

/-- With a named value not all values are positional. -/
theorem isPositional_bind (binds : BindMap) (name : String) (v : Value) :
    (binds.bind name v).isPositional = false := by
  have hkey : .name name ∈ (binds.bind name v).keys :=
    (OrderedMap.mem_keys_insert _ _ _ _).2 (.inr rfl)
  rw [isPositional, Bool.and_eq_false_iff, List.all_eq_false]
  exact .inr ⟨_, hkey, fun h => by cases h⟩

end BindMap

namespace Template

/-- Where not all parameters are positional, it does not matter how many question marks stand
before. -/
theorem referencesFrom_false (asked asked' : Nat) (segs : List Segment) :
    referencesFrom false asked segs = referencesFrom false asked' segs := by
  induction segs generalizing asked asked' with
  | nil => rfl
  | cons s rest ih =>
    rw [referencesFrom, referencesFrom, ih (asked + questions [s]) (asked' + questions [s])]
    cases s <;> rfl

end Template

namespace Rendering

open Template

/-- Whether two renderings are of the same text, for the same dialect and the same sources, with
parameters that are positional in both or in neither, and have the same values and declared
categories under some keys. -/
structure AgreeOn (keys : List BindKey) (t t' : Rendering) : Prop where
  /-- They are for the same dialect. -/
  dialect : t.dialect = t'.dialect
  /-- They have the same resolved sources. -/
  resolved : t.resolved = t'.resolved
  /-- They are of the same text. -/
  sql : t.sql = t'.sql
  /-- Their parameters are positional in both or in neither. -/
  positional : t.binds.isPositional = t'.binds.isPositional
  /-- The values are the same. -/
  value : ∀ key ∈ keys, t.binds.get? key = t'.binds.get? key
  /-- The declared categories are the same. -/
  type : ∀ key ∈ keys, t.types.get? key = t'.types.get? key

variable {t t' : Rendering} {n : Numbering}

theorem AgreeOn.mono {keys keys' : List BindKey} (h : AgreeOn keys t t')
    (hsubset : ∀ key ∈ keys', key ∈ keys) : AgreeOn keys' t t' :=
  { h with
    value := fun key hkey => h.value key (hsubset key hkey)
    type := fun key hkey => h.type key (hsubset key hkey) }

/-- Agreeing renderings do the same at a segment, value or error. -/
theorem AgreeOn.segment_eq {s : Segment}
    (h : AgreeOn (s.reference? t.binds.isPositional n.positions).toList t t') (start : Nat) :
    t.segment start n s = t'.segment start n s := by
  -- A segment looks at the dialect, at the sources or at the one parameter it refers to.
  cases s with
  | bracket inner =>
    have hidentifier : t.identifier = t'.identifier := by
      funext name
      rw [identifier, identifier, h.resolved, h.dialect]
    rw [segment, segment, hidentifier, h.sql]
  | unclosed rest => rw [segment, segment, h.sql]
  | placeholder name =>
    have hmem : .name (String.ofList name) ∈
        ((Segment.placeholder name).reference? t.binds.isPositional n.positions).toList := by
      simp [Segment.reference?]
    rw [segment, segment, named, named, h.positional, h.dialect, h.value _ hmem, h.type _ hmem]
  | question =>
    rw [segment, segment, ← h.positional]
    cases hp : t.binds.isPositional with
    | false => rfl
    | true =>
      have hmem : .index n.positions ∈
          (Segment.question.reference? t.binds.isPositional n.positions).toList := by
        simp [Segment.reference?, hp]
      rw [if_pos rfl, if_pos rfl, Rendering.positional, Rendering.positional, h.dialect,
        h.value _ hmem, h.type _ hmem]
  | literal text | quoted text | plain c => rfl

/-- Where parameters are positional, a segment takes the next position if it is a question mark. -/
theorem positions_of_segment_eq_ok (hp : t.binds.isPositional = true) {start : Nat} {s : Segment}
    {out : String} {n' : Numbering} (h : t.segment start n s = .ok (out, n')) :
    n'.positions = n.positions + questions [s] := by
  cases s with
  | bracket inner =>
    rw [segment] at h
    split at h
    · cases h
    · obtain ⟨-, rfl⟩ := Prod.mk.inj (Except.ok.inj h)
      rfl
  | unclosed rest => cases h
  | placeholder name =>
    rw [segment, if_pos hp] at h
    cases h
  | question =>
    rw [segment, if_pos hp, positional] at h
    split at h
    · cases h
    · obtain ⟨-, rfl⟩ := Prod.mk.inj (Except.ok.inj h)
      rfl
  | literal text | quoted text | plain c =>
    obtain ⟨-, rfl⟩ := Prod.mk.inj (Except.ok.inj h)
    rfl

/-- What the segments after one refer to, counted with the numbering that it leaves. -/
theorem referencesFrom_of_segment_eq_ok {start : Nat} {s : Segment} {out : String}
    {n' : Numbering} (h : t.segment start n s = .ok (out, n')) (rest : List Segment) :
    referencesFrom t.binds.isPositional n'.positions rest =
      referencesFrom t.binds.isPositional (n.positions + questions [s]) rest := by
  cases hp : t.binds.isPositional with
  | false => exact referencesFrom_false _ _ _
  | true => rw [positions_of_segment_eq_ok hp h]

/-- Agreeing renderings do the same with segments, which both of them begin with the same
numbering. -/
theorem AgreeOn.segments_eq {segs : List Segment}
    (h : AgreeOn (referencesFrom t.binds.isPositional n.positions segs) t t') (start : Nat) :
    t.segments start n segs = t'.segments start n segs := by
  induction segs generalizing start n with
  | nil => rfl
  | cons s rest ih =>
    rw [referencesFrom] at h
    have hsegment := (h.mono fun key hkey => List.mem_append_left _ hkey).segment_eq start
    rw [segments, segments, ← hsegment]
    cases hs : t.segment start n s with
    | error e => rfl
    | ok first =>
      obtain ⟨out, n'⟩ := first
      have hrest : AgreeOn (referencesFrom t.binds.isPositional n'.positions rest) t t' := by
        rw [referencesFrom_of_segment_eq_ok hs]
        exact h.mono fun key hkey => List.mem_append_right _ hkey
      simp only [ih hrest]

/-- Agreeing renderings do the same with the whole text. -/
theorem AgreeOn.run_eq (h : AgreeOn (t.referencesOf t.source) t t') : t.run = t'.run := by
  have hsegments : t.segments 0 {} (scan t.dialect t.sql.toList) =
      t'.segments 0 {} (scan t.dialect t.sql.toList) := AgreeOn.segments_eq (n := {}) h 0
  rw [run, run, ← h.dialect, ← h.sql, hsegments]

/-! ### Other parameters -/

/-- What a text becomes depends on no values and categories but those of the parameters it refers
to, and on whether all values are positional. Maps that agree in these yield the same statement, its
values and categories in the same order, or the same error. So the order of entries does not matter,
nor do values that stay bound below those of the text, as after `Filter.set`, or the category of a
parameter that the text does not refer to. -/
theorem unreferenced_ignored (t : Rendering) :
    (∀ (binds : BindMap) (types : BindTypes), binds.isPositional = t.binds.isPositional →
      (∀ key ∈ t.referencesOf t.source,
        binds.get? key = t.binds.get? key ∧ types.get? key = t.types.get? key) →
      ({ t with binds, types } : Rendering).run = t.run ∧
        ∀ sources : List String,
          Template.resolve ⟨t.sql, binds, types, sources⟩ t.dialect t.resolved =
            Template.resolve ⟨t.sql, t.binds, t.types, sources⟩ t.dialect t.resolved) ∧
      (∀ (binds : BindMap) (types : BindTypes), binds.entries.Perm t.binds.entries →
        types.entries.Perm t.types.entries →
        ({ t with binds, types } : Rendering).run = t.run) ∧
      (∀ (stale : BindMap) (staleTypes : BindTypes),
        BindMap.isPositional (stale.merge t.binds) = t.binds.isPositional →
        (∀ key ∈ t.referencesOf t.source, (key ∈ stale.keys → key ∈ t.binds.keys) ∧
          (key ∈ staleTypes.keys → key ∈ t.types.keys)) →
        ({ t with binds := stale.merge t.binds, types := staleTypes.merge t.types } :
          Rendering).run = t.run) ∧
      (∀ (key : BindKey) (type : WireType), key ∉ t.referencesOf t.source →
        ({ t with types := t.types.insert key type } : Rendering).run = t.run) := by
  -- Every part is a case of agreement under the keys that are referred to.
  have hagree : ∀ (binds : BindMap) (types : BindTypes),
      binds.isPositional = t.binds.isPositional →
      (∀ key ∈ t.referencesOf t.source,
        binds.get? key = t.binds.get? key ∧ types.get? key = t.types.get? key) →
      ({ t with binds, types } : Rendering).run = t.run := by
    intro binds types hp hkeys
    have h : AgreeOn (t.referencesOf t.source) t { t with binds, types } :=
      ⟨rfl, rfl, rfl, hp.symm, fun key hkey => (hkeys key hkey).1.symm,
        fun key hkey => (hkeys key hkey).2.symm⟩
    exact h.run_eq.symm
  refine ⟨fun binds types hp hkeys => ⟨hagree binds types hp hkeys, fun sources => ?_⟩,
    fun binds types hbinds htypes => ?_, fun stale staleTypes hp hstale => ?_,
    fun key type hkey => ?_⟩
  · -- Whether the sources are resolved has nothing to do with parameters.
    rw [resolve, resolve]
    cases sources.find? fun name => !t.resolved.contains name with
    | some missing => rfl
    | none => exact hagree binds types hp hkeys
  · exact hagree binds types (BindMap.isPositional_of_perm hbinds) fun key _ =>
      ⟨OrderedMap.get?_of_perm hbinds key, OrderedMap.get?_of_perm htypes key⟩
  · exact hagree _ _ hp fun key hkey => ⟨OrderedMap.get?_merge_of_imp (hstale key hkey).1,
      OrderedMap.get?_merge_of_imp (hstale key hkey).2⟩
  · refine hagree _ _ rfl fun other hother => ⟨rfl, OrderedMap.get?_insert_of_ne _ _ ?_⟩
    rintro rfl
    exact hkey hother

/-- The same values in another order, with one that is left over and a category for it. -/
theorem unreferenced_ignored_left_over :
    let t : Rendering := ⟨.postgres, OrderedMap.empty,
      OrderedMap.ofList [(.name "a", .int 1), (.name "b", .str "x")],
      OrderedMap.ofList [(.name "a", .str)], ":b:,:a:"⟩
    let binds : BindMap :=
      OrderedMap.ofList [(.name "old", .bool true), (.name "b", .str "x"), (.name "a", .int 1)]
    let types : BindTypes := OrderedMap.ofList [(.name "old", .int), (.name "a", .str)]
    let native : Native := ⟨"$1,$2", OrderedMap.ofList [(.index 0, .str "x"), (.index 1, .int 1)],
      OrderedMap.ofList [(.index 1, .str)]⟩
    t.run = .ok native ∧ ({ t with binds, types } : Rendering).run = .ok native := by
  intro t binds types native
  have hrun : t.run = .ok native := by decide +kernel
  have hrefs : t.referencesOf t.source = [.name "b", .name "a"] := by decide +kernel
  refine ⟨hrun, ((unreferenced_ignored t).1 binds types rfl fun key hkey => ?_).1.trans hrun⟩
  rw [hrefs, List.mem_pair] at hkey
  rcases hkey with rfl | rfl <;> exact ⟨rfl, rfl⟩

end Rendering

end BoundSql

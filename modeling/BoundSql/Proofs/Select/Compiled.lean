import BoundSql.Proofs.OrderedMap
import BoundSql.Session.Statement

/-! # Native forms of queries
A query is compiled to a template, whose sources are looked up among the registered ones before the
template is rendered.
* **`Select.compile_eq_ok_iff`**, **`Template.resolve_eq_ok_iff`** — the two steps.
* **`Engine.compile_eq_ok_iff`** — both: what a query is rendered from. -/

namespace BoundSql

/-- The clauses that make up the text of a query. -/
theorem Select.bodyText_eq (q : Select) : q.bodyText =
    "SELECT " ++ distinctText q.distinct ++ q.columnsText ++ " FROM " ++
      ", ".intercalate (q.sources.map FromItem.text) ++ String.join (q.joins.map Join.text) ++
      clause "WHERE" (nonEmpty q.filter.expr) ++
      clause "GROUP BY" (q.group.map ItemList.text) ++
      clause "HAVING" (q.having.bind fun h => nonEmpty h.expr) ++
      clause "ORDER BY" (q.order.map ItemList.text) := rfl

/-- A query has its template unless its clauses are at fault. -/
theorem Select.compile_eq_ok_iff {q : Select} {t : Template} :
    q.compile = .ok t ↔ q.fault? = none ∧ t = q.template := by
  rw [compile]
  cases hf : q.fault? with
  | none =>
    refine ⟨fun h => ⟨rfl, (Except.ok.inj h).symm⟩, ?_⟩
    rintro ⟨-, rfl⟩
    rfl
  | some e =>
    refine ⟨fun h => (by cases h), ?_⟩
    rintro ⟨h, -⟩
    cases h

/-- The rendering of a template, given the tables of its sources. -/
def Template.rendering (t : Template) (d : Dialect) (resolved : OrderedMap String Source) :
    Rendering :=
  ⟨d, resolved, t.binds, t.types, t.sql⟩

/-- A template is rendered if all its sources are resolved. -/
theorem Template.resolve_eq_ok_iff {t : Template} {d : Dialect}
    {resolved : OrderedMap String Source} {native : Native} :
    t.resolve d resolved = .ok native ↔
      (∀ name ∈ t.sources, name ∈ resolved.keys) ∧ (t.rendering d resolved).run = .ok native := by
  rw [resolve]
  cases hf : t.sources.find? fun name => !resolved.contains name with
  | none =>
    have hall : ∀ name ∈ t.sources, name ∈ resolved.keys := by
      intro name hname
      have := List.find?_eq_none.1 hf name hname
      rw [← OrderedMap.contains_iff]
      simpa using this
    exact ⟨fun h => ⟨hall, h⟩, fun h => h.2⟩
  | some missing =>
    refine ⟨fun h => (by cases h), ?_⟩
    rintro ⟨hall, -⟩
    have hmissing := (OrderedMap.contains_iff resolved _).2 (hall _ (List.mem_of_find?_eq_some hf))
    have := List.find?_some hf
    simp [hmissing] at this

namespace Engine

variable {σ τ ι Stmt Row : Type}

/-- Resolved names have the sources they are registered with. -/
theorem get?_of_resolveSources_eq_ok {sources : Registry} {names : List String}
    {start resolved : OrderedMap String Source}
    (h : resolveSources sources names start = .ok resolved) (name : String) :
    (name ∈ names → name ∈ sources.keys) ∧
      resolved.get? name = if name ∈ names then sources.get? name else start.get? name := by
  induction names generalizing start with
  | nil =>
    obtain rfl := Except.ok.inj h
    exact ⟨fun hname => (by cases hname), by rw [if_neg List.not_mem_nil]⟩
  | cons first names ih =>
    rw [resolveSources, Registry.require] at h
    cases hsource : sources.get? first with
    | none =>
      rw [hsource] at h
      cases h
    | some source =>
      rw [hsource] at h
      obtain ⟨hnames, hget⟩ := ih h
      -- A name that is resolved twice gets the same source twice.
      by_cases hfirst : name = first
      · refine ⟨fun _ => (OrderedMap.mem_keys_iff _ _).2 ⟨source, hfirst ▸ hsource⟩, ?_⟩
        rw [if_pos (by simp [hfirst]), hget, hfirst, OrderedMap.get?_insert_self, hsource, ite_self]
      · simp only [List.mem_cons, hfirst, false_or]
        rw [hget, OrderedMap.get?_insert_of_ne _ _ hfirst]
        exact ⟨hnames, rfl⟩

/-- What a query is rendered from. -/
theorem compile_eq_ok_iff {e : Engine σ τ ι Stmt Row} {sources : Registry} {q : Select}
    {native : Native} :
    e.compile sources q = .ok native ↔ q.fault? = none ∧
      ∃ resolved, resolveSources sources q.logicalSources OrderedMap.empty = .ok resolved ∧
        (q.template.rendering e.backend.dialect resolved).run = .ok native := by
  rw [compile]
  cases hc : q.compile with
  | error failure =>
    refine ⟨fun h => (by cases h), ?_⟩
    rintro ⟨hf, -⟩
    cases hc.symm.trans (Select.compile_eq_ok_iff.2 ⟨hf, rfl⟩)
  | ok t =>
    obtain ⟨hf, rfl⟩ := Select.compile_eq_ok_iff.1 hc
    show e.resolve sources q.template = .ok native ↔ _
    rw [resolve]
    cases hr : resolveSources sources q.template.sources OrderedMap.empty with
    | error failure =>
      refine ⟨fun h => (by cases h), ?_⟩
      rintro ⟨-, resolved, hresolved, -⟩
      cases hr.symm.trans hresolved
    | ok resolved =>
      -- All sources of the template are resolved, so none is missing in the text.
      have hkeys : ∀ name ∈ q.template.sources, name ∈ resolved.keys := by
        intro name hname
        obtain ⟨hregistered, hget⟩ := get?_of_resolveSources_eq_ok hr name
        rw [OrderedMap.mem_keys_iff, hget, if_pos hname, ← OrderedMap.mem_keys_iff]
        exact hregistered hname
      constructor
      · intro h
        exact ⟨hf, resolved, hr, (Template.resolve_eq_ok_iff.1 h).2⟩
      · rintro ⟨-, resolved', hr', hrun⟩
        obtain rfl := Except.ok.inj (hr.symm.trans hr')
        exact Template.resolve_eq_ok_iff.2 ⟨hkeys, hrun⟩

end Engine

end BoundSql

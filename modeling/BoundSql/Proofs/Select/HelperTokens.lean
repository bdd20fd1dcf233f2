import BoundSql.Proofs.Filter.Written
import BoundSql.Proofs.Select.Compiled
import BoundSql.Proofs.Session.Run
import BoundSql.Proofs.Template.TokenValues

/-! # Tokens of helpers
A query of one source whose conditions are written by helpers, or hold no mark, has a native form
with one token for each value given to the helpers.
* **`Dialect.helperToken`**, **`Dialect.helperKey`** — the token of a value, by its number, and its
  key in the native statement.
* **`Select.filteredSource`** — how the template of a query of one source reads.
* **`Engine.helper_tokens_in_order`** — the tokens stand in the order of the values, each once, and
  each has its value. -/

namespace BoundSql

namespace Dialect

/-- The token of the value with a given 0-based number among those given to helpers. -/
def helperToken (d : Dialect) (j : Nat) : String :=
  match d with
  | mysql => ":" ++ Filter.generatedName j
  | postgres => "$" ++ toString (j + 1)

/-- The key of the value with a given 0-based number among those given to helpers. -/
def helperKey (d : Dialect) (j : Nat) : BindKey :=
  match d with
  | mysql => .name (Filter.generatedName j)
  | postgres => .index j

end Dialect

namespace Filter

open Template

/-! ### Generated names as references -/

/-- The references to the first generated names, in order. -/
def generatedRefs (count : Nat) : List BindKey :=
  (List.range count).map fun j => .name (generatedName j)

theorem nodup_generatedRefs (count : Nat) : (generatedRefs count).Nodup :=
  List.nodup_range.map fun _ _ h => generatedName_inj (BindKey.name.inj h)

/-- Generated names that appear in order have their numbers as places. -/
theorem nativeKey_generatedRefs (d : Dialect) {count j : Nat} (hj : j < count) :
    d.nativeKey (generatedRefs count) (.name (generatedName j)) = d.helperKey j := by
  cases d with
  | mysql => rfl
  | postgres =>
    have hlength : j < (generatedRefs count).length := by simpa [generatedRefs] using hj
    have hget : (generatedRefs count)[j] = .name (generatedName j) := by simp [generatedRefs]
    have hidx := (nodup_generatedRefs count).idxOf_getElem j hlength
    rw [hget] at hidx
    rw [Dialect.nativeKey, eraseDups_eq_self (nodup_generatedRefs count), hidx, Dialect.helperKey]

theorem tokenAt_generatedRefs (d : Dialect) {count j : Nat} (hj : j < count) :
    tokenAt d (generatedRefs count) j = d.helperToken j := by
  rw [tokenAt, Dialect.token_eq_mark, nativeKey_generatedRefs d hj]
  cases d <;> rfl

theorem entriesOf_nameValues (first : Nat) (values : List Value) :
    entriesOf (nameValues first values) =
      values.mapIdx fun j v => (.name (generatedName (first + j)), v) := by
  induction values generalizing first with
  | nil => rfl
  | cons v values ih =>
    have hrest : entriesOf (nameValues first (v :: values)) =
        (.name (generatedName first), v) :: entriesOf (nameValues (first + 1) values) := rfl
    rw [hrest, ih, List.mapIdx_cons]
    simp only [Nat.add_zero, Nat.add_assoc, Nat.add_comm 1]

/-- The values of helpers are bound to their generated names. -/
theorem get?_ofList_entriesOf {values : List Value} {j : Nat} (hj : j < values.length) :
    (OrderedMap.ofList (entriesOf (nameValues 0 values))).get? (.name (generatedName j)) =
      some values[j] := by
  have hmem : ((.name (generatedName j), values[j]) : BindKey × Value) ∈
      entriesOf (nameValues 0 values) := by
    rw [entriesOf_nameValues, List.mem_mapIdx]
    exact ⟨j, hj, by rw [Nat.zero_add]⟩
  exact OrderedMap.get?_insertAll_of_mem _ (nodup_entriesOf_nameValues _ _) hmem

theorem isPositional_ofList_entriesOf (first : Nat) (values : List Value) :
    BindMap.isPositional (OrderedMap.ofList (entriesOf (nameValues first values))) = false := by
  rw [BindMap.isPositional, OrderedMap.isEmpty, OrderedMap.keys,
    OrderedMap.entries_ofList (nodup_entriesOf_nameValues _ _)]
  cases values <;> rfl

/-- Plain calls bind nothing themselves. -/
theorem binds_eq_empty_of_isPlain {d : Dialect} {calls : List Call}
    (h : ∀ call ∈ calls, call.IsPlain d) :
    ∀ c ∈ calls.flatMap Call.conditions, c.binds = OrderedMap.empty := by
  intro c hc
  obtain ⟨call, hcall, hmem⟩ := List.mem_flatMap.1 hc
  have hplain := h call hcall
  cases call with
  | set c => exact hplain.elim
  | combine op c' =>
    obtain rfl := List.mem_singleton.1 hmem
    rw [hplain.1]
    rfl
  | helper helper => cases hmem

/-- What stands for itself has native text. -/
theorem placeholder_or_isSound_of_isFree {s : Segment} {binds : BindMap} (h : IsFree s) :
    (∃ inner, s = .placeholder inner) ∨ s.IsSound binds := by
  cases s with
  | placeholder inner => exact .inl ⟨inner, rfl⟩
  | plain c => exact .inr trivial
  | literal text | quoted text | bracket inner | unclosed rest | question => exact h.elim

/-- The WHERE clause of an expression with slots has the same slots. -/
theorem HasSlots.whereClause {d : Dialect} {text : (Nat → String) → String} {params : List Nat}
    (h : HasSlots d text params) :
    HasSlots d (fun mark => Select.clause "WHERE" (Select.nonEmpty (text mark))) params := by
  have hnone : Select.clause "WHERE" (Select.nonEmpty "") = "" := rfl
  have hsome : ∀ expr : String, expr ≠ "" →
      Select.clause "WHERE" (Select.nonEmpty expr) = " WHERE " ++ expr := by
    intro expr hne
    rw [Select.nonEmpty, if_neg (mt String.isEmpty_iff.1 hne), Select.clause]
    rfl
  by_cases he : text slot = ""
  · refine h.congr ?_ fun refs => ?_
    · rw [he, hnone]
    · rw [(h.eq_empty_iff refs).2 he, hnone]
  · have hkeyword : IsUnmarked d " WHERE " := by cases d <;> decide
    refine (h.unmarked_append hkeyword).congr ?_ fun refs => ?_
    · rw [hsome _ he]
    · rw [hsome _ (mt (h.eq_empty_iff refs).1 he)]

end Filter

/-- Where the parameters are the names generated for values, in order, each value is bound to the
key of its token. -/
theorem Numbering.Tracks.entries_of_generated {t : Rendering} {n : Numbering} {values : List Value}
    (h : n.Tracks t (Filter.generatedRefs values.length))
    (hbound : ∀ j (hj : j < values.length),
      t.binds.get? (.name (Filter.generatedName j)) = some values[j]) :
    n.binds.entries = values.mapIdx fun j v => (t.dialect.helperKey j, v) := by
  refine OrderedMap.entries_eq ?_ fun e he => ?_
  · have hkeys : (values.mapIdx fun j v => (t.dialect.helperKey j, v)).map Prod.fst =
        (List.range values.length).map t.dialect.helperKey := by
      refine List.ext_getElem (by simp) fun j _ _ => by simp
    rw [hkeys, h.keys, Dialect.nativeKeys, eraseDups_eq_self (Filter.nodup_generatedRefs _)]
    conv_lhs => rw [Filter.generatedRefs, List.map_map]
    exact List.map_congr_left fun j hj =>
      Filter.nativeKey_generatedRefs t.dialect (List.mem_range.1 hj)
  · obtain ⟨j, hj, rfl⟩ := List.mem_mapIdx.1 he
    have hmem : BindKey.name (Filter.generatedName j) ∈ Filter.generatedRefs values.length :=
      List.mem_map_of_mem (List.mem_range.2 hj)
    rw [← Filter.nativeKey_generatedRefs t.dialect hj, h.value _ hmem, hbound j hj]

namespace Rendering

open Template

variable {t : Rendering} {values : List Value}

/-- Text whose placeholders are the names generated for values, in order, has a native form if all
else in it has: each value has a token and is bound to the key of the token. -/
theorem run_of_generated
    (hbinds : t.binds = OrderedMap.ofList (Filter.entriesOf (Filter.nameValues 0 values)))
    (hnames : placeholderNames t.source = (List.range values.length).map Filter.generatedName)
    (hsound : ∀ s ∈ t.source, (∃ name, s = .placeholder name) ∨ s.IsSound t.binds) :
    ∃ native, t.run = .ok native ∧
      native.sql = nativeText t.dialect t.identifier (Filter.generatedRefs values.length) t.source ∧
      t.tokens [] t.source = (List.range values.length).map t.dialect.helperToken ∧
      native.binds.entries = values.mapIdx fun j v => (t.dialect.helperKey j, v) := by
  have hp : t.binds.isPositional = false := hbinds ▸ Filter.isPositional_ofList_entriesOf 0 values
  have hrefs : t.referencesOf t.source = Filter.generatedRefs values.length := by
    rw [referencesOf, hp, references_false, hnames, List.map_map]
    rfl
  have hbound : ∀ j (hj : j < values.length),
      t.binds.get? (.name (Filter.generatedName j)) = some values[j] := fun j hj =>
    hbinds ▸ Filter.get?_ofList_entriesOf hj
  -- A placeholder is the generated name of some value, so it is bound.
  have hall : ∀ s ∈ t.source, s.IsSound t.binds := by
    intro s hs
    rcases hsound s hs with ⟨name, rfl⟩ | h
    · have hmem : String.ofList name ∈ placeholderNames t.source :=
        List.mem_filterMap.2 ⟨_, hs, rfl⟩
      rw [hnames] at hmem
      obtain ⟨j, hj, he⟩ := List.mem_map.1 hmem
      show BindKey.name (String.ofList name) ∈ t.binds.keys
      rw [← he, OrderedMap.mem_keys_iff]
      exact ⟨_, hbound j (List.mem_range.1 hj)⟩
    · exact h
  obtain ⟨native, hrun⟩ := (exists_run_eq_ok_iff hp).2 hall
  refine ⟨native, hrun, ?_, ?_, ?_⟩
  · rw [sql_of_run_eq_ok hp hrun, hrefs]
  · rw [tokens_eq_map, List.nil_append, hrefs]
    show (t.referencesOf t.source).map _ = _
    rw [hrefs, Filter.generatedRefs, List.map_map]
    exact List.map_congr_left fun j hj => Filter.tokenAt_generatedRefs _ (List.mem_range.1 hj)
  · obtain ⟨n, htracks, rfl⟩ := exists_tracks_of_run_eq_ok hrun
    rw [hrefs] at htracks
    exact htracks.entries_of_generated hbound

end Rendering

namespace Select

open Template

theorem startsApart_clause (d : Dialect) (text : Option String) :
    startsApart d (clause "WHERE" text).toList = true := by
  cases text with
  | none => rfl
  | some text =>
    have hkeyword : startsApart d (" " ++ "WHERE").toList = true := by cases d <;> decide
    rw [clause, String.append_assoc]
    exact startsApart_append_of_ne_empty (by decide) hkeyword _

/-- The template of a query of one source, named by a word, that has only a filter. -/
theorem template_of_filter {name : String} (hname : Text.isWord name.toList = true) (f : Filter) :
    let q : Select := { ofSource name with filter := f }
    q.fault? = none ∧ q.logicalSources = [name] ∧ q.template.binds = f.binds ∧
      q.template.sql = "SELECT " ++ (("[" ++ name ++ "]") ++ (".* FROM " ++ (("[" ++ name ++ "]") ++
        clause "WHERE" (nonEmpty f.expr)))) := by
  intro q
  -- A word has no bracket, so it is a name and no statement text.
  have hraw : isRaw name = false := by
    rw [Text.isWord, Bool.and_eq_true] at hname
    rw [isRaw, List.contains_eq_mem, decide_eq_false_iff_not]
    intro hmem
    exact absurd (List.all_eq_true.1 hname.2 _ hmem) (by decide)
  have hcolumns : q.columnsText = bracketed name ++ ".*" := by
    have hall : FromItem.allColumns ⟨name, none⟩ = bracketed name ++ ".*" := by
      rw [FromItem.allColumns, hraw]
      rfl
    show ", ".intercalate [FromItem.allColumns ⟨name, none⟩] = _
    rw [String.intercalate_singleton, hall]
  have hsources : ", ".intercalate (q.sources.map FromItem.text) = bracketed name := by
    have htext : FromItem.text ⟨name, none⟩ = bracketed name := by
      rw [FromItem.text, sourceText, hraw]
      rfl
    show ", ".intercalate [FromItem.text ⟨name, none⟩] = _
    rw [String.intercalate_singleton, htext]
  refine ⟨rfl, ?_, rfl, ?_⟩
  · simp [q, logicalSources, ofSource, addSource, hraw]
  · show q.bodyText ++ "" ++ "" ++ "" = _
    have hdistinct : distinctText q.distinct = "" := rfl
    have hjoins : String.join (q.joins.map Join.text) = "" := rfl
    have hgroup : clause "GROUP BY" (q.group.map ItemList.text) = "" := rfl
    have hhaving : clause "HAVING" (q.having.bind fun h => nonEmpty h.expr) = "" := rfl
    have horder : clause "ORDER BY" (q.order.map ItemList.text) = "" := rfl
    have hfrom : ".* FROM " = ".*" ++ " FROM " := rfl
    rw [bodyText_eq, hdistinct, hcolumns, hsources, hjoins, hgroup, hhaving, horder, hfrom]
    simp only [String.append_empty, String.append_assoc, bracketed]
    rfl

/-- The segments of such a query, where the clause of its filter has the given ones. -/
def filteredSource (name : String) (segs : List Segment) : List Segment :=
  verbatim "SELECT " ++ ([.bracket name.toList] ++
    (verbatim ".* FROM " ++ ([.bracket name.toList] ++ segs)))

section FilteredSource

variable {d : Dialect} {name : String} {segs : List Segment}

theorem scan_of_filter (hname : Text.isWord name.toList = true) {f : Filter}
    (h : ReadsAs d (clause "WHERE" (nonEmpty f.expr)) segs) :
    let q : Select := { ofSource name with filter := f }
    scan d q.template.sql.toList = filteredSource name segs := by
  intro q
  have hselect : IsUnmarked d "SELECT " := by cases d <;> decide
  have hfrom : IsUnmarked d ".* FROM " := by cases d <;> decide
  have hname' : ReadsAs d ("[" ++ name ++ "]") [.bracket name.toList] :=
    readsAs_bracketed (Text.not_mem_of_isWord hname)
  have htable := hname'.append h (startsApart_clause d _)
  have hcolumns := hname'.append (ReadsAs.unmarked_append hfrom htable)
    (startsApart_append_of_ne_empty (by decide) (by cases d <;> decide) _)
  rw [(template_of_filter hname f).2.2.2]
  exact (ReadsAs.unmarked_append hselect hcolumns).scan_eq

theorem placeholderNames_filteredSource (name : String) (segs : List Segment) :
    placeholderNames (filteredSource name segs) = placeholderNames segs := by
  rw [filteredSource, placeholderNames_append, placeholderNames_append, placeholderNames_append,
    placeholderNames_append, placeholderNames_verbatim, placeholderNames_verbatim]
  rfl

/-- What is not a placeholder has a native text. -/
theorem isSound_of_mem_filteredSource (hname : Text.isWord name.toList = true)
    (h : ∀ s ∈ segs, Filter.IsFree s) (binds : BindMap) :
    ∀ s ∈ filteredSource name segs, (∃ inner, s = .placeholder inner) ∨ s.IsSound binds := by
  have hbracket : (Segment.bracket name.toList).IsSound binds := isSound_bracket hname
  have hverbatim : ∀ text, ∀ s ∈ verbatim text,
      (∃ inner, s = .placeholder inner) ∨ s.IsSound binds := fun text s hs =>
    Filter.placeholder_or_isSound_of_isFree (Filter.isFree_of_mem_verbatim hs)
  rw [filteredSource]
  simp only [List.forall_mem_append, List.forall_mem_singleton]
  exact ⟨hverbatim _, .inr hbracket, hverbatim _, .inr hbracket,
    fun s hs => Filter.placeholder_or_isSound_of_isFree (h s hs)⟩

theorem nativeText_filteredSource (identifier : String → String) (refs : List BindKey)
    (hname : Text.isWord name.toList = true) (segs : List Segment) :
    nativeText d identifier refs (filteredSource name segs) =
      "SELECT " ++ identifier name ++ ".* FROM " ++ identifier name ++
        nativeText d identifier refs segs := by
  have hbracket : nativeText d identifier refs [.bracket name.toList] = identifier name := by
    rw [nativeText_cons, Segment.nativeText_bracket, Text.trim_of_isWord hname,
      String.ofList_toList]
    exact String.append_empty
  simp only [filteredSource, nativeText_append, nativeText_verbatim, hbracket,
    String.append_assoc]

end FilteredSource

end Select

namespace Engine

open Template

variable {σ τ ι Stmt Row : Type}

/-- A query of one registered source whose conditions are written by helpers, or hold no mark, has a
native form. Its text is that of the template with the token of each value in the place of its
placeholder; the tokens are those of all values given to the helpers, each once and in order; and
each value is bound to the key of its token, and nothing else is bound. -/
theorem helper_tokens_in_order {e : Engine σ τ ι Stmt Row} {sources : Registry} {name : String}
    {source : Source} {calls : List Filter.Call} (hname : Text.isWord name.toList = true)
    (hsource : sources.get? name = some source)
    (hcalls : ∀ call ∈ calls, call.IsPlain e.backend.dialect) :
    let d := e.backend.dialect
    let q : Select := { Select.ofSource name with filter := Filter.reach [] calls }
    let table := source.tableReference d
    let values := calls.flatMap Filter.Call.values
    ∃ native resolved, e.compile sources q = .ok native ∧
      resolveSources sources q.logicalSources OrderedMap.empty = .ok resolved ∧
      native.sql = "SELECT " ++ table ++ ".* FROM " ++ table ++
        Select.clause "WHERE" (Select.nonEmpty (Filter.written d.helperToken calls)) ∧
      (q.template.rendering d resolved).tokens [] (q.template.rendering d resolved).source =
        (List.range values.length).map d.helperToken ∧
      native.binds.entries = values.mapIdx fun j v => (d.helperKey j, v) := by
  intro d q table values
  obtain ⟨hfault, hlogical, hbinds, -⟩ := Select.template_of_filter hname (Filter.reach [] calls)
  rw [Filter.binds_reach (Filter.binds_eq_empty_of_isPlain hcalls)] at hbinds
  -- The source is resolved to its table.
  let resolved : OrderedMap String Source := OrderedMap.empty.insert name source
  have hresolved : resolveSources sources q.logicalSources OrderedMap.empty = .ok resolved := by
    rw [hlogical, resolveSources, Registry.require, hsource]
    rfl
  let t := q.template.rendering d resolved
  have htable : t.identifier name = table := by
    have hget : t.resolved.get? name = some source := OrderedMap.get?_insert_self _ _ _
    rw [Rendering.identifier, hget]
    rfl
  -- The clause of the filter reads as its slots, and they are all the placeholders of the query.
  obtain ⟨segs, hreads, hfree, hnames, hnative⟩ := (Filter.hasSlots_written hcalls).whereClause
  have hscan : t.source = Select.filteredSource name segs := by
    refine Select.scan_of_filter hname ?_
    rw [Filter.expr_reach]
    exact hreads
  have hplaceholders : placeholderNames t.source =
      (List.range values.length).map Filter.generatedName := by
    rw [hscan, Select.placeholderNames_filteredSource, hnames]
    rfl
  obtain ⟨native, hrun, hsql, htokens, hentries⟩ := Rendering.run_of_generated (t := t) hbinds
    hplaceholders (hscan ▸ Select.isSound_of_mem_filteredSource hname hfree _)
  refine ⟨native, resolved, compile_eq_ok_iff.2 ⟨hfault, resolved, hresolved, hrun⟩, hresolved, ?_,
    htokens, hentries⟩
  have hclause : nativeText d t.identifier (Filter.generatedRefs values.length) segs =
      Select.clause "WHERE" (Select.nonEmpty (Filter.written d.helperToken calls)) := by
    rw [← Filter.written_congr fun j hj => Filter.tokenAt_generatedRefs d hj]
    exact hnative _ _
  rw [hsql, hscan, ← htable, ← hclause]
  exact Select.nativeText_filteredSource _ _ hname segs

/-- Helpers between plain conditions, one of them empty, and a helper without values. -/
theorem helper_tokens_in_order_mixed :
    let e := Script.engine .postgres
    let sources := Registry.ofSources [⟨"users", "app_users", some "crm"⟩]
    let calls : List Filter.Call :=
      [.helper (.inList true "u.id" [.int 10, .int 20]), .combine .or (.ofExpr "active = 1"),
        .combine .and (.ofExpr ""), .helper (.inList false "tag" []),
        .helper (.between false "age" (.int 30) (.int 40))]
    ∃ native,
      e.compile sources { Select.ofSource "users" with filter := Filter.reach [] calls } =
        .ok native ∧
      native.sql = "SELECT \"crm\".\"app_users\".* FROM \"crm\".\"app_users\" WHERE " ++
        "(((u.id IN ($1, $2)) OR (active = 1)) AND (tag != tag)) AND " ++
        "(age NOT BETWEEN $3 AND $4)" ∧
      native.binds.entries = [(.index 0, .int 10), (.index 1, .int 20), (.index 2, .int 30),
        (.index 3, .int 40)] := by
  intro e sources calls
  have htext : ∀ text ∈ ["u.id", "active = 1", "", "tag", "age"], IsUnmarked .postgres text := by
    decide
  have hcalls : ∀ call ∈ calls, call.IsPlain e.backend.dialect := by
    simp only [calls, List.forall_mem_cons, List.not_mem_nil, false_imp_iff, implies_true, and_true]
    exact ⟨htext "u.id" (by simp), ⟨rfl, htext "active = 1" (by simp)⟩,
      ⟨rfl, htext "" (by simp)⟩, htext "tag" (by simp), htext "age" (by simp)⟩
  have hname : Text.isWord "users".toList = true := by decide
  have hsource : sources.get? "users" = some ⟨"users", "app_users", some "crm"⟩ := rfl
  obtain ⟨native, resolved, hcompile, -, hsql, -, hentries⟩ :=
    helper_tokens_in_order hname hsource hcalls
  exact ⟨native, hcompile, hsql.trans (by decide +kernel), hentries⟩

end Engine

end BoundSql

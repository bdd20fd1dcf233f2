import BoundSql.Proofs.Select.Compiled
import BoundSql.Proofs.Select.Names
import BoundSql.Proofs.Template.Numbering

/-! # The sources of a query
The FROM clause and the joins of a query are filled in call by call. An alias that is given again
keeps its place and changes its source, and the FROM clause can be set anew.
* **`SourceCall`**, **`fill`** — the calls, and the query they lead to.
* **`given`** — the entries given since the FROM clause was last set; **`introduced`** and
  **`latest`** — which of them have a place, and what stands there.
* **`Filled`** — what calls have made of the FROM clause and the joins, by **`filled_fill`**.
* **`logicalSources_eq`** — the logical sources are the distinct names that are no statement text.
* **`sources_of_calls`** — the FROM clause, the joins, the sources of the template and their
  resolution after any calls. -/

namespace BoundSql

namespace Select

/-! ### Calls -/

/-- A call that fills in clauses. -/
inductive SourceCall
  /-- One more source. -/
  | addSource (source : String)
  /-- A source under an alias. -/
  | addSourceAs (source aliasName : String)
  /-- A source in place of all others. -/
  | setSource (source : String) (aliasName : Option String)
  /-- One more join. -/
  | addJoin (source : String) (condition aliasName : Option String) (kind : Option JoinKind)
  /-- Anything about the other clauses, which are then those of the given query. -/
  | others (clauses : Select)

namespace SourceCall

/-- The query after a call. -/
def apply (q : Select) : SourceCall → Select
  | addSource source => q.addSource source
  | addSourceAs source aliasName => q.addSourceAs source aliasName
  | setSource source aliasName => q.setSource source aliasName
  | addJoin source condition aliasName kind => q.addJoin source condition aliasName kind
  | others clauses => { clauses with sources := q.sources, joins := q.joins }

/-- The entry that a call gives for the FROM clause. -/
def entry? : SourceCall → Option FromItem
  | addSource source => some ⟨source, none⟩
  | addSourceAs source aliasName => some ⟨source, some aliasName⟩
  | setSource source aliasName => some ⟨source, aliasName⟩
  | addJoin _ _ _ _ | others _ => none

/-- The source that a call joins. -/
def joined? : SourceCall → Option String
  | addJoin source _ _ _ => some source
  | addSource _ | addSourceAs _ _ | setSource _ _ | others _ => none

/-- Whether a call sets the FROM clause anew. -/
def isSet : SourceCall → Bool
  | setSource _ _ => true
  | addSource _ | addSourceAs _ _ | addJoin _ _ _ _ | others _ => false

end SourceCall

/-- The query that calls make of a new one. -/
def fill (calls : List SourceCall) : Select := calls.foldl SourceCall.apply {}

/-- The entries given since the FROM clause was last set, in the order of the calls. -/
def given : List SourceCall → List FromItem
  | [] => []
  | call :: calls =>
    if calls.any SourceCall.isSet then given calls else call.entry?.toList ++ given calls

/-- The sources that are joined, in the order of the calls. -/
def joined (calls : List SourceCall) : List String := calls.filterMap SourceCall.joined?

theorem given_concat (calls : List SourceCall) (call : SourceCall) :
    given (calls ++ [call]) =
      if call.isSet then call.entry?.toList else given calls ++ call.entry?.toList := by
  induction calls with
  | nil => simp [given]
  | cons first calls ih =>
    rw [List.cons_append, given, given, ih, List.any_append]
    by_cases hset : call.isSet <;> by_cases hany : calls.any SourceCall.isSet <;>
      simp [hset, hany]

theorem joined_concat (calls : List SourceCall) (call : SourceCall) :
    joined (calls ++ [call]) = joined calls ++ call.joined?.toList := by
  rw [joined, List.filterMap_append, ← joined]
  cases call <;> rfl

theorem joined_concat_of_eq_none (calls : List SourceCall) {call : SourceCall}
    (h : call.joined? = none) : joined (calls ++ [call]) = joined calls := by
  rw [joined_concat, h, Option.toList_none, List.append_nil]

/-! ### Entries under aliases -/

/-- Whether two entries do not share an alias. -/
def FromItem.Apart (s t : FromItem) : Prop := s.aliasName = none ∨ s.aliasName ≠ t.aliasName

instance (s t : FromItem) : Decidable (s.Apart t) := inferInstanceAs (Decidable (_ ∨ _))

/-- The entries without an alias and the first one under each alias. -/
def introduced : List FromItem → List FromItem
  | [] => []
  | s :: entries => s :: (introduced entries).filter fun t => t.Apart s

/-- The last entry under an alias. -/
def lastUnder (entries : List FromItem) (aliasName : String) : Option FromItem :=
  entries.reverse.find? fun t => t.aliasName = some aliasName

/-- What stands in the place of an entry: the last entry under its alias, if it has one. -/
def latest (entries : List FromItem) (s : FromItem) : FromItem :=
  (s.aliasName.bind (lastUnder entries)).getD s

theorem lastUnder_concat (entries : List FromItem) (e : FromItem) (a : String) :
    lastUnder (entries ++ [e]) a =
      if e.aliasName = some a then some e else lastUnder entries a := by
  by_cases h : e.aliasName = some a <;> simp [lastUnder, h]

theorem aliasName_of_lastUnder {entries : List FromItem} {a : String} {s : FromItem}
    (h : lastUnder entries a = some s) : s.aliasName = some a := by
  simpa using List.find?_some h

theorem mem_of_lastUnder {entries : List FromItem} {a : String} {s : FromItem}
    (h : lastUnder entries a = some s) : s ∈ entries :=
  List.mem_reverse.1 (List.mem_of_find?_eq_some h)

@[simp] theorem aliasName_latest (entries : List FromItem) (s : FromItem) :
    (latest entries s).aliasName = s.aliasName := by
  cases ha : s.aliasName with
  | none => simp [latest, ha]
  | some a =>
    cases hlast : lastUnder entries a with
    | none => simp [latest, ha, hlast]
    | some t => simp [latest, ha, hlast, aliasName_of_lastUnder hlast]

theorem apart_latest (entries : List FromItem) (s t : FromItem) :
    (latest entries s).Apart t ↔ s.Apart t := by
  rw [FromItem.Apart, aliasName_latest, FromItem.Apart]

theorem latest_of_unaliased {entries : List FromItem} {s : FromItem} (h : s.aliasName = none) :
    latest entries s = s := by
  simp [latest, h]

/-- One more entry stands in the places of its own alias and in no other. -/
theorem latest_concat (entries : List FromItem) (e s : FromItem) :
    latest (entries ++ [e]) s = if s.Apart e then latest entries s else e := by
  cases ha : s.aliasName with
  | none => simp [latest, FromItem.Apart, ha]
  | some a =>
    by_cases he : e.aliasName = some a
    · simp [latest, FromItem.Apart, ha, lastUnder_concat, he]
    · have he' : ¬ some a = e.aliasName := fun h => he h.symm
      simp [latest, FromItem.Apart, ha, lastUnder_concat, he, he']

/-- An entry has a place of its own unless its alias has been given before. -/
theorem introduced_concat (entries : List FromItem) (e : FromItem) :
    introduced (entries ++ [e]) =
      introduced entries ++ if ∀ s ∈ entries, e.Apart s then [e] else [] := by
  induction entries with
  | nil => simp [introduced]
  | cons s entries ih =>
    rw [List.cons_append, introduced, introduced, ih, List.filter_append, List.cons_append]
    by_cases hs : e.Apart s
    · by_cases hall : ∀ t ∈ entries, e.Apart t <;> simp [hs, hall]
    · by_cases hall : ∀ t ∈ entries, e.Apart t <;> simp [hs, hall]

/-- What is introduced has been given, and each alias that is given is introduced. -/
theorem mem_of_mem_introduced {entries : List FromItem} {s : FromItem}
    (h : s ∈ introduced entries) : s ∈ entries := by
  induction entries with
  | nil => exact h
  | cons t entries ih =>
    rcases List.mem_cons.1 h with rfl | h
    · exact List.mem_cons_self
    · exact List.mem_cons_of_mem _ (ih (List.mem_of_mem_filter h))

theorem exists_introduced {entries : List FromItem} {t : FromItem} (ht : t ∈ entries) {a : String}
    (ha : t.aliasName = some a) : ∃ s ∈ introduced entries, s.aliasName = some a := by
  induction entries with
  | nil => cases ht
  | cons first entries ih =>
    by_cases hfirst : first.aliasName = some a
    · exact ⟨first, List.mem_cons_self, hfirst⟩
    · have ht : t ∈ entries := (List.mem_cons.1 ht).resolve_left (by rintro rfl; exact hfirst ha)
      obtain ⟨s, hs, hsa⟩ := ih ht
      have hapart : s.Apart first := .inr fun h => hfirst (h.symm.trans hsa)
      exact ⟨s, List.mem_cons_of_mem _ (List.mem_filter.2 ⟨hs, decide_eq_true hapart⟩), hsa⟩

theorem pairwise_introduced (entries : List FromItem) :
    (introduced entries).Pairwise fun s t => t.Apart s := by
  induction entries with
  | nil => exact .nil
  | cons s entries ih =>
    refine List.pairwise_cons.2 ⟨fun t ht => ?_, ih.filter _⟩
    simpa using (List.mem_filter.1 ht).2

/-! ### The FROM clause -/

/-- The entries that stand in a FROM clause: each alias at the place where it was introduced, with
the source given last. -/
def placed (entries : List FromItem) : List FromItem := (introduced entries).map (latest entries)

theorem placed_eq_nil_iff {entries : List FromItem} : placed entries = [] ↔ entries = [] := by
  cases entries <;> simp [placed, introduced]

theorem pairwise_placed (entries : List FromItem) :
    (placed entries).Pairwise fun s t => t.Apart s := by
  refine List.pairwise_map.2 ((pairwise_introduced entries).imp fun h => ?_)
  simpa only [FromItem.Apart, aliasName_latest] using h

/-- One more entry takes the place of its alias, or the last place if it has none yet. -/
theorem placed_concat (entries : List FromItem) (e : FromItem) :
    placed (entries ++ [e]) =
      if ∀ s ∈ entries, e.Apart s then placed entries ++ [e]
      else (placed entries).map fun s => if s.Apart e then s else e := by
  rw [placed, introduced_concat]
  split
  · rename_i hnew
    -- A source apart from all others takes the last place, and no other place changes.
    have hkept : ∀ s ∈ introduced entries, latest (entries ++ [e]) s = latest entries s := by
      intro s hs
      have hapart : s.Apart e := by
        rcases hnew s (mem_of_mem_introduced hs) with hnone | hne
        · cases hs : s.aliasName with
          | none => exact .inl hs
          | some a => exact .inr (by simp [hs, hnone])
        · exact .inr hne.symm
      rw [latest_concat, if_pos hapart]
    have hlast : latest (entries ++ [e]) e = e := by
      rw [latest_concat]
      split
      · rename_i h
        exact latest_of_unaliased (h.resolve_right fun h => h rfl)
      · rfl
    rw [List.map_append, List.map_congr_left hkept, List.map_singleton, hlast, placed]
  · rw [List.append_nil, placed, List.map_map]
    refine List.map_congr_left fun s _ => ?_
    simp only [latest_concat, Function.comp_apply, apart_latest]

/-- An entry under a new alias is put last. -/
theorem putAliased_of_forall_ne {e : FromItem} {entries : List FromItem}
    (h : ∀ s ∈ entries, s.aliasName ≠ e.aliasName) : putAliased e entries = entries ++ [e] := by
  induction entries with
  | nil => rfl
  | cons s entries ih =>
    rw [List.forall_mem_cons] at h
    rw [putAliased, if_neg h.1, ih h.2, List.cons_append]

/-- An entry under an alias that is there takes the place of the one entry under it. -/
theorem putAliased_of_exists {e : FromItem} {entries : List FromItem} {a : String}
    (he : e.aliasName = some a) (hapart : entries.Pairwise fun s t => t.Apart s)
    (h : ∃ s ∈ entries, s.aliasName = some a) :
    putAliased e entries = entries.map fun s => if s.Apart e then s else e := by
  induction entries with
  | nil => simp at h
  | cons s entries ih =>
    rw [List.pairwise_cons] at hapart
    rw [putAliased, List.map_cons]
    split
    · rename_i hs
      -- All other entries are apart from the one that is replaced.
      have hrest : ∀ t ∈ entries, (if t.Apart e then t else e) = t := by
        intro t ht
        refine if_pos ((hapart.1 t ht).imp_right fun hne => ?_)
        rwa [← hs]
      have hsame : ¬ s.Apart e := by simp [FromItem.Apart, hs, he]
      rw [if_neg hsame, List.map_congr_left hrest, List.map_id']
    · rename_i hs
      have hother : ∃ t ∈ entries, t.aliasName = some a := by
        obtain ⟨t, ht, hta⟩ := h
        rcases List.mem_cons.1 ht with rfl | ht
        · exact absurd (hta.trans he.symm) hs
        · exact ⟨t, ht, hta⟩
      rw [if_pos (.inr hs), ih hapart.2 hother]

/-- Putting an entry under its alias keeps the entries placed. -/
theorem putAliased_placed (entries : List FromItem) {e : FromItem} {a : String}
    (he : e.aliasName = some a) : putAliased e (placed entries) = placed (entries ++ [e]) := by
  rw [placed_concat]
  split
  · rename_i hnew
    refine putAliased_of_forall_ne fun t ht => ?_
    obtain ⟨s, hs, rfl⟩ := List.mem_map.1 ht
    rw [aliasName_latest]
    exact ((hnew s (mem_of_mem_introduced hs)).resolve_left (by simp [he])).symm
  · rename_i hold
    refine putAliased_of_exists he (pairwise_placed entries) ?_
    obtain ⟨t, ht, hta⟩ : ∃ t ∈ entries, t.aliasName = some a := by
      simpa [FromItem.Apart, he, eq_comm] using hold
    obtain ⟨s, hs, hsa⟩ := exists_introduced ht hta
    exact ⟨_, List.mem_map_of_mem hs, by rwa [aliasName_latest]⟩

/-- The entries under an alias are told apart by what was given last. -/
theorem mem_placed_iff {entries : List FromItem} {s : FromItem} {a : String}
    (ha : s.aliasName = some a) : s ∈ placed entries ↔ lastUnder entries a = some s := by
  have hplace : ∀ t ∈ introduced entries, t.aliasName = some a →
      lastUnder entries a = some (latest entries t) := by
    intro t ht hta
    obtain ⟨last, hlast⟩ : ∃ last, lastUnder entries a = some last := by
      rw [← Option.isSome_iff_exists, lastUnder, List.find?_isSome]
      exact ⟨t, List.mem_reverse.2 (mem_of_mem_introduced ht), decide_eq_true hta⟩
    simp [latest, hta, hlast]
  constructor
  · intro hs
    obtain ⟨t, ht, rfl⟩ := List.mem_map.1 hs
    exact hplace t ht (by rwa [aliasName_latest] at ha)
  · intro hlast
    obtain ⟨t, ht, hta⟩ := exists_introduced (mem_of_lastUnder hlast) ha
    obtain rfl : latest entries t = s := Option.some.inj ((hplace t ht hta).symm.trans hlast)
    exact List.mem_map_of_mem ht

/-- Entries without an alias stay in the order in which they were given. -/
theorem filter_placed_unaliased (entries : List FromItem) :
    (placed entries).filter (fun s => s.aliasName = none) =
      entries.filter fun s => s.aliasName = none := by
  have hintroduced : (introduced entries).filter (fun s => s.aliasName = none) =
      entries.filter fun s => s.aliasName = none := by
    induction entries with
    | nil => rfl
    | cons s entries ih =>
      rw [introduced, List.filter_cons, List.filter_cons, List.filter_filter, ← ih]
      have hboth : ∀ t : FromItem,
          (decide (t.aliasName = none) && decide (t.Apart s)) = decide (t.aliasName = none) := by
        intro t
        by_cases ht : t.aliasName = none <;> simp [FromItem.Apart, ht]
      simp only [hboth]
  have hsame : ((fun s : FromItem => decide (s.aliasName = none)) ∘ latest entries) =
      fun s => decide (s.aliasName = none) := by
    funext s
    simp
  have hself : ∀ s ∈ (introduced entries).filter (fun s => s.aliasName = none),
      latest entries s = s := fun s hs =>
    latest_of_unaliased (by simpa using (List.mem_filter.1 hs).2)
  rw [← hintroduced, placed, List.filter_map, hsame, List.map_congr_left hself, List.map_id']

theorem mem_placed_unaliased_iff {entries : List FromItem} {source : String} :
    ⟨source, none⟩ ∈ placed entries ↔ ⟨source, none⟩ ∈ entries := by
  simpa using congrArg (⟨source, none⟩ ∈ ·) (filter_placed_unaliased entries)

/-- The sources that have a place are those without an alias and the one given last under each. -/
theorem mem_source_placed_iff {entries : List FromItem} {name : String} :
    name ∈ (placed entries).map FromItem.source ↔ ⟨name, none⟩ ∈ entries ∨
      ∃ a, lastUnder entries a = some ⟨name, some a⟩ := by
  rw [List.mem_map, ← mem_placed_unaliased_iff]
  constructor
  · rintro ⟨⟨_, _ | a⟩, hs, rfl⟩
    · exact .inl hs
    · exact .inr ⟨a, (mem_placed_iff rfl).1 hs⟩
  · rintro (hs | ⟨a, hlast⟩)
    · exact ⟨_, hs, rfl⟩
    · exact ⟨_, (mem_placed_iff rfl).2 hlast, rfl⟩

theorem nodup_aliases_placed (entries : List FromItem) :
    ((placed entries).filterMap FromItem.aliasName).Nodup := by
  refine List.pairwise_filterMap.2 ((pairwise_placed entries).imp fun {s t} h a ha b hb => ?_)
  rcases h with h | h
  · simp [h] at hb
  · rintro rfl
    exact h (hb.trans ha.symm)

/-! ### What calls leave -/

/-- What calls have made of the FROM clause and the joins. -/
structure Filled (calls : List SourceCall) (q : Select) : Prop where
  /-- The entries given since the FROM clause was last set are in their places. -/
  sources_eq : q.sources = placed (given calls)
  /-- The joins are in the order of the calls. -/
  joins_eq : q.joins.map Join.source = joined calls

theorem filled_nil : Filled [] {} := ⟨rfl, rfl⟩

section Steps

variable {calls : List SourceCall} {q : Select}

theorem Filled.addSource (h : Filled calls q) (source : String) :
    Filled (calls ++ [.addSource source]) (q.addSource source) where
  sources_eq := by
    have hgiven : given (calls ++ [.addSource source]) = given calls ++ [⟨source, none⟩] :=
      given_concat calls _
    have hnew : ∀ s ∈ given calls, FromItem.Apart ⟨source, none⟩ s := fun s _ => .inl rfl
    rw [hgiven, placed_concat, if_pos hnew, ← h.sources_eq]
    rfl
  joins_eq := h.joins_eq.trans (joined_concat_of_eq_none calls rfl).symm

theorem Filled.addSourceAs (h : Filled calls q) (source aliasName : String) :
    Filled (calls ++ [.addSourceAs source aliasName]) (q.addSourceAs source aliasName) where
  sources_eq := by
    have hgiven : given (calls ++ [.addSourceAs source aliasName]) =
        given calls ++ [⟨source, some aliasName⟩] := given_concat calls _
    rw [hgiven, ← putAliased_placed _ rfl, ← h.sources_eq]
    rfl
  joins_eq := h.joins_eq.trans (joined_concat_of_eq_none calls rfl).symm

/-- Setting the FROM clause forgets all entries before. -/
theorem Filled.setSource (h : Filled calls q) (source : String) (aliasName : Option String) :
    Filled (calls ++ [.setSource source aliasName]) (q.setSource source aliasName) where
  sources_eq := by
    have hgiven : given (calls ++ [.setSource source aliasName]) = [⟨source, aliasName⟩] :=
      given_concat calls _
    rw [hgiven]
    cases aliasName with
    | none => rfl
    | some a => simp [Select.setSource, Select.addSourceAs, putAliased, placed, introduced, latest,
        lastUnder]
  joins_eq := by
    have hjoins : (q.setSource source aliasName).joins = q.joins := by cases aliasName <;> rfl
    rw [hjoins, h.joins_eq, joined_concat_of_eq_none calls rfl]

theorem Filled.addJoin (h : Filled calls q) (source : String) (condition aliasName : Option String)
    (kind : Option JoinKind) :
    Filled (calls ++ [.addJoin source condition aliasName kind])
      (q.addJoin source condition aliasName kind) where
  sources_eq := by
    have hgiven : given (calls ++ [.addJoin source condition aliasName kind]) = given calls :=
      (given_concat calls _).trans (List.append_nil _)
    rw [hgiven, ← h.sources_eq]
    rfl
  joins_eq := by
    rw [joined_concat, ← h.joins_eq]
    simp [Select.addJoin, SourceCall.joined?]

theorem Filled.others (h : Filled calls q) (clauses : Select) :
    Filled (calls ++ [.others clauses]) (SourceCall.apply q (.others clauses)) where
  sources_eq := by
    have hgiven : given (calls ++ [.others clauses]) = given calls :=
      (given_concat calls _).trans (List.append_nil _)
    rw [hgiven]
    exact h.sources_eq
  joins_eq := h.joins_eq.trans (joined_concat_of_eq_none calls rfl).symm

end Steps

/-- Every sequence of calls fills in its sources. -/
theorem filled_fill (calls : List SourceCall) : Filled calls (fill calls) := by
  induction calls using List.reverseRecOn with
  | nil => exact filled_nil
  | append_singleton calls call ih =>
    rw [fill, List.foldl_append, ← fill]
    cases call with
    | addSource source => exact ih.addSource source
    | addSourceAs source aliasName => exact ih.addSourceAs source aliasName
    | setSource source aliasName => exact ih.setSource source aliasName
    | addJoin source condition aliasName kind => exact ih.addJoin source condition aliasName kind
    | others clauses => exact ih.others clauses

/-! ### Logical sources -/

theorem isRaw_eq_false_iff {name : String} : isRaw name = false ↔ '[' ∉ name.toList := by
  rw [isRaw, ← Bool.not_eq_true, List.contains_iff_mem]

/-- Adding names one by one unless they are there keeps the first appearances. -/
theorem logicalSources_eq (q : Select) : q.logicalSources =
    ((q.sources.map FromItem.source ++ q.joins.map Join.source).filter
      fun s => '[' ∉ s.toList).eraseDups := by
  have hraw : (fun s : String => decide ('[' ∉ s.toList)) = fun s => !isRaw s := by
    funext s
    simp only [← isRaw_eq_false_iff]
    cases isRaw s <;> rfl
  rw [logicalSources, hraw]
  induction q.sources.map FromItem.source ++ q.joins.map Join.source using List.reverseRecOn with
  | nil => rfl
  | append_singleton names name ih =>
    rw [List.foldl_append, ih, List.filter_append, List.foldl_cons, List.foldl_nil]
    cases hraw : isRaw name with
    | true => simp [hraw]
    | false =>
      have hfilter : [name].filter (fun s => !isRaw s) = [name] := by simp [hraw]
      rw [hfilter, eraseDups_concat, Bool.false_or]
      simp only [List.contains_iff_mem, List.mem_eraseDups]

theorem mem_logicalSources_iff {q : Select} {name : String} :
    name ∈ q.logicalSources ↔ '[' ∉ name.toList ∧
      name ∈ q.sources.map FromItem.source ++ q.joins.map Join.source := by
  rw [mem_logicalSources, isRaw_eq_false_iff]

theorem sources_of_compile_eq_ok {q : Select} {t : Template} (h : q.compile = .ok t) :
    t.sources = q.logicalSources := by
  obtain ⟨-, rfl⟩ := compile_eq_ok_iff.1 h
  rfl

/-- A query makes no template exactly if it has no source, or asks for two kinds of locks, or for
an offset without a limit. -/
theorem fault?_eq_none_iff {q : Select} : q.fault? = none ↔
    q.sources ≠ [] ∧ ¬ (q.forUpdate = true ∧ q.sharedLock = true) ∧
      (q.limit = none → q.offset = none) := by
  rw [fault?]
  by_cases hsources : q.sources = []
  · simp [hsources]
  by_cases hlocks : q.forUpdate = true ∧ q.sharedLock = true
  · simp [hsources, hlocks]
  have hlocks' : (q.forUpdate && q.sharedLock) = false := by simpa using hlocks
  cases hlimit : q.limit <;> cases hoffset : q.offset <;> simp [hsources, hlocks, hlocks']

end Select

/-- The names of sources can be resolved exactly if all of them are registered. -/
theorem Engine.exists_resolveSources_iff {registry : Registry} {names : List String}
    {start : OrderedMap String Source} :
    (∃ resolved, resolveSources registry names start = .ok resolved) ↔
      ∀ name ∈ names, name ∈ registry.keys := by
  refine ⟨fun ⟨resolved, h⟩ name => (get?_of_resolveSources_eq_ok h name).1, fun h => ?_⟩
  induction names generalizing start with
  | nil => exact ⟨start, rfl⟩
  | cons name names ih =>
    rw [List.forall_mem_cons] at h
    obtain ⟨source, hsource⟩ := (OrderedMap.mem_keys_iff _ _).1 h.1
    rw [resolveSources, Registry.require, hsource]
    exact ih h.2

namespace Select

/-! ### The sources after calls -/

/-- The laws of the sources of a query after calls. -/
structure SourceLaws (calls : List SourceCall) (q : Select) : Prop where
  /-- No two entries of the FROM clause share an alias. -/
  distinct : (q.sources.filterMap FromItem.aliasName).Nodup
  /-- Of the entries given since the FROM clause was last set, those without an alias and the first
  one under each alias have a place, in the order of the calls. Under an alias stands the source
  given last for it. -/
  places : q.sources = (introduced (given calls)).map (latest (given calls))
  /-- An alias stands for a source exactly if it is the one given last for it. -/
  under : ∀ a source, ⟨source, some a⟩ ∈ q.sources ↔
    lastUnder (given calls) a = some ⟨source, some a⟩
  /-- Entries without an alias are all there, in the order of the calls. -/
  unaliased : q.sources.filter (fun s => s.aliasName = none) =
    (given calls).filter fun s => s.aliasName = none
  /-- The joins are in the order of the calls. -/
  joins : q.joins.map Join.source = joined calls
  /-- The query compiles exactly if a source was given and no other clause is at fault. -/
  compiles_iff : (∃ t, q.compile = .ok t) ↔
    given calls ≠ [] ∧ ¬ (q.forUpdate = true ∧ q.sharedLock = true) ∧
      (q.limit = none → q.offset = none)
  /-- Its template lists the distinct names that hold no bracket, by their first occurrence in the
  FROM clause and then in the joins. -/
  listed : ∀ t, q.compile = .ok t → t.sources =
    ((q.sources.map FromItem.source ++ q.joins.map Join.source).filter
      fun s => '[' ∉ s.toList).eraseDups
  /-- A name without a bracket is listed exactly if it is an entry without an alias, or was given
  last for one, or is joined. One that was replaced everywhere is not. -/
  mem_listed_iff : ∀ t, q.compile = .ok t → ∀ name, name ∈ t.sources ↔ '[' ∉ name.toList ∧
    (⟨name, none⟩ ∈ given calls ∨
      (∃ a, lastUnder (given calls) a = some ⟨name, some a⟩) ∨ name ∈ joined calls)
  /-- Resolution demands exactly the names without a bracket that stand in the FROM clause and the
  joins. -/
  resolves_iff : ∀ t, q.compile = .ok t → ∀ registry : Registry,
    (∃ resolved, Engine.resolveSources registry t.sources OrderedMap.empty = .ok resolved) ↔
      ∀ name ∈ q.sources.map FromItem.source ++ q.joins.map Join.source,
        '[' ∉ name.toList → name ∈ registry.keys
  /-- It gives each of them the source it is registered with, and nothing to other names. -/
  resolved_eq : ∀ t, q.compile = .ok t → ∀ (registry : Registry) resolved,
    Engine.resolveSources registry t.sources OrderedMap.empty = .ok resolved → ∀ name,
      resolved.get? name = if name ∈ t.sources then registry.get? name else none

/-- After any calls that give sources and joins, with any other calls between them, every alias is
there once, at the place where it was introduced since the FROM clause was last set, and stands for
the source given last. The template lists the names that are to be resolved once each and no other,
so that none is missed and none is left over from an entry that was replaced. -/
theorem sources_of_calls (calls : List SourceCall) : SourceLaws calls (fill calls) := by
  have hfilled : Filled calls (fill calls) := filled_fill calls
  -- All laws follow from what the calls leave behind, however they did it.
  generalize fill calls = q at hfilled
  exact {
    distinct := hfilled.sources_eq ▸ nodup_aliases_placed _
    places := hfilled.sources_eq
    under := by
      intro a source
      rw [hfilled.sources_eq, mem_placed_iff rfl]
    unaliased := by rw [hfilled.sources_eq, filter_placed_unaliased]
    joins := hfilled.joins_eq
    compiles_iff := by
      simp only [compile_eq_ok_iff, exists_and_left, exists_eq, and_true, fault?_eq_none_iff,
        hfilled.sources_eq, ne_eq, placed_eq_nil_iff]
    listed := by
      intro t ht
      rw [sources_of_compile_eq_ok ht, logicalSources_eq]
    mem_listed_iff := by
      intro t ht name
      rw [sources_of_compile_eq_ok ht, mem_logicalSources_iff, List.mem_append, hfilled.sources_eq,
        mem_source_placed_iff, hfilled.joins_eq, or_assoc]
    resolves_iff := by
      intro t ht registry
      simp only [sources_of_compile_eq_ok ht, Engine.exists_resolveSources_iff,
        mem_logicalSources_iff, and_imp]
      exact ⟨fun h name hname hraw => h name hraw hname, fun h name hraw hname => h name hname hraw⟩
    resolved_eq := by
      intro t _ registry resolved hresolved name
      rw [(Engine.get?_of_resolveSources_eq_ok hresolved name).2]
      rfl }

/-- An alias that is given again keeps its place before the next entry. -/
example :
    (fill [.addSourceAs "users" "u", .addSource "roles", .addSourceAs "admins" "u"]).sources =
      [⟨"admins", some "u"⟩, ⟨"roles", none⟩] := rfl

end Select

end BoundSql

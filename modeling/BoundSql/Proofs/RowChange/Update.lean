import BoundSql.Proofs.Session.Trace
import BoundSql.Proofs.Template.Composed
import BoundSql.Proofs.Template.TokenValues

/-! # Updates and the values they bind
An update merges the values of its columns into those of its filter and renders both under the
categories the filter declares.
* **`RowChange.scan_updateTemplate`** — the segments of an update: its own, and then those of the
  filter's expression.
* **`RowChange.CarriesValues`** — every token of a statement stands for the value that was given for
  it, that of the column or that of the filter.
* **`RowChange.Apart`** — the filter binds all it refers to by name, and declares nothing about the
  columns.
* **`RowChange.update_carries_iff`** — an update that is sent carries its values exactly if the
  filter stays apart from the columns; any other update sends nothing. -/

namespace BoundSql

namespace RowChange

open Template

variable {d : Dialect} {table : String} {columns : List String} {values : BindMap}
  {filter : Filter} {native : Native} {params : List Param}

/-! ### The template of an update -/

/-- The assignment of a column's value. -/
def assignment (column : String) : String := bracketed column ++ "=" ++ Filter.placeholder column

/-- The template text of an update. -/
def updateTemplate (table : String) (columns : List String) (condition : String) : String :=
  "UPDATE " ++ bracketed table ++ " SET " ++ ",".intercalate (columns.map assignment) ++
    " WHERE " ++ condition

/-- The rendering of an update. -/
def updateRendering (d : Dialect) (table : String) (columns : List String) (values : BindMap)
    (filter : Filter) : Rendering :=
  ⟨d, OrderedMap.empty, filter.binds.merge values, filter.types,
    updateTemplate table columns filter.expr⟩

/-- The columns of an update are the names of its keys, plain words that the filter does not
bind. -/
theorem updateColumns_eq_ok_iff {keys : List BindKey} :
    updateColumns table filter keys = .ok columns ↔ keys = columns.map .name ∧
      ∀ c ∈ columns, Text.isWord c.toList = true ∧ .name c ∉ filter.binds.keys := by
  -- Both directions go along the keys, of which the first one at fault is reported.
  constructor
  · intro h
    induction keys generalizing columns with
    | nil =>
      obtain rfl := Except.ok.inj h
      exact ⟨rfl, by simp⟩
    | cons key rest ih =>
      cases key with
      | index i => cases h
      | name n =>
        rw [updateColumns] at h
        by_cases hw : Text.isWord n.toList = true
        · by_cases hb : BindKey.name n ∈ filter.binds.keys
          · rw [if_neg (by simp [hw]), if_pos ((filter.binds.contains_iff _).2 hb)] at h
            cases h
          · rw [if_neg (by simp [hw]), if_neg (mt (filter.binds.contains_iff _).1 hb)] at h
            cases hrest : updateColumns table filter rest with
            | error e =>
              rw [hrest] at h
              cases h
            | ok names =>
              rw [hrest] at h
              obtain rfl := Except.ok.inj h
              obtain ⟨hkeys, hall⟩ := ih hrest
              exact ⟨by rw [hkeys, List.map_cons], List.forall_mem_cons.2 ⟨⟨hw, hb⟩, hall⟩⟩
        · rw [if_pos (by simpa using hw)] at h
          cases h
  · rintro ⟨rfl, hall⟩
    induction columns with
    | nil => rfl
    | cons c columns ih =>
      obtain ⟨⟨hw, hb⟩, hall⟩ := List.forall_mem_cons.1 hall
      rw [List.map_cons, updateColumns, if_neg (by simp [hw]),
        if_neg (mt (filter.binds.contains_iff _).1 hb), ih hall]

/-- The statement of an update is the native form of its template, which has columns and a
condition. -/
theorem update_eq_ok_iff : update d table values filter = .ok native ↔
    ∃ columns : List String, columns ≠ [] ∧ filter.isEmpty = false ∧
      values.keys = columns.map .name ∧
      (∀ c ∈ columns, Text.isWord c.toList = true ∧ .name c ∉ filter.binds.keys) ∧
      (updateRendering d table columns values filter).run = .ok native := by
  have hempty : values.isEmpty = true ↔ values.keys = [] := by
    rw [OrderedMap.isEmpty, List.isEmpty_iff, OrderedMap.keys, List.map_eq_nil_iff]
  rw [update, updateText]
  -- What is missing is reported before any text is made: values, then a condition, then a column.
  by_cases hv : values.isEmpty = true
  · rw [if_pos hv]
    refine ⟨fun h => (by cases h), ?_⟩
    rintro ⟨columns, hne, -, hkeys, -, -⟩
    rw [hempty.1 hv] at hkeys
    exact absurd (List.map_eq_nil_iff.1 hkeys.symm) hne
  · by_cases hf : filter.isEmpty = true
    · rw [if_neg hv, if_pos hf]
      refine ⟨fun h => (by cases h), ?_⟩
      rintro ⟨columns, -, hne, -⟩
      rw [hf] at hne
      cases hne
    · rw [if_neg hv, if_neg hf]
      cases hcolumns : updateColumns table filter values.keys with
      | error e =>
        refine ⟨fun h => (by cases h), ?_⟩
        rintro ⟨columns, -, -, hkeys, hall, -⟩
        cases hcolumns.symm.trans (updateColumns_eq_ok_iff.2 ⟨hkeys, hall⟩)
      | ok columns =>
        constructor
        · intro h
          obtain ⟨hkeys, hall⟩ := updateColumns_eq_ok_iff.1 hcolumns
          refine ⟨columns, ?_, by simpa using hf, hkeys, hall, h⟩
          rintro rfl
          exact hv (hempty.2 hkeys)
        · rintro ⟨columns', -, -, hkeys, hall, hrun⟩
          obtain rfl := Except.ok.inj
            (hcolumns.symm.trans (updateColumns_eq_ok_iff.2 ⟨hkeys, hall⟩))
          exact hrun

/-! ### Its segments -/

/-- The segments of assignments, with commas between them. -/
def assignmentSegments : List String → List Segment
  | [] => []
  | [c] => [.bracket c.toList, .plain '=', .placeholder c.toList]
  | c :: rest =>
    .bracket c.toList :: .plain '=' :: .placeholder c.toList :: .plain ',' ::
      assignmentSegments rest

/-- The segments of an update in front of its condition. -/
def updateSegments (table : String) (columns : List String) : List Segment :=
  verbatim "UPDATE " ++ .bracket table.toList :: (verbatim " SET " ++
    (assignmentSegments columns ++ verbatim " WHERE "))

theorem toList_assignment (c : String) (rest : List Char) : (assignment c).toList ++ rest =
    '[' :: (c.toList ++ ']' :: '=' :: ':' :: (c.toList ++ ':' :: rest)) := by
  simp [assignment, bracketed, Filter.placeholder]

/-- An assignment, in front of text that does not make its placeholder half of a cast. -/
theorem scanFrom_assignment {c : String} (h : Text.isWord c.toList = true) {rest : List Char}
    (hr : rest.head? ≠ some ':') :
    scanFrom d false ((assignment c).toList ++ rest) =
      .bracket c.toList :: .plain '=' :: .placeholder c.toList :: scanFrom d true rest := by
  have heq : isInert d '=' = true := by cases d <;> decide
  rw [toList_assignment, scanFrom_bracketed (Text.not_mem_of_isWord h), scanFrom_inert heq,
    scanFrom_named h hr]

/-- Assignments, in front of text that does not make the last placeholder half of a cast. -/
theorem scanFrom_assignments (hne : columns ≠ [])
    (hw : ∀ c ∈ columns, Text.isWord c.toList = true) {rest : List Char}
    (hr : rest.head? ≠ some ':') :
    scanFrom d false ((",".intercalate (columns.map assignment)).toList ++ rest) =
      assignmentSegments columns ++ scanFrom d true rest := by
  induction columns with
  | nil => exact absurd rfl hne
  | cons c columns ih =>
    have hc := hw c List.mem_cons_self
    cases columns with
    | nil =>
      rw [List.map_singleton, String.intercalate_singleton, scanFrom_assignment hc hr]
      rfl
    | cons c' columns =>
      have hcomma : isInert d ',' = true := by cases d <;> decide
      have hrest := ih (by simp) fun c hc => hw c (List.mem_cons_of_mem _ hc)
      rw [List.map_cons, List.map_cons, String.intercalate_cons_cons, ← List.map_cons,
        String.toList_append, String.toList_append, List.append_assoc, List.append_assoc,
        scanFrom_assignment hc (by simp), show ",".toList = [','] from rfl, List.singleton_append,
        scanFrom_inert hcomma, hrest]
      rfl

/-- A bracketed name and assignments between keywords. -/
theorem scanFrom_keywords {first second third name condition : String}
    (h₁ : isInertText d first = true) (hname : ']' ∉ name.toList)
    (h₂ : isInertText d second = true) (hne : columns ≠ [])
    (hw : ∀ c ∈ columns, Text.isWord c.toList = true) (h₃ : isInertText d third = true)
    (hhead : (third.toList ++ condition.toList).head? ≠ some ':') :
    scanFrom d false (first.toList ++ '[' :: (name.toList ++ ']' :: (second.toList ++
        ((",".intercalate (columns.map assignment)).toList ++
          (third.toList ++ condition.toList))))) =
      (verbatim first ++ .bracket name.toList :: (verbatim second ++
        (assignmentSegments columns ++ verbatim third))) ++ scan d condition.toList := by
  rw [scanFrom_verbatim h₁, scanFrom_bracketed hname, scanFrom_verbatim h₂,
    scanFrom_assignments hne hw hhead, scanFrom_verbatim h₃, scan]
  simp only [List.append_assoc, List.cons_append]

/-- The segments of an update are its own and then those of its condition. -/
theorem scan_updateTemplate (ht : ']' ∉ table.toList) (hne : columns ≠ [])
    (hw : ∀ c ∈ columns, Text.isWord c.toList = true) (condition : String) :
    scan d (updateTemplate table columns condition).toList =
      updateSegments table columns ++ scan d condition.toList := by
  have htext : (updateTemplate table columns condition).toList =
      "UPDATE ".toList ++ '[' :: (table.toList ++ ']' :: (" SET ".toList ++
        ((",".intercalate (columns.map assignment)).toList ++
          (" WHERE ".toList ++ condition.toList)))) := by
    simp only [updateTemplate, bracketed, String.toList_append, List.append_assoc]
    rfl
  have hhead : (" WHERE ".toList ++ condition.toList).head? ≠ some ':' := by
    rw [List.head?_append_of_ne_nil _ (by decide)]
    decide
  have hupdate : isInertText d "UPDATE " = true := by cases d <;> decide
  have hset : isInertText d " SET " = true := by cases d <;> decide
  have hwhere : isInertText d " WHERE " = true := by cases d <;> decide
  exact (congrArg (scanFrom d false) htext).trans
    (scanFrom_keywords hupdate ht hset hne hw hwhere hhead)

theorem placeholderNames_assignmentSegments (columns : List String) :
    placeholderNames (assignmentSegments columns) = columns := by
  induction columns with
  | nil => rfl
  | cons c columns ih =>
    have hc : String.ofList c.toList = c := String.ofList_toList
    cases columns with
    | nil => exact congrArg (fun x => [x]) hc
    | cons c' columns => exact congrArg₂ List.cons hc ih

/-- An assignment is made of its column, the column's placeholder and characters. -/
theorem mem_assignmentSegments {s : Segment} (h : s ∈ assignmentSegments columns) :
    (∃ x, s = .plain x) ∨
      ∃ c ∈ columns, s = .bracket c.toList ∨ s = .placeholder c.toList := by
  induction columns with
  | nil => cases h
  | cons c columns ih =>
    have hc := List.mem_cons_self (a := c) (l := columns)
    cases columns with
    | nil =>
      simp only [assignmentSegments, List.mem_cons, List.not_mem_nil, or_false] at h
      rcases h with rfl | rfl | rfl
      · exact .inr ⟨c, hc, .inl rfl⟩
      · exact .inl ⟨'=', rfl⟩
      · exact .inr ⟨c, hc, .inr rfl⟩
    | cons c' columns =>
      simp only [assignmentSegments, List.mem_cons] at h
      rcases h with rfl | rfl | rfl | rfl | h
      · exact .inr ⟨c, hc, .inl rfl⟩
      · exact .inl ⟨'=', rfl⟩
      · exact .inr ⟨c, hc, .inr rfl⟩
      · exact .inl ⟨',', rfl⟩
      · rcases ih h with hplain | ⟨c'', hc'', hs⟩
        · exact .inl hplain
        · exact .inr ⟨c'', List.mem_cons_of_mem _ hc'', hs⟩

/-- In front of its condition an update names its columns. -/
theorem placeholderNames_updateSegments (table : String) (columns : List String) :
    placeholderNames (updateSegments table columns) = columns := by
  have hbracket : ∀ (name : List Char) (segs : List Segment),
      placeholderNames (.bracket name :: segs) = placeholderNames segs := fun _ _ => rfl
  rw [updateSegments, placeholderNames_append, placeholderNames_verbatim, List.nil_append, hbracket,
    placeholderNames_append, placeholderNames_verbatim, List.nil_append, placeholderNames_append,
    placeholderNames_verbatim, List.append_nil, placeholderNames_assignmentSegments]

/-- The native text of the assignment of a column's value. -/
def nativeAssignment (d : Dialect) (identifier : String → String) (refs : List BindKey)
    (column : BindKey) : String :=
  identifier column.text ++ "=" ++ d.token refs column

section NativeText

variable {identifier : String → String} {refs : List BindKey}

/-- The native text of assignments. -/
theorem nativeText_assignmentSegments (hw : ∀ c ∈ columns, Text.isWord c.toList = true) :
    nativeText d identifier refs (assignmentSegments columns) =
      ",".intercalate ((columns.map .name).map (nativeAssignment d identifier refs)) := by
  have hone : ∀ c : String, Text.isWord c.toList = true → ∀ rest : List Segment,
      nativeText d identifier refs
          (.bracket c.toList :: .plain '=' :: .placeholder c.toList :: rest) =
        nativeAssignment d identifier refs (.name c) ++ nativeText d identifier refs rest := by
    intro c hc rest
    rw [nativeText_cons, nativeText_cons, nativeText_cons, Segment.nativeText_bracket,
      Segment.nativeText_plain, Segment.nativeText_placeholder, Text.trim_of_isWord hc,
      String.ofList_toList, nativeAssignment, String.append_assoc, String.append_assoc]
    rfl
  -- The comma belongs to the column before it, so the last one is a case of its own.
  induction columns with
  | nil => rfl
  | cons c columns ih =>
    have hc := hw c List.mem_cons_self
    cases columns with
    | nil =>
      rw [assignmentSegments, hone c hc, List.map_singleton, List.map_singleton,
        String.intercalate_singleton]
      exact String.append_empty
    | cons c' columns =>
      have hrest := ih fun c hc => hw c (List.mem_cons_of_mem _ hc)
      show nativeText d identifier refs (.bracket c.toList :: .plain '=' :: .placeholder c.toList ::
        .plain ',' :: assignmentSegments (c' :: columns)) = _
      rw [hone c hc, nativeText_cons, List.map_cons, List.map_cons, List.map_cons, List.map_cons,
        String.intercalate_cons_cons, ← List.map_cons, ← List.map_cons, ← hrest,
        String.append_assoc]
      rfl

/-- The native text of an update in front of its condition. -/
theorem nativeText_updateSegments (hw : ∀ c ∈ columns, Text.isWord c.toList = true) :
    nativeText d identifier refs (updateSegments table columns) =
      "UPDATE " ++ identifier (Text.trimmed table) ++ " SET " ++
        ",".intercalate ((columns.map .name).map (nativeAssignment d identifier refs)) ++
        " WHERE " := by
  rw [updateSegments, nativeText_append, nativeText_cons, nativeText_append, nativeText_append,
    nativeText_verbatim, nativeText_verbatim, nativeText_verbatim, nativeText_assignmentSegments hw,
    Segment.nativeText_bracket, Text.trimmed]
  simp only [String.append_assoc]

end NativeText

/-! ### What the tokens stand for -/

/-- The parameters an update refers to: its columns, and then those its condition names. -/
def updateReferences (d : Dialect) (values : BindMap) (filter : Filter) : List BindKey :=
  values.keys ++ references false (scan d filter.expr.toList)

/-- Every token of an update stands for the value given for it. -/
structure CarriesValues (d : Dialect) (values : BindMap) (filter : Filter)
    (params : List Param) : Prop where
  /-- The token of a column stands for the column's value, in the value's own category. -/
  columns : ∀ c v, values.get? (.name c) = some v → ∃ w, v.coerce c = .ok w ∧
    BoundTo d params (d.token (updateReferences d values filter) (.name c)) w
  /-- The native text of a placeholder of the condition, which may be a question mark where all the
  filter's values are positional, stands for the filter's own value, in its declared category. -/
  placeholders : ∀ before s after key, scan d filter.expr.toList = before ++ s :: after →
    s.reference? filter.binds.isPositional (questions before) = some key →
    ∃ v w, filter.binds.get? key = some v ∧
      v.coerceUnder key.text (filter.types.get? key) = .ok w ∧
      BoundTo d params
        (s.nativeText d d.escapeIdentifier (updateReferences d values filter)) w

/-- A filter stays apart from the columns of an update. -/
structure Apart (d : Dialect) (values : BindMap) (filter : Filter) : Prop where
  /-- No category the filter declares changes the wire value of a column. -/
  types : ∀ c v, values.get? (.name c) = some v →
    v.coerceUnder c (filter.types.get? (.name c)) = v.coerce c
  /-- The filter refers to parameters by name, and binds them all. -/
  bound : ∀ key ∈ references filter.binds.isPositional (scan d filter.expr.toList),
    key.isIndex = false ∧ key ∈ filter.binds.keys

/-- A parameter is referred to exactly if a segment refers to it. -/
theorem mem_referencesFrom_iff {positional : Bool} {asked : ℕ} {key : BindKey}
    {segs : List Segment} : key ∈ referencesFrom positional asked segs ↔
      ∃ before s after, segs = before ++ s :: after ∧
        s.reference? positional (asked + questions before) = some key := by
  constructor
  · intro h
    induction segs generalizing asked with
    | nil => cases h
    | cons s rest ih =>
      rw [referencesFrom, List.mem_append, Option.mem_toList] at h
      rcases h with h | h
      · exact ⟨[], s, rest, rfl, h⟩
      · obtain ⟨before, s', after, rfl, hs⟩ := ih h
        have hq : questions (s :: before) = questions [s] + questions before :=
          questions_append [s] before
        exact ⟨s :: before, s', after, rfl, by rwa [hq, ← Nat.add_assoc]⟩
  · rintro ⟨before, s, after, rfl, hs⟩
    rw [referencesFrom_append, List.mem_append]
    refine .inr ?_
    rw [referencesFrom, List.mem_append, Option.mem_toList]
    exact .inl hs

theorem source_updateRendering (ht : ']' ∉ table.toList) (hne : columns ≠ [])
    (hall : ∀ c ∈ columns, Text.isWord c.toList = true ∧ .name c ∉ filter.binds.keys) :
    (updateRendering d table columns values filter).source =
      updateSegments table columns ++ scan d filter.expr.toList :=
  scan_updateTemplate ht hne (fun c hc => (hall c hc).1) filter.expr

section Sent

variable (ht : ']' ∉ table.toList) (hne : columns ≠ [])
  (hkeys : values.keys = columns.map .name)
  (hall : ∀ c ∈ columns, Text.isWord c.toList = true ∧ .name c ∉ filter.binds.keys)
include hne hkeys

/-- The merged values of an update are not positional. -/
theorem isPositional_updateRendering :
    (updateRendering d table columns values filter).binds.isPositional = false := by
  obtain ⟨c, hc⟩ := List.exists_mem_of_ne_nil _ hne
  have hmem : BindKey.name c ∈ (filter.binds.merge values).keys := by
    rw [OrderedMap.mem_keys_merge, hkeys]
    exact .inr (List.mem_map_of_mem hc)
  -- One column is enough: it is bound by its name.
  show BindMap.isPositional (filter.binds.merge values) = false
  rw [BindMap.isPositional, Bool.and_eq_false_iff]
  refine .inr (List.all_eq_false.2 ⟨_, hmem, ?_⟩)
  simp [BindKey.isIndex]

include ht hall

/-- An update refers to its columns and to what its condition names. -/
theorem referencesOf_updateRendering :
    (updateRendering d table columns values filter).referencesOf
      (updateRendering d table columns values filter).source =
        updateReferences d values filter := by
  rw [Rendering.referencesOf, isPositional_updateRendering hne hkeys,
    source_updateRendering ht hne hall, references_false,
    placeholderNames_append, placeholderNames_updateSegments, List.map_append, ← hkeys,
    ← references_false, updateReferences]

/-- An update has native text exactly if its table is not blank and every segment of its condition
has native text, where columns are bound too. -/
theorem exists_run_updateRendering_iff :
    (∃ native, (updateRendering d table columns values filter).run = .ok native) ↔
      Text.trim table.toList ≠ [] ∧
        ∀ s ∈ scan d filter.expr.toList, s.IsSound (filter.binds.merge values) := by
  have hverbatim : ∀ text : String, ∀ s ∈ verbatim text, s.IsSound (filter.binds.merge values) :=
    fun _ _ hs => isSound_of_mem_verbatim hs
  have hassignments : ∀ s ∈ assignmentSegments columns, s.IsSound (filter.binds.merge values) := by
    intro s hs
    rcases mem_assignmentSegments hs with ⟨x, rfl⟩ | ⟨c, hc, rfl | rfl⟩
    · trivial
    · exact isSound_bracket (hall c hc).1
    · show BindKey.name (String.ofList c.toList) ∈ (filter.binds.merge values).keys
      rw [OrderedMap.mem_keys_merge, hkeys, String.ofList_toList]
      exact .inr (List.mem_map_of_mem hc)
  rw [Rendering.exists_run_eq_ok_iff (isPositional_updateRendering hne hkeys),
    source_updateRendering ht hne hall, List.forall_mem_append]
  refine and_congr ?_ Iff.rfl
  rw [updateSegments, List.forall_mem_append, List.forall_mem_cons, List.forall_mem_append,
    List.forall_mem_append]
  constructor
  · rintro ⟨-, htable, -⟩
    exact htable
  · intro htable
    exact ⟨hverbatim _, htable, hverbatim _, hassignments, hverbatim _⟩

variable (hrun : (updateRendering d table columns values filter).run = .ok native)
include hrun

/-- The native text of an update. -/
theorem sql_of_run_updateRendering : native.sql =
    "UPDATE " ++ d.escapeIdentifier (Text.trimmed table) ++ " SET " ++
      ",".intercalate (values.keys.map
        (nativeAssignment d d.escapeIdentifier (updateReferences d values filter))) ++
      " WHERE " ++ nativeText d d.escapeIdentifier (updateReferences d values filter)
        (scan d filter.expr.toList) := by
  have hidentifier : (updateRendering d table columns values filter).identifier =
      d.escapeIdentifier := rfl
  have hsql := Rendering.sql_of_run_eq_ok (isPositional_updateRendering hne hkeys) hrun
  rw [referencesOf_updateRendering ht hne hkeys hall, hidentifier,
    source_updateRendering ht hne hall, nativeText_append] at hsql
  rw [hsql, hkeys]
  exact congrArg (· ++ _) (nativeText_updateSegments fun c hc => (hall c hc).1)

variable (hp : native.binds.params native.types = .ok params)
include hp

/-- The token of a parameter stands for the value of its column or, where no column has its name,
for the filter's value, both in the category the filter declares. -/
theorem boundTo_of_run_updateRendering {key : BindKey}
    (hk : key ∈ updateReferences d values filter) :
    ∃ v w, (values.get? key).or (filter.binds.get? key) = some v ∧
      v.coerceUnder key.text (filter.types.get? key) = .ok w ∧
      BoundTo d params (d.token (updateReferences d values filter) key) w := by
  have hrefs := referencesOf_updateRendering (d := d) ht hne hkeys hall
  obtain ⟨v, w, hv, hw, hbound⟩ := Rendering.boundTo_of_run_eq_ok hrun hp (hrefs.symm ▸ hk)
  rw [hrefs] at hbound
  exact ⟨v, w, (OrderedMap.get?_merge filter.binds values key).symm.trans hv, hw, hbound⟩

/-- The token of a column stands for its value in the category the filter declares. -/
theorem boundTo_of_column {c : String} {v : Value} (hv : values.get? (.name c) = some v) :
    ∃ w, v.coerceUnder c (filter.types.get? (.name c)) = .ok w ∧
      BoundTo d params (d.token (updateReferences d values filter) (.name c)) w := by
  have hmem : BindKey.name c ∈ values.keys :=
    List.mem_map_of_mem (f := Prod.fst) (OrderedMap.mem_entries_of_get?_eq_some hv)
  obtain ⟨v', w, hv', hw, hbound⟩ := boundTo_of_run_updateRendering ht hne hkeys hall hrun hp
    (List.mem_append_left _ hmem)
  -- The columns are merged last, so no value of the filter is in their way.
  rw [hv, Option.some_or] at hv'
  obtain rfl := Option.some.inj hv'
  exact ⟨w, hw, hbound⟩

/-- The token of a name that the filter binds stands for the filter's value. -/
theorem boundTo_of_filter {name : String} (hbinds : .name name ∈ filter.binds.keys)
    (href : BindKey.name name ∈ references false (scan d filter.expr.toList)) :
    ∃ v w, filter.binds.get? (.name name) = some v ∧
      v.coerceUnder name (filter.types.get? (.name name)) = .ok w ∧
      BoundTo d params (d.token (updateReferences d values filter) (.name name)) w := by
  obtain ⟨v, w, hv, hw, hbound⟩ := boundTo_of_run_updateRendering ht hne hkeys hall hrun hp
    (List.mem_append_right _ href)
  -- A name that the filter binds is no column, so the merged value is the filter's.
  have hnone : values.get? (.name name) = none := by
    rw [OrderedMap.get?_eq_none_iff, hkeys]
    intro hcolumn
    obtain ⟨c, hc, hname⟩ := List.mem_map.1 hcolumn
    exact (hall c hc).2 (hname ▸ hbinds)
  rw [hnone, Option.none_or] at hv
  exact ⟨v, w, hv, hw, hbound⟩

/-- An update carries its values exactly if its filter stays apart from its columns. -/
theorem carriesValues_iff : CarriesValues d values filter params ↔ Apart d values filter := by
  have hnamed : (updateRendering d table columns values filter).binds.isPositional = false :=
    isPositional_updateRendering hne hkeys
  have hunique : (params.map fun p => p.slot.mark d).Nodup := Rendering.nodup_marks hrun hp hnamed
  constructor
  · intro h
    -- A token is bound once, so what it should stand for is what it does stand for.
    refine ⟨fun c v hv => ?_, fun key hk => ?_⟩
    · obtain ⟨w, hw, hbound⟩ := boundTo_of_column ht hne hkeys hall hrun hp hv
      obtain ⟨w', hw', hbound'⟩ := h.columns c v hv
      rw [hw, hw', hbound.unique hunique hbound']
    · obtain ⟨before, s, after, hs, href⟩ := mem_referencesFrom_iff.1 hk
      rw [Nat.zero_add] at href
      obtain ⟨v, w, hv, -, hbound⟩ := h.placeholders before s after key hs href
      refine ⟨?_, ?_⟩
      · cases key with
        | name n => rfl
        | index i =>
          -- Only a question mark refers to a position, and it stays as it is.
          have hquestion : s = .question := by
            cases s <;> simp_all [Segment.reference?]
          rw [hquestion] at hbound
          exact absurd hbound (Rendering.not_boundTo_question hrun hp hnamed w)
      · by_contra hnot
        rw [(OrderedMap.get?_eq_none_iff _ _).2 hnot] at hv
        cases hv
  · intro h
    refine ⟨fun c v hv => ?_, fun before s after key hs href => ?_⟩
    · obtain ⟨w, hw, hbound⟩ := boundTo_of_column ht hne hkeys hall hrun hp hv
      exact ⟨w, (h.types c v hv).symm.trans hw, hbound⟩
    · have hk := mem_referencesFrom_iff.2 ⟨before, s, after, hs, by rwa [Nat.zero_add]⟩
      obtain ⟨hname, hbinds⟩ := h.bound key hk
      obtain ⟨name, rfl, rfl⟩ :
          ∃ name, s = .placeholder name ∧ key = .name (String.ofList name) := by
        cases s <;> cases key <;> simp_all [Segment.reference?, BindKey.isIndex]
      exact boundTo_of_filter ht hne hkeys hall hrun hp hbinds
        (mem_referencesFrom_iff.2 ⟨before, .placeholder name, after, hs, rfl⟩)

end Sent

/-- What an update needs to have a statement. -/
structure Composable (d : Dialect) (table : String) (values : BindMap) (filter : Filter) :
    Prop where
  /-- There are values. -/
  nonempty : values.keys ≠ []
  /-- There is a condition. -/
  condition : filter.isEmpty = false
  /-- The values are those of columns, whose names are plain words that the filter does not bind. -/
  column : ∀ key ∈ values.keys, key.isIndex = false ∧ Text.isWord key.text.toList = true ∧
    key ∉ filter.binds.keys
  /-- The name of the table is not blank. -/
  name : Text.trim table.toList ≠ []
  /-- Brackets of the condition are closed and not blank, and its placeholders are bound. -/
  sound : ∀ s ∈ scan d filter.expr.toList, s.IsSound (filter.binds.merge values)

/-- When an update has a statement. -/
theorem exists_update_eq_ok_iff (ht : ']' ∉ table.toList) :
    (∃ native, update d table values filter = .ok native) ↔ Composable d table values filter := by
  constructor
  · rintro ⟨native, h⟩
    obtain ⟨columns, hne, hf, hkeys, hall, hrun⟩ := update_eq_ok_iff.1 h
    obtain ⟨htable, hsound⟩ := (exists_run_updateRendering_iff ht hne hkeys hall).1 ⟨native, hrun⟩
    refine ⟨?_, hf, fun key hkey => ?_, htable, hsound⟩
    · rw [hkeys]
      exact mt List.map_eq_nil_iff.1 hne
    · rw [hkeys] at hkey
      obtain ⟨c, hc, rfl⟩ := List.mem_map.1 hkey
      exact ⟨rfl, hall c hc⟩
  · intro h
    have hname : ∀ key ∈ values.keys, BindKey.name key.text = key := by
      intro key hkey
      cases key with
      | name n => rfl
      | index i => cases (h.column _ hkey).1
    -- The columns are the texts of the keys.
    have hkeys : values.keys = (values.keys.map BindKey.text).map .name := by
      have hself : values.keys.map (BindKey.name ∘ BindKey.text) = values.keys.map id :=
        List.map_congr_left hname
      rw [List.map_map, hself, List.map_id]
    have hne : values.keys.map BindKey.text ≠ [] := mt List.map_eq_nil_iff.1 h.nonempty
    have hall : ∀ c ∈ values.keys.map BindKey.text,
        Text.isWord c.toList = true ∧ .name c ∉ filter.binds.keys := by
      intro c hc
      obtain ⟨key, hkey, rfl⟩ := List.mem_map.1 hc
      rw [hname key hkey]
      exact (h.column key hkey).2
    obtain ⟨native, hrun⟩ := (exists_run_updateRendering_iff ht hne hkeys hall).2 ⟨h.name, h.sound⟩
    exact ⟨native, update_eq_ok_iff.2 ⟨_, hne, h.condition, hkeys, hall, hrun⟩⟩

/-! ### Updates over a connection -/

variable {σ τ ι Stmt Row : Type}

/-- When an update has a statement, and what is sent then. An update without one, or with a value
that does not coerce, fails and sends nothing; any other sends its statement with the values of the
tokens. Where the table's name does not close its bracket, the statement updates that table,
assigns each column its token and has the filter's condition; no token is bound twice; and every
token stands for the value given for it exactly if the filter stays apart from the columns: it binds
all it refers to by name, and no category it declares changes the wire value of a column. -/
theorem update_carries_iff (e : Engine σ τ ι Stmt Row) (table : String) (values : BindMap)
    (filter : Filter) (s : State (Traced σ Stmt) τ ι) :
    let d := e.backend.dialect
    let refs := updateReferences d values filter
    let r := e.traced.update table values filter s
    (']' ∉ table.toList → ((∃ native, update d table values filter = .ok native) ↔
      Composable d table values filter)) ∧
    ((∃ failure, r.1 = .error failure ∧ r.2.world.server = s.world.server ∧
        (update d table values filter = .error failure ∨
          ∃ native, update d table values filter = .ok native ∧
            native.binds.params native.types = .error failure)) ∨
      ∃ native params xs, update d table values filter = .ok native ∧
        native.binds.params native.types = .ok params ∧
        Sends Call.execute Call.executePrepared native.sql params xs ∧
        r.2.world.server.exchanges = s.world.server.exchanges ++ xs ∧
        (']' ∉ table.toList →
          native.sql = "UPDATE " ++ d.escapeIdentifier (Text.trimmed table) ++ " SET " ++
            ",".intercalate (values.keys.map (nativeAssignment d d.escapeIdentifier refs)) ++
            " WHERE " ++ nativeText d d.escapeIdentifier refs (scan d filter.expr.toList) ∧
          (params.map fun p => p.slot.mark d).Nodup ∧
          (CarriesValues d values filter params ↔ Apart d values filter))) := by
  intro d refs r
  refine ⟨exists_update_eq_ok_iff, ?_⟩
  have hchange : r = e.traced.change (update d table values filter) s := rfl
  cases hupdate : update d table values filter with
  | error failure =>
    rw [hupdate] at hchange
    exact .inl ⟨failure, by rw [hchange]; rfl, by rw [hchange]; rfl, .inl rfl⟩
  | ok native =>
    rw [hupdate] at hchange
    -- Whether the values are carried is settled here: the server receives what was composed.
    have hsends := e.dispatch_sends e.backend.execute e.backend.executePrepared Call.execute
      Call.executePrepared id native.sql native.binds native.types s
    rcases hsends with ⟨failure, hparams, hfailed⟩ | ⟨params, xs, hparams, hxs, hexchanges⟩
    · have hr := hchange.trans hfailed
      exact .inl ⟨failure, by rw [hr], by rw [hr]; rfl, .inr ⟨native, rfl, hparams⟩⟩
    · obtain ⟨columns, hne, -, hkeys, hall, hrun⟩ := update_eq_ok_iff.1 hupdate
      refine .inr ⟨native, params, xs, rfl, hparams, hxs, by rw [hchange]; exact hexchanges,
        fun ht => ⟨?_, ?_, ?_⟩⟩
      · exact sql_of_run_updateRendering ht hne hkeys hall hrun
      · exact Rendering.nodup_marks hrun hparams (isPositional_updateRendering hne hkeys)
      · exact carriesValues_iff ht hne hkeys hall hrun hparams

/-- The age of a student is set by number. -/
theorem update_carries_iff_student :
    let values : BindMap := OrderedMap.ofList [(.name "age", .int 22)]
    let filter : Filter :=
      { expr := "id = :id:", binds := OrderedMap.ofList [(.name "id", .int 7)] }
    let params : List Param := [⟨.position 1, .int 22⟩, ⟨.position 2, .int 7⟩]
    let r := (Script.engine .postgres).traced.update "student" values filter
      ((Script.start {}).traced String)
    ']' ∉ "student".toList ∧
      (∃ xs, Sends Call.execute Call.executePrepared
        "UPDATE \"student\" SET \"age\"=$1 WHERE id = $2" params xs ∧
        r.2.world.server.exchanges = xs) ∧
      CarriesValues .postgres values filter params := by
  intro values filter params r
  have htable : ']' ∉ "student".toList := by decide
  have hupdate : update .postgres "student" values filter =
      .ok ⟨"UPDATE \"student\" SET \"age\"=$1 WHERE id = $2",
        OrderedMap.ofList [(.index 0, .int 22), (.index 1, .int 7)], OrderedMap.empty⟩ := by
    decide +kernel
  have hapart : Apart .postgres values filter := by
    refine ⟨fun c v _ => rfl, ?_⟩
    have hrefs : references filter.binds.isPositional (scan .postgres filter.expr.toList) =
        [.name "id"] := by
      decide +kernel
    rw [hrefs]
    decide
  obtain ⟨-, hsent⟩ := update_carries_iff (Script.engine .postgres) "student" values filter
    ((Script.start {}).traced String)
  have hupdate : update (Script.engine .postgres).backend.dialect "student" values filter = _ :=
    hupdate
  rw [hupdate] at hsent
  rcases hsent with ⟨failure, -, -, h | ⟨native, h, hparams⟩⟩ |
    ⟨native, params', xs, h, hparams, hxs, hexchanges, hcarries⟩
  · cases h
  · obtain rfl := Except.ok.inj h
    cases hparams
  · obtain rfl := Except.ok.inj h
    obtain rfl : params = params' := Except.ok.inj hparams
    exact ⟨htable, ⟨xs, hxs, hexchanges⟩, (hcarries htable).2.2.2 hapart⟩

/-- An update is sent although some token of it does not stand for the value given for it. -/
def Miscarries (d : Dialect) (table : String) (values : BindMap) (filter : Filter) : Prop :=
  ∃ native params, update d table values filter = .ok native ∧
    native.binds.params native.types = .ok params ∧ ¬ CarriesValues d values filter params

/-- The value of a column is captured by a placeholder that the filter does not bind; converted to a
category that the filter declares; sent without the positional values of the filter; and not sent at
all where the name of the table does not close its bracket. -/
theorem miscarries_column_capture :
    let values : BindMap := OrderedMap.ofList [(.name "age", .int 22)]
    let one : BindMap := OrderedMap.ofList [(.name "id", .int 7)]
    Miscarries .mysql "student" values { expr := "age > :age:" } ∧
      Miscarries .mysql "student" values
        { expr := "id = :id:", binds := one, types := OrderedMap.ofList [(.name "age", .str)] } ∧
      Miscarries .mysql "student" values
        { expr := "id = ?", binds := OrderedMap.ofList [(.index 0, .int 7)] } ∧
      Miscarries .mysql "t]'" values { expr := "id = :id:", binds := one } := by
  intro values one
  refine ⟨⟨⟨"UPDATE `student` SET `age`=:age WHERE age > :age", values, OrderedMap.empty⟩,
      [⟨.named ":age", .int 22⟩], by decide +kernel, rfl, fun h => ?_⟩,
    ⟨⟨"UPDATE `student` SET `age`=:age WHERE id = :id", values.merge one,
      OrderedMap.ofList [(.name "age", .str)]⟩,
      [⟨.named ":age", .str "22"⟩, ⟨.named ":id", .int 7⟩], by decide +kernel, rfl, fun h => ?_⟩,
    ⟨⟨"UPDATE `student` SET `age`=:age WHERE id = ?", values, OrderedMap.empty⟩,
      [⟨.named ":age", .int 22⟩], by decide +kernel, rfl, fun h => ?_⟩,
    ⟨⟨"UPDATE `t`'] SET [age]=:age: WHERE id = :id:", OrderedMap.empty, OrderedMap.empty⟩,
      [], by decide +kernel, rfl, fun h => ?_⟩⟩
  · have hscan : scan .mysql "age > :age:".toList =
        [.plain 'a', .plain 'g', .plain 'e', .plain ' ', .plain '>', .plain ' '] ++
          [.placeholder ['a', 'g', 'e']] := by
      decide +kernel
    obtain ⟨v, w, hv, -⟩ := h.placeholders _ _ _ (.name "age") hscan rfl
    cases hv
  · obtain ⟨w, hw, p, hp, hmark, hvalue⟩ := h.columns "age" (.int 22) rfl
    obtain rfl : .int 22 = w := Except.ok.inj hw
    rcases List.mem_pair.1 hp with rfl | rfl
    · cases hvalue
    · revert hmark
      decide
  · have hscan : scan .mysql "id = ?".toList =
        [.plain 'i', .plain 'd', .plain ' ', .plain '=', .plain ' '] ++ [.question] := by
      decide +kernel
    obtain ⟨v, w, -, -, p, hp, hmark, -⟩ := h.placeholders _ _ _ (.index 0) hscan rfl
    obtain rfl := List.mem_singleton.1 hp
    revert hmark
    decide
  · obtain ⟨w, -, p, hp, -⟩ := h.columns "age" (.int 22) rfl
    cases hp

end RowChange

end BoundSql

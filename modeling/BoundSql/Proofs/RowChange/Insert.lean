import BoundSql.Proofs.Session.Trace
import BoundSql.Proofs.Template.Positional
import BoundSql.Proofs.Template.TokenValues
import Mathlib.Data.List.Perm.Subperm

/-! # Inserts and the values they bind
An insert lists its columns and their placeholders, or as many question marks as there are values.
* **`RowChange.insertText_of_columns`**, **`insertText_of_positional`**, **`insertText_of_other`** —
  the template of an insert, by the keys of its values.
* **`RowChange.scanFrom_separated`** — lists are read item by item.
* **`RowChange.exists_params_of_run`** — every parameter is sent with the wire value of its own
  value, at its own place.
* **`RowChange.insert_binds_values`** — an insert under columns or positions sends one statement
  with its values; any other fails and sends nothing. -/

namespace BoundSql

namespace RowChange

open Template

variable {d : Dialect} {table : String} {values : BindMap} {keys : List BindKey} {native : Native}
  {params : List Param}

/-! ### The template of an insert -/

/-- Whether a key is the name of a column: a plain word, which is not empty. -/
def IsColumn (key : BindKey) : Prop :=
  key.isIndex = false ∧ Text.isWord key.text.toList = true

/-- A column is its name. -/
theorem IsColumn.name_text {key : BindKey} (h : IsColumn key) : .name key.text = key := by
  cases key with
  | name n => rfl
  | index i => cases h.1

/-- The template text of an insert under columns. -/
def columnsTemplate (table : String) (keys : List BindKey) : String :=
  "INSERT INTO " ++ bracketed table ++ " (" ++
    ",".intercalate (keys.map fun key => bracketed key.text) ++ ") VALUES (" ++
    ",".intercalate (keys.map fun key => Filter.placeholder key.text) ++ ")"

/-- The template text of an insert of so many values in table order. -/
def positionsTemplate (table : String) (n : ℕ) : String :=
  "INSERT INTO " ++ bracketed table ++ " VALUES (" ++
    ",".intercalate (List.replicate n "?") ++ ")"

theorem columnNames_of_forall {invalid : String → ConfigurationError}
    (h : ∀ key ∈ keys, IsColumn key) : columnNames invalid keys = .ok (keys.map BindKey.text) := by
  induction keys with
  | nil => rfl
  | cons key keys ih =>
    obtain ⟨hkey, hkeys⟩ := List.forall_mem_cons.1 h
    cases key with
    | index i => cases hkey.1
    | name n =>
      have hword : Text.isWord n.toList = true := hkey.2
      rw [columnNames, if_pos hword, ih hkeys]
      rfl

/-- A key that is no column is reported. -/
theorem columnNames_of_not_forall {invalid : String → ConfigurationError}
    (h : ¬ ∀ key ∈ keys, IsColumn key) :
    ∃ key ∈ keys, ¬ IsColumn key ∧ columnNames invalid keys = .error (invalid key.text) := by
  induction keys with
  | nil => exact absurd (by simp) h
  | cons key keys ih =>
    by_cases hkey : IsColumn key
    · obtain ⟨other, hmem, hother, herror⟩ :=
        ih fun hkeys => h (List.forall_mem_cons.2 ⟨hkey, hkeys⟩)
      refine ⟨other, List.mem_cons_of_mem _ hmem, hother, ?_⟩
      cases key with
      | index i => cases hkey.1
      | name n =>
        have hword : Text.isWord n.toList = true := hkey.2
        rw [columnNames, if_pos hword, herror]
    · refine ⟨key, List.mem_cons_self, hkey, ?_⟩
      cases key with
      | index i => rfl
      | name n => exact if_neg fun hword => hkey ⟨rfl, hword⟩

theorem isEmpty_eq_false (hne : values.keys ≠ []) : values.isEmpty = false := by
  rw [OrderedMap.keys] at hne
  rw [OrderedMap.isEmpty, List.isEmpty_eq_false_iff]
  exact mt List.map_eq_nil_iff.2 hne

/-- Values are positional exactly if all their keys are. -/
theorem isPositional_iff (hne : values.keys ≠ []) :
    values.isPositional = true ↔ ∀ key ∈ values.keys, key.isIndex = true := by
  rw [BindMap.isPositional, isEmpty_eq_false hne, Bool.not_false, Bool.true_and, List.all_eq_true]

/-- Columns are not positional. -/
theorem isPositional_of_columns (hne : values.keys ≠ []) (h : ∀ key ∈ values.keys, IsColumn key) :
    values.isPositional = false := by
  obtain ⟨key, hkey⟩ := List.exists_mem_of_ne_nil _ hne
  refine Bool.eq_false_iff.2 fun hp => ?_
  have hindex := (isPositional_iff hne).1 hp key hkey
  rw [(h key hkey).1] at hindex
  cases hindex

theorem insertText_of_columns (hne : values.keys ≠ []) (h : ∀ key ∈ values.keys, IsColumn key) :
    insertText table values = .ok (columnsTemplate table values.keys) := by
  have hp : values.isPositional = false := isPositional_of_columns hne h
  simp only [insertText, isEmpty_eq_false hne, Bool.false_eq_true, if_false, hp,
    columnNames_of_forall h, List.map_map]
  rfl

theorem insertText_of_positional (hne : values.keys ≠ []) (hp : values.isPositional = true) :
    insertText table values = .ok (positionsTemplate table values.size) := by
  simp only [insertText, isEmpty_eq_false hne, Bool.false_eq_true, if_false, hp, if_true]
  rfl

/-- Keys of another kind make no statement; one that is no column is reported. -/
theorem insertText_of_other (hne : values.keys ≠ []) (hp : values.isPositional = false)
    (h : ¬ ∀ key ∈ values.keys, IsColumn key) : ∃ key ∈ values.keys, ¬ IsColumn key ∧
      insertText table values = .error (.invalidInsertColumn key.text table) := by
  obtain ⟨key, hkey, hcolumn, herror⟩ : ∃ key ∈ values.keys, ¬ IsColumn key ∧
      columnNames (fun key => .invalidInsertColumn key table) values.keys =
        .error (.invalidInsertColumn key.text table) := columnNames_of_not_forall h
  refine ⟨key, hkey, hcolumn, ?_⟩
  simp only [insertText, isEmpty_eq_false hne, Bool.false_eq_true, if_false, hp, herror]

/-! ### Lists of items -/

/-- Text that stands for itself starts with no colon. -/
theorem head?_ne_colon {text : String} (h : isInertText d text = true) (rest : List Char) :
    (text.toList ++ rest).head? ≠ some ':' := by
  rw [isInertText] at h
  cases htext : text.toList with
  | nil =>
    rw [htext] at h
    cases h
  | cons c cs =>
    rw [htext] at h
    rintro heq
    obtain rfl := Option.some.inj heq
    cases d <;> cases h

/-- Items with commas between them, each of which is one segment, in front of text that stands for
itself. -/
theorem scanFrom_separated {α : Type} {text : α → String} {segment : α → Segment} {items : List α}
    (hne : items ≠ [])
    (hitem : ∀ item ∈ items, ∀ rest : List Char, rest.head? ≠ some ':' →
      ∃ b, scanFrom d false ((text item).toList ++ rest) = segment item :: scanFrom d b rest)
    {closing : String} (hclosing : isInertText d closing = true) (rest : List Char) :
    scanFrom d false ((",".intercalate (items.map text)).toList ++ (closing.toList ++ rest)) =
      (items.map segment).intersperse (.plain ',') ++
        (verbatim closing ++ scanFrom d false rest) := by
  have hcomma : isInert d ',' = true := by cases d <;> decide
  -- An item ends in front of a comma or of the closing text, and neither starts with a colon.
  induction items with
  | nil => exact absurd rfl hne
  | cons item items ih =>
    obtain ⟨hfirst, hothers⟩ := List.forall_mem_cons.1 hitem
    cases items with
    | nil =>
      obtain ⟨b, hscan⟩ := hfirst _ (head?_ne_colon hclosing rest)
      rw [List.map_singleton, String.intercalate_singleton, hscan, scanFrom_verbatim hclosing]
      rfl
    | cons other items =>
      obtain ⟨b, hscan⟩ := hfirst (',' :: ((",".intercalate ((other :: items).map text)).toList ++
        (closing.toList ++ rest))) (by simp)
      rw [List.map_cons, List.map_cons, String.intercalate_cons_cons, ← List.map_cons,
        String.toList_append, String.toList_append, List.append_assoc, List.append_assoc,
        show ",".toList = [','] from rfl, List.singleton_append, hscan, scanFrom_inert hcomma,
        ih (by simp) hothers]
      rfl

/-- Commas name no parameters. -/
theorem placeholderNames_intersperse (segs : List Segment) :
    placeholderNames (segs.intersperse (.plain ',')) = placeholderNames segs := by
  induction segs with
  | nil => rfl
  | cons s segs ih =>
    cases segs with
    | nil => rfl
    | cons s' segs =>
      have hcomma : placeholderNames [s, .plain ','] = placeholderNames [s] := by
        cases s <;> rfl
      calc placeholderNames ((s :: s' :: segs).intersperse (.plain ','))
          = placeholderNames [s, .plain ','] ++
              placeholderNames ((s' :: segs).intersperse (.plain ',')) :=
            placeholderNames_append [s, .plain ','] _
        _ = placeholderNames [s] ++ placeholderNames (s' :: segs) := by rw [hcomma, ih]
        _ = placeholderNames (s :: s' :: segs) := (placeholderNames_append [s] _).symm

/-- Items with commas between them are native item by item. -/
theorem nativeText_intersperse (identifier : String → String) (refs : List BindKey)
    (segs : List Segment) : nativeText d identifier refs (segs.intersperse (.plain ',')) =
      ",".intercalate (segs.map (Segment.nativeText d identifier refs)) := by
  induction segs with
  | nil => rfl
  | cons s segs ih =>
    cases segs with
    | nil =>
      rw [List.map_singleton, String.intercalate_singleton]
      exact (nativeText_cons s []).trans String.append_empty
    | cons s' segs =>
      rw [List.intersperse_cons_cons, nativeText_cons, nativeText_cons, ih]
      simp only [List.map_cons, String.intercalate_cons_cons, String.append_assoc]
      rfl

/-- What holds of a comma and of all items holds of the items with commas between them. -/
theorem forall_mem_intersperse {P : Segment → Prop} (hcomma : P (.plain ','))
    {segs : List Segment} (h : ∀ s ∈ segs, P s) : ∀ s ∈ segs.intersperse (.plain ','), P s := by
  induction segs with
  | nil => exact h
  | cons a segs ih =>
    cases segs with
    | nil => exact h
    | cons b segs =>
      rw [List.intersperse_cons_cons, List.forall_mem_cons, List.forall_mem_cons]
      exact ⟨h a List.mem_cons_self, hcomma, ih fun s hs => h s (List.mem_cons_of_mem _ hs)⟩

/-- A bracketed name between keywords, in front of any text. -/
theorem scanFrom_table {first second name : String} (h₁ : isInertText d first = true)
    (hname : ']' ∉ name.toList) (h₂ : isInertText d second = true) (rest : List Char) :
    scanFrom d false ((first ++ bracketed name ++ second).toList ++ rest) =
      verbatim first ++ .bracket name.toList :: (verbatim second ++ scanFrom d false rest) := by
  have htext : (first ++ bracketed name ++ second).toList ++ rest =
      first.toList ++ '[' :: (name.toList ++ ']' :: (second.toList ++ rest)) := by
    simp [bracketed]
  rw [htext, scanFrom_verbatim h₁, scanFrom_bracketed hname, scanFrom_verbatim h₂]

/-- The rendering of an insert. -/
def insertRendering (d : Dialect) (values : BindMap) (sql : String) : Rendering :=
  ⟨d, OrderedMap.empty, values, OrderedMap.empty, sql⟩

/-- The statement of an insert is the native form of its template. -/
theorem insert_of_insertText {sql : String} (h : insertText table values = .ok sql) :
    insert d table values = (insertRendering d values sql).run := by
  rw [insert, h]
  rfl

/-! ### Inserts under columns -/

/-- The segments of an insert under columns. -/
def columnsSegments (table : String) (keys : List BindKey) : List Segment :=
  let names := keys.map fun key => Segment.bracket key.text.toList
  let slots := keys.map fun key => Segment.placeholder key.text.toList
  verbatim "INSERT INTO " ++ .bracket table.toList :: (verbatim " (" ++
    (names.intersperse (.plain ',') ++ (verbatim ") VALUES (" ++
      (slots.intersperse (.plain ',') ++ verbatim ")"))))

/-- A bracketed name and two lists of items between keywords. -/
theorem scan_lists {α : Type} {first second third fourth name : String} {text text' : α → String}
    {segment segment' : α → Segment} {items : List α} (h₁ : isInertText d first = true)
    (hname : ']' ∉ name.toList) (h₂ : isInertText d second = true) (hne : items ≠ [])
    (hitem : ∀ item ∈ items, ∀ rest : List Char, rest.head? ≠ some ':' →
      ∃ b, scanFrom d false ((text item).toList ++ rest) = segment item :: scanFrom d b rest)
    (h₃ : isInertText d third = true)
    (hitem' : ∀ item ∈ items, ∀ rest : List Char, rest.head? ≠ some ':' →
      ∃ b, scanFrom d false ((text' item).toList ++ rest) = segment' item :: scanFrom d b rest)
    (h₄ : isInertText d fourth = true) :
    scan d (first ++ bracketed name ++ second ++ ",".intercalate (items.map text) ++ third ++
        ",".intercalate (items.map text') ++ fourth).toList =
      verbatim first ++ .bracket name.toList :: (verbatim second ++
        ((items.map segment).intersperse (.plain ',') ++ (verbatim third ++
          ((items.map segment').intersperse (.plain ',') ++ verbatim fourth)))) := by
  have htext : (first ++ bracketed name ++ second ++ ",".intercalate (items.map text) ++ third ++
      ",".intercalate (items.map text') ++ fourth).toList =
      (first ++ bracketed name ++ second).toList ++
        ((",".intercalate (items.map text)).toList ++ (third.toList ++
          ((",".intercalate (items.map text')).toList ++ (fourth.toList ++ [])))) := by
    simp
  rw [scan, htext, scanFrom_table h₁ hname h₂, scanFrom_separated hne hitem h₃,
    scanFrom_separated hne hitem' h₄, scanFrom.eq_1, List.append_nil]

theorem scan_columnsTemplate (ht : ']' ∉ table.toList) (hne : keys ≠ [])
    (h : ∀ key ∈ keys, IsColumn key) :
    scan d (columnsTemplate table keys).toList = columnsSegments table keys := by
  have hinsert : isInertText d "INSERT INTO " = true := by cases d <;> decide
  have hopen : isInertText d " (" = true := by cases d <;> decide
  have hvalues : isInertText d ") VALUES (" = true := by cases d <;> decide
  have hclose : isInertText d ")" = true := by cases d <;> decide
  refine scan_lists hinsert ht hopen hne (fun key hkey rest _ => ⟨false, ?_⟩) hvalues
    (fun key hkey rest hrest => ⟨true, ?_⟩) hclose
  · have hbracket : (bracketed key.text).toList ++ rest =
        '[' :: (key.text.toList ++ ']' :: rest) := by
      simp [bracketed]
    rw [hbracket, scanFrom_bracketed (Text.not_mem_of_isWord (h key hkey).2)]
  · have hcolons : (Filter.placeholder key.text).toList ++ rest =
        ':' :: (key.text.toList ++ ':' :: rest) := by
      simp [Filter.placeholder]
    rw [hcolons, scanFrom_named (h key hkey).2 hrest]

/-- An insert under columns names them. -/
theorem placeholderNames_columnsSegments (table : String) (keys : List BindKey) :
    placeholderNames (columnsSegments table keys) = keys.map BindKey.text := by
  have hbracket : ∀ (name : List Char) (segs : List Segment),
      placeholderNames (.bracket name :: segs) = placeholderNames segs := fun _ _ => rfl
  have hcolumns : placeholderNames (keys.map fun key => .bracket key.text.toList) = [] :=
    List.filterMap_eq_nil_iff.2 fun s hs => by
      obtain ⟨key, -, rfl⟩ := List.mem_map.1 hs
      rfl
  have hnames : placeholderNames (keys.map fun key => .placeholder key.text.toList) =
      keys.map BindKey.text := by
    rw [placeholderNames, List.filterMap_map, ← List.filterMap_eq_map]
    exact List.filterMap_congr fun key _ => congrArg some String.ofList_toList
  simp only [columnsSegments, placeholderNames_append, hbracket, placeholderNames_verbatim,
    placeholderNames_intersperse, hcolumns, hnames, List.nil_append, List.append_nil]

/-- The native text of an insert under columns. -/
theorem nativeText_columnsSegments {identifier : String → String} {refs : List BindKey}
    (h : ∀ key ∈ keys, IsColumn key) :
    nativeText d identifier refs (columnsSegments table keys) =
      "INSERT INTO " ++ identifier (Text.trimmed table) ++ " (" ++
        ",".intercalate (keys.map fun key => identifier key.text) ++ ") VALUES (" ++
        ",".intercalate (keys.map (d.token refs)) ++ ")" := by
  have hnames : (keys.map fun key => Segment.bracket key.text.toList).map
      (Segment.nativeText d identifier refs) = keys.map fun key => identifier key.text := by
    rw [List.map_map]
    refine List.map_congr_left fun key hkey => ?_
    rw [Function.comp_apply, Segment.nativeText_bracket, Text.trim_of_isWord (h key hkey).2,
      String.ofList_toList]
  have hslots : (keys.map fun key => Segment.placeholder key.text.toList).map
      (Segment.nativeText d identifier refs) = keys.map (d.token refs) := by
    rw [List.map_map]
    refine List.map_congr_left fun key hkey => ?_
    rw [Function.comp_apply, Segment.nativeText_placeholder, String.ofList_toList,
      (h key hkey).name_text]
  rw [columnsSegments]
  simp only [nativeText_append, nativeText_cons, nativeText_verbatim, nativeText_intersperse,
    Segment.nativeText_bracket, hnames, hslots, String.append_assoc, Text.trimmed]

section Columns

variable (ht : ']' ∉ table.toList) (hne : values.keys ≠ [])
  (hcolumns : ∀ key ∈ values.keys, IsColumn key)
include ht hne hcolumns

theorem source_columns :
    (insertRendering d values (columnsTemplate table values.keys)).source =
      columnsSegments table values.keys :=
  scan_columnsTemplate ht hne hcolumns

/-- An insert under columns refers to them, in order. -/
theorem referencesOf_columns :
    (insertRendering d values (columnsTemplate table values.keys)).referencesOf
      (insertRendering d values (columnsTemplate table values.keys)).source = values.keys := by
  have hp : (insertRendering d values (columnsTemplate table values.keys)).binds.isPositional =
      false := isPositional_of_columns hne hcolumns
  rw [Rendering.referencesOf, hp, source_columns ht hne hcolumns, references_false,
    placeholderNames_columnsSegments, List.map_map]
  exact (List.map_congr_left fun key hkey => (hcolumns key hkey).name_text).trans (List.map_id _)

/-- An insert under columns has native text if its table is not blank. -/
theorem exists_run_columns (hblank : Text.trim table.toList ≠ []) :
    ∃ native, (insertRendering d values (columnsTemplate table values.keys)).run = .ok native := by
  have hverbatim : ∀ text : String, ∀ s ∈ verbatim text, s.IsSound values := fun _ _ hs =>
    isSound_of_mem_verbatim hs
  have hnames : ∀ s ∈ (values.keys.map fun key => Segment.bracket key.text.toList).intersperse
      (.plain ','), s.IsSound values := by
    refine forall_mem_intersperse trivial fun s hs => ?_
    obtain ⟨key, hkey, rfl⟩ := List.mem_map.1 hs
    exact isSound_bracket (hcolumns key hkey).2
  have hslots : ∀ s ∈ (values.keys.map fun key => Segment.placeholder key.text.toList).intersperse
      (.plain ','), s.IsSound values := by
    refine forall_mem_intersperse trivial fun s hs => ?_
    obtain ⟨key, hkey, rfl⟩ := List.mem_map.1 hs
    show BindKey.name (String.ofList key.text.toList) ∈ values.keys
    rwa [String.ofList_toList, (hcolumns key hkey).name_text]
  rw [Rendering.exists_run_eq_ok_iff (isPositional_of_columns hne hcolumns),
    source_columns ht hne hcolumns, columnsSegments]
  simp only [List.forall_mem_append, List.forall_mem_cons]
  exact ⟨hverbatim _, hblank, hverbatim _, hnames, hverbatim _, hslots, hverbatim _⟩

/-- The native text of an insert under columns. -/
theorem sql_of_run_columns
    (hrun : (insertRendering d values (columnsTemplate table values.keys)).run = .ok native) :
    native.sql = "INSERT INTO " ++ d.escapeIdentifier (Text.trimmed table) ++ " (" ++
      ",".intercalate (values.keys.map fun key => d.escapeIdentifier key.text) ++ ") VALUES (" ++
      ",".intercalate (values.keys.map (d.token values.keys)) ++ ")" := by
  have hidentifier : (insertRendering d values (columnsTemplate table values.keys)).identifier =
      d.escapeIdentifier := rfl
  have hsql := Rendering.sql_of_run_eq_ok (isPositional_of_columns hne hcolumns) hrun
  rw [referencesOf_columns ht hne hcolumns, hidentifier, source_columns ht hne hcolumns] at hsql
  exact hsql.trans (nativeText_columnsSegments hcolumns)

end Columns

/-! ### Inserts in table order -/

/-- Commas ask for nothing. -/
theorem questions_intersperse (segs : List Segment) :
    questions (segs.intersperse (.plain ',')) = questions segs := by
  induction segs with
  | nil => rfl
  | cons s segs ih =>
    cases segs with
    | nil => rfl
    | cons s' segs =>
      have hcomma : questions [s, .plain ','] = questions [s] := questions_append [s] [.plain ',']
      calc questions ((s :: s' :: segs).intersperse (.plain ','))
          = questions [s, .plain ','] + questions ((s' :: segs).intersperse (.plain ',')) :=
            questions_append [s, .plain ','] _
        _ = questions [s] + questions (s' :: segs) := by rw [hcomma, ih]
        _ = questions (s :: s' :: segs) := (questions_append [s] _).symm

/-- Question marks with commas between them are native position by position. -/
theorem positionalText_questions (identifier : String → String) (asked n : ℕ) :
    positionalText d identifier asked ((List.replicate n .question).intersperse (.plain ',')) =
      ",".intercalate ((List.range' asked n).map d.positionalToken) := by
  -- The first question mark asks for the next position, so the count goes along.
  induction n generalizing asked with
  | zero =>
    rw [List.replicate_zero, List.intersperse_nil, positionalText, List.range'_zero, List.map_nil,
      String.intercalate_nil]
  | succ n ih =>
    cases n with
    | zero =>
      rw [List.range'_one, List.map_singleton, String.intercalate_singleton]
      exact String.append_empty
    | succ n =>
      have hsplit : (List.replicate (n + 1 + 1) Segment.question).intersperse (.plain ',') =
          [.question, .plain ','] ++ (List.replicate (n + 1) .question).intersperse (.plain ',') :=
        rfl
      have hpair : positionalText d identifier asked [.question, .plain ','] =
          d.positionalToken asked ++ "," := by
        rw [positionalText, positionalText, positionalText, String.append_empty]
        rfl
      have hasked : questions [.question, .plain ','] = 1 := rfl
      have hrange : List.range' asked (n + 1 + 1) =
          asked :: (asked + 1) :: List.range' (asked + 1 + 1) n := rfl
      rw [hsplit, positionalText_append, hpair, hasked, ih, hrange, List.range'_succ]
      simp only [List.map_cons, String.intercalate_cons_cons, String.append_assoc]

/-- The segments of an insert in table order. -/
def positionsSegments (table : String) (n : ℕ) : List Segment :=
  let slots := List.replicate n Segment.question
  verbatim "INSERT INTO " ++ .bracket table.toList :: (verbatim " VALUES (" ++
    (slots.intersperse (.plain ',') ++ verbatim ")"))

/-- A bracketed name and a list of question marks between keywords. -/
theorem scan_questions {first second third name : String} (h₁ : isInertText d first = true)
    (hname : ']' ∉ name.toList) (h₂ : isInertText d second = true)
    (h₃ : isInertText d third = true) {n : ℕ} (hn : n ≠ 0) :
    scan d (first ++ bracketed name ++ second ++ ",".intercalate (List.replicate n "?") ++
        third).toList =
      verbatim first ++ .bracket name.toList :: (verbatim second ++
        ((List.replicate n .question).intersperse (.plain ',') ++ verbatim third)) := by
  have hne : List.replicate n () ≠ [] := mt (List.replicate_eq_nil_iff _).1 hn
  have hlist : scanFrom d false
      ((",".intercalate ((List.replicate n ()).map fun _ => "?")).toList ++
        (third.toList ++ [])) =
      ((List.replicate n ()).map fun _ => Segment.question).intersperse (.plain ',') ++
        (verbatim third ++ scanFrom d false []) :=
    scanFrom_separated hne (fun _ _ _ _ => ⟨false, scanFrom_question⟩) h₃ []
  rw [List.map_replicate, List.map_replicate, scanFrom.eq_1, List.append_nil,
    List.append_nil] at hlist
  rw [scan, String.append_assoc, String.toList_append, scanFrom_table h₁ hname h₂,
    String.toList_append, hlist]

theorem scan_positionsTemplate (ht : ']' ∉ table.toList) {n : ℕ} (hn : n ≠ 0) :
    scan d (positionsTemplate table n).toList = positionsSegments table n := by
  have hinsert : isInertText d "INSERT INTO " = true := by cases d <;> decide
  have hvalues : isInertText d " VALUES (" = true := by cases d <;> decide
  have hclose : isInertText d ")" = true := by cases d <;> decide
  exact scan_questions hinsert ht hvalues hclose hn

theorem questions_positionsSegments (table : String) (n : ℕ) :
    questions (positionsSegments table n) = n := by
  have hbracket : ∀ (name : List Char) (segs : List Segment),
      questions (.bracket name :: segs) = questions segs := fun name segs =>
    (questions_append [.bracket name] segs).trans (Nat.zero_add _)
  have hslots : questions (List.replicate n .question) = n := List.count_replicate_self
  simp only [positionsSegments, questions_append, hbracket, questions_verbatim,
    questions_intersperse, hslots, Nat.zero_add, Nat.add_zero]

section Positions

variable (ht : ']' ∉ table.toList) (hne : values.keys ≠ [])
  (hp : values.isPositional = true)
include ht hne

theorem source_positions :
    (insertRendering d values (positionsTemplate table values.size)).source =
      positionsSegments table values.size := by
  refine scan_positionsTemplate ht ?_
  rw [OrderedMap.size, ← List.length_map (f := Prod.fst)]
  exact mt List.length_eq_zero_iff.1 hne

include hp

/-- An insert in table order has native text exactly if its table is not blank and its positions are
those from zero on. -/
theorem exists_run_positions_iff (hblank : Text.trim table.toList ≠ []) :
    (∃ native, (insertRendering d values (positionsTemplate table values.size)).run = .ok native) ↔
      values.keys.Perm ((List.range values.size).map .index) := by
  have hunnamed : ∀ s ∈ positionsSegments table values.size, s.IsUnnamed := by
    have hslots : ∀ s ∈ (List.replicate values.size Segment.question).intersperse (.plain ','),
        s.IsUnnamed := by
      refine forall_mem_intersperse trivial fun s hs => ?_
      rw [List.eq_of_mem_replicate hs]
      trivial
    simp only [positionsSegments, List.forall_mem_append, List.forall_mem_cons]
    exact ⟨fun s hs => isUnnamed_of_mem_verbatim hs, hblank,
      fun s hs => isUnnamed_of_mem_verbatim hs, hslots, fun s hs => isUnnamed_of_mem_verbatim hs⟩
  have hlength : values.keys.length = values.size := List.length_map _
  rw [Rendering.exists_run_iff_of_isPositional hp, source_positions ht hne,
    questions_positionsSegments]
  constructor
  · rintro ⟨-, hall⟩
    -- As many distinct positions as there are keys, all of them among the keys, are all the keys.
    have hnodup : ((List.range values.size).map BindKey.index).Nodup :=
      List.nodup_range.map fun i j hij => BindKey.index.inj hij
    have hsub : (List.range values.size).map BindKey.index ⊆ values.keys := by
      intro key hkey
      obtain ⟨i, hi, rfl⟩ := List.mem_map.1 hkey
      exact hall i (List.mem_range.1 hi)
    refine ((List.subperm_of_subset hnodup hsub).perm_of_length_le ?_).symm
    rw [List.length_map, List.length_range, hlength]
  · intro hperm
    refine ⟨hunnamed, fun i hi => hperm.mem_iff.2 ?_⟩
    exact List.mem_map_of_mem (List.mem_range.2 hi)

/-- The native text of an insert in table order. -/
theorem sql_of_run_positions
    (hrun : (insertRendering d values (positionsTemplate table values.size)).run = .ok native) :
    native.sql = "INSERT INTO " ++ d.escapeIdentifier (Text.trimmed table) ++ " VALUES (" ++
      ",".intercalate ((List.range values.size).map d.positionalToken) ++ ")" := by
  have hidentifier : (insertRendering d values (positionsTemplate table values.size)).identifier =
      d.escapeIdentifier := rfl
  have hbracket : ∀ (asked : ℕ) (segs : List Segment),
      positionalText d d.escapeIdentifier asked (.bracket table.toList :: segs) =
        d.escapeIdentifier (Text.trimmed table) ++
          positionalText d d.escapeIdentifier asked segs := fun _ _ => rfl
  have hsql := Rendering.sql_of_isPositional hp hrun
  rw [hidentifier, source_positions ht hne] at hsql
  refine hsql.trans ?_
  show positionalText d d.escapeIdentifier 0 (positionsSegments table values.size) = _
  rw [positionsSegments, positionalText_append, positionalText_verbatim, questions_verbatim,
    hbracket, positionalText_append, positionalText_verbatim, questions_verbatim,
    positionalText_append, positionalText_questions, positionalText_verbatim,
    ← List.range_eq_range']
  simp only [String.append_assoc]

/-- An insert in table order refers to the positions from zero on. -/
theorem parameters_positions
    (hrun : (insertRendering d values (positionsTemplate table values.size)).run = .ok native) :
    (insertRendering d values (positionsTemplate table values.size)).parameters =
      (List.range values.size).map .index := by
  rw [Rendering.parameters_of_isPositional hp hrun, source_positions ht hne,
    questions_positionsSegments]

end Positions

/-! ### What is sent -/

/-- Whether the value under a key has a wire value. -/
def CoercesTo (values : BindMap) (key : BindKey) (w : WireValue) : Prop :=
  ∃ v, values.get? key = some v ∧ v.coerce key.text = .ok w

/-- Only first appearances matter to the place of a parameter. -/
theorem slot_eraseDups (d : Dialect) (refs : List BindKey) (key : BindKey) :
    d.slot refs.eraseDups key = d.slot refs key := by
  cases d with
  | mysql => cases key <;> rfl
  | postgres => rw [Dialect.slot, Dialect.slot, eraseDups_eq_self (nodup_eraseDups refs)]

/-- The place of a position is counted from one. -/
theorem slot_index (d : Dialect) {n i : ℕ} (h : i < n) :
    d.slot ((List.range n).map .index) (.index i) = .position (i + 1) := by
  cases d with
  | mysql => rfl
  | postgres => rw [Dialect.slot, idxOf_eraseDups_index h]

/-- Where no categories are declared, what is sent are the wire values of the parameters, each at
its own place. A parameter has a place unless it is a name that starts with a colon. -/
theorem exists_params_of_run {t : Rendering} (hrun : t.run = .ok native)
    (htypes : t.types = OrderedMap.empty)
    (hall : ∀ key ∈ t.parameters, (∃ w, CoercesTo t.binds key w) ∧
      key.asName?.bind (·.toList.head?) ≠ some ':') :
    ∃ params, native.binds.params native.types = .ok params ∧
      List.Forall₂ (fun key p =>
        CoercesTo t.binds key p.value ∧ p.slot = t.dialect.slot t.parameters key)
        t.parameters params := by
  -- The list that is sent: every parameter with a wire value of its own.
  choose! wire hwire using fun key hkey => (hall key hkey).1
  have hforall : ∀ R : BindKey → Param → Prop,
      (∀ key ∈ t.parameters, R key ⟨t.dialect.slot t.parameters key, wire key⟩) →
      List.Forall₂ R t.parameters
        (t.parameters.map fun key => ⟨t.dialect.slot t.parameters key, wire key⟩) := by
    intro R hR
    rw [List.forall₂_map_right_iff, List.forall₂_same]
    exact hR
  refine ⟨_, (Rendering.params_eq_ok_iff hrun).2 (hforall _ fun key hkey => ⟨?_, ?_⟩),
    hforall _ fun key hkey => ⟨hwire key hkey, rfl⟩⟩
  · exact Dialect.slot_nativeKey_eq_ok_iff.2
      ⟨slot_eraseDups t.dialect _ key, fun _ => (hall key hkey).2⟩
  · rw [htypes]
    exact hwire key hkey

/-- The first character of a word is no colon. -/
theorem IsColumn.head?_ne {key : BindKey} (h : IsColumn key) :
    key.asName?.bind (·.toList.head?) ≠ some ':' := by
  cases key with
  | index i => cases h.1
  | name n =>
    have hword : Text.isWord n.toList = true := h.2
    intro hcolon
    exact absurd (Text.isWordChar_of_mem hword (List.mem_of_mem_head? hcolon)) (by decide)

/-- An insert under columns is composed, and what is sent for it. -/
theorem insert_of_columns (ht : ']' ∉ table.toList) (hblank : Text.trim table.toList ≠ [])
    (hne : values.keys ≠ []) (hcolumns : ∀ key ∈ values.keys, IsColumn key)
    (hwire : ∀ key ∈ values.keys, ∃ w, CoercesTo values key w) :
    ∃ native params, insert d table values = .ok native ∧
      native.sql = "INSERT INTO " ++ d.escapeIdentifier (Text.trimmed table) ++ " (" ++
        ",".intercalate (values.keys.map fun key => d.escapeIdentifier key.text) ++ ") VALUES (" ++
        ",".intercalate (values.keys.map (d.token values.keys)) ++ ")" ∧
      native.binds.params native.types = .ok params ∧
      List.Forall₂ (fun key p => CoercesTo values key p.value ∧ p.slot = d.slot values.keys key)
        values.keys params := by
  obtain ⟨native, hrun⟩ := exists_run_columns (d := d) ht hne hcolumns hblank
  have hrefs := referencesOf_columns (d := d) ht hne hcolumns
  have hparameters : (insertRendering d values (columnsTemplate table values.keys)).parameters =
      values.keys := by
    rw [Rendering.parameters, hrefs]
    exact eraseDups_eq_self values.nodup
  have hall : ∀ key ∈ values.keys, (∃ w, CoercesTo values key w) ∧
      key.asName?.bind (·.toList.head?) ≠ some ':' := fun key hkey =>
    ⟨hwire key hkey, (hcolumns key hkey).head?_ne⟩
  rw [← hparameters] at hall
  obtain ⟨params, hparams, hforall⟩ := exists_params_of_run hrun rfl hall
  rw [hparameters] at hforall
  exact ⟨native, params, (insert_of_insertText (insertText_of_columns hne hcolumns)).trans hrun,
    sql_of_run_columns ht hne hcolumns hrun, hparams, hforall⟩

/-- What is sent for an insert in table order that is composed. -/
theorem insert_of_positions (ht : ']' ∉ table.toList) (hne : values.keys ≠ [])
    (hp : values.isPositional = true) (hinsert : insert d table values = .ok native)
    (hwire : ∀ key ∈ values.keys, ∃ w, CoercesTo values key w)
    (hperm : values.keys.Perm ((List.range values.size).map .index)) :
    native.sql = "INSERT INTO " ++ d.escapeIdentifier (Text.trimmed table) ++ " VALUES (" ++
        ",".intercalate ((List.range values.size).map d.positionalToken) ++ ")" ∧
      ∃ params, native.binds.params native.types = .ok params ∧
        List.Forall₂ (fun i p => CoercesTo values (.index i) p.value ∧ p.slot = .position (i + 1))
          (List.range values.size) params := by
  have hrun := (insert_of_insertText (insertText_of_positional hne hp)).symm.trans hinsert
  have hall : ∀ key ∈ (List.range values.size).map BindKey.index,
      (∃ w, CoercesTo values key w) ∧ key.asName?.bind (·.toList.head?) ≠ some ':' := by
    intro key hkey
    refine ⟨hwire key (hperm.mem_iff.2 hkey), ?_⟩
    obtain ⟨i, -, rfl⟩ := List.mem_map.1 hkey
    simp [BindKey.asName?]
  -- What the text refers to are the positions in order, wherever the values stand in the map.
  have hparameters := parameters_positions ht hne hp hrun
  rw [← hparameters] at hall
  obtain ⟨params, hparams, hforall⟩ := exists_params_of_run hrun rfl hall
  rw [hparameters] at hforall
  refine ⟨sql_of_run_positions ht hne hp hrun, params, hparams, ?_⟩
  rw [List.forall₂_map_left_iff] at hforall
  refine (forall₂_congr_of_mem fun i hi p => ?_).1 hforall
  show _ ∧ p.slot = d.slot ((List.range values.size).map .index) (.index i) ↔ _
  rw [slot_index d (List.mem_range.1 hi)]
  rfl

/-- The tokens of columns are distinct. -/
theorem nodup_tokens (hcolumns : ∀ key ∈ values.keys, IsColumn key) :
    (values.keys.map (d.token values.keys)).Nodup := by
  refine List.Nodup.map_on (fun key hkey key' hkey' he => ?_) values.nodup
  have hmem : .name key.text ∈ values.keys := by
    rwa [(hcolumns key hkey).name_text]
  rw [← (hcolumns key hkey).name_text, ← (hcolumns key' hkey').name_text] at he
  rw [← (hcolumns key hkey).name_text, Dialect.token_name_inj hmem he,
    (hcolumns key' hkey').name_text]

/-! ### Inserts over a connection -/

variable {σ τ ι Stmt Row : Type}

/-- Whether an insert sends one statement with its values. -/
def SendsInsert (e : Engine σ τ ι Stmt Row) (table : String) (values : BindMap)
    (s : State (Traced σ Stmt) τ ι) (sql : String) (params : List Param) : Prop :=
  ∃ xs, Sends Call.execute Call.executePrepared sql params xs ∧
    (e.traced.insert table values s).2.world.server.exchanges = s.world.server.exchanges ++ xs

theorem traced_insert (e : Engine σ τ ι Stmt Row) (table : String) (values : BindMap)
    (s : State (Traced σ Stmt) τ ι) : e.traced.insert table values s =
      e.traced.change (insert e.backend.dialect table values) s := rfl

/-- An insert that is composed and whose values all coerce sends its statement. -/
theorem sendsInsert (e : Engine σ τ ι Stmt Row) {s : State (Traced σ Stmt) τ ι}
    (hinsert : insert e.backend.dialect table values = .ok native)
    (hparams : native.binds.params native.types = .ok params) :
    SendsInsert e table values s native.sql params := by
  rw [SendsInsert, traced_insert, hinsert]
  have hsends := e.dispatch_sends e.backend.execute e.backend.executePrepared Call.execute
    Call.executePrepared id native.sql native.binds native.types s
  rcases hsends with ⟨failure, hfailed, -⟩ | ⟨params', xs, hparams', hxs, hexchanges⟩
  · cases hparams.symm.trans hfailed
  · obtain rfl := Except.ok.inj (hparams.symm.trans hparams')
    exact ⟨xs, hxs, hexchanges⟩

/-- What an insert sends. An insert that is not composed fails and changes nothing, and one with a
value that does not coerce fails and sends nothing. Where the table is not blank and does not close
its bracket, and there are values that all coerce: an insert under columns sends one statement with
the columns in order, a token of its own for each and the column's value at the place of its token;
one under positions is composed exactly if they are those from zero on, in any order, and then sends
one statement with as many tokens and the values in the order of their positions; and an insert
under any other keys fails with a configuration error that names one that is no column. -/
theorem insert_binds_values (e : Engine σ τ ι Stmt Row) (table : String) (values : BindMap)
    (s : State (Traced σ Stmt) τ ι) :
    let d := e.backend.dialect
    let target := d.escapeIdentifier (Text.trimmed table)
    (∀ failure, insert d table values = .error failure →
        e.traced.insert table values s = (.error failure, s)) ∧
      (∀ native failure, insert d table values = .ok native →
        native.binds.params native.types = .error failure →
        (e.traced.insert table values s).1 = .error failure ∧
          (e.traced.insert table values s).2.world.server = s.world.server) ∧
      (']' ∉ table.toList → Text.trim table.toList ≠ [] → values.keys ≠ [] →
        (∀ key ∈ values.keys, ∃ w, CoercesTo values key w) →
        ((∀ key ∈ values.keys, IsColumn key) →
          (values.keys.map (d.token values.keys)).Nodup ∧
          ∃ params, SendsInsert e table values s
              ("INSERT INTO " ++ target ++ " (" ++
                ",".intercalate (values.keys.map fun key => d.escapeIdentifier key.text) ++
                ") VALUES (" ++ ",".intercalate (values.keys.map (d.token values.keys)) ++ ")")
              params ∧
            List.Forall₂ (fun key p => CoercesTo values key p.value ∧
              p.slot = d.slot values.keys key ∧ p.slot.mark d = d.token values.keys key)
              values.keys params) ∧
        ((∀ key ∈ values.keys, key.isIndex = true) →
          ((∃ native, insert d table values = .ok native) ↔
            values.keys.Perm ((List.range values.size).map .index)) ∧
          (values.keys.Perm ((List.range values.size).map .index) →
            ∃ params, SendsInsert e table values s
                ("INSERT INTO " ++ target ++ " VALUES (" ++
                  ",".intercalate ((List.range values.size).map d.positionalToken) ++ ")") params ∧
              List.Forall₂ (fun i p => CoercesTo values (.index i) p.value ∧
                p.slot = .position (i + 1)) (List.range values.size) params)) ∧
        (¬ (∀ key ∈ values.keys, IsColumn key) → ¬ (∀ key ∈ values.keys, key.isIndex = true) →
          ∃ key ∈ values.keys, ¬ IsColumn key ∧ e.traced.insert table values s =
            (.error (.configuration (.invalidInsertColumn key.text table)), s))) := by
  intro d target
  have hfails : ∀ failure, insert d table values = .error failure →
      e.traced.insert table values s = (.error failure, s) := by
    intro failure hinsert
    rw [traced_insert, hinsert]
    rfl
  refine ⟨hfails, fun native failure hinsert hparams => ?_, fun ht hblank hne hwire =>
    ⟨fun hcolumns => ⟨nodup_tokens hcolumns, ?_⟩, fun hindex => ⟨?_, fun hperm => ?_⟩,
      fun hcolumns hindex => ?_⟩⟩
  · -- The statement is composed, and then its values are looked at before anything is sent.
    rw [traced_insert, hinsert]
    have hsent : e.traced.change (.ok native) s = (.error failure, s.withAffected 0) :=
      Engine.dispatch_of_params_error hparams
    rw [hsent]
    exact ⟨rfl, rfl⟩
  · -- The place of a value has the token that stands in the text.
    obtain ⟨native, params, hinsert, hsql, hparams, hforall⟩ :=
      insert_of_columns ht hblank hne hcolumns hwire
    have hsends := sendsInsert e (s := s) hinsert hparams
    rw [hsql] at hsends
    refine ⟨params, hsends, hforall.imp fun key p hparam => ⟨hparam.1, hparam.2, ?_⟩⟩
    rw [hparam.2, Dialect.mark_slot]
  · have hp := (isPositional_iff hne).2 hindex
    rw [insert_of_insertText (insertText_of_positional hne hp)]
    exact exists_run_positions_iff ht hne hp hblank
  · have hp := (isPositional_iff hne).2 hindex
    obtain ⟨native, hrun⟩ := (exists_run_positions_iff (d := d) ht hne hp hblank).2 hperm
    have hinsert := (insert_of_insertText (insertText_of_positional hne hp)).trans hrun
    obtain ⟨hsql, params, hparams, hforall⟩ := insert_of_positions ht hne hp hinsert hwire hperm
    have hsends := sendsInsert e (s := s) hinsert hparams
    rw [hsql] at hsends
    exact ⟨params, hsends, hforall⟩
  · have hp : values.isPositional = false :=
      Bool.eq_false_iff.2 fun hp => hindex ((isPositional_iff hne).1 hp)
    obtain ⟨key, hkey, hcolumn, herror⟩ : ∃ key ∈ values.keys, ¬ IsColumn key ∧
        insertText table values = .error (.invalidInsertColumn key.text table) :=
      insertText_of_other hne hp hcolumns
    refine ⟨key, hkey, hcolumn, hfails _ ?_⟩
    rw [insert, herror]

theorem param_eq {p : Param} {slot : Slot} {w : WireValue} (hslot : p.slot = slot)
    (hvalue : p.value = w) : p = ⟨slot, w⟩ := by
  subst hslot hvalue
  rfl

/-- Two columns by name, and two values by position of which the second is given first. -/
theorem insert_binds_values_student :
    let named : BindMap := OrderedMap.ofList [(.name "age", .int 21), (.name "name", .str "mana")]
    let placed : BindMap := OrderedMap.ofList [(.index 1, .str "mana"), (.index 0, .int 21)]
    (']' ∉ "student".toList ∧ Text.trim "student".toList ≠ [] ∧
      (∀ key ∈ named.keys, IsColumn key) ∧ (∀ key ∈ named.keys, ∃ w, CoercesTo named key w) ∧
      (∀ key ∈ placed.keys, key.isIndex = true) ∧
      ∀ key ∈ placed.keys, ∃ w, CoercesTo placed key w) ∧
      SendsInsert (Script.engine .mysql) "student" named ((Script.start {}).traced String)
        "INSERT INTO `student` (`age`,`name`) VALUES (:age,:name)"
        [⟨.named ":age", .int 21⟩, ⟨.named ":name", .str "mana"⟩] ∧
      SendsInsert (Script.engine .postgres) "student" placed ((Script.start {}).traced String)
        "INSERT INTO \"student\" VALUES ($1,$2)"
        [⟨.position 1, .int 21⟩, ⟨.position 2, .str "mana"⟩] := by
  intro named placed
  have htable : ']' ∉ "student".toList := by decide
  have hblank : Text.trim "student".toList ≠ [] := by decide
  have hcolumns : ∀ key ∈ named.keys, IsColumn key := by
    intro key hkey
    rcases List.mem_pair.1 hkey with rfl | rfl <;> exact ⟨rfl, by decide⟩
  have hnamed : ∀ key ∈ named.keys, ∃ w, CoercesTo named key w := by
    intro key hkey
    rcases List.mem_pair.1 hkey with rfl | rfl
    · exact ⟨.int 21, .int 21, rfl, rfl⟩
    · exact ⟨.str "mana", .str "mana", rfl, rfl⟩
  have hindex : ∀ key ∈ placed.keys, key.isIndex = true := by
    intro key hkey
    rcases List.mem_pair.1 hkey with rfl | rfl <;> rfl
  have hplaced : ∀ key ∈ placed.keys, ∃ w, CoercesTo placed key w := by
    intro key hkey
    rcases List.mem_pair.1 hkey with rfl | rfl
    · exact ⟨.str "mana", .str "mana", rfl, rfl⟩
    · exact ⟨.int 21, .int 21, rfl, rfl⟩
  refine ⟨⟨htable, hblank, hcolumns, hnamed, hindex, hplaced⟩, ?_, ?_⟩
  · obtain ⟨-, params, hsends, hforall⟩ := ((insert_binds_values (Script.engine .mysql) "student"
      named ((Script.start {}).traced String)).2.2 htable hblank (by decide) hnamed).1 hcolumns
    have hkeys : named.keys = [.name "age", .name "name"] := rfl
    rw [hkeys] at hforall
    obtain ⟨p, _, ⟨⟨v, hv, hw⟩, hslot, -⟩, hrest, rfl⟩ := List.forall₂_cons_left_iff.1 hforall
    obtain ⟨q, _, ⟨⟨v', hv', hw'⟩, hslot', -⟩, hnil, rfl⟩ := List.forall₂_cons_left_iff.1 hrest
    obtain rfl := List.forall₂_nil_left_iff.1 hnil
    obtain rfl : .int 21 = v := Option.some.inj hv
    obtain rfl : .str "mana" = v' := Option.some.inj hv'
    obtain rfl : p = ⟨.named ":age", .int 21⟩ := param_eq hslot (Except.ok.inj hw).symm
    obtain rfl : q = ⟨.named ":name", .str "mana"⟩ := param_eq hslot' (Except.ok.inj hw').symm
    convert hsends using 1
    decide +kernel
  · obtain ⟨params, hsends, hforall⟩ := (((insert_binds_values (Script.engine .postgres) "student"
      placed ((Script.start {}).traced String)).2.2 htable hblank (by decide) hplaced).2.1
        hindex).2 (by decide)
    have hplaces : List.range placed.size = [0, 1] := rfl
    rw [hplaces] at hforall
    obtain ⟨p, _, ⟨⟨v, hv, hw⟩, hslot⟩, hrest, rfl⟩ := List.forall₂_cons_left_iff.1 hforall
    obtain ⟨q, _, ⟨⟨v', hv', hw'⟩, hslot'⟩, hnil, rfl⟩ := List.forall₂_cons_left_iff.1 hrest
    obtain rfl := List.forall₂_nil_left_iff.1 hnil
    obtain rfl : .int 21 = v := Option.some.inj hv
    obtain rfl : .str "mana" = v' := Option.some.inj hv'
    obtain rfl : p = ⟨.position 1, .int 21⟩ := param_eq hslot (Except.ok.inj hw).symm
    obtain rfl : q = ⟨.position 2, .str "mana"⟩ := param_eq hslot' (Except.ok.inj hw').symm
    convert hsends using 1
    decide +kernel

end RowChange

end BoundSql

import BoundSql.Proofs.Filter.GeneratedNames
import BoundSql.Proofs.Filter.Grouping
import BoundSql.Proofs.Template.Closed
import BoundSql.Proofs.Template.TokenReading

/-! # Filters written by helpers
The expression of a filter is text with one slot for each value its helpers bind, in the order of
the values. In the template a slot holds the placeholder of a generated name, and in the native
statement the token of the name.
* **`Filter.written`** — the expression after calls, with given marks in its slots.
* **`Filter.HasSlots`** — text whose slots read as placeholders, and whatever else as itself.
* **`Filter.hasSlots_written`** — helpers and plain conditions write such text. -/

namespace BoundSql

namespace Filter

open Template

/-! ### Expressions with slots -/

/-- The condition a helper appends, given the marks of its values. -/
def Helper.textWith (marks : List String) : Helper → String
  | between inside field _ _ =>
    field ++ " " ++ (if inside then "BETWEEN" else "NOT BETWEEN") ++ " " ++
      " AND ".intercalate marks
  | inList inside field _ =>
    if marks.isEmpty then field ++ " != " ++ field
    else field ++ " " ++ (if inside then "IN" else "NOT IN") ++ " (" ++
      ", ".intercalate marks ++ ")"

/-- The field a helper is about. -/
def Helper.field : Helper → String
  | between _ field _ _ => field
  | inList _ field _ => field

theorem Helper.text_eq_textWith (h : Helper) (names : List String) :
    h.text names = h.textWith (names.map placeholder) := by
  cases h with
  | between inside field low high => rfl
  | inList inside field values => rw [text, textWith, List.isEmpty_map]

/-- The marks of a number of values from a first one on. -/
def marksFrom (mark : Nat → String) (first count : Nat) : List String :=
  (List.range' first count).map mark

/-- The expression after a call, where `first` values were bound before. -/
def Call.write (mark : Nat → String) (first : Nat) (before : String) : Call → String
  | set c => c.expr
  | combine op c => joinExpr op before c.expr
  | helper h => joinExpr .and before (h.textWith (marksFrom mark first h.values.length))

/-- The expression after calls, with the marks of the values in its slots. -/
def written (mark : Nat → String) (calls : List Call) : String :=
  (calls.foldl (fun (s : String × Nat) call =>
    (call.write mark s.2 s.1, s.2 + call.values.length)) ("", 0)).1

theorem valueCount_concat (calls : List Call) (call : Call) :
    valueCount (calls ++ [call]) = valueCount calls + call.values.length := by
  simp [valueCount, List.flatMap_append]

theorem written_concat (mark : Nat → String) (calls : List Call) (call : Call) :
    written mark (calls ++ [call]) = call.write mark (valueCount calls) (written mark calls) := by
  have hcount : (calls.foldl (fun (s : String × Nat) call =>
      (call.write mark s.2 s.1, s.2 + call.values.length)) ("", 0)).2 = valueCount calls := by
    induction calls using List.reverseRecOn with
    | nil => rfl
    | append_singleton calls call ih =>
      rw [List.foldl_append, valueCount_concat, ← ih]
      rfl
  rw [written, List.foldl_append, ← hcount]
  rfl

/-- Only the marks of values that are bound are written. -/
theorem written_congr {mark mark' : Nat → String} {calls : List Call}
    (h : ∀ j < valueCount calls, mark j = mark' j) : written mark calls = written mark' calls := by
  induction calls using List.reverseRecOn with
  | nil => rw [written, written, List.foldl_nil, List.foldl_nil]
  | append_singleton calls call ih =>
    rw [valueCount_concat] at h
    have hbefore : written mark calls = written mark' calls := ih fun j hj => h j (by omega)
    rw [written_concat, written_concat, hbefore]
    cases call with
    | set c | combine op c => rfl
    | helper helper =>
      have hmarks : marksFrom mark (valueCount calls) helper.values.length =
          marksFrom mark' (valueCount calls) helper.values.length := by
        refine List.map_congr_left fun j hj => h j ?_
        obtain ⟨-, hj⟩ := List.mem_range'_1.1 hj
        exact hj
      rw [Call.write, Call.write, hmarks]

/-- The placeholder of the generated name with a given number. -/
def slot (j : Nat) : String := placeholder (generatedName j)

/-- The expression of a filter has the placeholders of generated names in its slots. -/
theorem expr_reach (calls : List Call) : (reach [] calls).expr = written slot calls := by
  induction calls using List.reverseRecOn with
  | nil => rfl
  | append_singleton calls call ih =>
    rw [reach_concat, written_concat, ← ih]
    cases call with
    | set c | combine op c => rfl
    | helper helper =>
      rw [Call.apply, (apply_helper _ helper).1, Helper.text_eq_textWith, named,
        map_fst_nameValues, generated_reach, List.map_map]
      rfl

/-! ### The values in the slots -/

theorem nameValues_append (first : Nat) (l r : List Value) :
    nameValues first (l ++ r) = nameValues first l ++ nameValues (first + l.length) r := by
  induction l generalizing first with
  | nil => rfl
  | cons v l ih =>
    rw [List.cons_append, nameValues, ih, nameValues, List.cons_append, List.length_cons,
      Nat.add_assoc, Nat.add_comm 1]

/-- The entries of named values. -/
def entriesOf (named : List (String × Value)) : List (BindKey × Value) :=
  named.map fun e => (.name e.1, e.2)

theorem nodup_entriesOf_nameValues (first : Nat) (values : List Value) :
    ((entriesOf (nameValues first values)).map Prod.fst).Nodup := by
  rw [entriesOf, List.map_map]
  have hkeys := (nodup_nameValues first values).map (f := BindKey.name) fun m n => BindKey.name.inj
  rwa [List.map_map] at hkeys

/-- A call whose conditions bind nothing binds the values it names itself. -/
theorem binds_apply {call : Call} (h : ∀ c ∈ call.conditions, c.binds = OrderedMap.empty)
    (f : Filter) :
    (call.apply f).binds = f.binds.insertAll (entriesOf (nameValues f.generated call.values)) := by
  cases call with
  | set c | combine op c =>
    show f.binds.merge c.binds = f.binds
    rw [h c List.mem_cons_self]
    rfl
  | helper helper =>
    rw [Call.apply, (apply_helper f helper).2.1, bindNamed_eq_ofList]
    exact OrderedMap.merge_ofList _ (nodup_entriesOf_nameValues _ _)

/-- Conditions that bind nothing leave the values of helpers, each under its generated name. -/
theorem binds_reach {calls : List Call}
    (h : ∀ c ∈ calls.flatMap Call.conditions, c.binds = OrderedMap.empty) :
    (reach [] calls).binds =
      OrderedMap.ofList (entriesOf (nameValues 0 (calls.flatMap Call.values))) := by
  induction calls using List.reverseRecOn with
  | nil => rfl
  | append_singleton calls call ih =>
    rw [List.flatMap_append, List.flatMap_singleton] at h
    have hbefore := ih fun c hc => h c (List.mem_append_left _ hc)
    rw [reach_concat, binds_apply fun c hc => h c (List.mem_append_right _ hc), hbefore,
      generated_reach, List.flatMap_append, List.flatMap_singleton, nameValues_append, Nat.zero_add,
      entriesOf, entriesOf, entriesOf, List.map_append, OrderedMap.ofList_append]
    rfl

/-! ### Text with slots -/

/-- Whether a segment stands for itself or for a parameter. -/
def IsFree : Segment → Prop
  | .plain _ => True
  | .placeholder _ => True
  | _ => False

/-- The token of the generated name with a given number, where `refs` are the references of the
whole text. -/
def tokenAt (d : Dialect) (refs : List BindKey) (j : Nat) : String :=
  d.token refs (.name (generatedName j))

/-- Whether text with slots reads, with placeholders in them, as these placeholders, in the order of
`params`, and otherwise as itself, and its native text has tokens in their place. -/
def HasSlots (d : Dialect) (text : (Nat → String) → String) (params : List Nat) : Prop :=
  ∃ segs, ReadsAs d (text slot) segs ∧ (∀ s ∈ segs, IsFree s) ∧
    placeholderNames segs = params.map generatedName ∧
    ∀ identifier refs, nativeText d identifier refs segs = text (tokenAt d refs)

section HasSlots

variable {d : Dialect} {text text' : (Nat → String) → String} {params params' : List Nat}

theorem isFree_of_mem_verbatim {text : String} {s : Segment} (h : s ∈ verbatim text) :
    IsFree s := by
  obtain ⟨c, -, rfl⟩ := List.mem_map.1 h
  trivial

/-- Text without marks has no slot. -/
theorem hasSlots_unmarked {text : String} (h : IsUnmarked d text) :
    HasSlots d (fun _ => text) [] :=
  ⟨verbatim text, readsAs_unmarked h, fun _ => isFree_of_mem_verbatim,
    placeholderNames_verbatim text, fun _ _ => nativeText_verbatim text⟩

theorem isWord_generatedName (j : Nat) : Text.isWord (generatedName j).toList = true := by
  have hdigits : (toString j).toList.all Text.isWordChar = true := by
    rw [Nat.toString_eq_repr, Nat.toList_repr, List.all_eq_true]
    intro c hc
    have hdigit : c.isDigit = true := Nat.isDigit_of_mem_toDigits (by decide) (by decide) hc
    simp [Text.isWordChar, Char.isAlphanum, hdigit]
  have hletters : generatedPrefix.toList.all Text.isWordChar = true := by decide
  rw [Text.isWord, generatedName, String.toList_append, List.all_append, hdigits, hletters]
  rfl

theorem hasSlots_slot (j : Nat) : HasSlots d (fun mark => mark j) [j] := by
  refine ⟨[.placeholder (generatedName j).toList], readsAs_placeholder (isWord_generatedName j),
    fun s hs => ?_, ?_, fun identifier refs => ?_⟩
  · obtain rfl := List.mem_singleton.1 hs
    trivial
  · simp [placeholderNames]
  · simp [nativeText, tokenAt]

theorem HasSlots.append (h : HasSlots d text params) (h' : HasSlots d text' params')
    (hapart : startsApart d (text' slot).toList = true) :
    HasSlots d (fun mark => text mark ++ text' mark) (params ++ params') := by
  obtain ⟨segs, hreads, hfree, hnames, hnative⟩ := h
  obtain ⟨segs', hreads', hfree', hnames', hnative'⟩ := h'
  refine ⟨segs ++ segs', hreads.append hreads' hapart, ?_, ?_, fun identifier refs => ?_⟩
  · exact List.forall_mem_append.2 ⟨hfree, hfree'⟩
  · rw [placeholderNames_append, hnames, hnames', List.map_append]
  · rw [nativeText_append, hnative, hnative']

/-- Text without marks can stand in front of any slots. -/
theorem HasSlots.unmarked_append {front : String} (hf : IsUnmarked d front)
    (h : HasSlots d text params) : HasSlots d (fun mark => front ++ text mark) params := by
  obtain ⟨segs, hreads, hfree, hnames, hnative⟩ := h
  refine ⟨verbatim front ++ segs, ReadsAs.unmarked_append hf hreads, ?_, ?_,
    fun identifier refs => ?_⟩
  · exact List.forall_mem_append.2 ⟨fun _ => isFree_of_mem_verbatim, hfree⟩
  · rw [placeholderNames_append, placeholderNames_verbatim, List.nil_append, hnames]
  · rw [nativeText_append, nativeText_verbatim, hnative]

/-- With tokens in its slots text is empty where it is with placeholders. -/
theorem HasSlots.eq_empty_iff (h : HasSlots d text params) (refs : List BindKey) :
    text (tokenAt d refs) = "" ↔ text slot = "" := by
  obtain ⟨segs, hreads, hfree, -, hnative⟩ := h
  have hscan := hreads.scan_eq
  rw [← hnative id refs]
  cases segs with
  | nil =>
    have hsource := flatMap_source_scan d (text slot).toList
    rw [hscan, List.flatMap_nil] at hsource
    exact iff_of_true rfl (String.toList_eq_nil_iff.1 hsource.symm)
  | cons s rest =>
    have hne : text slot ≠ "" := by
      intro he
      rw [he, scan, String.toList_empty, scanFrom] at hscan
      cases hscan
    refine iff_of_false (fun he => ?_) hne
    -- The first segment has native text, a character or a token.
    rw [nativeText_cons] at he
    have hfirst := (String.append_eq_empty_iff.1 he).1
    have hs := hfree s List.mem_cons_self
    cases s with
    | plain c =>
      have hlist := congrArg String.toList hfirst
      simp at hlist
    | placeholder name =>
      obtain ⟨c, -, hhead⟩ := Dialect.head?_token d refs (.name (String.ofList name))
      rw [Segment.nativeText_placeholder] at hfirst
      rw [hfirst] at hhead
      cases hhead
    | literal text | quoted text | bracket inner | unclosed rest | question => exact hs.elim

/-- Slots one after another, with a separator between them. -/
theorem hasSlots_intercalate {separator : String} (hs : IsUnmarked d separator)
    (hne : separator ≠ "") (hapart : startsApart d separator.toList = true) (params : List Nat) :
    HasSlots d (fun mark => separator.intercalate (params.map mark)) params := by
  induction params with
  | nil => exact hasSlots_unmarked rfl
  | cons j rest ih =>
    cases rest with
    | nil =>
      simp only [List.map_cons, List.map_nil, String.intercalate_singleton]
      exact hasSlots_slot j
    | cons j' rest =>
      have hall := (hasSlots_slot j).append (ih.unmarked_append hs)
        (startsApart_append_of_ne_empty hne hapart _)
      simpa only [List.map_cons, String.intercalate_cons_cons, String.append_assoc,
        List.singleton_append] using hall

/-- Empty text has no slots. -/
theorem HasSlots.params_eq_nil (h : HasSlots d text params) (he : text slot = "") :
    params = [] := by
  obtain ⟨segs, hreads, -, hnames, -⟩ := h
  have hscan := hreads.scan_eq
  rw [he, scan, String.toList_empty, scanFrom] at hscan
  rw [← hscan] at hnames
  exact List.map_eq_nil_iff.1 hnames.symm

/-- What has slots depends on the text with placeholders and with tokens only. -/
theorem HasSlots.congr (h : HasSlots d text params) (hslot : text slot = text' slot)
    (htoken : ∀ refs, text (tokenAt d refs) = text' (tokenAt d refs)) :
    HasSlots d text' params := by
  obtain ⟨segs, hreads, hfree, hnames, hnative⟩ := h
  exact ⟨segs, hslot ▸ hreads, hfree, hnames, fun identifier refs =>
    (hnative identifier refs).trans (htoken refs)⟩

theorem HasSlots.grouped (op : Connective) (h : HasSlots d text params)
    (h' : HasSlots d text' params') :
    HasSlots d (fun mark => grouped (text mark) op (text' mark)) (params ++ params') := by
  have hopen : IsUnmarked d "(" := by cases d <;> decide
  have hclose : IsUnmarked d ")" := by cases d <;> decide
  have hbetween : IsUnmarked d (") " ++ op.keyword ++ " (") := by cases d <;> cases op <;> decide
  have hright := h'.append (hasSlots_unmarked hclose) (by cases d <;> decide)
  have hapart : startsApart d (") " ++ op.keyword ++ " (").toList = true := by
    cases d <;> cases op <;> decide
  have hall := (h.append (hright.unmarked_append hbetween)
    (startsApart_append_of_ne_empty (by cases op <;> decide) hapart _)).unmarked_append hopen
  simpa only [Filter.grouped, String.append_assoc, List.append_nil] using hall

/-- Two expressions with slots under a connective. -/
theorem HasSlots.joinExpr (op : Connective) (h : HasSlots d text params)
    (h' : HasSlots d text' params') :
    HasSlots d (fun mark => joinExpr op (text mark) (text' mark)) (params ++ params') := by
  by_cases he : text slot = ""
  · -- Where one of them is empty, it is so with tokens as well.
    have htoken : ∀ refs, text (tokenAt d refs) = "" := fun refs => (h.eq_empty_iff refs).2 he
    rw [h.params_eq_nil he, List.nil_append]
    exact h'.congr (by rw [he, joinExpr_empty_left])
      fun refs => by rw [htoken, joinExpr_empty_left]
  by_cases he' : text' slot = ""
  · have htoken : ∀ refs, text' (tokenAt d refs) = "" := fun refs => (h'.eq_empty_iff refs).2 he'
    rw [h'.params_eq_nil he', List.append_nil]
    exact h.congr (by rw [he', joinExpr_empty_right])
      fun refs => by rw [htoken, joinExpr_empty_right]
  · exact (h.grouped op h').congr (joinExpr_of_ne_empty he he' op).symm fun refs =>
      (joinExpr_of_ne_empty (mt (h.eq_empty_iff refs).1 he) (mt (h'.eq_empty_iff refs).1 he')
        op).symm

/-- The condition of a helper has a slot for each of its values. -/
theorem hasSlots_textWith (h : Helper) (hfield : IsUnmarked d h.field) (first : Nat) :
    HasSlots d (fun mark => h.textWith (marksFrom mark first h.values.length))
      (List.range' first h.values.length) := by
  cases h with
  | between inside field low high =>
    have hfront : IsUnmarked d
        (field ++ " " ++ (if inside then "BETWEEN" else "NOT BETWEEN") ++ " ") :=
      ((hfield.append (by cases d <;> decide)).append
        (by cases d <;> cases inside <;> decide)).append (by cases d <;> decide)
    have hand : IsUnmarked d " AND " := by cases d <;> decide
    have hapart : startsApart d " AND ".toList = true := by cases d <;> decide
    exact (hasSlots_intercalate hand (by decide) hapart _).unmarked_append hfront
  | inList inside field values =>
    -- An empty list has no slots: the text compares the field with itself.
    cases values with
    | nil => exact hasSlots_unmarked ((hfield.append (by cases d <;> decide)).append hfield)
    | cons v vs =>
      have hfront : IsUnmarked d
          (field ++ " " ++ (if inside then "IN" else "NOT IN") ++ " (") :=
        ((hfield.append (by cases d <;> decide)).append
          (by cases d <;> cases inside <;> decide)).append (by cases d <;> decide)
      have hcomma : IsUnmarked d ", " ∧ startsApart d ", ".toList = true := by cases d <;> decide
      have hclose : IsUnmarked d ")" ∧ startsApart d ")".toList = true := by cases d <;> decide
      have hmarks := hasSlots_intercalate hcomma.1 (by decide) hcomma.2
        (List.range' first (v :: vs).length)
      have hall := (hmarks.append (hasSlots_unmarked hclose.1) hclose.2).unmarked_append hfront
      rw [List.append_nil] at hall
      exact hall.congr String.append_assoc.symm fun _ => String.append_assoc.symm

end HasSlots

/-! ### Plain calls -/

/-- Whether a call writes no mark of a dialect itself and binds values through helpers only. -/
def Call.IsPlain (d : Dialect) : Call → Prop
  | set _ => False
  | combine _ c => c = .ofExpr c.expr ∧ IsUnmarked d c.expr
  | helper h => IsUnmarked d h.field

/-- Plain calls write an expression with a slot for each value, in the order of the values. -/
theorem hasSlots_written {calls : List Call} (h : ∀ call ∈ calls, call.IsPlain d) :
    HasSlots d (fun mark => written mark calls) (List.range (valueCount calls)) := by
  induction calls using List.reverseRecOn with
  | nil => exact hasSlots_unmarked rfl
  | append_singleton calls call ih =>
    have hbefore := ih fun c hc => h c (List.mem_append_left _ hc)
    have hcall := h call (by simp)
    have hrange : List.range (valueCount (calls ++ [call])) =
        List.range (valueCount calls) ++ List.range' (valueCount calls) call.values.length := by
      rw [valueCount_concat, List.range_eq_range', List.range_eq_range', ← List.range'_append_1,
        Nat.zero_add]
    simp only [written_concat, hrange]
    cases call with
    | set c => exact hcall.elim
    | combine op c => exact hbefore.joinExpr op (hasSlots_unmarked hcall.2)
    | helper helper => exact hbefore.joinExpr .and (hasSlots_textWith helper hcall _)

end Filter

end BoundSql

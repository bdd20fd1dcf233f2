import BoundSql.Proofs.Select.Compiled
import BoundSql.Proofs.Template.Appended
import BoundSql.Proofs.Template.Referenced
import BoundSql.Proofs.Template.TokenValues

/-! # Limits on queries
A limit adds one named parameter to a query and its placeholder to the text.
* **`Rendering.extended`** — a rendering with a named parameter more, at the end of its text.
* **`Rendering.run_extended`** — what is rendered before stays, unless the parameter turns
  positional tokens into plain text.
* **`Select.limit_keeps_statement_iff`** — a query with a limit is the query without it, and the
  limit after it, exactly if no positional value stands behind a question mark. -/

namespace BoundSql

/-- Whether a statement continues another one by a text and one more token: its values and
categories are those of the other one and then those of the token. -/
def Native.Continues (native before : Native) (d : Dialect) (text : String) (v : Value)
    (type : WireType) : Prop :=
  ∃ key : BindKey, native.sql = before.sql ++ text ++ key.mark d ∧
    native.binds.entries = before.binds.entries ++ [(key, v)] ∧
    native.types.entries = before.types.entries ++ [(key, type)]

namespace Rendering

open Template

variable {t : Rendering} {n : Numbering} {native : Native} {name : String}

/-! ### Segments that are rendered -/

/-- Text that stands for itself is rendered as it is. -/
theorem segments_verbatim (t : Rendering) (start : Nat) (n : Numbering) (text : String) :
    t.segments start n (verbatim text) = .ok (text, n) := by
  have hchars : ∀ (cs : List Char) (start : Nat),
      t.segments start n (cs.map .plain) = .ok (String.ofList cs, n) := by
    intro cs
    induction cs with
    | nil => exact fun _ => rfl
    | cons c cs ih =>
      intro start
      rw [List.map_cons, segments, segment]
      simp only [ih]
      rw [String.singleton_eq_ofList, ← String.ofList_append, List.singleton_append]
  rw [verbatim, hchars, String.ofList_toList]

/-- What is rendered tracks the references of its segments. -/
theorem tracks_of_segments_eq_ok {segs : List Segment} {out : String}
    (h : t.segments 0 {} segs = .ok (out, n)) : n.Tracks t (t.referencesOf segs) := by
  rcases faultFree_or_exists_fault t [] segs with hf | ⟨l, s, r, e, rfl, hl, he⟩
  · obtain ⟨n', hn, htracks⟩ := segments_of_faultFree (Numbering.tracks_empty t) hf
    have hn : t.segments 0 {} segs = .ok (String.join (t.images [] segs), n') := hn
    obtain ⟨-, rfl⟩ := Prod.mk.inj (Except.ok.inj (h.symm.trans hn))
    exact htracks
  · have hfault := segments_of_fault (r := r) (Numbering.tracks_empty t) hl he
    have hfault : t.segments 0 {} (l ++ s :: r) = .error e := hfault
    cases h.symm.trans hfault

/-- A name that appears first gets a key that is new. -/
theorem named_of_not_mem {refs : List BindKey} {v : Value} (h : n.Tracks t refs)
    (hp : t.binds.isPositional = false) (hnew : .name name ∉ refs)
    (hv : t.binds.get? (.name name) = some v) :
    ∃ key names, key ∉ n.binds.keys ∧ t.named name n = .ok (key.mark t.dialect,
      { n with names }.record key v (t.types.get? (.name name))) := by
  have hkey : t.dialect.nativeKey (refs ++ [.name name]) (.name name) ∉ n.binds.keys := by
    rw [h.keys, Dialect.nativeKey_concat_mem]
    exact hnew
  rw [named, hv]
  -- Where names are kept, no numbers are handed out.
  cases hd : t.dialect with
  | mysql =>
    rw [hd] at hkey
    exact ⟨.name name, n.names, hkey, rfl⟩
  | postgres =>
    rw [hd] at hkey
    refine ⟨.index (n.number name).1, (n.number name).2, ?_, rfl⟩
    rw [(h.number hd hp name).1]
    exact hkey

/-! ### One more parameter -/

/-- The rendering of text that goes on with more text and the placeholder of a parameter that is
bound as well. -/
def extended (t : Rendering) (text name : String) (v : Value) (type : WireType) : Rendering :=
  { t with
    binds := t.binds.bind name v
    types := t.types.insert (.name name) type
    sql := t.sql ++ text ++ Filter.placeholder name }

variable {text : String} {v : Value} {type : WireType}

/-- A segment is rendered as before, unless it is a question mark that was a token. -/
theorem segment_extended (hname : .name name ∉ t.binds.keys) {s : Segment}
    (hs : t.binds.isPositional = true → s ≠ .question) {start : Nat} {r : String × Numbering}
    (h : t.segment start n s = .ok r) :
    (t.extended text name v type).segment start n s = .ok r := by
  have hp' : (t.extended text name v type).binds.isPositional = false :=
    BindMap.isPositional_bind _ _ _
  cases s with
  | bracket inner =>
    rw [segment] at h ⊢
    split at h
    · cases h
    · exact h
  | unclosed rest => cases h
  | placeholder inner =>
    rw [segment] at h ⊢
    by_cases hp : t.binds.isPositional = true
    · rw [if_pos hp] at h
      cases h
    · rw [if_neg hp, named] at h
      rw [if_neg (by simp [hp']), named]
      -- The name is bound already, so it is not the one that is added.
      have hne : String.ofList inner ≠ name := by
        rintro rfl
        rw [(OrderedMap.get?_eq_none_iff _ _).2 hname] at h
        cases h
      have hkey : BindKey.name (String.ofList inner) ≠ .name name := fun he =>
        hne (BindKey.name.inj he)
      rw [show (t.extended text name v type).binds.get? (.name (String.ofList inner)) =
        t.binds.get? (.name (String.ofList inner)) from OrderedMap.get?_insert_of_ne _ _ hkey,
        show (t.extended text name v type).types.get? (.name (String.ofList inner)) =
        t.types.get? (.name (String.ofList inner)) from OrderedMap.get?_insert_of_ne _ _ hkey]
      exact h
  | question =>
    rw [segment] at h ⊢
    have hp : ¬ t.binds.isPositional = true := fun hp => hs hp rfl
    rw [if_neg hp] at h
    rw [if_neg (by simp [hp'])]
    exact h
  | literal text | quoted text | plain c => exact h

/-- So are segments, if no question mark among them was a token. -/
theorem segments_extended (hname : .name name ∉ t.binds.keys) {segs : List Segment}
    (hsegs : t.binds.isPositional = true → .question ∉ segs) {start : Nat}
    {r : String × Numbering} (h : t.segments start n segs = .ok r) :
    (t.extended text name v type).segments start n segs = .ok r := by
  -- Along the segments, each of which goes on with the numbering of the one before.
  induction segs generalizing start n r with
  | nil => exact h
  | cons s rest ih =>
    rw [segments] at h ⊢
    cases hs : t.segment start n s with
    | error failure =>
      rw [hs] at h
      cases h
    | ok first =>
      obtain ⟨out, n'⟩ := first
      have hne : t.binds.isPositional = true → s ≠ .question := by
        rintro hp rfl
        exact hsegs hp List.mem_cons_self
      rw [hs] at h
      rw [segment_extended hname hne hs]
      simp only at h ⊢
      cases hr : t.segments (start + (String.ofList s.source).utf8ByteSize) n' rest with
      | error failure =>
        rw [hr] at h
        cases h
      | ok more =>
        rw [ih (fun hp hm => hsegs hp (List.mem_cons_of_mem _ hm)) hr]
        rw [hr] at h
        exact h

/-- The text of an extended rendering reads as the text before and then as what was added. -/
theorem source_extended (hclosed : Closed t.dialect t.sql.toList)
    (htext : IsUnmarked t.dialect text) (hne : text ≠ "")
    (hapart : startsApart t.dialect text.toList = true)
    (hname : Text.isWord name.toList = true) :
    (t.extended text name v type).source =
      t.source ++ (verbatim text ++ [.placeholder name.toList]) := by
  have hreads := (readsAs_of_closed hclosed).append
    (ReadsAs.unmarked_append htext (readsAs_placeholder hname))
    (startsApart_append_of_ne_empty hne hapart _)
  rw [source, extended]
  show scan t.dialect (t.sql ++ text ++ Filter.placeholder name).toList = _
  rw [String.append_assoc]
  exact hreads.scan_eq

/-- A text that has a native form names bound parameters only. -/
theorem mem_keys_of_mem_placeholderNames (h : t.run = .ok native)
    (hname : name ∈ placeholderNames t.source) : .name name ∈ t.binds.keys := by
  obtain ⟨s, hs, hn⟩ := List.mem_filterMap.1 hname
  cases s with
  | placeholder inner =>
    obtain rfl : String.ofList inner = name := Option.some.inj hn
    exact isSound_of_run_eq_ok h _ hs
  | literal text | quoted text | bracket inner | unclosed rest | question | plain c => cases hn

/-- A native form binds the parameters of its text. -/
theorem length_keys_of_run_eq_ok (h : t.run = .ok native) :
    native.binds.keys.length = t.parameters.length := by
  obtain ⟨n, htracks, rfl⟩ := exists_tracks_of_run_eq_ok h
  rw [htracks.keys, Dialect.nativeKeys, List.length_map, parameters]

section Extended

variable (v : Value) (type : WireType) (hclosed : Closed t.dialect t.sql.toList)
  (htext : IsUnmarked t.dialect text) (hne : text ≠ "")
  (hapart : startsApart t.dialect text.toList = true) (hword : Text.isWord name.toList = true)

include hclosed htext hne hapart hword

/-- With one more parameter a text that has a native form keeps it, if no question mark in it was a
token: its text, values and categories stand in front of those of the parameter. -/
theorem run_extended (hname : .name name ∉ t.binds.keys)
    (hmode : t.binds.isPositional = true → .question ∉ t.source) (h : t.run = .ok native) :
    ∃ key, key ∉ native.binds.keys ∧ native.types.get? key = none ∧
      (t.extended text name v type).run = .ok ⟨native.sql ++ text ++ key.mark t.dialect,
        native.binds.insert key v, native.types.insert key type⟩ := by
  have hp : (t.extended text name v type).binds.isPositional = false :=
    BindMap.isPositional_bind _ _ _
  have hnew : .name name ∉ (t.extended text name v type).referencesOf t.source := by
    rw [referencesOf, hp, references_false]
    intro hmem
    obtain ⟨other, hother, he⟩ := List.mem_map.1 hmem
    obtain rfl := BindKey.name.inj he
    exact hname (mem_keys_of_mem_placeholderNames h hother)
  cases hsegs : t.segments 0 {} t.source with
  | error failure =>
    rw [run, show scan t.dialect t.sql.toList = t.source from rfl, hsegs] at h
    cases h
  | ok r =>
    obtain ⟨out, n⟩ := r
    rw [run, show scan t.dialect t.sql.toList = t.source from rfl, hsegs] at h
    obtain rfl := Except.ok.inj h
    have hsegs' : (t.extended text name v type).segments 0 {} t.source = .ok (out, n) :=
      segments_extended hname hmode hsegs
    have htracks := tracks_of_segments_eq_ok hsegs'
    obtain ⟨key, names, hkey, hnamed⟩ :=
      named_of_not_mem htracks hp hnew (OrderedMap.get?_insert_self _ _ v)
    -- The parameter is recorded after all others.
    have hlast : ∀ start, (t.extended text name v type).segments start n
        [.placeholder name.toList] = .ok (key.mark t.dialect,
          { n with names }.record key v (some type)) := by
      intro start
      rw [show (t.extended text name v type).types.get? (.name name) = some type from
        OrderedMap.get?_insert_self _ _ _] at hnamed
      rw [segments, segment, if_neg (by simp [hp]), String.ofList_toList, hnamed]
      simp only [segments, String.append_empty]
      rfl
    have hall := segments_append_eq_ok_iff.2 ⟨out, n, _, hsegs', segments_append_eq_ok_iff.2
      ⟨text, n, _, segments_verbatim (t.extended text name v type) _ n text, hlast _, rfl⟩, rfl⟩
    rw [← source_extended hclosed htext hne hapart hword] at hall
    refine ⟨key, hkey, htracks.typed key hkey, ?_⟩
    have hscan : scan (t.extended text name v type).dialect
        (t.extended text name v type).sql.toList = (t.extended text name v type).source := rfl
    rw [run, hscan, hall, ← String.append_assoc]
    rfl

/-- Where all values are positional, one more named parameter is the only one that is left. -/
theorem length_keys_extended (hp : t.binds.isPositional = true) (h : t.run = .ok native) :
    ∃ more, (t.extended text name v type).run = .ok more ∧ more.binds.keys.length = 1 := by
  have hp' : (t.extended text name v type).binds.isPositional = false :=
    BindMap.isPositional_bind _ _ _
  have hnone : placeholderNames t.source = [] := by
    rw [List.eq_nil_iff_forall_not_mem]
    intro other hother
    have hkey := mem_keys_of_mem_placeholderNames h hother
    rw [BindMap.isPositional, Bool.and_eq_true] at hp
    cases List.all_eq_true.1 hp.2 _ hkey
  have hsource : (t.extended text name v type).source = _ :=
    source_extended hclosed htext hne hapart hword
  -- What was sound stays sound, as a value was added and none taken away.
  have hsound : ∀ s ∈ (t.extended text name v type).source,
      s.IsSound (t.extended text name v type).binds := by
    intro s hs
    rw [hsource, List.mem_append, List.mem_append, List.mem_singleton] at hs
    rcases hs with hs | hs | rfl
    · have hold := isSound_of_run_eq_ok h s hs
      cases s with
      | placeholder other => exact (OrderedMap.mem_keys_insert _ _ _ _).2 (.inl hold)
      | literal text | quoted text | bracket inner | unclosed rest | question | plain c =>
        exact hold
    · exact isSound_of_mem_verbatim hs
    · show BindKey.name (String.ofList name.toList) ∈ (t.binds.bind name v).keys
      rw [String.ofList_toList]
      exact (OrderedMap.mem_keys_insert _ _ _ _).2 (.inr rfl)
  obtain ⟨more, hmore⟩ := (exists_run_eq_ok_iff hp').2 hsound
  refine ⟨more, hmore, ?_⟩
  have hnames : placeholderNames (t.extended text name v type).source =
      [String.ofList name.toList] := by
    rw [hsource, placeholderNames_append, hnone, placeholderNames_append, placeholderNames_verbatim]
    rfl
  rw [length_keys_of_run_eq_ok hmore, parameters, referencesOf, hp', references_false, hnames]
  rfl

/-- A text that has a native form has one with one more parameter as well. It continues the one
before exactly if no question mark in the text was a token: one more name makes them plain text, and
the positional values are lost. -/
theorem continues_extended_iff (hname : .name name ∉ t.binds.keys) (h : t.run = .ok native) :
    ∃ more, (t.extended text name v type).run = .ok more ∧
      (more.Continues native t.dialect text v type ↔
        ¬ (t.binds.isPositional = true ∧ .question ∈ t.source)) := by
  by_cases hlost : t.binds.isPositional = true ∧ .question ∈ t.source
  · obtain ⟨more, hmore, hlength⟩ :=
      length_keys_extended v type hclosed htext hne hapart hword hlost.1 h
    refine ⟨more, hmore, iff_of_false ?_ (not_not_intro hlost)⟩
    rintro ⟨key, -, hentries, -⟩
    -- There was at least one positional value.
    have hquestions : 0 < questions t.source := List.count_pos_iff.2 hlost.2
    have hold : native.binds.keys.length = questions t.source := by
      rw [length_keys_of_run_eq_ok h, parameters_of_isPositional hlost.1 h, List.length_map,
        List.length_range]
    have hkeys : more.binds.keys.length = native.binds.keys.length + 1 := by
      rw [OrderedMap.keys, hentries, OrderedMap.keys]
      simp
    omega
  · have hmode : t.binds.isPositional = true → .question ∉ t.source := fun hp hq => hlost ⟨hp, hq⟩
    obtain ⟨key, hkey, htype, hmore⟩ :=
      run_extended v type hclosed htext hne hapart hword hname hmode h
    refine ⟨_, hmore, iff_of_true ⟨key, rfl, ?_, ?_⟩ hlost⟩
    · exact OrderedMap.entries_insert_of_not_mem _ hkey
    · exact OrderedMap.entries_insert_of_not_mem _ ((OrderedMap.get?_eq_none_iff _ _).1 htype)

end Extended

end Rendering

namespace Select

open Template

/-! ### The limit of a query -/

/-- A limit puts a placeholder behind the text of a query and binds its name. -/
theorem template_setLimit {q : Select} (hlimit : q.limit = none) (hoffset : q.offset = none)
    (hwrite : q.forUpdate = false) (hread : q.sharedLock = false) (n : UInt64) :
    (q.setLimit n none).template =
      { q.template with
        sql := q.template.sql ++ " LIMIT " ++ Filter.placeholder limitName
        binds := q.template.binds.bind limitName (.int n.toNat)
        types := q.template.types.insert (.name limitName) .int } := by
  have hnone : (q.setLimit n none).offset = none := hoffset
  have hlock : q.lockText = "" := by
    rw [lockText, hwrite, hread]
    rfl
  have hlock' : (q.setLimit n none).lockText = "" := hlock
  have hbody : (q.setLimit n none).bodyText = q.bodyText := rfl
  simp only [template, hbody, hlimit, hoffset, hnone, hlock, hlock', pagingText,
    String.append_empty, String.append_assoc]
  rfl

/-- A limit puts no clause at fault. -/
theorem fault?_setLimit {q : Select} (hoffset : q.offset = none) (h : q.fault? = none)
    (n : UInt64) : (q.setLimit n none).fault? = none := by
  have hnone : (q.setLimit n none).offset = none := hoffset
  rw [fault?, hoffset] at h
  rw [fault?, hnone]
  exact h

/-- A query without limit, offset and lock that has a native form has one with a limit as well. It
is the one without it, with the limit in the end, exactly if no question mark of the query is a
token: then all its values would be positional, and one with a name is added. -/
theorem limit_keeps_statement_iff {q : Select} {t : Template} {d : Dialect}
    {resolved : OrderedMap String Source} {native : Native} (hlimit : q.limit = none)
    (hoffset : q.offset = none) (hwrite : q.forUpdate = false) (hread : q.sharedLock = false)
    (hbinds : .name limitName ∉ q.clauseBinds.keys) (hcompile : q.compile = .ok t)
    (hclosed : Closed d t.sql.toList) (hresolve : t.resolve d resolved = .ok native)
    (n : UInt64) :
    ∃ t' limited, (q.setLimit n none).compile = .ok t' ∧ t'.resolve d resolved = .ok limited ∧
      (limited.Continues native d " LIMIT " (.int n.toNat) .int ↔
        ¬ (t.binds.isPositional = true ∧ .question ∈ scan d t.sql.toList)) := by
  obtain ⟨hfault, rfl⟩ := compile_eq_ok_iff.1 hcompile
  obtain ⟨hsources, hrun⟩ := resolve_eq_ok_iff.1 hresolve
  have htemplate := template_setLimit hlimit hoffset hwrite hread n
  have hname : .name limitName ∉ q.template.binds.keys := by
    simp only [template, hlimit, hoffset, pagingBinds]
    exact hbinds
  have htext : IsUnmarked d " LIMIT " := by cases d <;> decide
  have hapart : startsApart d " LIMIT ".toList = true := by cases d <;> decide
  have hword : Text.isWord limitName.toList = true := by decide
  obtain ⟨limited, hlimited, hiff⟩ := Rendering.continues_extended_iff
    (t := q.template.rendering d resolved) (.int n.toNat) .int hclosed htext (by decide) hapart
    hword hname hrun
  refine ⟨_, limited, compile_eq_ok_iff.2 ⟨fault?_setLimit hoffset hfault n, rfl⟩, ?_, hiff⟩
  rw [htemplate]
  exact resolve_eq_ok_iff.2 ⟨hsources, hlimited⟩

/-- A query with a literal and a named value. -/
theorem limit_keeps_statement_named :
    let q : Select := { ofSource "orders" with
      filter :=
        { expr := "note = 'paid?' AND total > :total:"
          binds := OrderedMap.ofList [(.name "total", .int 5)] } }
    let resolved := OrderedMap.ofList [("orders", Source.ofName "orders")]
    ∃ t native t' limited, q.compile = .ok t ∧ t.resolve .postgres resolved = .ok native ∧
      (q.setLimit 3 none).compile = .ok t' ∧ t'.resolve .postgres resolved = .ok limited ∧
      limited.Continues native .postgres " LIMIT " (.int 3) .int := by
  intro q resolved
  let t : Template :=
    ⟨"SELECT [orders].* FROM [orders] WHERE note = 'paid?' AND total > :total:",
      OrderedMap.ofList [(.name "total", .int 5)], OrderedMap.empty, ["orders"]⟩
  let native : Native :=
    ⟨"SELECT \"orders\".* FROM \"orders\" WHERE note = 'paid?' AND total > $1",
      OrderedMap.ofList [(.index 0, .int 5)], OrderedMap.empty⟩
  have hcompile : q.compile = .ok t := by decide +kernel
  have hresolve : t.resolve .postgres resolved = .ok native := by decide +kernel
  have hscan : scan .postgres t.sql.toList =
      verbatim "SELECT " ++ [.bracket "orders".toList] ++ verbatim ".* FROM " ++
        [.bracket "orders".toList] ++ verbatim " WHERE note = " ++ [.literal "'paid?'".toList] ++
        verbatim " AND total > " ++ [.placeholder "total".toList] := by decide +kernel
  have hclosed : Closed .postgres t.sql.toList := by
    have hliteral : (Segment.literal "'paid?'".toList).IsClosed .postgres :=
      Segment.isClosed_literal (by decide)
    rw [Closed, hscan]
    simp only [List.forall_mem_append, List.forall_mem_singleton]
    exact ⟨⟨⟨⟨⟨⟨⟨fun s => Segment.isClosed_of_mem_verbatim, trivial⟩,
      fun s => Segment.isClosed_of_mem_verbatim⟩, trivial⟩,
      fun s => Segment.isClosed_of_mem_verbatim⟩, hliteral⟩,
      fun s => Segment.isClosed_of_mem_verbatim⟩, trivial⟩
  obtain ⟨t', limited, hcompile', hresolve', hiff⟩ :=
    limit_keeps_statement_iff rfl rfl rfl rfl (by decide) hcompile hclosed hresolve 3
  exact ⟨t, native, t', limited, hcompile, hresolve, hcompile', hresolve',
    hiff.2 fun h => absurd h.1 (by decide)⟩

/-- A query with a positional value: with a limit the value is bound no more, and its question mark
stands in the text. -/
theorem limit_drops_positional_values :
    let q : Select := { ofSource "orders" with
      filter := { expr := "a = ?", binds := OrderedMap.ofList [(.index 0, .int 5)] } }
    let resolved := OrderedMap.ofList [("orders", Source.ofName "orders")]
    ∃ t native t' limited, q.compile = .ok t ∧ Closed .postgres t.sql.toList ∧
      t.resolve .postgres resolved = .ok native ∧
      (q.setLimit 3 none).compile = .ok t' ∧ t'.resolve .postgres resolved = .ok limited ∧
      native.sql = "SELECT \"orders\".* FROM \"orders\" WHERE a = $1" ∧
      native.binds.entries = [(.index 0, .int 5)] ∧
      limited.sql = "SELECT \"orders\".* FROM \"orders\" WHERE a = ? LIMIT $1" ∧
      limited.binds.entries = [(.index 0, .int 3)] ∧
      ¬ limited.Continues native .postgres " LIMIT " (.int 3) .int := by
  intro q resolved
  let t : Template :=
    ⟨"SELECT [orders].* FROM [orders] WHERE a = ?",
      OrderedMap.ofList [(.index 0, .int 5)], OrderedMap.empty, ["orders"]⟩
  let t' : Template :=
    ⟨"SELECT [orders].* FROM [orders] WHERE a = ? LIMIT :ABP_LIMIT:",
      OrderedMap.ofList [(.index 0, .int 5), (.name "ABP_LIMIT", .int 3)],
      OrderedMap.ofList [(.name "ABP_LIMIT", .int)], ["orders"]⟩
  let native : Native :=
    ⟨"SELECT \"orders\".* FROM \"orders\" WHERE a = $1",
      OrderedMap.ofList [(.index 0, .int 5)], OrderedMap.empty⟩
  let limited : Native :=
    ⟨"SELECT \"orders\".* FROM \"orders\" WHERE a = ? LIMIT $1",
      OrderedMap.ofList [(.index 0, .int 3)], OrderedMap.ofList [(.index 0, .int)]⟩
  have hcompile : q.compile = .ok t := by decide +kernel
  have hcompile' : (q.setLimit 3 none).compile = .ok t' := by decide +kernel
  have hscan : scan .postgres t.sql.toList =
      verbatim "SELECT " ++ [.bracket "orders".toList] ++ verbatim ".* FROM " ++
        [.bracket "orders".toList] ++ verbatim " WHERE a = " ++ [.question] := by decide +kernel
  have hclosed : Closed .postgres t.sql.toList := by
    rw [Closed, hscan]
    simp only [List.forall_mem_append, List.forall_mem_singleton]
    exact ⟨⟨⟨⟨⟨fun s => Segment.isClosed_of_mem_verbatim, trivial⟩,
      fun s => Segment.isClosed_of_mem_verbatim⟩, trivial⟩,
      fun s => Segment.isClosed_of_mem_verbatim⟩, trivial⟩
  refine ⟨t, native, t', limited, hcompile, hclosed, by decide +kernel, hcompile',
    by decide +kernel, rfl, rfl, rfl, rfl, ?_⟩
  -- The limit has taken the place of the value.
  rintro ⟨key, -, hentries, -⟩
  have hlength := congrArg List.length hentries
  cases hlength

end Select

end BoundSql

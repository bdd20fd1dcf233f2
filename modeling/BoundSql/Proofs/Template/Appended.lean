import BoundSql.Proofs.Template.Closed

/-! # Clauses after other clauses
A statement is written clause by clause, and each clause is read as if it stood alone.
* **`Template.EndsOutside`** — a text leaves all literals and quoted identifiers it enters.
* **`Template.scan_append_of_space`** — a text that does and ends in a space reads as it does alone,
  whatever follows it.
* **`Rendering.renderFrom`** — the native text of a clause, where tokens have been handed out
  before.
* **`Rendering.segments_append_eq_ok_iff`**, **`Rendering.segments_collect`** — segments one after
  another hand over their numbering, and of it only the numbers matter to native text.
* **`Rendering.clause_rendered_apart`** — so a clause is rendered apart from the text before it. -/

namespace BoundSql

/-! ### Text that ends in a space -/

namespace Template

variable {d : Dialect}

/-- Whether text ends outside of literals and quoted identifiers: if one is the last it holds, that
one is closed. -/
def EndsOutside (d : Dialect) (cs : List Char) : Prop :=
  ∀ s ∈ (scan d cs).getLast?, s.isQuoted = true → s.IsClosed d

/-- No literal and no quoted identifier is closed by a space. -/
theorem eq_plain_of_isClosed {prev : Option Char} {s : Segment} {rest : List Char}
    (h : s.Starts d prev rest) (hc : s.IsClosed d) (hspace : s.source.getLast? = some ' ') :
    s = .plain ' ' := by
  have hdelimiter : ∀ {b : Bool} {q : Char} {body rest : List Char},
      (q :: body).getLast? = some ' ' → rest ≠ [] → Text.Closes b q body rest → q = ' ' := by
    intro b q body rest hlast hne hcloses
    rw [List.getLast?_cons, hcloses.getLast?_body hne] at hlast
    exact Option.some.inj hlast
  -- Every other kind of segment ends in a delimiter, a bracket, a colon or a question mark.
  cases s with
  | literal text =>
    obtain ⟨q, body, rfl, hq, -⟩ := h
    obtain ⟨q', body', rest', heq, hne, hcloses⟩ := hc
    obtain ⟨rfl, rfl⟩ := List.cons.inj heq
    obtain rfl := hdelimiter hspace hne hcloses
    cases d <;> cases hq
  | quoted text =>
    obtain ⟨body', rest', rfl, hne, hcloses⟩ := hc
    exact absurd (hdelimiter hspace hne hcloses) (by cases d <;> decide)
  | bracket inner =>
    rw [Segment.source, List.getLast?_cons, List.getLast?_append] at hspace
    simp at hspace
  | unclosed rest => exact hc.elim
  | placeholder name =>
    rw [Segment.source, List.getLast?_cons, List.getLast?_append] at hspace
    simp at hspace
  | question => simp [Segment.source] at hspace
  | plain c =>
    rw [Segment.source, List.getLast?_singleton] at hspace
    rw [Option.some.inj hspace]

/-- A space cuts off all that a segment could go on with, so the segment stays the first one,
whatever follows the space. -/
theorem Segment.Starts.append_of_space {prev : Option Char} {s : Segment} {rest : List Char}
    (h : s.Starts d prev rest) (hspace : rest.getLast? = some ' ') (more : List Char) :
    s.Starts d prev (rest ++ more) := by
  obtain ⟨front, rfl⟩ := List.getLast?_eq_some_iff.1 hspace
  have hne : front ++ [' '] ≠ [] := by simp
  have hhead : (front ++ [' '] ++ more).head? = (front ++ [' ']).head? := by
    rw [List.head?_append_of_ne_nil _ hne]
  cases s with
  | literal text =>
    obtain ⟨q, body, rfl, hq, hcloses⟩ := h
    exact ⟨q, body, rfl, hq, hcloses.of_head?_ne hne (by rw [hhead]; exact hcloses.head?_ne hne)⟩
  | quoted text =>
    obtain ⟨body, rfl, hcloses⟩ := h
    exact ⟨body, rfl, hcloses.of_head?_ne hne (by rw [hhead]; exact hcloses.head?_ne hne)⟩
  | bracket inner => exact h
  | unclosed inner => exact absurd h.2 hne
  | placeholder name => exact ⟨h.1, h.2.1, by rw [hhead]; exact h.2.2⟩
  | question => trivial
  | plain c =>
    obtain ⟨hl, hq, hb, hquestion, hcolon⟩ := h
    refine ⟨hl, hq, hb, hquestion, fun he hprev => ?_⟩
    -- A placeholder would end before the space, and so would have begun here before.
    rintro ⟨name, after, happend, hp⟩
    rw [List.append_assoc, List.singleton_append] at happend
    have hapart : startsApart d (' ' :: more) = true := by cases d <;> rfl
    obtain ⟨after', rfl, hp'⟩ := isPlaceholder_of_append hapart happend hp
    refine hcolon he hprev ⟨name, after' ++ [' '], by simp, hp'.1, fun hhead' => ?_⟩
    cases after' with
    | nil => simp at hhead'
    | cons a after' => exact hp'.2 hhead'

/-- A reading of text that ends in a space outside of literals and quoted identifiers goes on with
the reading of what follows. -/
theorem Segmented.scanFrom_append_of_space {prev : Option Char} {cs : List Char}
    {segs : List Segment} (h : Segmented d prev cs segs) (hspace : cs.getLast? = some ' ')
    (hlast : ∀ s ∈ segs.getLast?, s.IsClosed d) (more : List Char) :
    scanFrom d (afterColon prev) (cs ++ more) = segs ++ scan d more := by
  -- Along the reading: only its last segment could reach into what follows.
  induction h with
  | nil => cases hspace
  | @cons prev s rest segs first others ih =>
    by_cases hrest : rest = []
    · -- The segment is the last one, and it is the space.
      subst hrest
      have hsegs : segs = [] := by
        rw [others.eq_scanFrom, scanFrom]
      subst hsegs
      rw [List.append_nil] at hspace ⊢
      obtain rfl := eq_plain_of_isClosed first (hlast s rfl) hspace
      have hplain : Segment.Starts d prev more (.plain ' ') :=
        ⟨first.1, first.2.1, first.2.2.1, first.2.2.2.1, fun he => absurd he (by decide)⟩
      rw [hplain.scanFrom_append]
      rfl
    · rw [List.getLast?_append_of_ne_nil _ hrest] at hspace
      have hlast' : ∀ s' ∈ segs.getLast?, s'.IsClosed d := by
        intro s' hs'
        refine hlast s' ?_
        rw [List.getLast?_cons, Option.mem_def.1 hs']
        rfl
      rw [List.append_assoc, (first.append_of_space hspace more).scanFrom_append,
        ih hspace hlast', List.cons_append]

/-- Text that ends in a space outside of literals and quoted identifiers, with all its brackets
closed, reads as it does alone, whatever follows it. -/
theorem scan_append_of_space {cs : List Char} (hspace : cs.getLast? = some ' ')
    (hlast : ∀ s ∈ (scan d cs).getLast?, s.IsClosed d) (more : List Char) :
    scan d (cs ++ more) = scan d cs ++ scan d more :=
  (segmented_scanFrom d none cs).scanFrom_append_of_space hspace hlast more

end Template

/-! ### Segments one after another -/

namespace Numbering

/-- The numbers that are handed out, without the values under them. -/
def numbers (n : Numbering) : Numbering := { names := n.names, positions := n.positions }

/-- A later numbering with the values of an earlier one in front of its own. -/
def collect (before after : Numbering) : Numbering :=
  { after with
    binds := before.binds.merge after.binds
    types := before.types.merge after.types }

/-- A value that is recorded later is collected last. -/
theorem collect_record (before after : Numbering) (key : BindKey) (v : Value)
    (type : Option WireType) :
    (before.collect after).record key v type = before.collect (after.record key v type) := by
  cases type with
  | none => simp only [collect, record, OrderedMap.merge_insert]
  | some type => simp only [collect, record, OrderedMap.merge_insert]

end Numbering

namespace Rendering

open Template

variable {t : Rendering} {n : Numbering}

theorem offset_cons (s : Segment) (segs : List Segment) :
    offset (s :: segs) = (String.ofList s.source).utf8ByteSize + offset segs := by
  simp [offset, String.ofList_append]

/-- Segments are rendered if the first one is, and the others with the numbering it leaves. -/
theorem segments_cons_eq_ok_iff {start : Nat} {s : Segment} {rest : List Segment} {text : String}
    {after : Numbering} : t.segments start n (s :: rest) = .ok (text, after) ↔
      ∃ out n' more, t.segment start n s = .ok (out, n') ∧
        t.segments (start + (String.ofList s.source).utf8ByteSize) n' rest = .ok (more, after) ∧
        text = out ++ more := by
  rw [segments]
  constructor
  · intro h
    cases hs : t.segment start n s with
    | error failure =>
      rw [hs] at h
      cases h
    | ok first =>
      obtain ⟨out, n'⟩ := first
      rw [hs] at h
      simp only at h
      cases hrest : t.segments (start + (String.ofList s.source).utf8ByteSize) n' rest with
      | error failure =>
        rw [hrest] at h
        cases h
      | ok following =>
        obtain ⟨more, n''⟩ := following
        rw [hrest] at h
        obtain ⟨rfl, rfl⟩ := Prod.mk.inj (Except.ok.inj h)
        exact ⟨out, n', more, rfl, hrest, rfl⟩
  · rintro ⟨out, n', more, hs, hrest, rfl⟩
    rw [hs]
    simp only [hrest]

/-- Segments are rendered one after another, the later ones with the numbering that those before
them leave. -/
theorem segments_append_eq_ok_iff {start : Nat} {l r : List Segment} {text : String}
    {after : Numbering} : t.segments start n (l ++ r) = .ok (text, after) ↔
      ∃ out n' more, t.segments start n l = .ok (out, n') ∧
        t.segments (start + offset l) n' r = .ok (more, after) ∧ text = out ++ more := by
  induction l generalizing start n text with
  | nil =>
    rw [List.nil_append, show offset [] = 0 from rfl, Nat.add_zero]
    constructor
    · exact fun h => ⟨"", n, text, rfl, h, String.empty_append.symm⟩
    · rintro ⟨out, n', more, hl, hr, rfl⟩
      obtain ⟨rfl, rfl⟩ := Prod.mk.inj (Except.ok.inj hl)
      rwa [String.empty_append]
  | cons s l ih =>
    rw [List.cons_append, segments_cons_eq_ok_iff, offset_cons, ← Nat.add_assoc]
    constructor
    · rintro ⟨head, n₁, following, hs, hrest, rfl⟩
      obtain ⟨tail, n₂, more, hl, hr, rfl⟩ := ih.1 hrest
      exact ⟨head ++ tail, n₂, more, segments_cons_eq_ok_iff.2 ⟨head, n₁, tail, hs, hl, rfl⟩, hr,
        String.append_assoc.symm⟩
    · rintro ⟨out, n₂, more, hfront, hr, rfl⟩
      obtain ⟨head, n₁, tail, hs, hl, rfl⟩ := segments_cons_eq_ok_iff.1 hfront
      exact ⟨head, n₁, tail ++ more, hs, ih.2 ⟨tail, n₂, more, hl, hr, rfl⟩, String.append_assoc⟩

/-- Where a segment stands, and in which text, matters to error messages only. -/
theorem segment_eq_ok_iff (sql sql' : String) (start start' : Nat) {s : Segment}
    {result : String × Numbering} :
    { t with sql }.segment start n s = .ok result ↔
      { t with sql := sql' }.segment start' n s = .ok result := by
  cases s with
  | bracket inner =>
    rw [segment, segment]
    split
    · exact ⟨fun h => (by cases h), fun h => (by cases h)⟩
    · exact Iff.rfl
  | unclosed rest => exact ⟨fun h => (by cases h), fun h => (by cases h)⟩
  | literal text | quoted text | placeholder name | question | plain c => exact Iff.rfl

/-- Where segments stand, and in which text, matters to error messages only. -/
theorem segments_eq_ok_iff (sql sql' : String) (start start' : Nat) {segs : List Segment}
    {result : String × Numbering} :
    { t with sql }.segments start n segs = .ok result ↔
      { t with sql := sql' }.segments start' n segs = .ok result := by
  obtain ⟨text, after⟩ := result
  induction segs generalizing start start' n text with
  | nil => exact Iff.rfl
  | cons s segs ih =>
    rw [segments_cons_eq_ok_iff, segments_cons_eq_ok_iff]
    constructor
    · rintro ⟨out, n', more, hs, hrest, rfl⟩
      exact ⟨out, n', more, (segment_eq_ok_iff sql sql' start start').1 hs, (ih _ _ _).1 hrest, rfl⟩
    · rintro ⟨out, n', more, hs, hrest, rfl⟩
      exact ⟨out, n', more, (segment_eq_ok_iff sql sql' start start').2 hs, (ih _ _ _).2 hrest, rfl⟩

/-- No text with a bracket that nothing closes is rendered. -/
theorem ne_unclosed_of_segments_eq_ok {start : Nat} {segs : List Segment}
    {result : String × Numbering} (h : t.segments start n segs = .ok result) {s : Segment}
    (hs : s ∈ segs) (rest : List Char) : s ≠ .unclosed rest := by
  rintro rfl
  obtain ⟨l, r, rfl⟩ := List.append_of_mem hs
  obtain ⟨out, n', more, -, hr, -⟩ := segments_append_eq_ok_iff.1 h
  obtain ⟨head, n'', tail, hs, -⟩ := segments_cons_eq_ok_iff.1 hr
  cases hs

/-- Values handed out before a named token are only collected. -/
theorem named_collect (t : Rendering) (name : String) (before n : Numbering) :
    t.named name (before.collect n) = (t.named name n).map (Prod.map id before.collect) := by
  rw [named, named]
  cases t.binds.get? (.name name) with
  | none => rfl
  | some v =>
    dsimp only
    split
    · exact congrArg (fun m => Except.ok (_, m)) (before.collect_record n _ v _)
    · exact congrArg (fun m => Except.ok (t.dialect.positionalToken (n.number name).1, m))
        (before.collect_record { n with names := (n.number name).2 } _ v _)

/-- Values handed out before a positional token are only collected. -/
theorem positional_collect (t : Rendering) (before n : Numbering) :
    t.positional (before.collect n) = (t.positional n).map (Prod.map id before.collect) := by
  rw [positional, positional, show (before.collect n).positions = n.positions from rfl]
  cases t.binds.get? (.index n.positions) with
  | none => rfl
  | some v =>
    exact congrArg
      (fun m => Except.ok (_, ({ m with positions := n.positions + 1 } : Numbering)))
      (before.collect_record n _ v _)

/-- Values handed out before a segment are only collected. -/
theorem segment_collect (t : Rendering) (start : Nat) (before n : Numbering) (s : Segment) :
    t.segment start (before.collect n) s =
      (t.segment start n s).map (Prod.map id before.collect) := by
  cases s with
  | bracket inner =>
    rw [segment, segment]
    split <;> rfl
  | placeholder name =>
    rw [segment, segment]
    split
    · rfl
    · exact t.named_collect (String.ofList name) before n
  | question =>
    rw [segment, segment]
    split
    · exact t.positional_collect before n
    · rfl
  | literal text | quoted text | unclosed rest | plain c => rfl

/-- Values handed out before segments are only collected. -/
theorem segments_collect (t : Rendering) (start : Nat) (before n : Numbering)
    (segs : List Segment) : t.segments start (before.collect n) segs =
      (t.segments start n segs).map (Prod.map id before.collect) := by
  induction segs generalizing start n with
  | nil => rfl
  | cons s segs ih =>
    rw [segments, segments, segment_collect]
    cases t.segment start n s with
    | error failure => rfl
    | ok first =>
      obtain ⟨out, n'⟩ := first
      simp only [Except.map, Prod.map, id, ih]
      cases t.segments (start + (String.ofList s.source).utf8ByteSize) n' segs <;> rfl

/-! ### A clause after other text -/

/-- The native text of a clause, where tokens of the text before it have been handed out. -/
def renderFrom (t : Rendering) (n : Numbering) (clause : String) :
    Except CompositionError (String × Numbering) :=
  { t with sql := clause }.segments 0 n (scan t.dialect clause.toList)

/-- A whole text is rendered with no token handed out before it. -/
theorem run_eq_ok_iff {text : String} {native : Native} :
    { t with sql := text }.run = .ok native ↔ ∃ after : Numbering,
      t.renderFrom {} text = .ok (native.sql, after) ∧ native.binds = after.binds ∧
        native.types = after.types := by
  rw [run, renderFrom]
  constructor
  · intro h
    split at h
    · cases h
    · next sql after hsegments =>
      obtain rfl := Except.ok.inj h
      exact ⟨after, hsegments, rfl, rfl⟩
  · rintro ⟨after, hsegments, hbinds, htypes⟩
    rw [hsegments]
    simp only [← hbinds, ← htypes]

/-- A clause after text that ends in a space outside of literals and quoted identifiers goes on
with the tokens that the text has left. -/
theorem renderFrom_append_eq_ok_iff {first out : String} {left : Numbering}
    (hspace : first.toList.getLast? = some ' ') (houtside : EndsOutside t.dialect first.toList)
    (hfirst : t.renderFrom n first = .ok (out, left)) (second : String) {text : String}
    {after : Numbering} : t.renderFrom n (first ++ second) = .ok (text, after) ↔
      ∃ more, t.renderFrom left second = .ok (more, after) ∧ text = out ++ more := by
  have hlast : ∀ s ∈ (scan t.dialect first.toList).getLast?, s.IsClosed t.dialect := by
    intro s hs
    have hunclosed := ne_unclosed_of_segments_eq_ok hfirst (List.mem_of_getLast? hs)
    cases s with
    | literal text | quoted text => exact houtside _ hs rfl
    | unclosed rest => exact absurd rfl (hunclosed rest)
    | bracket inner | placeholder name | question | plain c => trivial
  have hscan : scan t.dialect (first ++ second).toList =
      scan t.dialect first.toList ++ scan t.dialect second.toList := by
    rw [String.toList_append, scan_append_of_space hspace hlast]
  have hfirst' := (segments_eq_ok_iff first (first ++ second) 0 0).1 hfirst
  rw [renderFrom, hscan, segments_append_eq_ok_iff]
  constructor
  · rintro ⟨out', left', more, hl, hr, rfl⟩
    obtain ⟨rfl, rfl⟩ := Prod.mk.inj (Except.ok.inj (hfirst'.symm.trans hl))
    exact ⟨more, (segments_eq_ok_iff _ _ _ _).1 hr, rfl⟩
  · rintro ⟨more, hr, rfl⟩
    exact ⟨out, left, more, hfirst', (segments_eq_ok_iff _ _ _ _).1 hr, rfl⟩

/-- Text after other text is rendered apart from it. Where a text ends in a space, outside of
literals and quoted identifiers, and has a native form, any text after it has one there exactly if
it has one with the tokens that the first text has left; the native form of both is the first one,
and after it what the second text becomes. Of the tokens left only the numbers matter to that: the
values under them are collected in front of those of the second text. -/
theorem clause_rendered_apart (t : Rendering) {first : String} {native : Native}
    (hspace : first.toList.getLast? = some ' ') (houtside : EndsOutside t.dialect first.toList)
    (hfirst : { t with sql := first }.run = .ok native) :
    ∃ left : Numbering, t.renderFrom {} first = .ok (native.sql, left) ∧
      native.binds = left.binds ∧ native.types = left.types ∧ ∀ second : String,
        ((∃ whole, { t with sql := first ++ second }.run = .ok whole) ↔
          ∃ result, t.renderFrom left second = .ok result) ∧
        (∀ more after, t.renderFrom left second = .ok (more, after) →
          { t with sql := first ++ second }.run =
            .ok ⟨native.sql ++ more, after.binds, after.types⟩) ∧
        t.renderFrom left second =
          (t.renderFrom left.numbers second).map (Prod.map id left.collect) := by
  obtain ⟨left, hleft, hbinds, htypes⟩ := run_eq_ok_iff.1 hfirst
  refine ⟨left, hleft, hbinds, htypes, fun second => ?_⟩
  -- Whatever the second part is, it goes on with the numbering that the first one leaves.
  have happend : ∀ text after, t.renderFrom {} (first ++ second) = .ok (text, after) ↔
      ∃ more, t.renderFrom left second = .ok (more, after) ∧ text = native.sql ++ more :=
    fun _ _ => renderFrom_append_eq_ok_iff hspace houtside hleft second
  have hwhole : ∀ more after, t.renderFrom left second = .ok (more, after) →
      { t with sql := first ++ second }.run =
        .ok ⟨native.sql ++ more, after.binds, after.types⟩ := fun more after hmore =>
    run_eq_ok_iff.2 ⟨after, (happend _ after).2 ⟨more, hmore, rfl⟩, rfl, rfl⟩
  refine ⟨⟨?_, ?_⟩, hwhole, segments_collect _ 0 left left.numbers _⟩
  · rintro ⟨whole, h⟩
    obtain ⟨after, hafter, -, -⟩ := run_eq_ok_iff.1 h
    obtain ⟨more, hmore, -⟩ := (happend _ after).1 hafter
    exact ⟨(more, after), hmore⟩
  · rintro ⟨⟨more, after⟩, hmore⟩
    exact ⟨_, hwhole more after hmore⟩

/-- A condition goes on with the number after those of the text before it. -/
theorem clause_rendered_apart_numbered :
    let t : Rendering := ⟨.postgres, OrderedMap.empty,
      OrderedMap.ofList [(.name "a", .int 1), (.name "b", .int 2)], OrderedMap.empty, ""⟩
    ∃ whole, { t with sql := "[x] = :a: " ++ "OR :b:" }.run = .ok whole ∧
      whole.sql = "\"x\" = $1 OR $2" := by
  intro t
  have hlast : (scan t.dialect "[x] = :a: ".toList).getLast? = some (.plain ' ') := by
    decide +kernel
  have houtside : EndsOutside t.dialect "[x] = :a: ".toList := by
    intro s hs
    rw [hlast] at hs
    obtain rfl := Option.some.inj hs
    exact fun h => absurd h (by decide)
  have hnumbers : t.renderFrom {} "[x] = :a: " = .ok ("\"x\" = $1 ",
      ⟨OrderedMap.ofList [(.index 0, .int 1)], OrderedMap.empty, ["a"], 0⟩) := by decide +kernel
  have hsecond : t.renderFrom
      ⟨OrderedMap.ofList [(.index 0, .int 1)], OrderedMap.empty, ["a"], 0⟩ "OR :b:" =
      .ok ("OR $2", ⟨OrderedMap.ofList [(.index 0, .int 1), (.index 1, .int 2)],
        OrderedMap.empty, ["a", "b"], 0⟩) := by decide +kernel
  have hfirst : { t with sql := "[x] = :a: " }.run = .ok ⟨"\"x\" = $1 ",
      OrderedMap.ofList [(.index 0, .int 1)], OrderedMap.empty⟩ :=
    run_eq_ok_iff.2 ⟨_, hnumbers, rfl, rfl⟩
  obtain ⟨left, hleft, -, -, h⟩ := t.clause_rendered_apart (by decide) houtside hfirst
  obtain ⟨-, rfl⟩ := Prod.mk.inj (Except.ok.inj (hleft.symm.trans hnumbers))
  exact ⟨_, (h "OR :b:").2.1 _ _ hsecond, by decide⟩

end Rendering

end BoundSql

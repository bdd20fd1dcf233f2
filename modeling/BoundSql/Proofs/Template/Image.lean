import BoundSql.Proofs.Template.Numbering
import BoundSql.Proofs.Template.Segmentation

/-! # Templates are rewritten segment by segment
What a segment becomes depends on the segments before it only through the parameters they refer to.
* **`Template.references`** — the parameters a text refers to, in order.
* **`Rendering.image`**, **`Rendering.fault?`** — the native text of a segment, and why it has none.
* **`Rendering.run_rewrites_segments`** — a template has native text unless a segment is at fault,
  and then it is the images of its segments put together. -/

namespace BoundSql

namespace Template

/-- The key of the parameter a segment refers to, where `asked` question marks stand before it. A
question mark refers to a parameter only where all parameters are positional. -/
def Segment.reference? (positional : Bool) (asked : Nat) : Segment → Option BindKey
  | placeholder name => some (.name (String.ofList name))
  | question => if positional then some (.index asked) else none
  | _ => none

/-- The number of question marks among segments. -/
def questions (segs : List Segment) : Nat := segs.count .question

/-- The keys of the parameters segments refer to, in order, where `asked` question marks stand
before them. -/
def referencesFrom (positional : Bool) (asked : Nat) : List Segment → List BindKey
  | [] => []
  | s :: rest =>
    (s.reference? positional asked).toList ++ referencesFrom positional (asked + questions [s]) rest

/-- The keys of the parameters the segments of a text refer to, in order. -/
def references (positional : Bool) (segs : List Segment) : List BindKey :=
  referencesFrom positional 0 segs

theorem questions_append (l r : List Segment) : questions (l ++ r) = questions l + questions r :=
  List.count_append

theorem referencesFrom_append (positional : Bool) (asked : Nat) (l r : List Segment) :
    referencesFrom positional asked (l ++ r) =
      referencesFrom positional asked l ++ referencesFrom positional (asked + questions l) r := by
  induction l generalizing asked with
  | nil => rfl
  | cons s l ih =>
    have hq : questions (s :: l) = questions [s] + questions l := questions_append [s] l
    rw [List.cons_append, referencesFrom, referencesFrom, ih, hq, List.append_assoc, Nat.add_assoc]

/-- One more segment adds the parameter it refers to. -/
theorem references_concat (positional : Bool) (before : List Segment) (s : Segment) :
    references positional (before ++ [s]) =
      references positional before ++ (s.reference? positional (questions before)).toList := by
  rw [references, referencesFrom_append, Nat.zero_add]
  simp only [referencesFrom, List.append_nil, references]

/-- Among positional references there is one for each question mark. -/
theorem countP_isIndex_references (asked : Nat) (segs : List Segment) :
    (referencesFrom true asked segs).countP BindKey.isIndex = questions segs := by
  induction segs generalizing asked with
  | nil => rfl
  | cons s rest ih =>
    have hq : questions (s :: rest) = questions [s] + questions rest := questions_append [s] rest
    rw [referencesFrom, List.countP_append, ih, hq]
    congr 1
    cases s <;> rfl

end Template

namespace Rendering

open Template

/-- The native text of a segment, where `before` are the segments before it: a bracket stands for
the table of the source its trimmed name is resolved to, or else for the escaped name; a segment
that refers to a parameter for the token of the parameter; any other for itself. -/
def image (t : Rendering) (before : List Segment) (s : Segment) : String :=
  match s.reference? t.binds.isPositional (questions before), s with
  | some key, _ => t.dialect.token (references t.binds.isPositional (before ++ [s])) key
  | none, .bracket inner =>
    let name := String.ofList (Text.trim inner)
    match t.resolved.get? name with
    | some source => source.tableReference t.dialect
    | none => t.dialect.escapeIdentifier name
  | none, s => String.ofList s.source

/-- The native texts of segments, where `before` are the segments before them. -/
def images (t : Rendering) (before : List Segment) : List Segment → List String
  | [] => []
  | s :: rest => t.image before s :: t.images (before ++ [s]) rest

/-- The byte offset of what follows segments. -/
def offset (before : List Segment) : Nat :=
  (String.ofList (before.flatMap Segment.source)).utf8ByteSize

/-- Why a segment has no native text, where `before` are the segments before it: a bracket that is
blank or not closed, a placeholder where parameters are positional or that is not bound, a
positional parameter that is not bound. -/
def fault? (t : Rendering) (before : List Segment) : Segment → Option CompositionError
  | .bracket inner =>
    if Text.trim inner = [] then some (.emptyIdentifier (offset before) t.sql) else none
  | .unclosed _ => some (.unclosedBracket (offset before) t.sql)
  | .placeholder name =>
    if t.binds.isPositional then some (.mixedPlaceholder (String.ofList name))
    else if .name (String.ofList name) ∈ t.binds.keys then none
    else some (.unboundName (String.ofList name))
  | .question =>
    if t.binds.isPositional ∧ .index (questions before) ∉ t.binds.keys then
      some (.unboundPosition (questions before + 1))
    else none
  | _ => none

/-- Whether segments, which follow the segments `before`, all have native text. -/
def FaultFree (t : Rendering) (before : List Segment) : List Segment → Prop
  | [] => True
  | s :: rest => t.fault? before s = none ∧ t.FaultFree (before ++ [s]) rest

/-- The references the segments `before` make. -/
def referencesOf (t : Rendering) (before : List Segment) : List BindKey :=
  references t.binds.isPositional before

variable {t : Rendering} {before : List Segment} {n : Numbering}

/-- One more segment adds the parameter it refers to. -/
theorem referencesOf_concat (t : Rendering) (before : List Segment) (s : Segment) :
    t.referencesOf (before ++ [s]) =
      t.referencesOf before ++ (s.reference? t.binds.isPositional (questions before)).toList :=
  references_concat t.binds.isPositional before s

/-- A segment that refers to a parameter becomes its token. -/
theorem image_of_reference {s : Segment} {key : BindKey}
    (h : s.reference? t.binds.isPositional (questions before) = some key) :
    t.image before s = t.dialect.token (t.referencesOf (before ++ [s])) key := by
  unfold image
  rw [h]
  rfl

/-- The token of a segment that refers to a parameter does not depend on the segments after it. -/
theorem image_eq_token {s : Segment} {key : BindKey}
    (h : s.reference? t.binds.isPositional (questions before) = some key) (after : List Segment) :
    t.image before s = t.dialect.token (t.referencesOf (before ++ s :: after)) key := by
  -- The reference was counted when its token was handed out, so later ones do not change it.
  have hmem : key ∈ t.referencesOf (before ++ [s]) := by
    rw [referencesOf_concat, h]
    simp
  have hlater : t.referencesOf (before ++ s :: after) = t.referencesOf (before ++ [s]) ++
      referencesFrom t.binds.isPositional (questions (before ++ [s])) after := by
    rw [List.append_cons, referencesOf, references, referencesFrom_append, Nat.zero_add]
    rfl
  rw [image_of_reference h, hlater, Dialect.token_append hmem]

/-- The images of segments one after another. -/
theorem images_append (t : Rendering) (before l r : List Segment) :
    t.images before (l ++ r) = t.images before l ++ t.images (before ++ l) r := by
  induction l generalizing before with
  | nil => rw [List.nil_append, List.append_nil, images, List.nil_append]
  | cons a l ih =>
    rw [List.cons_append, images, ih, images, List.cons_append, List.append_assoc before,
      List.singleton_append]

/-- The images of a text, cut at a segment. -/
theorem images_append_cons (t : Rendering) (before l : List Segment) (s : Segment)
    (r : List Segment) : t.images before (l ++ s :: r) =
      t.images before l ++ t.image (before ++ l) s :: t.images (before ++ l ++ [s]) r := by
  rw [images_append, images]

theorem offset_concat (before : List Segment) (s : Segment) :
    offset (before ++ [s]) = offset before + (String.ofList s.source).utf8ByteSize := by
  simp [offset, String.ofList_append]

/-- Where parameters are positional, the next position counts the question marks. -/
theorem positions_eq_questions (h : n.Tracks t (t.referencesOf before))
    (hp : t.binds.isPositional = true) : n.positions = questions before := by
  have hcount := countP_isIndex_references 0 before
  have hr := h.positions hp
  rw [referencesOf, hp, references] at hr
  rw [hr, List.countP_map] at hcount
  simpa [Function.comp_def, BindKey.isIndex] using hcount

/-! ### One segment -/

/-- A segment at fault is reported. -/
theorem segment_of_fault (h : n.Tracks t (t.referencesOf before)) {s : Segment}
    {e : CompositionError} (hf : t.fault? before s = some e) :
    t.segment (offset before) n s = .error e := by
  -- Only four kinds of segments can be at fault, and each reports its own reason.
  cases s with
  | literal text => cases hf
  | quoted text => cases hf
  | bracket inner =>
    rw [fault?] at hf
    split at hf
    · rename_i hb
      rw [segment, hb, Option.some.inj hf]
    · cases hf
  | unclosed rest => exact congrArg Except.error (Option.some.inj hf)
  | placeholder name =>
    rw [fault?] at hf
    split at hf
    · rename_i hp
      rw [segment, if_pos hp, Option.some.inj hf]
    · rename_i hp
      split at hf
      · cases hf
      · rename_i hk
        rw [segment, if_neg hp, named, (OrderedMap.get?_eq_none_iff _ _).2 hk, Option.some.inj hf]
  | question =>
    rw [fault?] at hf
    split at hf
    · rename_i hq
      have hpos := positions_eq_questions h hq.1
      rw [segment, if_pos hq.1, positional, hpos, (OrderedMap.get?_eq_none_iff _ _).2 hq.2,
        Option.some.inj hf]
    · cases hf
  | plain c => cases hf

/-- A name that has a value yields its token, and the numbering tracks it. -/
theorem segment_of_name (h : n.Tracks t (t.referencesOf before))
    (hp : t.binds.isPositional = false) {name : List Char}
    (hk : BindKey.name (String.ofList name) ∈ t.binds.keys) :
    ∃ n', t.segment (offset before) n (.placeholder name) =
        .ok (t.image before (.placeholder name), n') ∧
      n'.Tracks t (t.referencesOf (before ++ [.placeholder name])) := by
  obtain ⟨v, hv⟩ := (OrderedMap.mem_keys_iff t.binds _).1 hk
  have hrefs : t.referencesOf (before ++ [.placeholder name]) =
      t.referencesOf before ++ [.name (String.ofList name)] := referencesOf_concat _ _ _
  obtain ⟨n', hn, htracks⟩ := named_eq_ok h hp hv
  rw [← hrefs] at hn htracks
  refine ⟨n', ?_, htracks⟩
  rw [segment, if_neg (by simp [hp]), hn, image_of_reference rfl]

/-- A question mark that has a value yields its token, and the numbering tracks its position. -/
theorem segment_of_position (h : n.Tracks t (t.referencesOf before))
    (hp : t.binds.isPositional = true) (hk : BindKey.index (questions before) ∈ t.binds.keys) :
    ∃ n', t.segment (offset before) n .question = .ok (t.image before .question, n') ∧
      n'.Tracks t (t.referencesOf (before ++ [.question])) := by
  have hpos := positions_eq_questions h hp
  rw [← hpos] at hk
  obtain ⟨v, hv⟩ := (OrderedMap.mem_keys_iff t.binds _).1 hk
  have href : Segment.question.reference? t.binds.isPositional (questions before) =
      some (.index n.positions) := by rw [hp, hpos]; rfl
  have hrefs : t.referencesOf (before ++ [.question]) =
      t.referencesOf before ++ [.index n.positions] := by
    rw [referencesOf_concat, href]
    rfl
  obtain ⟨n', hn, htracks⟩ := positional_eq_ok h hp hv
  rw [← hrefs] at hn htracks
  refine ⟨n', ?_, htracks⟩
  rw [segment, if_pos hp, hn, image_of_reference href]

/-- A segment that is not at fault yields its image, and the numbering tracks what it refers to. -/
theorem segment_of_fault?_eq_none (h : n.Tracks t (t.referencesOf before)) {s : Segment}
    (hf : t.fault? before s = none) :
    ∃ n', t.segment (offset before) n s = .ok (t.image before s, n') ∧
      n'.Tracks t (t.referencesOf (before ++ [s])) := by
  -- A segment that refers to no parameter leaves the numbering as it is.
  have hsame : s.reference? t.binds.isPositional (questions before) = none →
      n.Tracks t (t.referencesOf (before ++ [s])) := fun hn => by
    rw [referencesOf_concat, hn]
    simpa using h
  cases s with
  | literal text => exact ⟨n, rfl, hsame rfl⟩
  | quoted text => exact ⟨n, rfl, hsame rfl⟩
  | bracket inner =>
    refine ⟨n, ?_, hsame rfl⟩
    rw [fault?] at hf
    rw [segment]
    split
    · rename_i hb
      rw [if_pos hb] at hf
      cases hf
    · rfl
  | unclosed rest => cases hf
  | placeholder name =>
    rw [fault?] at hf
    split at hf
    · cases hf
    · rename_i hp
      split at hf
      · rename_i hk
        exact segment_of_name h (Bool.eq_false_iff.2 hp) hk
      · cases hf
  | question =>
    -- A question mark is a token only where all parameters are positional.
    cases hp : t.binds.isPositional with
    | false =>
      refine ⟨n, ?_, hsame (by rw [hp]; rfl)⟩
      unfold image
      rw [segment, if_neg (by simp [hp]), hp]
      rfl
    | true =>
      refine segment_of_position h hp (not_not.1 fun hk => ?_)
      rw [fault?, if_pos ⟨hp, hk⟩] at hf
      cases hf
  | plain c => exact ⟨n, by rw [segment, String.singleton_eq_ofList]; rfl, hsame rfl⟩

/-! ### A whole text -/

/-- Segments without fault yield their images, and the numbering tracks what they refer to. -/
theorem segments_of_faultFree (h : n.Tracks t (t.referencesOf before)) {after : List Segment}
    (hf : t.FaultFree before after) :
    ∃ n', t.segments (offset before) n after = .ok (String.join (t.images before after), n') ∧
      n'.Tracks t (t.referencesOf (before ++ after)) := by
  -- The induction moves segments from those after to those before.
  induction after generalizing before n with
  | nil => exact ⟨n, rfl, by rwa [List.append_nil]⟩
  | cons s rest ih =>
    obtain ⟨n₁, hs, h₁⟩ := segment_of_fault?_eq_none h hf.1
    obtain ⟨n₂, hr, h₂⟩ := ih h₁ hf.2
    rw [offset_concat] at hr
    refine ⟨n₂, ?_, by rwa [List.append_cons]⟩
    rw [segments, hs, images, String.join_cons]
    simp only [hr]

/-- The first segment at fault is reported. -/
theorem segments_of_fault (h : n.Tracks t (t.referencesOf before)) {l r : List Segment}
    {s : Segment} {e : CompositionError} (hl : t.FaultFree before l)
    (hf : t.fault? (before ++ l) s = some e) :
    t.segments (offset before) n (l ++ s :: r) = .error e := by
  induction l generalizing before n with
  | nil =>
    rw [List.append_nil] at hf
    rw [List.nil_append, segments, segment_of_fault h hf]
  | cons a l ih =>
    obtain ⟨n₁, hs, h₁⟩ := segment_of_fault?_eq_none h hl.1
    rw [List.append_cons] at hf
    have hr := ih h₁ hl.2 hf
    rw [offset_concat] at hr
    rw [List.cons_append, segments, hs]
    simp only [hr]

/-- Either no segment is at fault or one is the first. -/
theorem faultFree_or_exists_fault (t : Rendering) (before after : List Segment) :
    t.FaultFree before after ∨ ∃ l s r e, after = l ++ s :: r ∧ t.FaultFree before l ∧
      t.fault? (before ++ l) s = some e := by
  induction after generalizing before with
  | nil => exact .inl trivial
  | cons s rest ih =>
    -- Either the first segment is at fault, or the first fault lies further on.
    cases hs : t.fault? before s with
    | some e => exact .inr ⟨[], s, rest, e, rfl, trivial, by rwa [List.append_nil]⟩
    | none =>
      rcases ih (before ++ [s]) with hf | ⟨l, s', r, e, rfl, hl, he⟩
      · exact .inl ⟨hs, hf⟩
      · exact .inr ⟨s :: l, s', r, e, rfl, ⟨hs, hl⟩, by rwa [List.append_cons]⟩

/-- The segments of the text. -/
def source (t : Rendering) : List Segment := scan t.dialect t.sql.toList

/-- A text without fault has native text, and its parameters are bound as its references say. -/
theorem run_of_faultFree (hf : t.FaultFree [] t.source) :
    ∃ n : Numbering, n.Tracks t (t.referencesOf t.source) ∧
      t.run = .ok ⟨String.join (t.images [] t.source), n.binds, n.types⟩ := by
  obtain ⟨n, hn, htracks⟩ := segments_of_faultFree (Numbering.tracks_empty t) hf
  have hn : t.segments 0 {} (scan t.dialect t.sql.toList) =
      .ok (String.join (t.images [] t.source), n) := hn
  exact ⟨n, htracks, by rw [run, hn]⟩

/-- A text with a fault has none. -/
theorem run_of_fault {l r : List Segment} {s : Segment} {e : CompositionError}
    (hs : t.source = l ++ s :: r) (hl : t.FaultFree [] l) (hf : t.fault? l s = some e) :
    t.run = .error (.composition e) := by
  have h := segments_of_fault (r := r) (Numbering.tracks_empty t) hl hf
  rw [← hs] at h
  have h : t.segments 0 {} (scan t.dialect t.sql.toList) = .error e := h
  rw [run, h]

/-- A text that has native text is without fault. -/
theorem faultFree_of_run_eq_ok {native : Native} (h : t.run = .ok native) :
    t.FaultFree [] t.source := by
  rcases faultFree_or_exists_fault t [] t.source with hf | ⟨l, s, r, e, hs, hl, he⟩
  · exact hf
  · cases (run_of_fault hs hl he).symm.trans h

/-- A native form is the images of the segments put together, with the parameters they refer to. -/
theorem exists_tracks_of_run_eq_ok {native : Native} (h : t.run = .ok native) :
    ∃ n : Numbering, n.Tracks t (t.referencesOf t.source) ∧
      native = ⟨String.join (t.images [] t.source), n.binds, n.types⟩ := by
  obtain ⟨n, htracks, hn⟩ := run_of_faultFree (faultFree_of_run_eq_ok h)
  exact ⟨n, htracks, Except.ok.inj (h.symm.trans hn)⟩

theorem sql_eq_join_images {native : Native} (h : t.run = .ok native) :
    native.sql = String.join (t.images [] t.source) := by
  obtain ⟨n, -, rfl⟩ := exists_tracks_of_run_eq_ok h
  rfl

/-- Rewriting a template is segment-wise. The text has exactly one reading; the native text, if
there is any, is the images of the segments put together; there is none exactly if a segment is at
fault, and then the first such segment is reported. -/
theorem run_rewrites_segments (t : Rendering) :
    ∃ segs : List Segment,
      (∀ segs', Segmented t.dialect none t.sql.toList segs' ↔ segs' = segs) ∧
      (∀ native, t.run = .ok native → native.sql = String.join (t.images [] segs)) ∧
      ((∃ native, t.run = .ok native) ↔ t.FaultFree [] segs) ∧
      (∀ e, t.run = .error e ↔ ∃ before s after cause, segs = before ++ s :: after ∧
        t.FaultFree [] before ∧ t.fault? before s = some cause ∧ e = .composition cause) := by
  refine ⟨t.source, fun _ => segmented_iff, fun native h => sql_eq_join_images h, ⟨?_, ?_⟩,
    fun e => ⟨?_, ?_⟩⟩
  · rintro ⟨native, h⟩
    exact faultFree_of_run_eq_ok h
  · intro hf
    obtain ⟨n, _, hn⟩ := run_of_faultFree hf
    exact ⟨_, hn⟩
  · intro h
    rcases faultFree_or_exists_fault t [] t.source with hf | ⟨l, s, r, cause, hs, hl, he⟩
    · obtain ⟨n, _, hn⟩ := run_of_faultFree hf
      cases hn.symm.trans h
    · exact ⟨l, s, r, cause, hs, hl, he, Except.error.inj (h.symm.trans (run_of_fault hs hl he))⟩
  · rintro ⟨l, s, r, cause, hs, hl, he, rfl⟩
    exact run_of_fault hs hl he

end Rendering

end BoundSql

import BoundSql.Proofs.Template.Parameters
import BoundSql.Proofs.Text.Blank

/-! # Templates put together from pieces
Statement text is composed of keywords, bracketed names and placeholders, and is read piece by
piece again.
* **`Template.scanFrom_verbatim`**, **`scanFrom_bracketed`**, **`scanFrom_named`** — the pieces,
  each in front of any text.
* **`Template.nativeText`**, **`Rendering.sql_of_run_eq_ok`** — with named parameters, the native
  text of a template segment by segment.
* **`Rendering.exists_run_eq_ok_iff`** — and when there is any (`Segment.IsSound`). -/

namespace BoundSql

namespace Template

variable {d : Dialect} {b : Bool}

/-- Whether a character stands for itself wherever a segment may start. -/
def isInert (d : Dialect) (c : Char) : Bool :=
  !d.opensLiteral c && c != d.quoteChar && c != '[' && c != ':' && c != '?'

/-- Word characters mark nothing. -/
theorem isInert_of_isWordChar {c : Char} (h : Text.isWordChar c = true) : isInert d c = true := by
  have hquote : c ≠ '\'' := Text.ne_of_isWordChar h (by decide)
  have hdouble : c ≠ '"' := Text.ne_of_isWordChar h (by decide)
  have hdelimiter : c ≠ d.quoteChar := Text.ne_of_isWordChar h (by cases d <;> decide)
  have hmarks : c ≠ '[' ∧ c ≠ ':' ∧ c ≠ '?' :=
    ⟨Text.ne_of_isWordChar h (by decide), Text.ne_of_isWordChar h (by decide),
      Text.ne_of_isWordChar h (by decide)⟩
  simp [isInert, Dialect.opensLiteral, hquote, hdouble, hdelimiter, hmarks]

/-- A character that stands for itself, in front of any text. -/
theorem scanFrom_inert {c : Char} (h : isInert d c = true) (rest : List Char) :
    scanFrom d b (c :: rest) = .plain c :: scanFrom d false rest := by
  simp only [isInert, Bool.and_eq_true, Bool.not_eq_true', bne_iff_ne] at h
  obtain ⟨⟨⟨⟨hl, hq⟩, hb⟩, hm⟩, hp⟩ := h
  exact scanFrom_plain hl hq hb hm hp

/-- Whether text is not empty and made of characters that stand for themselves. -/
def isInertText (d : Dialect) (text : String) : Bool :=
  !text.toList.isEmpty && text.toList.all (isInert d)

/-- The segments of text that stands for itself. -/
def verbatim (text : String) : List Segment := text.toList.map .plain

/-- Text that stands for itself, in front of any text. -/
theorem scanFrom_verbatim {text : String} (h : isInertText d text = true) (rest : List Char) :
    scanFrom d b (text.toList ++ rest) = verbatim text ++ scanFrom d false rest := by
  -- The first character may follow another segment, the others follow characters.
  rw [isInertText] at h
  rw [verbatim]
  generalize text.toList = cs at h
  induction cs generalizing b with
  | nil => cases h
  | cons c cs ih =>
    obtain ⟨hc, hall⟩ : isInert d c = true ∧ cs.all (isInert d) = true :=
      Bool.and_eq_true_iff.1 h
    rw [List.cons_append, scanFrom_inert hc, List.map_cons, List.cons_append]
    by_cases hcs : cs = []
    · rw [hcs, List.nil_append, List.map_nil, List.nil_append]
    · rw [ih (by simp [hcs, hall])]

/-- A bracketed name, in front of any text. -/
theorem scanFrom_bracketed {name : List Char} (h : ']' ∉ name) (rest : List Char) :
    scanFrom d b ('[' :: (name ++ ']' :: rest)) = .bracket name :: scanFrom d false rest := by
  obtain ⟨hafter, htake⟩ := afterBracket?_append_cons h rest
  rw [scanFrom_bracket hafter, htake]

/-- A placeholder of a word, in front of text that does not make it half of a cast. -/
theorem scanFrom_named {name : List Char} (h : Text.isWord name = true) {rest : List Char}
    (hr : rest.head? ≠ some ':') :
    scanFrom d false (':' :: (name ++ ':' :: rest)) = .placeholder name :: scanFrom d true rest :=
  scanFrom_placeholder (placeholder?_eq_some_iff.2 ⟨rfl, h, hr⟩)

/-- The native text of a segment, where brackets stand for identifiers, parameters are named and
`refs` are the references of the whole text. -/
def Segment.nativeText (d : Dialect) (identifier : String → String) (refs : List BindKey) :
    Segment → String
  | bracket inner => identifier (String.ofList (Text.trim inner))
  | placeholder name => d.token refs (.name (String.ofList name))
  | s => String.ofList s.source

/-- The native text of segments, where brackets stand for identifiers, parameters are named and
`refs` are the references of the whole text. -/
def nativeText (d : Dialect) (identifier : String → String) (refs : List BindKey)
    (segs : List Segment) : String :=
  String.join (segs.map (Segment.nativeText d identifier refs))

section

variable {identifier : String → String} {refs : List BindKey}

@[simp] theorem Segment.nativeText_bracket (inner : List Char) :
    (bracket inner).nativeText d identifier refs =
      identifier (String.ofList (Text.trim inner)) := rfl

@[simp] theorem Segment.nativeText_placeholder (name : List Char) :
    (placeholder name).nativeText d identifier refs =
      d.token refs (.name (String.ofList name)) := rfl

@[simp] theorem Segment.nativeText_plain (c : Char) :
    (plain c).nativeText d identifier refs = String.ofList [c] := rfl

theorem nativeText_cons (s : Segment) (rest : List Segment) :
    nativeText d identifier refs (s :: rest) =
      s.nativeText d identifier refs ++ nativeText d identifier refs rest := by
  rw [nativeText, List.map_cons, String.join_cons, nativeText]

theorem nativeText_append (l r : List Segment) :
    nativeText d identifier refs (l ++ r) =
      nativeText d identifier refs l ++ nativeText d identifier refs r := by
  rw [nativeText, List.map_append, String.join_append, nativeText, nativeText]

/-- Text that stands for itself is its own native text. -/
theorem nativeText_verbatim (text : String) :
    nativeText d identifier refs (verbatim text) = text := by
  have hchars : ∀ cs : List Char,
      nativeText d identifier refs (cs.map .plain) = String.ofList cs := by
    intro cs
    induction cs with
    | nil => rfl
    | cons c cs ih =>
      rw [List.map_cons, nativeText_cons, ih, Segment.nativeText_plain, ← String.ofList_append,
        List.singleton_append]
  rw [verbatim, hchars, String.ofList_toList]

end

/-- Text that stands for itself names no parameter. -/
theorem placeholderNames_verbatim (text : String) : placeholderNames (verbatim text) = [] := by
  rw [verbatim]
  generalize text.toList = cs
  induction cs with
  | nil => rfl
  | cons c cs ih => exact ih

theorem placeholderNames_append (l r : List Segment) :
    placeholderNames (l ++ r) = placeholderNames l ++ placeholderNames r := List.filterMap_append

/-- Whether a segment has native text where parameters are named and `binds` are their values: a
bracket is closed and not blank, and a placeholder is bound. -/
def Segment.IsSound (binds : BindMap) : Segment → Prop
  | bracket inner => Text.trim inner ≠ []
  | unclosed _ => False
  | placeholder name => .name (String.ofList name) ∈ binds.keys
  | _ => True

theorem isSound_of_mem_verbatim {binds : BindMap} {text : String} {s : Segment}
    (h : s ∈ verbatim text) : s.IsSound binds := by
  obtain ⟨c, -, rfl⟩ := List.mem_map.1 h
  trivial

/-- A word in brackets has native text. -/
theorem isSound_bracket {binds : BindMap} {inner : List Char} (h : Text.isWord inner = true) :
    (Segment.bracket inner).IsSound binds := Text.trim_ne_nil_of_isWord h

end Template

namespace Rendering

open Template

variable {t : Rendering}

/-- The images of text that stands for itself are the text. -/
theorem join_images_verbatim (t : Rendering) (before : List Segment) (text : String) :
    String.join (t.images before (verbatim text)) = text := by
  have hchars : ∀ (cs : List Char) (before : List Segment),
      String.join (t.images before (cs.map .plain)) = String.ofList cs := by
    intro cs
    induction cs with
    | nil => exact fun _ => rfl
    | cons c cs ih =>
      intro before
      have himage : t.image before (.plain c) = String.ofList [c] := rfl
      rw [List.map_cons, images, String.join_cons, ih, himage, ← String.ofList_append,
        List.singleton_append]
  rw [verbatim, hchars, String.ofList_toList]

/-- With named parameters, the image of a segment depends on the rest of the text through its
references only. -/
theorem image_eq_nativeText (hn : t.binds.isPositional = false) (before : List Segment)
    (s : Segment) (after : List Segment) :
    t.image before s =
      s.nativeText t.dialect t.identifier (t.referencesOf (before ++ s :: after)) := by
  cases s with
  | placeholder name => exact image_eq_token rfl after
  | question =>
    unfold image
    rw [hn]
    rfl
  | bracket inner => rfl
  | literal text | quoted text | unclosed rest | plain c => rfl

/-- With named parameters, the native text of a template. -/
theorem sql_of_run_eq_ok (hn : t.binds.isPositional = false) {native : Native}
    (h : t.run = .ok native) :
    native.sql = nativeText t.dialect t.identifier (t.referencesOf t.source) t.source := by
  have himages : ∀ before after : List Segment, t.images before after =
      after.map (Segment.nativeText t.dialect t.identifier (t.referencesOf (before ++ after))) := by
    intro before after
    induction after generalizing before with
    | nil => rfl
    | cons s rest ih =>
      rw [images, ih, List.map_cons, image_eq_nativeText hn before s rest, List.append_assoc,
        List.singleton_append]
  exact (sql_eq_join_images h).trans (congrArg String.join (himages [] t.source))

/-- With named parameters, a template has native text exactly if each of its segments has. -/
theorem exists_run_eq_ok_iff (hn : t.binds.isPositional = false) :
    (∃ native, t.run = .ok native) ↔ ∀ s ∈ t.source, s.IsSound t.binds := by
  have hfault : ∀ (before : List Segment) (s : Segment),
      t.fault? before s = none ↔ s.IsSound t.binds := by
    intro before s
    cases s <;> simp [fault?, Segment.IsSound, hn]
  have hfree : ∀ before after : List Segment,
      t.FaultFree before after ↔ ∀ s ∈ after, s.IsSound t.binds := by
    intro before after
    induction after generalizing before with
    | nil => simp [FaultFree]
    | cons s rest ih => rw [FaultFree, hfault, ih, List.forall_mem_cons]
  rw [← hfree []]
  constructor
  · rintro ⟨native, h⟩
    exact faultFree_of_run_eq_ok h
  · intro h
    obtain ⟨n, -, hrun⟩ := run_of_faultFree h
    exact ⟨_, hrun⟩

/-- A segment that is not at fault is sound, whether parameters are named or not. -/
theorem isSound_of_fault?_eq_none {before : List Segment} {s : Segment}
    (h : t.fault? before s = none) : s.IsSound t.binds := by
  cases s with
  | placeholder name =>
    rw [fault?] at h
    split at h
    · cases h
    · split at h
      · assumption
      · cases h
  | bracket inner =>
    rw [fault?] at h
    split at h
    · cases h
    · assumption
  | unclosed rest => cases h
  | literal text | quoted text | question | plain c => trivial

/-- The segments of a text that has a native form are sound. -/
theorem isSound_of_run_eq_ok {native : Native} (h : t.run = .ok native) :
    ∀ s ∈ t.source, s.IsSound t.binds := by
  have hall : ∀ before after : List Segment, t.FaultFree before after →
      ∀ s ∈ after, s.IsSound t.binds := by
    intro before after
    induction after generalizing before with
    | nil => exact fun _ s hs => by cases hs
    | cons s rest ih =>
      rintro ⟨hs, hrest⟩
      exact List.forall_mem_cons.2 ⟨isSound_of_fault?_eq_none hs, ih _ hrest⟩
  exact hall [] t.source (faultFree_of_run_eq_ok h)

end Rendering

end BoundSql

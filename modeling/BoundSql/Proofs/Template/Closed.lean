import BoundSql.Proofs.Template.Composed

/-! # Template text in front of other text
What a text reads as does not depend on the text after it, if it closes all it opens and the text
after it is set apart.
* **`Template.Closed`** — a text closes its literals, its quoted identifiers and its brackets.
* **`Template.startsApart`** — a text begins with a character that continues nothing.
* **`Template.scan_append`** — closed text in front of a text that starts apart reads as it does
  alone.
* **`Template.ReadsAs`** — pieces that text is put together from, each with its segments. -/

namespace BoundSql

namespace Template

variable {d : Dialect}

/-- Whether a segment is closed: a literal or a quoted identifier if other text can follow it, and a
bracket unless nothing closes it. -/
def Segment.IsClosed (d : Dialect) : Segment → Prop
  | literal text => ∃ q body rest, text = q :: body ∧ rest ≠ [] ∧
      Text.Closes d.backslashEscapes q body rest
  | quoted text => ∃ body rest, text = d.quoteChar :: body ∧ rest ≠ [] ∧
      Text.Closes false d.quoteChar body rest
  | unclosed _ => False
  | _ => True

/-- A literal is closed if cutting off a character after it leaves the literal. -/
theorem Segment.isClosed_literal {q : Char} {body : List Char}
    (h : d.splitLiteral q (body ++ [' ']) = (body, [' '])) :
    (literal (q :: body)).IsClosed d := by
  have hcloses := Text.closes_splitClosing d.backslashEscapes q (body ++ [' '])
  rw [Dialect.splitLiteral] at h
  rw [h] at hcloses
  exact ⟨q, body, [' '], rfl, by simp, hcloses⟩

/-- Text that stands for itself is closed. -/
theorem Segment.isClosed_of_mem_verbatim {text : String} {s : Segment} (h : s ∈ verbatim text) :
    s.IsClosed d := by
  obtain ⟨c, -, rfl⟩ := List.mem_map.1 h
  trivial

/-- Whether text closes everything it opens. -/
def Closed (d : Dialect) (cs : List Char) : Prop := ∀ s ∈ scan d cs, s.IsClosed d

/-- Whether a character continues nothing: no literal, no quoted identifier, no name and no cast. -/
def isBreak (d : Dialect) (c : Char) : Bool :=
  !d.opensLiteral c && c != d.quoteChar && c != ':' && !Text.isWordChar c

/-- Whether text is empty or begins with a character that continues nothing. -/
def startsApart (d : Dialect) (cs : List Char) : Bool := cs.head?.all (isBreak d)

/-- Text that starts apart begins with no delimiter, no colon and no word. -/
theorem startsApart_cons {c : Char} {cs : List Char} (h : startsApart d (c :: cs) = true) :
    d.opensLiteral c = false ∧ c ≠ d.quoteChar ∧ c ≠ ':' ∧ Text.isWordChar c = false := by
  simp only [startsApart, List.head?_cons, Option.all_some, isBreak, Bool.and_eq_true,
    Bool.not_eq_true', bne_iff_ne] at h
  exact ⟨h.1.1.1, h.1.1.2, h.1.2, h.2⟩

/-- What stands before text matters only if the text begins with a colon. -/
theorem scanFrom_eq_scan {b : Bool} {cs : List Char} (h : cs.head? ≠ some ':') :
    scanFrom d b cs = scan d cs := by
  cases cs with
  | nil => rw [scan, scanFrom, scanFrom]
  | cons c cs =>
    have hc : c ≠ ':' := by simpa using h
    -- All kinds of segments but those that begin with a colon ignore what stands before.
    rw [scan, scanFrom, scanFrom, if_neg hc, if_neg hc]

theorem scanFrom_eq_scan_of_startsApart {b : Bool} {cs : List Char}
    (h : startsApart d cs = true) : scanFrom d b cs = scan d cs := by
  refine scanFrom_eq_scan fun hc => ?_
  obtain ⟨rest, rfl⟩ := List.head?_eq_some_iff.1 hc
  exact (startsApart_cons h).2.2.1 rfl

/-- Text that starts apart does not begin with the delimiter of a literal or an identifier. -/
theorem head?_append_ne {q : Char} {cs rest : List Char} (hcs : cs ≠ [] → cs.head? ≠ some q)
    (hr : startsApart d rest = true) (hq : d.opensLiteral q = true ∨ q = d.quoteChar) :
    (cs ++ rest).head? ≠ some q := by
  cases cs with
  | cons c cs => exact hcs (by simp)
  | nil =>
    intro hhead
    obtain ⟨rest', rfl⟩ := List.head?_eq_some_iff.1 hhead
    obtain ⟨hl, hquote, -⟩ := startsApart_cons hr
    rcases hq with hq | hq
    · rw [hl] at hq
      cases hq
    · exact hquote hq

/-- Text that starts apart completes no placeholder that the text before it has begun. -/
theorem isPlaceholder_of_append {cs rest name after : List Char} (hr : startsApart d rest = true)
    (h : cs ++ rest = name ++ ':' :: after) (hp : IsPlaceholder name after) :
    ∃ after', cs = name ++ ':' :: after' ∧ IsPlaceholder name after' := by
  rcases List.append_eq_append_iff.1 h with ⟨middle, hname, hrest⟩ | ⟨middle, hcs, hafter⟩
  · -- The rest would begin inside the name or with the closing colon.
    cases middle with
    | nil =>
      obtain rfl : rest = ':' :: after := hrest
      exact absurd rfl (startsApart_cons hr).2.2.1
    | cons c middle =>
      obtain rfl : rest = c :: (middle ++ ':' :: after) := hrest
      have hc : Text.isWordChar c = true := Text.isWordChar_of_mem hp.1 (by simp [hname])
      rw [(startsApart_cons hr).2.2.2] at hc
      cases hc
  · cases middle with
    | nil =>
      obtain rfl : rest = ':' :: after := hafter.symm
      exact absurd rfl (startsApart_cons hr).2.2.1
    | cons c middle =>
      rw [List.cons_append] at hafter
      obtain ⟨rfl, hmiddle⟩ := List.cons.inj hafter
      refine ⟨middle, hcs, hp.1, fun hcolon => hp.2 ?_⟩
      rw [hmiddle, List.head?_append, hcolon, Option.some_or]

/-- A closed segment stays the first one where more text follows that starts apart. -/
theorem Segment.Starts.append {prev : Option Char} {s : Segment} {rest more : List Char}
    (h : s.Starts d prev rest) (hc : s.IsClosed d) (hm : startsApart d more = true) :
    s.Starts d prev (rest ++ more) := by
  cases s with
  | literal text =>
    obtain ⟨q, body, rfl, hq, hcloses⟩ := h
    obtain ⟨q', body', rest', heq, hne, hopen⟩ := hc
    obtain ⟨rfl, rfl⟩ := List.cons.inj heq
    exact ⟨q, body, rfl, hq, hopen.of_head?_ne hne (head?_append_ne hcloses.head?_ne hm (.inl hq))⟩
  | quoted text =>
    obtain ⟨body, rfl, hcloses⟩ := h
    obtain ⟨body', rest', heq, hne, hopen⟩ := hc
    obtain ⟨-, rfl⟩ := List.cons.inj heq
    exact ⟨body, rfl, hopen.of_head?_ne hne (head?_append_ne hcloses.head?_ne hm (.inr rfl))⟩
  | bracket inner => exact h
  | unclosed inner => exact hc.elim
  | placeholder name =>
    refine ⟨h.1, h.2.1, ?_⟩
    cases rest with
    | cons c rest => exact h.2.2
    | nil =>
      intro hcolon
      obtain ⟨more', rfl⟩ := List.head?_eq_some_iff.1 hcolon
      exact (startsApart_cons hm).2.2.1 rfl
  | question => trivial
  | plain c =>
    obtain ⟨hl, hq, hb, hquestion, hcolon⟩ := h
    refine ⟨hl, hq, hb, hquestion, fun he hprev => ?_⟩
    -- A placeholder would have begun here before.
    rintro ⟨name, after, happend, hp⟩
    obtain ⟨after', hrest, hp'⟩ := isPlaceholder_of_append hm happend hp
    exact hcolon he hprev ⟨name, after', hrest, hp'⟩

/-- A reading whose segments are closed goes on with the reading of text that starts apart. -/
theorem Segmented.scanFrom_append {prev : Option Char} {cs : List Char} {segs : List Segment}
    (h : Segmented d prev cs segs) (hc : ∀ s ∈ segs, s.IsClosed d) {rest : List Char}
    (hr : startsApart d rest = true) :
    scanFrom d (afterColon prev) (cs ++ rest) = segs ++ scan d rest := by
  induction h with
  | nil => exact scanFrom_eq_scan_of_startsApart hr
  | cons first others ih =>
    obtain ⟨hs, hsegs⟩ := List.forall_mem_cons.1 hc
    rw [List.append_assoc, (first.append hs hr).scanFrom_append, ih hsegs, List.cons_append]

/-- Closed text in front of text that starts apart reads as it does alone. -/
theorem scan_append {cs rest : List Char} (hc : Closed d cs) (hr : startsApart d rest = true) :
    scan d (cs ++ rest) = scan d cs ++ scan d rest :=
  (segmented_scanFrom d none cs).scanFrom_append hc hr

/-! ### Pieces of text -/

/-- Whether text has none of the marks of a dialect. -/
def IsUnmarked (d : Dialect) (text : String) : Prop := text.toList.all (isInert d) = true

instance (d : Dialect) (text : String) : Decidable (IsUnmarked d text) :=
  inferInstanceAs (Decidable (_ = true))

theorem IsUnmarked.append {l r : String} (hl : IsUnmarked d l) (hr : IsUnmarked d r) :
    IsUnmarked d (l ++ r) := by
  rw [IsUnmarked, String.toList_append, List.all_append, Bool.and_eq_true]
  exact ⟨hl, hr⟩

/-- Text without marks stands for itself, in front of any text. -/
theorem IsUnmarked.scan_append {text : String} (h : IsUnmarked d text) (rest : List Char) :
    scan d (text.toList ++ rest) = verbatim text ++ scan d rest := by
  rw [verbatim]
  rw [IsUnmarked] at h
  generalize text.toList = cs at h
  induction cs with
  | nil => rfl
  | cons c cs ih =>
    obtain ⟨hc, hcs⟩ : isInert d c = true ∧ cs.all (isInert d) = true := Bool.and_eq_true_iff.1 h
    rw [List.cons_append, scan, scanFrom_inert hc, List.map_cons, List.cons_append]
    exact congrArg _ (ih hcs)

/-- Text whose first part starts apart does so, and so does text whose first part is empty if the
second does. -/
theorem startsApart_append {l r : List Char} (hl : startsApart d l = true)
    (hr : l = [] → startsApart d r = true) : startsApart d (l ++ r) = true := by
  cases l with
  | nil => exact hr rfl
  | cons c l => exact hl

theorem startsApart_append_of_ne_empty {l : String} (hne : l ≠ "")
    (hl : startsApart d l.toList = true) (r : String) :
    startsApart d (l ++ r).toList = true := by
  rw [String.toList_append]
  exact startsApart_append hl fun he => absurd (String.toList_eq_nil_iff.1 he) hne

/-- Whether text reads as segments, whatever follows it and starts apart. -/
def ReadsAs (d : Dialect) (text : String) (segs : List Segment) : Prop :=
  ∀ rest, startsApart d rest = true → scan d (text.toList ++ rest) = segs ++ scan d rest

/-- Closed text reads as it does alone. -/
theorem readsAs_of_closed {text : String} (h : Closed d text.toList) :
    ReadsAs d text (scan d text.toList) := fun _ hr => scan_append h hr

theorem readsAs_unmarked {text : String} (h : IsUnmarked d text) :
    ReadsAs d text (verbatim text) := fun rest _ => h.scan_append rest

/-- A bracketed name, in front of any text. -/
theorem scan_bracketed_append {name : String} (h : ']' ∉ name.toList) (rest : List Char) :
    scan d (("[" ++ name ++ "]").toList ++ rest) = .bracket name.toList :: scan d rest := by
  have htext : ("[" ++ name ++ "]").toList ++ rest = '[' :: (name.toList ++ ']' :: rest) := by
    simp
  rw [htext]
  exact scanFrom_bracketed h rest

/-- Closed text in front of a bracketed name. -/
theorem scan_append_bracketed {cs : List Char} (hc : Closed d cs) {name : String}
    (h : ']' ∉ name.toList) (rest : List Char) :
    scan d (cs ++ (("[" ++ name ++ "]").toList ++ rest)) =
      scan d cs ++ .bracket name.toList :: scan d rest := by
  have hapart : startsApart d (("[" ++ name ++ "]").toList ++ rest) = true := by
    rw [String.append_assoc, String.toList_append]
    cases d <;> rfl
  rw [scan_append hc hapart, scan_bracketed_append h]

theorem readsAs_bracketed {name : String} (h : ']' ∉ name.toList) :
    ReadsAs d ("[" ++ name ++ "]") [.bracket name.toList] := fun rest _ =>
  scan_bracketed_append h rest

theorem readsAs_placeholder {name : String} (h : Text.isWord name.toList = true) :
    ReadsAs d (":" ++ name ++ ":") [.placeholder name.toList] := by
  intro rest hrest
  have htext : (":" ++ name ++ ":").toList ++ rest = ':' :: (name.toList ++ ':' :: rest) := by
    simp
  have hcolon : rest.head? ≠ some ':' := by
    intro hc
    obtain ⟨rest', rfl⟩ := List.head?_eq_some_iff.1 hc
    exact (startsApart_cons hrest).2.2.1 rfl
  rw [htext, scan, scanFrom_named h hcolon, scanFrom_eq_scan hcolon]
  rfl

section ReadsAs

variable {l r : String} {sl sr : List Segment}

theorem ReadsAs.scan_eq (h : ReadsAs d l sl) : scan d l.toList = sl := by
  have hscan := h [] rfl
  rwa [List.append_nil, scan, scan, scanFrom, List.append_nil] at hscan

/-- Text without marks closes all it opens, since it opens nothing. -/
theorem IsUnmarked.closed (h : IsUnmarked d l) : Closed d l.toList := by
  intro s hs
  rw [(readsAs_unmarked h).scan_eq] at hs
  exact Segment.isClosed_of_mem_verbatim hs

theorem ReadsAs.append (hl : ReadsAs d l sl) (hr : ReadsAs d r sr)
    (hapart : startsApart d r.toList = true) : ReadsAs d (l ++ r) (sl ++ sr) := by
  intro rest hrest
  rw [String.toList_append, List.append_assoc, hl _ (startsApart_append hapart fun _ => hrest),
    hr rest hrest, List.append_assoc]

/-- Text without marks can stand in front of any piece. -/
theorem ReadsAs.unmarked_append (hl : IsUnmarked d l) (hr : ReadsAs d r sr) :
    ReadsAs d (l ++ r) (verbatim l ++ sr) := by
  intro rest hrest
  rw [String.toList_append, List.append_assoc, hl.scan_append, hr rest hrest, List.append_assoc]

end ReadsAs

end Template

end BoundSql

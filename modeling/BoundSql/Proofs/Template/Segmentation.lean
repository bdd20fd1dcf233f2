import BoundSql.Proofs.Text.Delimited
import BoundSql.Template.Segment

/-! # The grammar of template text
**`Segment.Starts`** says of each kind of segment when text begins with it, and **`Segmented`** when
a list of segments is a reading of a text from left to right. Every text has exactly one reading,
the one `scan` finds (**`segmented_iff`**). -/

namespace BoundSql

namespace Template

/-- Whether a segment is a string literal or an identifier in quotes. -/
def Segment.isQuoted : Segment → Bool
  | literal _ | quoted _ => true
  | _ => false

/-- Whether a name between two colons is a placeholder, when `rest` follows the closing colon: the
name is a word, and no second colon makes the first one half of a cast. -/
def IsPlaceholder (name rest : List Char) : Prop :=
  Text.isWord name = true ∧ rest.head? ≠ some ':'

/-- Whether text that follows the character `prev` begins with a segment, when `rest` is what
follows the segment. -/
def Segment.Starts (d : Dialect) (prev : Option Char) (rest : List Char) : Segment → Prop
  | literal text =>
    ∃ q body, text = q :: body ∧ d.opensLiteral q = true ∧
      Text.Closes d.backslashEscapes q body rest
  | quoted text => ∃ body, text = d.quoteChar :: body ∧ Text.Closes false d.quoteChar body rest
  | bracket inner => ']' ∉ inner
  | unclosed inner => ']' ∉ inner ∧ rest = []
  | placeholder name => prev ≠ some ':' ∧ IsPlaceholder name rest
  | question => True
  | plain c =>
    d.opensLiteral c = false ∧ c ≠ d.quoteChar ∧ c ≠ '[' ∧ c ≠ '?' ∧
      (c = ':' → prev ≠ some ':' →
        ¬ ∃ name rest', rest = name ++ ':' :: rest' ∧ IsPlaceholder name rest')

/-- `Segmented d prev cs segs`: the text `cs`, which follows the character `prev`, reads from left
to right as the segments `segs`. -/
inductive Segmented (d : Dialect) : Option Char → List Char → List Segment → Prop
  /-- Empty text has no segments. -/
  | nil {prev : Option Char} : Segmented d prev [] []
  /-- A segment is followed by the reading of the text after it. -/
  | cons {prev : Option Char} {s : Segment} {rest : List Char} {segs : List Segment}
      (first : s.Starts d prev rest) (others : Segmented d s.source.getLast? rest segs) :
      Segmented d prev (s.source ++ rest) (s :: segs)

/-! ### Placeholders and brackets -/

/-- The word at the start of text that goes on with a colon. -/
theorem splitWord_append_colon {name : List Char} (h : Text.isWord name = true)
    (rest : List Char) : Text.splitWord (name ++ ':' :: rest) = (name, ':' :: rest) := by
  have hw : ∀ c ∈ name, Text.isWordChar c = true := by
    rw [Text.isWord, Bool.and_eq_true] at h
    exact List.all_eq_true.1 h.2
  have hc : Text.isWordChar ':' = false := by decide
  rw [Text.splitWord, List.takeWhile_append_of_pos hw, List.dropWhile_append_of_pos hw,
    List.takeWhile_cons_of_neg (by simp [hc]), List.dropWhile_cons_of_neg (by simp [hc]),
    List.append_nil]

/-- A placeholder is found exactly where the grammar has one. -/
theorem placeholder?_eq_some_iff {cs name rest : List Char} :
    placeholder? cs = some (name, rest) ↔ cs = name ++ ':' :: rest ∧ IsPlaceholder name rest := by
  constructor
  · intro h
    refine ⟨(placeholder?_append h).symm, ?_⟩
    have hall : ((Text.splitWord cs).1).all Text.isWordChar = true := List.all_takeWhile
    -- Four outcomes: no word, a second colon, a placeholder, no closing colon.
    unfold placeholder? at h
    split at h
    · cases h
    · cases h
    · rename_i name' rest' hne hnc heq
      obtain ⟨rfl, rfl⟩ : name' = name ∧ rest' = rest := by simpa using h
      rw [heq] at hall
      refine ⟨by simpa [Text.isWord, hall] using hne, fun hr => ?_⟩
      obtain ⟨tail, ht⟩ := List.head?_eq_some_iff.1 hr
      exact hnc tail ht
    · cases h
  · rintro ⟨rfl, hw, hr⟩
    rw [placeholder?, splitWord_append_colon hw]
    split
    · rename_i heq
      have hn : name = [] := congrArg Prod.fst heq
      simp [hn, Text.isWord] at hw
    · rename_i heq
      have hc := congrArg Prod.snd heq
      simp only [List.cons.injEq, true_and] at hc
      simp [hc] at hr
    · rename_i heq
      simp only [Prod.mk.injEq, List.cons.injEq, true_and] at heq
      rw [heq.1, heq.2]
    · rename_i hno
      exact absurd rfl (hno name rest)

/-- The bracketed name and what follows it, where the closing bracket is known. -/
theorem afterBracket?_append_cons {inner : List Char} (h : ']' ∉ inner) (rest : List Char) :
    afterBracket? (inner ++ ']' :: rest) = some rest ∧
      (inner ++ ']' :: rest).takeWhile (· ≠ ']') = inner := by
  have hi : ∀ c ∈ inner, decide (c ≠ ']') = true := fun c hc => by
    simpa using fun he : c = ']' => h (he ▸ hc)
  constructor
  · rw [afterBracket?, List.dropWhile_append_of_pos hi]
    simp
  · rw [List.takeWhile_append_of_pos hi]
    simp

/-- Nothing closes a bracket exactly if no closing bracket follows it. -/
theorem afterBracket?_eq_none_iff {cs : List Char} : afterBracket? cs = none ↔ ']' ∉ cs := by
  constructor
  · intro h hm
    obtain ⟨inner, rest, rfl, hi⟩ := List.eq_append_cons_of_mem hm
    rw [(afterBracket?_append_cons hi rest).1] at h
    cases h
  · intro h
    cases hr : afterBracket? cs with
    | none => rfl
    | some rest =>
      rw [← afterBracket?_append hr] at h
      simp at h

/-! ### The scanner, kind by kind -/

section Scanner

variable {d : Dialect} {b : Bool} {c : Char} {cs : List Char}

theorem scanFrom_literal (h : d.opensLiteral c = true) :
    scanFrom d b (c :: cs) =
      .literal (c :: (d.splitLiteral c cs).1) :: scanFrom d false (d.splitLiteral c cs).2 := by
  rw [scanFrom, if_pos h]

theorem scanFrom_quoted : scanFrom d b (d.quoteChar :: cs) =
    .quoted (d.quoteChar :: (d.splitQuoted cs).1) :: scanFrom d false (d.splitQuoted cs).2 := by
  have h : d.opensLiteral d.quoteChar = false := Dialect.opensLiteral_eq_false_of_mem (by simp)
  rw [scanFrom, if_neg (by simp [h]), if_pos rfl]

theorem scanFrom_bracket {rest : List Char} (h : afterBracket? cs = some rest) :
    scanFrom d b ('[' :: cs) = .bracket (cs.takeWhile (· ≠ ']')) :: scanFrom d false rest := by
  have hl : d.opensLiteral '[' = false := Dialect.opensLiteral_eq_false_of_mem (by simp)
  rw [scanFrom, if_neg (by simp [hl]), if_neg (by cases d <;> decide), if_pos rfl]
  split
  · rename_i h'
    rw [Option.some.inj (h.symm.trans h')]
  · rename_i h'
    cases h.symm.trans h'

theorem scanFrom_unclosed (h : afterBracket? cs = none) :
    scanFrom d b ('[' :: cs) = [.unclosed cs] := by
  have hl : d.opensLiteral '[' = false := Dialect.opensLiteral_eq_false_of_mem (by simp)
  rw [scanFrom, if_neg (by simp [hl]), if_neg (by cases d <;> decide), if_pos rfl]
  split
  · rename_i h'
    cases h.symm.trans h'
  · rfl

theorem scanFrom_placeholder {name rest : List Char} (h : placeholder? cs = some (name, rest)) :
    scanFrom d false (':' :: cs) = .placeholder name :: scanFrom d true rest := by
  have hl : d.opensLiteral ':' = false := Dialect.opensLiteral_eq_false_of_mem (by simp)
  have hp : placeholderAt? false cs = some (name, rest) := h
  rw [scanFrom, if_neg (by simp [hl]), if_neg (by cases d <;> decide), if_neg (by decide),
    if_pos rfl]
  split
  · rename_i h'
    cases hp.symm.trans h'
    rfl
  · rename_i h'
    cases hp.symm.trans h'

theorem scanFrom_colon (h : placeholderAt? b cs = none) :
    scanFrom d b (':' :: cs) = .plain ':' :: scanFrom d true cs := by
  have hl : d.opensLiteral ':' = false := Dialect.opensLiteral_eq_false_of_mem (by simp)
  rw [scanFrom, if_neg (by simp [hl]), if_neg (by cases d <;> decide), if_neg (by decide),
    if_pos rfl]
  split
  · rename_i h'
    cases h.symm.trans h'
  · rfl

theorem scanFrom_question :
    scanFrom d b ('?' :: cs) = .question :: scanFrom d false cs := by
  have hl : d.opensLiteral '?' = false := Dialect.opensLiteral_eq_false_of_mem (by simp)
  rw [scanFrom, if_neg (by simp [hl]), if_neg (by cases d <;> decide), if_neg (by decide),
    if_neg (by decide), if_pos rfl]

theorem scanFrom_plain (hl : d.opensLiteral c = false) (hq : c ≠ d.quoteChar) (hb : c ≠ '[')
    (hc : c ≠ ':') (hm : c ≠ '?') : scanFrom d b (c :: cs) = .plain c :: scanFrom d false cs := by
  rw [scanFrom, if_neg (by simp [hl]), if_neg hq, if_neg hb, if_neg hc, if_neg hm]

/-- At the end of the text it does not matter what stands before. -/
theorem scanFrom_congr {b' : Bool} (h : cs ≠ [] → b = b') :
    scanFrom d b cs = scanFrom d b' cs := by
  cases cs with
  | nil => rw [scanFrom, scanFrom]
  | cons c cs => rw [h (by simp)]

end Scanner

/-! ### The one reading of a text -/

/-- Whether a colon is the character before a text. -/
def afterColon (prev : Option Char) : Bool := prev == some ':'

theorem afterColon_of_ne {c : Char} (h : c ≠ ':') : afterColon (some c) = false := by
  simpa [afterColon] using h

/-- What follows delimited text stands behind its delimiter. -/
theorem afterColon_of_closes {backslash : Bool} {q : Char} {body rest : List Char}
    (h : Text.Closes backslash q body rest) (hq : q ≠ ':') (hr : rest ≠ []) :
    afterColon (q :: body).getLast? = false := by
  rw [List.getLast?_cons, h.getLast?_body hr]
  exact afterColon_of_ne hq

theorem ne_colon_of_opensLiteral {d : Dialect} {q : Char} (h : d.opensLiteral q = true) :
    q ≠ ':' := by
  rintro rfl
  rw [Dialect.opensLiteral_eq_false_of_mem (by simp)] at h
  cases h

/-- Where the grammar has a segment, the scanner finds it and goes on after it. -/
theorem Segment.Starts.scanFrom_append {d : Dialect} {prev : Option Char} {rest : List Char}
    {s : Segment} (h : s.Starts d prev rest) :
    scanFrom d (afterColon prev) (s.source ++ rest) =
      s :: scanFrom d (afterColon s.source.getLast?) rest := by
  cases s with
  | literal text =>
    obtain ⟨q, body, rfl, hq, hc⟩ := h
    rw [Segment.source, List.cons_append, scanFrom_literal hq,
      Dialect.splitLiteral_of_closes hq hc]
    congr 1
    exact scanFrom_congr fun hr =>
      (afterColon_of_closes hc (ne_colon_of_opensLiteral hq) hr).symm
  | quoted text =>
    obtain ⟨body, rfl, hc⟩ := h
    rw [Segment.source, List.cons_append, scanFrom_quoted, Dialect.splitQuoted_of_closes hc]
    congr 1
    exact scanFrom_congr fun hr => (afterColon_of_closes hc (by cases d <;> decide) hr).symm
  | bracket inner =>
    have hb := afterBracket?_append_cons h rest
    rw [Segment.source, List.cons_append, List.append_assoc, List.singleton_append,
      scanFrom_bracket hb.1, hb.2]
    congr 1
    simp [afterColon, List.getLast?_cons]
  | unclosed inner =>
    obtain ⟨hi, rfl⟩ := h
    rw [Segment.source, List.append_nil, scanFrom_unclosed (afterBracket?_eq_none_iff.2 hi),
      scanFrom]
  | placeholder name =>
    have hp := placeholder?_eq_some_iff.2 ⟨rfl, h.2⟩
    have hprev : afterColon prev = false := by simpa [afterColon] using h.1
    rw [Segment.source, List.cons_append, List.append_assoc, List.singleton_append, hprev,
      scanFrom_placeholder hp]
    simp [afterColon, List.getLast?_cons]
  | question => exact scanFrom_question
  | plain c =>
    obtain ⟨hl, hq, hb, hm, hp⟩ := h
    -- Only for a colon it matters what stands before: it may open a placeholder.
    by_cases hc : c = ':'
    · subst hc
      have hn : placeholderAt? (afterColon prev) rest = none := by
        by_cases hprev : prev = some ':'
        · simp [placeholderAt?, afterColon, hprev]
        · rw [placeholderAt?, if_neg (by simpa [afterColon] using hprev),
            Option.eq_none_iff_forall_not_mem]
          rintro ⟨name, rest'⟩ hr
          exact hp rfl hprev ⟨name, rest', placeholder?_eq_some_iff.1 hr⟩
      rw [Segment.source, List.singleton_append, scanFrom_colon hn]
      rfl
    · rw [Segment.source, List.singleton_append, scanFrom_plain hl hq hb hc hm]
      simp [afterColon_of_ne hc]

/-- A reading of a text is what the scanner finds. -/
theorem Segmented.eq_scanFrom {d : Dialect} {prev : Option Char} {cs : List Char}
    {segs : List Segment} (h : Segmented d prev cs segs) :
    segs = scanFrom d (afterColon prev) cs := by
  induction h with
  | nil => rw [scanFrom]
  | cons first others ih => rw [first.scanFrom_append, ← ih]

/-- The names of placeholders in a reading are words. -/
theorem Segmented.isWord_of_placeholder_mem {d : Dialect} {prev : Option Char} {cs : List Char}
    {segs : List Segment} (h : Segmented d prev cs segs) {name : List Char}
    (hm : .placeholder name ∈ segs) : Text.isWord name = true := by
  induction h with
  | nil => cases hm
  | cons first others ih =>
    rcases List.mem_cons.1 hm with rfl | hm
    · exact first.2.1
    · exact ih hm

/-- Text that is not empty begins with a segment. -/
theorem exists_starts (d : Dialect) (prev : Option Char) (c : Char) (cs : List Char) :
    ∃ (s : Segment) (rest : List Char),
      c :: cs = s.source ++ rest ∧ s.Starts d prev rest ∧ rest.length ≤ cs.length := by
  -- The first character decides the kind, except that a colon needs the text after it.
  by_cases hl : d.opensLiteral c = true
  · refine ⟨.literal (c :: (d.splitLiteral c cs).1), (d.splitLiteral c cs).2, ?_, ?_, ?_⟩
    · exact congrArg (c :: ·) (Text.splitClosing_append _ _ _).symm
    · exact ⟨c, _, rfl, hl, Text.closes_splitClosing _ _ _⟩
    · exact Text.length_splitClosing_snd_le _ _ _
  by_cases hq : c = d.quoteChar
  · subst hq
    refine ⟨.quoted (d.quoteChar :: (d.splitQuoted cs).1), (d.splitQuoted cs).2, ?_, ?_, ?_⟩
    · exact congrArg (_ :: ·) (Text.splitClosing_append _ _ _).symm
    · exact ⟨_, rfl, Text.closes_splitClosing _ _ _⟩
    · exact Text.length_splitClosing_snd_le _ _ _
  by_cases hb : c = '['
  · subst hb
    by_cases hm : ']' ∈ cs
    · obtain ⟨inner, rest, rfl, hi⟩ := List.eq_append_cons_of_mem hm
      exact ⟨.bracket inner, rest, by simp [Segment.source], hi, by simp; omega⟩
    · exact ⟨.unclosed cs, [], by simp [Segment.source], ⟨hm, rfl⟩, by simp⟩
  by_cases hm : c = '?'
  · subst hm
    exact ⟨.question, cs, rfl, trivial, Nat.le_refl _⟩
  by_cases hp : c = ':' ∧ prev ≠ some ':' ∧
      ∃ name rest, cs = name ++ ':' :: rest ∧ IsPlaceholder name rest
  · obtain ⟨rfl, hprev, name, rest, rfl, hn⟩ := hp
    exact ⟨.placeholder name, rest, by simp [Segment.source], ⟨hprev, hn⟩, by simp; omega⟩
  · refine ⟨.plain c, cs, rfl, ⟨by simpa using hl, hq, hb, hm, ?_⟩, Nat.le_refl _⟩
    exact fun hc hprev hn => hp ⟨hc, hprev, hn⟩

/-- What the scanner finds is a reading of the text. -/
theorem segmented_scanFrom (d : Dialect) (prev : Option Char) (cs : List Char) :
    Segmented d prev cs (scanFrom d (afterColon prev) cs) := by
  -- The text after the first segment is shorter, and the scanner goes on there.
  induction hn : cs.length using Nat.strongRecOn generalizing prev cs with
  | _ n ih =>
    cases cs with
    | nil =>
      rw [scanFrom]
      exact .nil
    | cons c cs =>
      obtain ⟨s, rest, hcs, hs, hr⟩ := exists_starts d prev c cs
      rw [hcs, hs.scanFrom_append]
      refine .cons hs (ih rest.length ?_ _ rest rfl)
      rw [← hn, List.length_cons]
      omega

/-- Every text has exactly one reading. -/
theorem segmented_iff {d : Dialect} {cs : List Char} {segs : List Segment} :
    Segmented d none cs segs ↔ segs = scan d cs :=
  ⟨fun h => h.eq_scanFrom, fun h => h ▸ segmented_scanFrom d none cs⟩

end Template

end BoundSql

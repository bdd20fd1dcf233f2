import BoundSql.Proofs.Inlined.Substitution
import BoundSql.Proofs.Template.Composed
import BoundSql.Proofs.Text.Lexeme
import BoundSql.Proofs.Text.Offsets
import Mathlib.Data.Set.BooleanAlgebra
import Mathlib.Order.CompletePartialOrder

/-! # Text that both scans protect
The scan of a template ends a quoted identifier at its closing quote, the scan of native text at
every quote. Both leave the same bytes alone.
* **`Text.offsetsOf`** — the offsets of the bytes of some parts of a text; **`Text.owners`** — the
  part that each byte belongs to.
* **`Dialect.Part`**, **`Dialect.Part.marks_append`** — what a scan may take as one part: quoted
  text whole, or text without quotes. Whether a byte stands in quotes does not depend on how.
* **`Template.Segmented.map_owners`**, **`Inlined.Reads.map_owners`** — both scans take such parts.
* **`Inlined.quotedOffsets_eq`** — so the bytes in quotes are the same, and what is a token to one
  scan is not in quotes to the other. -/

namespace BoundSql

/-! ### Offsets and parts -/

namespace Text

variable {α : Type} {source : α → List Char} {kind : α → Bool} {parts : List α} {i : ℕ}

/-- The offsets of the bytes of the parts of a kind in the text that the parts make up. -/
def offsetsOf (source : α → List Char) (kind : α → Bool) (parts : List α) : Set ℕ :=
  {i | ∃ before part after, parts = before ++ part :: after ∧ kind part = true ∧
    (codes (before.flatMap source)).length ≤ i ∧
    i < (codes ((before ++ [part]).flatMap source)).length}

/-- The parts that the bytes of a text belong to, byte by byte. -/
def owners (source : α → List Char) (parts : List α) : List α :=
  parts.flatMap fun part => List.replicate (codes (source part)).length part

theorem owners_cons (part : α) (parts : List α) : owners source (part :: parts) =
    List.replicate (codes (source part)).length part ++ owners source parts :=
  List.flatMap_cons

theorem map_owners_cons (part : α) (parts : List α) : (owners source (part :: parts)).map kind =
    List.replicate (codes (source part)).length (kind part) ++ (owners source parts).map kind := by
  rw [owners_cons, List.map_append, List.map_replicate]

theorem owners_append (l r : List α) :
    owners source (l ++ r) = owners source l ++ owners source r :=
  List.flatMap_append

/-- There are as many owners as bytes. -/
theorem length_owners (parts : List α) :
    (owners source parts).length = (codes (parts.flatMap source)).length := by
  induction parts with
  | nil => rfl
  | cons part parts ih =>
    rw [owners_cons, List.length_append, List.length_replicate, ih, List.flatMap_cons, codes_append,
      List.length_append]

/-- A byte belongs to a part exactly if it lies between the begin and the end of one. -/
theorem getElem?_owners_eq_some_iff {part : α} :
    (owners source parts)[i]? = some part ↔ ∃ before after, parts = before ++ part :: after ∧
      (codes (before.flatMap source)).length ≤ i ∧
      i < (codes ((before ++ [part]).flatMap source)).length := by
  constructor
  · intro h
    induction parts generalizing i with
    | nil => cases h
    | cons first parts ih =>
      -- The place lies in the first part, or as far behind it in the others.
      rw [owners_cons, List.getElem?_append, List.length_replicate] at h
      split at h
      · rename_i hlt
        rw [List.getElem?_replicate_of_lt hlt] at h
        obtain rfl := Option.some.inj h
        exact ⟨[], parts, rfl, Nat.zero_le i, by simpa using hlt⟩
      · rename_i hle
        obtain ⟨before, after, rfl, hbegin, hend⟩ := ih h
        refine ⟨first :: before, after, rfl, ?_, ?_⟩
        · rw [List.flatMap_cons, codes_append, List.length_append]
          omega
        · rw [List.cons_append, List.flatMap_cons, codes_append, List.length_append]
          omega
  · rintro ⟨before, after, rfl, hbegin, hend⟩
    rw [List.flatMap_append, codes_append, List.length_append, List.flatMap_singleton] at hend
    rw [owners_append, owners_cons, List.getElem?_append_right (by rwa [length_owners]),
      length_owners, List.getElem?_append_left (by rw [List.length_replicate]; omega),
      List.getElem?_replicate_of_lt (by omega)]

theorem mem_offsetsOf_iff : i ∈ offsetsOf source kind parts ↔
    ((owners source parts).map kind)[i]? = some true := by
  rw [List.getElem?_map, Option.map_eq_some_iff]
  simp only [getElem?_owners_eq_some_iff]
  constructor
  · rintro ⟨before, part, after, hparts, hkind, hrange⟩
    exact ⟨part, ⟨before, after, hparts, hrange⟩, hkind⟩
  · rintro ⟨part, ⟨before, after, hparts, hrange⟩, hkind⟩
    exact ⟨before, part, after, hparts, hkind, hrange⟩

/-- No byte belongs to parts of two kinds that exclude each other. -/
theorem disjoint_offsetsOf {kind' : α → Bool} (h : ∀ part, kind part = true → kind' part = false) :
    Disjoint (offsetsOf source kind parts) (offsetsOf source kind' parts) := by
  refine Set.disjoint_left.2 fun i hi hi' => ?_
  rw [mem_offsetsOf_iff, List.getElem?_map, Option.map_eq_some_iff] at hi hi'
  obtain ⟨part, hpart, hkind⟩ := hi
  obtain ⟨part', hpart', hkind'⟩ := hi'
  obtain rfl := Option.some.inj (hpart.symm.trans hpart')
  rw [h part hkind] at hkind'
  cases hkind'

end Text

open Text (codes codes_append offsetsOf owners map_owners_cons owners_append mem_offsetsOf_iff
  disjoint_offsetsOf)

/-! ### Parts of statement text -/

/-- The text of a piece. -/
def Lexeme.source : Lexeme → List Char
  | literal text => text
  | quoted text => text
  | other c => [c]

/-- Whether a piece is text in quotes. -/
def Lexeme.isQuoted : Lexeme → Bool
  | literal _ | quoted _ => true
  | other _ => false

namespace Dialect

variable {d : Dialect} {inside : Bool} {text rest : List Char}

/-- For each byte of a statement text, whether it stands in quotes. -/
def marks (d : Dialect) (cs : List Char) : List Bool :=
  (owners Lexeme.source (d.lex cs)).map Lexeme.isQuoted

/-- `d.Part rest inside text`: a scan may take `text` as one part, when `rest` is what follows, and
then `inside` tells whether it stands in quotes. -/
inductive Part (d : Dialect) (rest : List Char) : Bool → List Char → Prop
  /-- A string literal. -/
  | literal {q : Char} {body : List Char} (opens : d.opensLiteral q = true)
      (closes : Text.Closes d.backslashEscapes q body rest) : Part d rest true (q :: body)
  /-- An identifier in quotes. -/
  | quoted {body : List Char} (closes : Text.Closes false d.quoteChar body rest) :
      Part d rest true (d.quoteChar :: body)
  /-- Text without quotes. -/
  | outside {text : List Char} (plain : ∀ c ∈ text, d.isDelimiter c = false) :
      Part d rest false text

theorem marks_other {c : Char} (h : d.isDelimiter c = false) (cs : List Char) :
    d.marks (c :: cs) = List.replicate (codes [c]).length false ++ d.marks cs := by
  rw [marks, lex_other h, map_owners_cons]
  rfl

/-- A part in front of a text is in quotes as a whole or not at all, and the text is scanned as if
it stood alone. -/
theorem Part.marks_append (h : d.Part rest inside text) :
    d.marks (text ++ rest) = List.replicate (codes text).length inside ++ d.marks rest := by
  cases h with
  | literal opens closes =>
    rw [marks, List.cons_append, lex_literal opens closes, map_owners_cons]
    rfl
  | quoted closes =>
    rw [marks, List.cons_append, lex_quoted_of_closes closes, map_owners_cons]
    rfl
  | outside plain =>
    -- Text without quotes is taken apart character by character, however long the token is.
    induction text with
    | nil => rfl
    | cons c text ih =>
      obtain ⟨hc, htext⟩ := List.forall_mem_cons.1 plain
      rw [List.cons_append, marks_other hc, ih htext, ← List.append_assoc, ← List.replicate_add,
        ← List.length_append, ← codes_append, List.singleton_append]

/-- All characters that open quotes in a dialect. -/
def delimiters : List Char := ['\'', '"', '\x60']

theorem isDelimiter_eq_false {c : Char} (h : c ∉ delimiters) : d.isDelimiter c = false := by
  simp only [delimiters, List.mem_cons, List.not_mem_nil, or_false, not_or] at h
  obtain ⟨hsingle, hdouble, hback⟩ := h
  cases d <;> simp [isDelimiter, opensLiteral, quoteChar, hsingle, hdouble, hback]

/-- A class without delimiters has none for members. -/
theorem isDelimiter_of_class {p : Char → Bool} (hp : delimiters.all (fun q => !p q) = true)
    {c : Char} (h : p c = true) : d.isDelimiter c = false := by
  refine isDelimiter_eq_false fun hc => ?_
  have hnone := List.all_eq_true.1 hp c hc
  rw [h] at hnone
  cases hnone

theorem isDelimiter_of_isWordChar {c : Char} (h : Text.isWordChar c = true) :
    d.isDelimiter c = false := isDelimiter_of_class (by decide) h

theorem isDelimiter_of_isDigit {c : Char} (h : c.isDigit = true) : d.isDelimiter c = false :=
  isDelimiter_of_class (by decide) h

end Dialect

open Dialect (isDelimiter_eq_false isDelimiter_of_isWordChar isDelimiter_of_isDigit)

/-! ### The scan of a template -/

namespace Template

variable {d : Dialect} {prev : Option Char} {cs rest : List Char}

/-- Whether a segment may stand for a parameter. -/
def Segment.isParameter : Segment → Bool
  | placeholder _ | question => true
  | _ => false

/-- The offsets of the bytes of a template text in its string literals and quoted identifiers. -/
def quotedOffsets (d : Dialect) (cs : List Char) : Set ℕ :=
  offsetsOf Segment.source Segment.isQuoted (scan d cs)

/-- The offsets of the bytes of its placeholders and question marks. -/
def parameterOffsets (d : Dialect) (cs : List Char) : Set ℕ :=
  offsetsOf Segment.source Segment.isParameter (scan d cs)

/-- A segment without a bracket is one part. -/
theorem Segment.Starts.part {s : Segment} (h : s.Starts d prev rest) (hb : '[' ∉ s.source) :
    d.Part rest s.isQuoted s.source := by
  cases s with
  | literal text =>
    obtain ⟨q, body, rfl, hq, hc⟩ := h
    exact .literal hq hc
  | quoted text =>
    obtain ⟨body, rfl, hc⟩ := h
    exact .quoted hc
  | bracket inner | unclosed inner => exact absurd List.mem_cons_self hb
  | placeholder name =>
    refine .outside fun c hc => ?_
    simp only [Segment.source, List.mem_cons, List.mem_append, List.not_mem_nil, or_false] at hc
    rcases hc with rfl | hc | rfl
    · exact isDelimiter_eq_false (by decide)
    · exact isDelimiter_of_isWordChar (Text.isWordChar_of_mem h.2.1 hc)
    · exact isDelimiter_eq_false (by decide)
  | question => exact .outside (by simpa [Segment.source] using isDelimiter_eq_false (by decide))
  | plain c =>
    obtain ⟨hl, hq, -⟩ := h
    exact .outside (by simp [Segment.source, Dialect.isDelimiter, hl, hq])

/-- The bytes of segments are in quotes where those of the text are. -/
theorem Segmented.map_owners {segs : List Segment} (h : Segmented d prev cs segs) (hb : '[' ∉ cs) :
    (owners Segment.source segs).map Segment.isQuoted = d.marks cs := by
  induction h with
  | nil => rw [Dialect.marks, Dialect.lex_nil]; rfl
  | cons first others ih =>
    obtain ⟨hs, hrest⟩ := not_or.1 (mt List.mem_append.2 hb)
    rw [map_owners_cons, ih hrest, (first.part hs).marks_append]

end Template

/-! ### The scan of native text -/

namespace Inlined

variable {d : Dialect} {prev : Option Char} {cs rest : List Char}

/-- Whether a piece is a string literal or an identifier in quotes. -/
def Piece.isQuoted : Piece → Bool
  | literal _ | quoted _ => true
  | _ => false

/-- The offsets of the bytes of a native text in its string literals and quoted identifiers. -/
def quotedOffsets (d : Dialect) (cs : List Char) : Set ℕ :=
  offsetsOf Piece.source Piece.isQuoted (scan d cs)

/-- The offsets of the bytes of its tokens, which are all that a value can replace. -/
def tokenOffsets (d : Dialect) (cs : List Char) : Set ℕ :=
  offsetsOf Piece.source Piece.isToken (scan d cs)

/-- A piece is one part. -/
theorem Piece.Starts.part {p : Piece} (h : p.Starts d prev rest) :
    d.Part rest p.isQuoted p.source := by
  cases p with
  | literal text =>
    obtain ⟨q, body, rfl, hq, hc⟩ := h
    exact .literal hq hc
  | quoted text =>
    obtain ⟨body, rfl, hc⟩ := h
    exact .quoted hc
  | question => exact .outside (by simpa [Piece.source] using isDelimiter_eq_false (by decide))
  | numbered digits =>
    exact .outside (List.forall_mem_cons.2 ⟨isDelimiter_eq_false (by decide), fun c hc =>
      isDelimiter_of_isDigit (h.1 c hc)⟩)
  | named name =>
    exact .outside (List.forall_mem_cons.2 ⟨isDelimiter_eq_false (by decide), fun c hc =>
      isDelimiter_of_isWordChar (h.2.2.1 c hc)⟩)
  | plain c =>
    obtain ⟨hl, hq, -⟩ := h
    exact .outside (by simp [Piece.source, Dialect.isDelimiter, hl, hq])

/-- What makes up a quoted text owns its bytes. -/
theorem map_owners_of_forall {parts : List Piece} (h : ∀ p ∈ parts, ∃ text, p = .quoted text) :
    (owners Piece.source parts).map Piece.isQuoted =
      List.replicate (codes (parts.flatMap Piece.source)).length true := by
  refine List.eq_replicate_iff.2 ⟨by rw [List.length_map, Text.length_owners], fun b hb => ?_⟩
  obtain ⟨p, hp, rfl⟩ := List.mem_map.1 hb
  obtain ⟨p', hp', hmem⟩ := List.mem_flatMap.1 hp
  obtain rfl := (List.mem_replicate.1 hmem).2
  obtain ⟨text, rfl⟩ := h p hp'
  rfl

/-- In the place of a part the scanner finds pieces whose bytes are in quotes where those of the
part are, although there may be several for a quoted identifier. -/
theorem Piece.Starts.map_owners {p : Piece} (h : p.Starts d prev rest) :
    ∃ parts, scanFrom d (Template.afterColon prev) (p.source ++ rest) =
        parts ++ scanFrom d (Template.afterColon p.source.getLast?) rest ∧
      (owners Piece.source parts).map Piece.isQuoted =
        List.replicate (codes p.source).length p.isQuoted := by
  obtain ⟨parts, hscan, hparts⟩ := h.exists_parts
  refine ⟨parts, hscan, ?_⟩
  rcases hparts with rfl | ⟨⟨text, rfl⟩, hsource, hquoted⟩
  · rw [map_owners_cons]
    exact List.append_nil _
  · rw [map_owners_of_forall hquoted, hsource]
    rfl

/-- The bytes of the pieces that the scanner finds are in quotes where those of the text are. -/
theorem Reads.map_owners {pieces : List Piece} (h : Reads d prev cs pieces) :
    (owners Piece.source (scanFrom d (Template.afterColon prev) cs)).map Piece.isQuoted =
      d.marks cs := by
  -- The reading takes a quoted identifier whole, as the scan of a template does.
  induction h with
  | nil => rw [scanFrom, Dialect.marks, Dialect.lex_nil]; rfl
  | cons first others ih =>
    obtain ⟨parts, hscan, hparts⟩ := first.map_owners
    rw [hscan, owners_append, List.map_append, hparts, ih, first.part.marks_append]

theorem map_owners_scan (d : Dialect) (cs : List Char) :
    (owners Piece.source (scan d cs)).map Piece.isQuoted = d.marks cs := by
  obtain ⟨pieces, hpieces⟩ := exists_unique_reads d none cs
  exact ((hpieces pieces).2 rfl).map_owners

/-- Text without brackets is in quotes at the same bytes, whether it is scanned as a template or as
native text. So what is a token of the native text is not in quotes in the template, and what is a
parameter of the template is not in quotes in the native text. -/
theorem quotedOffsets_eq (d : Dialect) {cs : List Char} (h : '[' ∉ cs) :
    quotedOffsets d cs = Template.quotedOffsets d cs ∧
      Disjoint (tokenOffsets d cs) (Template.quotedOffsets d cs) ∧
      Disjoint (Template.parameterOffsets d cs) (quotedOffsets d cs) := by
  have heq : quotedOffsets d cs = Template.quotedOffsets d cs := by
    have htemplate := (Template.segmented_scanFrom d none cs).map_owners h
    ext i
    rw [quotedOffsets, Template.quotedOffsets, mem_offsetsOf_iff, mem_offsetsOf_iff,
      map_owners_scan, ← htemplate]
    rfl
  refine ⟨heq, ?_, ?_⟩
  · rw [← heq]
    refine disjoint_offsetsOf fun p hp => ?_
    cases p with
    | question | numbered _ | named _ => rfl
    | literal _ | quoted _ | plain _ => cases hp
  · rw [heq]
    refine disjoint_offsetsOf fun s hs => ?_
    cases s with
    | placeholder _ | question => rfl
    | literal _ | quoted _ | bracket _ | unclosed _ | plain _ => cases hs

/-- A doubled quote, a literal with an escape and an identifier that nothing closes: the scans find
different parts, with the same bytes in quotes. -/
theorem quotedOffsets_eq_doubled :
    let cs := "`a``:b:` = 'it''s \\' ?' and :n: = `?``".toList
    (Template.scan .mysql cs).length ≠ (scan .mysql cs).length ∧ '[' ∉ cs ∧
      quotedOffsets .mysql cs = Template.quotedOffsets .mysql cs ∧
      Disjoint (tokenOffsets .mysql cs) (Template.quotedOffsets .mysql cs) ∧
      Disjoint (Template.parameterOffsets .mysql cs) (quotedOffsets .mysql cs) := by
  intro cs
  have hbracket : '[' ∉ cs := by decide
  exact ⟨by decide +kernel, hbracket, quotedOffsets_eq .mysql hbracket⟩

end Inlined

end BoundSql

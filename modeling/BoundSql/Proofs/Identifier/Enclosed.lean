import BoundSql.Proofs.Identifier.ReadBack
import BoundSql.Proofs.Text.Lexeme
import BoundSql.Source

/-! # Identifiers that leave their quotes
A segment that begins with the quote character is copied, with its quotes and the text after them.
* **`Identifier.outside?`** — the text of a segment that stands outside of quotes once the segment
  is written.
* **`Identifier.IsEnclosed`** — an identifier whose segments leave all quotes that they enter.
* **`Identifier.escaped_closed_iff`** — an escaped identifier is left at the end of each of its
  segments exactly if the texts after closing quotes are closed themselves. -/

namespace BoundSql

namespace Identifier

variable {quote : Char} {d : Dialect}

/-! ### One segment -/

/-- The text of a segment that stands outside of quotes once the segment is written: none of one
that is put in quotes, and the text after the closing quote of one that is in quotes already. If
nothing closes its quotes, there is no such text. -/
def outside? (quote : Char) : List Char → Option (List Char)
  | [] => some []
  | c :: cs => if c = quote then (readQuoted? quote cs).map Prod.snd else some []

theorem outside?_of_head?_ne {segment : List Char} (h : segment.head? ≠ some quote) :
    outside? quote segment = some [] := by
  cases segment with
  | nil => rfl
  | cons c cs => exact if_neg (by simpa using h)

/-- A segment that is put in quotes leaves them. -/
theorem closed_quoteSegment (d : Dialect) (segment : List Char) :
    d.Closed (quoteSegment d.quoteChar segment) := by
  by_cases hs : segment = ['*']
  · rw [hs, quoteSegment, if_pos rfl, Dialect.closed_other_iff d.isDelimiter_star]
    exact d.closed_nil
  · rw [quoteSegment, if_neg hs]
    exact (Dialect.closed_quoted_iff segment (by simp)).2 d.closed_nil

/-- A written segment leaves its quotes exactly if its text outside of them does. -/
theorem closed_written_iff {segment text : List Char}
    (h : outside? d.quoteChar segment = some text) :
    d.Closed (written d.quoteChar segment) ↔ d.Closed text := by
  by_cases hhead : segment.head? = some d.quoteChar
  · obtain ⟨cs, rfl⟩ := List.head?_eq_some_iff.1 hhead
    rw [outside?, if_pos rfl] at h
    obtain ⟨⟨name, rest⟩, hread, rfl⟩ := Option.map_eq_some_iff.1 h
    obtain ⟨rfl, hrest⟩ := readQuoted?_eq_some_iff.1 hread
    rw [written_cons_quote]
    exact Dialect.closed_quoted_iff name hrest
  · rw [outside?_of_head?_ne hhead] at h
    obtain rfl := Option.some.inj h
    rw [written_of_head?_ne hhead]
    exact iff_of_true (closed_quoteSegment d segment) d.closed_nil

/-! ### Segments joined by dots -/

/-- A text in front of a dot and more text. -/
theorem closed_append_dot_iff {l : List Char} (hl : d.Closed l) (r : List Char) :
    d.Closed (l ++ '.' :: r) ↔ d.Closed r := by
  rw [Dialect.closed_append_iff hl (by simp) (Dialect.beginsOutside_cons d.isDelimiter_dot r),
    Dialect.closed_other_iff d.isDelimiter_dot]

/-- Texts joined by dots are left at the end of each exactly if each leaves its quotes. -/
theorem forall_closed_take_iff (parts : List (List Char)) :
    (∀ n, d.Closed (['.'].intercalate (parts.take n))) ↔ ∀ part ∈ parts, d.Closed part := by
  induction parts with
  | nil =>
    refine iff_of_true (fun n => ?_) (by simp)
    rw [List.take_nil]
    exact d.closed_nil
  | cons part parts ih =>
    -- Where the first text is left, so is its join with others exactly if theirs is.
    have hjoin : ∀ n, d.Closed part → (d.Closed (['.'].intercalate ((part :: parts).take (n + 1))) ↔
        d.Closed (['.'].intercalate (parts.take n))) := by
      intro n hpart
      rw [List.take_succ_cons]
      cases htake : parts.take n with
      | nil =>
        rw [List.intercalate_singleton]
        exact iff_of_true hpart d.closed_nil
      | cons other others =>
        rw [List.intercalate_cons_cons, List.append_assoc, List.singleton_append]
        exact closed_append_dot_iff hpart _
    rw [List.forall_mem_cons, ← ih]
    constructor
    · intro h
      have hpart : d.Closed part := by
        have hone := h 1
        rwa [List.take_succ_cons, List.take_zero, List.intercalate_singleton] at hone
      exact ⟨hpart, fun n => (hjoin n hpart).1 (h (n + 1))⟩
    · rintro ⟨hpart, hparts⟩ n
      cases n with
      | zero => exact d.closed_nil
      | succ n => exact (hjoin n hpart).2 (hparts n)

/-! ### Identifiers -/

/-- Whether all segments of an identifier leave the quotes that they enter. -/
def IsEnclosed (d : Dialect) (identifier : String) : Prop :=
  ∀ segment ∈ segments d.quoteChar identifier.toList,
    ∃ text, outside? d.quoteChar segment = some text ∧ d.Closed text

theorem toList_escapeIdentifier_eq (d : Dialect) (identifier : String) :
    (d.escapeIdentifier identifier).toList =
      ['.'].intercalate ((segments d.quoteChar identifier.toList).map (written d.quoteChar)) := by
  rw [Dialect.escapeIdentifier, String.toList_ofList, escape_eq]

theorem IsEnclosed.closed {identifier : String} (h : IsEnclosed d identifier) :
    d.Closed (d.escapeIdentifier identifier).toList := by
  have hparts : ∀ part ∈ (segments d.quoteChar identifier.toList).map (written d.quoteChar),
      d.Closed part := by
    intro part hpart
    obtain ⟨segment, hsegment, rfl⟩ := List.mem_map.1 hpart
    obtain ⟨text, htext, hclosed⟩ := h segment hsegment
    exact (closed_written_iff htext).2 hclosed
  have hall := (forall_closed_take_iff _).2 hparts
    ((segments d.quoteChar identifier.toList).map (written d.quoteChar)).length
  rwa [List.take_length, ← toList_escapeIdentifier_eq] at hall

/-- The table of a source leaves its quotes if the names of schema and table do. -/
theorem closed_tableReference {source : Source} (htable : IsEnclosed d source.table)
    (hschema : ∀ schema, source.schema = some schema → IsEnclosed d schema) :
    d.Closed (source.tableReference d).toList := by
  rw [Source.tableReference]
  cases hs : source.schema with
  | none => exact htable.closed
  | some schema =>
    have htext : (d.escapeIdentifier schema ++ "." ++ d.escapeIdentifier source.table).toList =
        (d.escapeIdentifier schema).toList ++ '.' :: (d.escapeIdentifier source.table).toList := by
      simp
    rw [htext, closed_append_dot_iff (hschema schema hs).closed]
    exact htable.closed

/-- Where every segment of an identifier that begins with the quote character has its closing quote,
the escaped identifier is left at the end of each of its segments exactly if the texts after those
closing quotes leave all quotes that they enter, as they do if there are none. Then it is left at
its end: what follows, unless it begins with a delimiter, is scanned as if it stood alone. The table
of a source is left in the same way if both its names are of this kind. -/
theorem escaped_closed_iff (d : Dialect) {identifier : String}
    (h : ∀ segment ∈ segments d.quoteChar identifier.toList,
      ∃ text, outside? d.quoteChar segment = some text) :
    let parts := (segments d.quoteChar identifier.toList).map (written d.quoteChar)
    (d.escapeIdentifier identifier).toList = ['.'].intercalate parts ∧
      ((∀ n, d.Closed (['.'].intercalate (parts.take n))) ↔ IsEnclosed d identifier) ∧
      ((∀ segment ∈ segments d.quoteChar identifier.toList,
        outside? d.quoteChar segment = some []) → IsEnclosed d identifier) ∧
      (IsEnclosed d identifier → d.Closed (d.escapeIdentifier identifier).toList) ∧
      ∀ source : Source, source.table = identifier → IsEnclosed d identifier →
        (∀ schema, source.schema = some schema → IsEnclosed d schema) →
        d.Closed (source.tableReference d).toList := by
  intro parts
  refine ⟨toList_escapeIdentifier_eq d identifier, ?_,
    fun hnone segment hsegment => ⟨[], hnone segment hsegment, d.closed_nil⟩,
    fun henclosed => henclosed.closed,
    fun source htable henclosed => closed_tableReference (htable ▸ henclosed)⟩
  -- Segment by segment: a written one is closed exactly if what it has outside of quotes is.
  rw [forall_closed_take_iff, List.forall_mem_map]
  refine forall₂_congr fun segment hsegment => ?_
  obtain ⟨text, htext⟩ := h segment hsegment
  rw [closed_written_iff htext]
  constructor
  · exact fun hclosed => ⟨text, htext, hclosed⟩
  · rintro ⟨text', htext', hclosed⟩
    rw [htext] at htext'
    rwa [Option.some.inj htext']

/-- A segment in quotes, with a doubled quote and a dot in them and a letter after them, and a
segment that is put in quotes. -/
theorem escaped_closed_letter :
    let identifier := "`a``.b`c.d'e"
    (∀ segment ∈ segments Dialect.mysql.quoteChar identifier.toList,
      ∃ text, outside? Dialect.mysql.quoteChar segment = some text) ∧
      Dialect.mysql.escapeIdentifier identifier = "`a``.b`c.`d'e`" ∧
      IsEnclosed .mysql identifier ∧ Dialect.mysql.Closed "`a``.b`c.`d'e`".toList := by
  intro identifier
  have hsegments : segments Dialect.mysql.quoteChar identifier.toList =
      ["`a``.b`c".toList, "d'e".toList] := by
    decide +kernel
  have houtside : ∀ segment ∈ segments Dialect.mysql.quoteChar identifier.toList,
      outside? Dialect.mysql.quoteChar segment = some ['c'] ∨
        outside? Dialect.mysql.quoteChar segment = some [] := by
    rw [hsegments]
    decide
  have hescape : Dialect.mysql.escapeIdentifier identifier = "`a``.b`c.`d'e`" := by
    decide +kernel
  have henclosed : IsEnclosed .mysql identifier := by
    intro segment hsegment
    rcases houtside segment hsegment with h | h
    · exact ⟨_, h, (Dialect.closed_other_iff (by decide) []).2 (Dialect.closed_nil _)⟩
    · exact ⟨_, h, Dialect.closed_nil _⟩
  have htext : ∀ segment ∈ segments Dialect.mysql.quoteChar identifier.toList,
      ∃ text, outside? Dialect.mysql.quoteChar segment = some text := by
    intro segment hsegment
    obtain ⟨text, h, -⟩ := henclosed segment hsegment
    exact ⟨text, h⟩
  refine ⟨htext, hescape, henclosed, ?_⟩
  rw [← hescape]
  exact (escaped_closed_iff .mysql htext).2.2.2.1 henclosed

/-- A quote after the closing quote is copied and opens a second quoted identifier, which takes in
what follows. -/
theorem copied_quote_swallows :
    Dialect.mysql.escapeIdentifier "`a`b`" = "`a`b`" ∧
      Dialect.mysql.lex ("`a`b`" ++ " WHERE x").toList =
        [.quoted "`a`".toList, .other 'b', .quoted "` WHERE x".toList] ∧
      ¬ Dialect.mysql.Closed (Dialect.mysql.escapeIdentifier "`a`b`").toList := by
  have hescape : Dialect.mysql.escapeIdentifier "`a`b`" = "`a`b`" := by
    decide +kernel
  refine ⟨hescape, by decide +kernel, fun h => ?_⟩
  rw [hescape] at h
  have hlex := h " WHERE x".toList (Dialect.beginsOutside_cons (by decide) _)
  revert hlex
  decide +kernel

end Identifier

end BoundSql

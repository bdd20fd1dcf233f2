import BoundSql.Proofs.Identifier.Segments
import BoundSql.Proofs.Template.Closed
import BoundSql.Proofs.Template.TokenReading
import Mathlib.Data.List.TakeWhile

/-! # Identifiers that are escaped already
Escaping an identifier that is escaped already changes nothing.
* **`Identifier.splitSegment_written`** — a written segment is found again where it stands, in front
  of a dot or at the end.
* **`Identifier.segments_map_written`** — so are all written segments among the dots that join them.
* **`Identifier.escape_escape`** — which makes escaping idempotent.
* **`Identifier.escaped_kept`** — and a bracket around an escaped identifier stands for just this
  identifier, if it can stand between brackets at all. -/

namespace BoundSql

namespace Identifier

variable {quote : Char}

/-! ### Written segments -/

/-- A segment that begins with a quoted name runs through its closing quote and on to the next
dot. -/
theorem splitSegment_of_closes {body tail rest : List Char}
    (h : Text.Closes false quote body (tail ++ rest)) (htail : '.' ∉ tail)
    (hrest : rest = [] ∨ rest.head? = some '.') :
    splitSegment quote (quote :: (body ++ tail) ++ rest) = (quote :: (body ++ tail), rest) := by
  have hsplit := Text.splitClosing_eq_of_closes (by simp) h
  obtain ⟨htake, hdrop⟩ := cut_at_dot htail hrest
  rw [List.cons_append, List.append_assoc, splitSegment, if_pos rfl, hsplit]
  simp only [htake, hdrop]

/-- A segment that is put in quotes is found again, whatever it holds. -/
theorem splitSegment_quoteSegment (hdot : quote ≠ '.') (hstar : quote ≠ '*')
    (segment : List Char) {rest : List Char} (hrest : rest = [] ∨ rest.head? = some '.') :
    splitSegment quote (quoteSegment quote segment ++ rest) =
      (quoteSegment quote segment, rest) := by
  by_cases hs : segment = ['*']
  · have hbare : IsBare quote ['*'] := ⟨by decide, by simpa using hstar.symm⟩
    rw [hs, quoteSegment, if_pos rfl]
    exact splitSegment_append_of_isBare hbare hdot hrest
  · have hhead : rest.head? ≠ some quote := by
      rcases hrest with rfl | hrest
      · simp
      · rw [hrest]
        simpa using hdot.symm
    have hclose : Text.Closes false quote _ ([] ++ rest) := Text.closes_double quote segment hhead
    have hsplit := splitSegment_of_closes hclose (by simp) hrest
    rw [List.append_nil] at hsplit
    rw [quoteSegment, if_neg hs]
    exact hsplit

/-- The first segment, once it is written, is found again: at the end of a text, and in front of a
dot if a dot followed it before. -/
theorem splitSegment_written (hdot : quote ≠ '.') (hstar : quote ≠ '*') (cs : List Char)
    {rest : List Char}
    (hrest : rest = [] ∨ rest.head? = some '.' ∧ (splitSegment quote cs).2 ≠ []) :
    splitSegment quote (written quote (splitSegment quote cs).1 ++ rest) =
      (written quote (splitSegment quote cs).1, rest) := by
  have hends : rest = [] ∨ rest.head? = some '.' := hrest.imp_right And.left
  by_cases hhead : cs.head? = some quote
  · obtain ⟨cs, rfl⟩ := List.head?_eq_some_iff.1 hhead
    have hclose := Text.closes_splitClosing false quote cs
    cases hbody : Text.splitClosing false quote cs with
    | mk body after =>
      have hsegment : splitSegment quote (quote :: cs) =
          (quote :: (body ++ after.takeWhile (· ≠ '.')), after.dropWhile (· ≠ '.')) := by
        rw [splitSegment, if_pos rfl, hbody]
      rw [hbody] at hclose
      rw [hsegment] at hrest ⊢
      rw [written_cons_quote]
      refine splitSegment_of_closes ?_ (fun h => by simpa using List.mem_takeWhile_imp h) hends
      -- What stands behind the closing quote still begins with no quote.
      cases after with
      | nil =>
        have hnil : rest = [] := hrest.resolve_right fun h => h.2 rfl
        rwa [hnil]
      | cons c after =>
        have hc : c ≠ quote := by simpa using hclose.head?_ne (by simp)
        refine hclose.of_head?_ne (by simp) ?_
        by_cases hcdot : c = '.'
        · rw [hcdot, List.takeWhile_cons_of_neg (by simp), List.nil_append]
          rcases hends with rfl | hrest
          · simp
          · rw [hrest]
            simpa using hdot.symm
        · rw [List.takeWhile_cons_of_pos (by simpa using hcdot)]
          simpa using hc
  · have hhead' : (splitSegment quote cs).1.head? ≠ some quote := by
      cases cs with
      | nil => simp [splitSegment]
      | cons c cs =>
        rw [splitSegment, if_neg (by simpa using hhead), List.takeWhile_cons]
        split
        · simpa using hhead
        · simp
    rw [written_of_head?_ne hhead']
    exact splitSegment_quoteSegment hdot hstar _ hends

/-- Writing a segment again changes nothing. -/
theorem written_written (quote : Char) (segment : List Char) :
    written quote (written quote segment) = written quote segment := by
  by_cases hhead : segment.head? = some quote
  · have hkept : written quote segment = segment := if_pos hhead
    rw [hkept, hkept]
  · rw [written_of_head?_ne hhead]
    by_cases hs : segment = ['*']
    · have hquoted : quoteSegment quote segment = segment := if_pos hs
      rw [hquoted, written_of_head?_ne hhead, hquoted]
    · rw [quoteSegment, if_neg hs, written_cons_quote]

/-! ### Written identifiers -/

/-- Written segments are found again among the dots that join them. -/
theorem segments_map_written (hdot : quote ≠ '.') (hstar : quote ≠ '*') (cs : List Char) :
    segments quote (['.'].intercalate ((segments quote cs).map (written quote))) =
      (segments quote cs).map (written quote) := by
  induction cs using segments.induct quote with
  | case1 cs h =>
    have hsplit := splitSegment_written hdot hstar cs (.inl rfl)
    rw [List.append_nil] at hsplit
    rw [segments_of_snd_eq_nil h, List.map_singleton, List.intercalate_singleton,
      segments_of_snd_eq_nil (by rw [hsplit]), hsplit]
  | case2 cs c rest h ih =>
    obtain ⟨segment, others, hrest⟩ := List.exists_cons_of_ne_nil (segments_ne_nil quote rest)
    have hends : ∀ after : List Char, '.' :: after = [] ∨
        ('.' :: after).head? = some '.' ∧ (splitSegment quote cs).2 ≠ [] :=
      fun after => .inr ⟨rfl, by rw [h]; simp⟩
    have hsplit := splitSegment_written hdot hstar cs
      (hends (['.'].intercalate ((segments quote rest).map (written quote))))
    rw [segments_of_snd_eq_cons h, List.map_cons, hrest, List.map_cons,
      List.intercalate_cons_cons, ← List.map_cons, ← hrest, List.append_assoc,
      List.singleton_append, segments_of_snd_eq_cons (by rw [hsplit]), hsplit, ih]

/-- Escaping an identifier again changes nothing. -/
theorem escape_escape (hdot : quote ≠ '.') (hstar : quote ≠ '*') (cs : List Char) :
    escape quote (escape quote cs) = escape quote cs := by
  rw [escape_eq quote (escape quote cs), escape_eq quote cs, segments_map_written hdot hstar,
    List.map_map]
  congr 1
  exact List.map_congr_left fun segment _ => written_written quote segment

theorem escapeIdentifier_escapeIdentifier (d : Dialect) (identifier : String) :
    d.escapeIdentifier (d.escapeIdentifier identifier) = d.escapeIdentifier identifier := by
  rw [← String.toList_inj, Dialect.escapeIdentifier, Dialect.escapeIdentifier, String.toList_ofList,
    String.toList_ofList, escape_escape d.quoteChar_ne.1 d.quoteChar_ne.2]

/-! ### Escaped identifiers in brackets -/

/-- An escaped identifier begins with a character that is no white space. -/
theorem isBlank_head?_escapeIdentifier (d : Dialect) (identifier : String) :
    ∀ c ∈ (d.escapeIdentifier identifier).toList.head?, Text.isBlank c = false := by
  obtain ⟨c, hc, hhead⟩ := head?_escape d.quoteChar identifier.toList
  intro c' hc'
  rw [Dialect.escapeIdentifier, String.toList_ofList, hhead] at hc'
  rw [← Option.some.inj hc']
  simp only [List.mem_cons, List.not_mem_nil, or_false] at hc
  rcases hc with rfl | rfl
  · cases d <;> decide
  · decide

/-- A bracket whose name is an escaped identifier stands for it, unless a source is resolved under
the name. -/
theorem segment_bracket_escaped {t : Rendering} {identifier : String}
    (hsource : t.resolved.get? (t.dialect.escapeIdentifier identifier) = none) {inner : List Char}
    (hinner : String.ofList (Text.trim inner) = t.dialect.escapeIdentifier identifier)
    (offset : Nat) (n : Numbering) :
    t.segment offset n (.bracket inner) = .ok (t.dialect.escapeIdentifier identifier, n) := by
  obtain ⟨c, -, hhead⟩ := head?_escape t.dialect.quoteChar identifier.toList
  have hname : Text.trim inner = escape t.dialect.quoteChar identifier.toList := by
    rw [← String.toList_ofList (l := Text.trim inner), hinner, Dialect.escapeIdentifier,
      String.toList_ofList]
  rw [Rendering.segment]
  split
  · rename_i hnil
    rw [← hname, hnil] at hhead
    cases hhead
  · rw [hinner, Rendering.identifier, hsource]
    simp only [escapeIdentifier_escapeIdentifier]

/-- Escaping an identifier that is escaped already changes nothing, whatever segments it has. So a
bracket that has it as its name, without the white space around it, stands for just this identifier
if no source is resolved under the name, as does the bracket written around it if it holds no
closing bracket and does not end in white space. -/
theorem escaped_kept (d : Dialect) (identifier : String) :
    let escaped := d.escapeIdentifier identifier
    d.escapeIdentifier escaped = escaped ∧
      ∀ t : Rendering, t.dialect = d → t.resolved.get? escaped = none →
        (∀ (offset : Nat) (n : Numbering) (inner : List Char),
          String.ofList (Text.trim inner) = escaped →
          t.segment offset n (.bracket inner) = .ok (escaped, n)) ∧
        (']' ∉ escaped.toList → (∀ c ∈ escaped.toList.getLast?, Text.isBlank c = false) →
          ({ t with sql := "[" ++ escaped ++ "]" } : Rendering).run =
            .ok ⟨escaped, OrderedMap.empty, OrderedMap.empty⟩) := by
  intro escaped
  refine ⟨escapeIdentifier_escapeIdentifier d identifier, ?_⟩
  rintro t rfl hsource
  refine ⟨fun offset n inner hinner => segment_bracket_escaped hsource hinner offset n,
    fun hbracket hlast => ?_⟩
  have hinner : String.ofList (Text.trim escaped.toList) = escaped := by
    rw [Text.trim_eq_self (isBlank_head?_escapeIdentifier t.dialect identifier) hlast,
      String.ofList_toList]
  have hscan : Template.scan t.dialect ("[" ++ escaped ++ "]").toList = [.bracket escaped.toList] :=
    (Template.readsAs_bracketed hbracket).scan_eq
  have hsegment := segment_bracket_escaped
    (t := { t with sql := "[" ++ escaped ++ "]" }) hsource hinner 0 {}
  rw [Rendering.run, hscan, Rendering.segments, hsegment]
  simp only [Rendering.segments, String.append_empty]
  rfl

/-- A segment in quotes with a dot and a doubled quote in it and text after it, and one with a quote
inside. -/
theorem escaped_kept_quotes :
    let escaped := "`a``.b`c.`d``e`"
    let t : Rendering := ⟨.mysql, OrderedMap.empty, OrderedMap.empty, OrderedMap.empty,
      "[" ++ escaped ++ "]"⟩
    Dialect.mysql.escapeIdentifier "`a``.b`c.d`e" = escaped ∧ t.resolved.get? escaped = none ∧
      ']' ∉ escaped.toList ∧ (∀ c ∈ escaped.toList.getLast?, Text.isBlank c = false) ∧
      t.run = .ok ⟨escaped, OrderedMap.empty, OrderedMap.empty⟩ := by
  intro escaped t
  have hescape : Dialect.mysql.escapeIdentifier "`a``.b`c.d`e" = escaped := by decide +kernel
  have hbracket : ']' ∉ escaped.toList := by
    show ']' ∉ "`a``.b`c.`d``e`".toList
    decide
  have hlast : ∀ c ∈ escaped.toList.getLast?, Text.isBlank c = false := by
    have hquote : escaped.toList.getLast? = some '\x60' := by decide +kernel
    intro c hc
    rw [hquote] at hc
    rw [← Option.some.inj hc]
    decide
  obtain ⟨-, hkept⟩ := escaped_kept .mysql "`a``.b`c.d`e"
  rw [hescape] at hkept
  exact ⟨hescape, rfl, hbracket, hlast, (hkept t rfl rfl).2 hbracket hlast⟩

/-- A bracket ends at the first closing bracket, so an identifier that holds one is cut there. -/
theorem bracket_cuts_identifier :
    let escaped := Dialect.mysql.escapeIdentifier "a]b"
    ∃ native : Native,
      Template.render .mysql ("[" ++ escaped ++ "]") OrderedMap.empty OrderedMap.empty =
          .ok native ∧
        native.sql = "`ab`]" ∧ native.sql ≠ escaped := by
  intro escaped
  have hescaped : escaped = "`a]b`" := by
    show Dialect.mysql.escapeIdentifier "a]b" = "`a]b`"
    decide +kernel
  have hrender : Template.render .mysql "[`a]b`]" OrderedMap.empty OrderedMap.empty =
      .ok ⟨"`ab`]", OrderedMap.empty, OrderedMap.empty⟩ := by decide +kernel
  rw [hescaped]
  exact ⟨_, hrender, rfl, by decide⟩

end Identifier

end BoundSql

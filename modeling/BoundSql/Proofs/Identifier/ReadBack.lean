import BoundSql.Proofs.Identifier.Segments

/-! # Reading identifiers
What an escaped identifier says, to a reader that knows quoted names, dots and a lone `*` only.
* **`Identifier.readQuoted?`**, **`Identifier.read?`** — the reader of one quoted name, and of names
  joined by dots.
* **`Identifier.readQuoted?_eq_some_iff`** — a quoted name is a name with its quotes doubled, up to
  the first quote that is not.
* **`Identifier.escaped_read_back`** — an escaped identifier is read as the segments it was joined
  from, whatever quotes they hold. -/

namespace BoundSql

namespace Identifier

variable {quote : Char}

/-! ### The reader -/

/-- The name whose opening quote stands before the text, and what follows its closing quote. Of a
doubled quote one belongs to the name. -/
def readQuoted? (quote : Char) : List Char → Option (List Char × List Char)
  | [] => none
  | [c] => if c = quote then some ([], []) else none
  | c :: e :: cs =>
    if c = quote then
      if e = quote then (readQuoted? quote cs).map fun r => (quote :: r.1, r.2)
      else some ([], e :: cs)
    else (readQuoted? quote (e :: cs)).map fun r => (c :: r.1, r.2)

/-- The name that text begins with, and what follows it: a `*`, or a name in quotes. -/
def readSegment? (quote : Char) : List Char → Option (List Char × List Char)
  | [] => none
  | c :: cs =>
    if c = '*' then some (['*'], cs) else if c = quote then readQuoted? quote cs else none

/-- The quotes of a quoted name are doubled, up to the one that closes it, which no other
follows. -/
theorem readQuoted?_eq_some_iff {cs name rest : List Char} :
    readQuoted? quote cs = some (name, rest) ↔
      cs = Text.double quote name ++ quote :: rest ∧ rest.head? ≠ some quote := by
  constructor
  · intro h
    fun_induction readQuoted? quote cs generalizing name rest with
    | case1 => cases h
    | case2 =>
      obtain ⟨rfl, rfl⟩ := Prod.mk.inj (Option.some.inj h)
      exact ⟨rfl, by simp⟩
    | case3 => cases h
    | case4 cs ih =>
      obtain ⟨⟨name', rest'⟩, hread, heq⟩ := Option.map_eq_some_iff.1 h
      obtain ⟨rfl, rfl⟩ := Prod.mk.inj heq
      obtain ⟨hcs, hhead⟩ := ih hread
      exact ⟨by rw [hcs, Text.double_cons_self]; rfl, hhead⟩
    | case5 e cs he =>
      obtain ⟨rfl, rfl⟩ := Prod.mk.inj (Option.some.inj h)
      exact ⟨rfl, by simpa using he⟩
    | case6 c e cs hc ih =>
      obtain ⟨⟨name', rest'⟩, hread, heq⟩ := Option.map_eq_some_iff.1 h
      obtain ⟨rfl, rfl⟩ := Prod.mk.inj heq
      obtain ⟨hcs, hhead⟩ := ih hread
      exact ⟨by rw [hcs, Text.double_cons_of_ne hc]; rfl, hhead⟩
  · rintro ⟨rfl, hhead⟩
    induction name with
    | nil =>
      cases rest with
      | nil => simp [readQuoted?]
      | cons e rest =>
        have he : e ≠ quote := by simpa using hhead
        simp [readQuoted?, he]
    | cons c name ih =>
      by_cases hc : c = quote
      · subst hc
        rw [Text.double_cons_self, List.cons_append, List.cons_append, readQuoted?, if_pos rfl,
          if_pos rfl, ih]
        rfl
      · rw [Text.double_cons_of_ne hc, List.cons_append]
        -- Something follows the character: at least the closing quote.
        cases htail : Text.double quote name ++ quote :: rest with
        | nil => simp at htail
        | cons e tail =>
          rw [readQuoted?, if_neg hc, ← htail, ih]
          rfl

/-- What follows a name is shorter than the text. -/
theorem length_lt_of_readSegment? {cs name rest : List Char}
    (h : readSegment? quote cs = some (name, rest)) : rest.length < cs.length := by
  cases cs with
  | nil => cases h
  | cons c cs =>
    rw [readSegment?] at h
    split at h
    · obtain ⟨-, rfl⟩ := Prod.mk.inj (Option.some.inj h)
      exact Nat.lt_succ_self _
    split at h
    · obtain ⟨rfl, -⟩ := readQuoted?_eq_some_iff.1 h
      simp only [List.length_cons, List.length_append]
      omega
    · cases h

/-- The names that text begins with, joined by dots, and what follows them. -/
def read? (quote : Char) (cs : List Char) : Option (List (List Char) × List Char) :=
  match _h : readSegment? quote cs with
  | none => none
  | some (name, '.' :: rest) => (read? quote rest).map fun r => (name :: r.1, r.2)
  | some (name, rest) => some ([name], rest)
termination_by cs.length
decreasing_by
  have := length_lt_of_readSegment? ‹_›
  simp only [List.length_cons] at this
  omega

theorem read?_of_last {cs name rest : List Char} (h : readSegment? quote cs = some (name, rest))
    (hrest : rest.head? ≠ some '.') : read? quote cs = some ([name], rest) := by
  rw [read?.eq_1]
  split
  · rename_i hnone
    rw [h] at hnone
    cases hnone
  · rename_i hdot
    rw [h] at hdot
    obtain ⟨-, rfl⟩ := Prod.mk.inj (Option.some.inj hdot)
    exact absurd rfl hrest
  · rename_i hlast
    rw [h] at hlast
    obtain ⟨rfl, rfl⟩ := Prod.mk.inj (Option.some.inj hlast)
    rfl

theorem read?_of_dot {cs name rest : List Char}
    (h : readSegment? quote cs = some (name, '.' :: rest)) :
    read? quote cs = (read? quote rest).map fun r => (name :: r.1, r.2) := by
  rw [read?.eq_1]
  split
  · rename_i hnone
    rw [h] at hnone
    cases hnone
  · rename_i hdot
    rw [h] at hdot
    obtain ⟨rfl, htail⟩ := Prod.mk.inj (Option.some.inj hdot)
    obtain ⟨-, rfl⟩ := List.cons.inj htail
    rfl
  · rename_i hno hlast
    rw [h] at hlast
    obtain ⟨-, rfl⟩ := Prod.mk.inj (Option.some.inj hlast)
    exact absurd rfl (hno _)

/-! ### Reading what was written -/

/-- A written segment is read, in front of all but another quote. -/
theorem readSegment?_quoteSegment (hstar : quote ≠ '*') (segment : List Char) {rest : List Char}
    (hrest : rest.head? ≠ some quote) :
    readSegment? quote (quoteSegment quote segment ++ rest) = some (segment, rest) := by
  by_cases hs : segment = ['*']
  · rw [hs, quoteSegment, if_pos rfl]
    rfl
  · rw [quoteSegment, if_neg hs, List.cons_append, List.append_assoc, readSegment?, if_neg hstar,
      if_pos rfl]
    exact readQuoted?_eq_some_iff.2 ⟨rfl, hrest⟩

/-- Written segments with dots between them are read, in front of all but another quote or dot. -/
theorem read?_intercalate (hdot : quote ≠ '.') (hstar : quote ≠ '*') {parts : List (List Char)}
    (hne : parts ≠ []) {rest : List Char} (hrest : rest.head? ≠ some quote)
    (hrest' : rest.head? ≠ some '.') :
    read? quote (['.'].intercalate (parts.map (quoteSegment quote)) ++ rest) =
      some (parts, rest) := by
  induction parts with
  | nil => exact absurd rfl hne
  | cons segment parts ih =>
    cases parts with
    | nil =>
      rw [List.map_singleton, List.intercalate_singleton]
      exact read?_of_last (readSegment?_quoteSegment hstar segment hrest) hrest'
    | cons other parts =>
      -- A dot follows the first name, so its closing quote is not doubled.
      have hhead : ('.' :: (['.'].intercalate ((other :: parts).map (quoteSegment quote)) ++
          rest)).head? ≠ some quote := by
        simpa using hdot.symm
      rw [List.map_cons, List.map_cons, List.intercalate_cons_cons, ← List.map_cons,
        List.append_assoc, List.append_assoc, List.singleton_append,
        read?_of_dot (readSegment?_quoteSegment hstar segment hhead), ih (by simp)]
      rfl

/-- An identifier of segments without dots and without a quote in front is escaped segment by
segment. -/
theorem escape_intercalate (hdot : quote ≠ '.') {parts : List (List Char)} (hne : parts ≠ [])
    (h : ∀ segment ∈ parts, IsBare quote segment) :
    escape quote (['.'].intercalate parts) =
      ['.'].intercalate (parts.map (quoteSegment quote)) := by
  rw [escape_eq, segments_intercalate hdot hne h]
  exact congrArg _ (List.map_congr_left fun segment hs => written_of_head?_ne (h segment hs).2)

theorem toList_escapeIdentifier (d : Dialect) {parts : List String} (hne : parts ≠ [])
    (h : ∀ segment ∈ parts, IsBare d.quoteChar segment.toList) :
    (d.escapeIdentifier (".".intercalate parts)).toList =
      ['.'].intercalate ((parts.map String.toList).map (quoteSegment d.quoteChar)) := by
  have hparts : ∀ segment ∈ parts.map String.toList, IsBare d.quoteChar segment := by
    intro segment hs
    obtain ⟨text, htext, rfl⟩ := List.mem_map.1 hs
    exact h text htext
  rw [Dialect.escapeIdentifier, String.toList_ofList, String.toList_intercalate]
  exact escape_intercalate d.quoteChar_ne.1 (mt List.map_eq_nil_iff.1 hne) hparts

/-- An identifier joined by dots from segments without dots, none of which begins with the quote
character, is escaped so that its segments are read again, in order, whatever quotes they hold:
alone to its end, and in front of any text that begins neither with a dot nor with a quote up to
where that text begins. So no two such identifiers are escaped alike. -/
theorem escaped_read_back (d : Dialect) {parts : List String} (hne : parts ≠ [])
    (hbare : ∀ segment ∈ parts, IsBare d.quoteChar segment.toList) :
    let escaped := (d.escapeIdentifier (".".intercalate parts)).toList
    read? d.quoteChar escaped = some (parts.map String.toList, []) ∧
      (∀ rest : List Char, rest.head? ≠ some '.' → rest.head? ≠ some d.quoteChar →
        read? d.quoteChar (escaped ++ rest) = some (parts.map String.toList, rest)) ∧
      ∀ others : List String, others ≠ [] →
        (∀ segment ∈ others, IsBare d.quoteChar segment.toList) →
        d.escapeIdentifier (".".intercalate others) = d.escapeIdentifier (".".intercalate parts) →
        others = parts := by
  intro escaped
  -- Both for the segments that are given and for any others.
  have hread : ∀ names : List String, names ≠ [] →
      (∀ segment ∈ names, IsBare d.quoteChar segment.toList) → ∀ rest : List Char,
      rest.head? ≠ some '.' → rest.head? ≠ some d.quoteChar →
      read? d.quoteChar ((d.escapeIdentifier (".".intercalate names)).toList ++ rest) =
        some (names.map String.toList, rest) := by
    intro names hnames hall rest hdot hquote
    rw [toList_escapeIdentifier d hnames hall]
    exact read?_intercalate d.quoteChar_ne.1 d.quoteChar_ne.2 (mt List.map_eq_nil_iff.1 hnames)
      hquote hdot
  have halone : ∀ names : List String, names ≠ [] →
      (∀ segment ∈ names, IsBare d.quoteChar segment.toList) →
      read? d.quoteChar (d.escapeIdentifier (".".intercalate names)).toList =
        some (names.map String.toList, []) := by
    intro names hnames hall
    have hnil := hread names hnames hall [] (by simp) (by simp)
    rwa [List.append_nil] at hnil
  refine ⟨halone parts hne hbare, hread parts hne hbare, fun others hothers hall he => ?_⟩
  have hsame := halone others hothers hall
  rw [he, halone parts hne hbare] at hsame
  have hlists := (Prod.mk.inj (Option.some.inj hsame)).1
  exact (List.map_inj_right fun _ _ => String.toList_inj.1).1 hlists.symm

/-- An empty segment, a `*`, and segments that hold quotes. -/
theorem escaped_read_back_quotes :
    let parts := ["", "*", "a``b`", "' \""]
    parts ≠ [] ∧ (∀ segment ∈ parts, IsBare Dialect.mysql.quoteChar segment.toList) ∧
      Dialect.mysql.escapeIdentifier (".".intercalate parts) = "``.*.`a````b```.`' \"`" ∧
      read? '\x60' "``.*.`a````b```.`' \"`".toList = some (parts.map String.toList, []) := by
  intro parts
  have hbare : ∀ segment ∈ parts, IsBare Dialect.mysql.quoteChar segment.toList := by
    simp only [parts, IsBare]
    decide
  have hescape : Dialect.mysql.escapeIdentifier (".".intercalate parts) =
      "``.*.`a````b```.`' \"`" := by
    rw [← String.toList_inj, toList_escapeIdentifier .mysql (by simp [parts]) hbare]
    decide
  refine ⟨by simp [parts], hbare, hescape, ?_⟩
  rw [← hescape]
  exact (escaped_read_back .mysql (by simp [parts]) hbare).1

end Identifier

end BoundSql

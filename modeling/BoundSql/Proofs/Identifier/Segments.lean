import BoundSql.Dialect
import BoundSql.Identifier
import BoundSql.Proofs.Text.Delimited

/-! # The segments of an identifier
A dotted identifier is cut into segments, and each is written on its own.
* **`Identifier.segments`** — the segments, where one in quotes may hold dots.
* **`Identifier.written`** — a segment as it is written.
* **`Identifier.escape_eq`** — an escaped identifier is its written segments, with dots between
  them.
* **`Identifier.segments_intercalate`** — segments without dots and without a quote in front are
  found again among the dots that join them. -/

namespace BoundSql

/-- The quote character is no mark of identifiers. -/
theorem Dialect.quoteChar_ne (d : Dialect) : d.quoteChar ≠ '.' ∧ d.quoteChar ≠ '*' := by
  cases d <;> decide

namespace Identifier

variable {quote : Char}

/-- The first segment of a dotted identifier, and what follows it: nothing, or text that starts with
a dot. A segment in quotes runs through its closing quote and on to the next dot. -/
def splitSegment (quote : Char) : List Char → List Char × List Char
  | [] => ([], [])
  | c :: cs =>
    if c = quote then
      let body := Text.splitClosing false quote cs
      (c :: (body.1 ++ body.2.takeWhile (· ≠ '.')), body.2.dropWhile (· ≠ '.'))
    else ((c :: cs).takeWhile (· ≠ '.'), (c :: cs).dropWhile (· ≠ '.'))

/-- A segment as it is written: in quotes, which it may have already. -/
def written (quote : Char) (segment : List Char) : List Char :=
  if segment.head? = some quote then segment else quoteSegment quote segment

theorem written_of_head?_ne {segment : List Char} (h : segment.head? ≠ some quote) :
    written quote segment = quoteSegment quote segment := if_neg h

theorem written_cons_quote (quote : Char) (cs : List Char) :
    written quote (quote :: cs) = quote :: cs := if_pos rfl

/-- The first segment is written, and what follows it is left. -/
theorem firstSegment_eq (quote : Char) (cs : List Char) :
    firstSegment quote cs =
      (written quote (splitSegment quote cs).1, (splitSegment quote cs).2) := by
  cases cs with
  | nil => rfl
  | cons c cs =>
    rw [firstSegment, splitSegment]
    by_cases hc : c = quote
    · subst hc
      rw [if_pos rfl, if_pos rfl, written_cons_quote]
    · have hhead : ((c :: cs).takeWhile (· ≠ '.')).head? ≠ some quote := by
        rw [List.takeWhile_cons]
        split
        · simpa using hc
        · simp
      rw [if_neg hc, if_neg hc, written_of_head?_ne hhead]

/-- Cutting off the first segment loses nothing. -/
theorem splitSegment_append (quote : Char) (cs : List Char) :
    (splitSegment quote cs).1 ++ (splitSegment quote cs).2 = cs := by
  cases cs with
  | nil => rfl
  | cons c cs =>
    rw [splitSegment]
    by_cases hc : c = quote
    · rw [if_pos hc, List.cons_append, List.append_assoc, List.takeWhile_append_dropWhile,
        Text.splitClosing_append]
    · rw [if_neg hc, List.takeWhile_append_dropWhile]

/-- What follows the first segment starts with a dot. -/
theorem head_eq_of_splitSegment {cs rest : List Char} {c : Char}
    (h : (splitSegment quote cs).2 = c :: rest) : c = '.' := by
  have hdrop : ∀ l : List Char, l.dropWhile (· ≠ '.') = c :: rest → c = '.' := by
    intro l hl
    have hhead := List.head?_dropWhile_not (fun x : Char => decide (x ≠ '.')) l
    rw [hl] at hhead
    simpa using hhead
  cases cs with
  | nil => cases h
  | cons a cs =>
    rw [splitSegment] at h
    split at h
    · exact hdrop _ h
    · exact hdrop _ h

/-- What follows the dot after the first segment is shorter than the identifier. -/
theorem length_lt_of_splitSegment {cs rest : List Char} {c : Char}
    (h : (splitSegment quote cs).2 = c :: rest) : rest.length < cs.length := by
  have hlength := congrArg List.length (splitSegment_append quote cs)
  rw [h, List.length_append, List.length_cons] at hlength
  omega

/-- The segments of a dotted identifier. -/
def segments (quote : Char) (cs : List Char) : List (List Char) :=
  match _h : (splitSegment quote cs).2 with
  | [] => [(splitSegment quote cs).1]
  | _ :: rest => (splitSegment quote cs).1 :: segments quote rest
termination_by cs.length
decreasing_by exact length_lt_of_splitSegment ‹_›

theorem segments_of_snd_eq_nil {cs : List Char} (h : (splitSegment quote cs).2 = []) :
    segments quote cs = [(splitSegment quote cs).1] := by
  rw [segments.eq_1]
  split
  · rfl
  · rename_i hrest
    rw [h] at hrest
    cases hrest

theorem segments_of_snd_eq_cons {cs rest : List Char} {c : Char}
    (h : (splitSegment quote cs).2 = c :: rest) :
    segments quote cs = (splitSegment quote cs).1 :: segments quote rest := by
  rw [segments.eq_1]
  split
  · rename_i hrest
    rw [h] at hrest
    cases hrest
  · rename_i hrest
    rw [h] at hrest
    obtain ⟨-, rfl⟩ := List.cons.inj hrest
    rfl

theorem segments_ne_nil (quote : Char) (cs : List Char) : segments quote cs ≠ [] := by
  cases h : (splitSegment quote cs).2 with
  | nil => simp [segments_of_snd_eq_nil h]
  | cons c rest => simp [segments_of_snd_eq_cons h]

/-- An identifier is its segments, with dots between them. -/
theorem intercalate_segments (quote : Char) (cs : List Char) :
    ['.'].intercalate (segments quote cs) = cs := by
  induction cs using segments.induct quote with
  | case1 cs h =>
    have happend := splitSegment_append quote cs
    rw [h, List.append_nil] at happend
    rw [segments_of_snd_eq_nil h, List.intercalate_singleton, happend]
  | case2 cs c rest h ih =>
    have happend := splitSegment_append quote cs
    obtain rfl := head_eq_of_splitSegment h
    obtain ⟨segment, others, hrest⟩ := List.exists_cons_of_ne_nil (segments_ne_nil quote rest)
    rw [segments_of_snd_eq_cons h, hrest, List.intercalate_cons_cons, ← hrest, ih,
      List.append_assoc, List.singleton_append, ← h, happend]

/-- An escaped identifier is its written segments, with dots between them. -/
theorem escape_eq (quote : Char) (cs : List Char) :
    escape quote cs = ['.'].intercalate ((segments quote cs).map (written quote)) := by
  induction cs using segments.induct quote with
  | case1 cs h =>
    rw [segments_of_snd_eq_nil h, List.map_singleton, List.intercalate_singleton, escape.eq_1]
    split
    · rw [firstSegment_eq]
    · rename_i hcons _
      rw [firstSegment_eq, h] at hcons
      cases hcons
  | case2 cs c rest h ih =>
    obtain ⟨segment, others, hrest⟩ := List.exists_cons_of_ne_nil (segments_ne_nil quote rest)
    rw [segments_of_snd_eq_cons h, hrest, List.map_cons, List.map_cons,
      List.intercalate_cons_cons, ← List.map_cons, ← hrest, ← ih, escape.eq_1]
    split
    · rename_i hnil _
      rw [firstSegment_eq, h] at hnil
      cases hnil
    · rename_i hcons _
      rw [firstSegment_eq, h] at hcons
      obtain ⟨-, rfl⟩ := List.cons.inj hcons
      rw [firstSegment_eq, List.append_assoc, List.singleton_append]

/-! ### Segments found again -/

/-- Text without dots is cut off from what follows it, if that begins with a dot. -/
theorem cut_at_dot {segment rest : List Char} (h : '.' ∉ segment)
    (hrest : rest = [] ∨ rest.head? = some '.') :
    (segment ++ rest).takeWhile (· ≠ '.') = segment ∧
      (segment ++ rest).dropWhile (· ≠ '.') = rest := by
  have htake : (segment ++ rest).takeWhile (· ≠ '.') = segment := by
    have hdot : ∀ c ∈ segment, decide (c ≠ '.') = true := by
      intro c hc
      exact decide_eq_true fun he => h (he ▸ hc)
    rw [List.takeWhile_append_of_pos hdot]
    rcases hrest with rfl | hrest
    · simp
    · obtain ⟨rest, rfl⟩ := List.head?_eq_some_iff.1 hrest
      simp
  have happend := List.takeWhile_append_dropWhile (p := fun x : Char => decide (x ≠ '.'))
    (l := segment ++ rest)
  rw [htake] at happend
  exact ⟨htake, List.append_cancel_left happend⟩

/-- Whether a segment has no dot and no quote in front. -/
def IsBare (quote : Char) (segment : List Char) : Prop :=
  '.' ∉ segment ∧ segment.head? ≠ some quote

/-- A segment without dots and without a quote in front ends at the first dot. -/
theorem splitSegment_append_of_isBare {segment rest : List Char} (h : IsBare quote segment)
    (hquote : quote ≠ '.') (hrest : rest = [] ∨ rest.head? = some '.') :
    splitSegment quote (segment ++ rest) = (segment, rest) := by
  obtain ⟨htake, hdrop⟩ := cut_at_dot h.1 hrest
  cases hcs : segment ++ rest with
  | nil =>
    obtain ⟨rfl, rfl⟩ := List.append_eq_nil_iff.1 hcs
    rfl
  | cons c cs =>
    -- The text starts with the segment, or with the dot behind an empty one.
    have hc : c ≠ quote := by
      rintro rfl
      cases segment with
      | nil =>
        obtain rfl : rest = c :: cs := hcs
        rcases hrest with hnil | hdot
        · cases hnil
        · exact hquote (Option.some.inj hdot)
      | cons a segment => exact h.2 (by rw [← (List.cons.inj hcs).1, List.head?_cons])
    rw [splitSegment, if_neg hc, ← hcs, htake, hdrop]

/-- Segments without dots and without a quote in front are found again among the dots that join
them. -/
theorem segments_intercalate (hquote : quote ≠ '.') {parts : List (List Char)} (hne : parts ≠ [])
    (h : ∀ segment ∈ parts, IsBare quote segment) :
    segments quote (['.'].intercalate parts) = parts := by
  induction parts with
  | nil => exact absurd rfl hne
  | cons segment parts ih =>
    obtain ⟨hsegment, hparts⟩ := List.forall_mem_cons.1 h
    cases parts with
    | nil =>
      have hsplit : splitSegment quote (segment ++ []) = (segment, []) :=
        splitSegment_append_of_isBare hsegment hquote (.inl rfl)
      rw [List.append_nil] at hsplit
      rw [List.intercalate_singleton, segments_of_snd_eq_nil (by rw [hsplit]), hsplit]
    | cons other parts =>
      rw [List.intercalate_cons_cons, List.append_assoc, List.singleton_append]
      have hsplit : splitSegment quote (segment ++ '.' :: ['.'].intercalate (other :: parts)) =
          (segment, '.' :: ['.'].intercalate (other :: parts)) :=
        splitSegment_append_of_isBare hsegment hquote (.inr rfl)
      rw [segments_of_snd_eq_cons (by rw [hsplit]), hsplit, ih (by simp) hparts]

end Identifier

end BoundSql

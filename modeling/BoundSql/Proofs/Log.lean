import BoundSql.Log
import BoundSql.Proofs.Text.Offsets
import Mathlib.Order.Bounds.Basic

/-! # Statements cut for the log
A logged statement is cut to a number of bytes, but never inside of a character.
* **`Text.isBoundary`** — whether a character begins or the text ends at an offset, told from the
  byte there alone; **`Text.isBoundary_codes`** — that is where the text can be cut.
* **`Text.walkBack`** — the last such offset up to a given one, searched backwards.
* **`StatementLog.truncateByOffsets`** — a statement cut there, with every access checked.
* **`StatementLog.prefix_takeBytes_iff`** — the starts of a text that fit are those of what is kept.
* **`StatementLog.truncated_at_longest`** — so what is kept is the longest start that fits, and the
  search finds its end. -/

namespace BoundSql

namespace Text

variable {cs : List Char} {n i : ℕ}

/-! ### Where characters begin -/

/-- Whether a byte goes on with a character that has begun before it. -/
def isContinuation (u : Char) : Bool := 128 ≤ u.toNat && u.toNat < 192

theorem isContinuation_toChar (b : UInt8) :
    isContinuation b.toChar = true ↔ 128 ≤ b.toNat ∧ b.toNat < 192 := by
  rw [isContinuation, Bool.and_eq_true, decide_eq_true_eq, decide_eq_true_eq]
  exact Iff.rfl

/-- The first byte of a character begins it, and the others go on with it. -/
theorem exists_codesOf_eq (c : Char) : ∃ u us, codesOf c = u :: us ∧
    isContinuation u = false ∧ ∀ v ∈ us, isContinuation v = true := by
  by_cases hc : IsNarrow c
  · refine ⟨c, [], codesOf_of_isNarrow hc, ?_, by simp⟩
    rw [isContinuation, Bool.and_eq_false_iff, decide_eq_false_iff_not]
    exact .inl (Nat.not_le_of_lt hc)
  · have hwide : ¬ c.val.toNat ≤ 127 := fun hle => hc (Nat.lt_succ_of_le hle)
    -- The first byte carries the length in its upper bits, the others have the highest bit alone.
    simp only [codesOf, String.utf8EncodeChar, ← Bool.not_eq_true]
    rw [if_neg hwide]
    split_ifs <;> refine ⟨_, _, rfl, ?_, ?_⟩ <;>
      simp only [List.map_nil, List.map_cons, List.forall_mem_cons, isContinuation_toChar] <;>
      simp <;> omega

/-- Whether a character begins or the text ends at an offset, by the byte there. -/
def isBoundary (us : List Char) (i : ℕ) : Bool :=
  match us[i]? with
  | some u => i == 0 || !isContinuation u
  | none => i == us.length

@[simp] theorem isBoundary_zero (us : List Char) : isBoundary us 0 = true := by
  cases us <;> rfl

/-- Inside of a character there is no boundary. -/
theorem isBoundary_inside {c : Char} (h : n + 1 < (codesOf c).length) :
    isBoundary (codes (c :: cs)) (n + 1) = false := by
  obtain ⟨u, us, hcodes, -, hus⟩ := exists_codesOf_eq c
  rw [hcodes, List.length_cons, Nat.add_lt_add_iff_right] at h
  have hbyte : (codes (c :: cs))[n + 1]? = some us[n] := by
    rw [codes_cons, hcodes, List.cons_append, List.getElem?_cons_succ, List.getElem?_append_left h,
      List.getElem?_eq_getElem h]
  rw [isBoundary, hbyte]
  simp [hus _ (List.getElem_mem h)]

/-- Behind a character there are the boundaries of what follows. -/
theorem isBoundary_behind (c : Char) (cs : List Char) (n : ℕ) :
    isBoundary (codes (c :: cs)) ((codesOf c).length + n) = isBoundary (codes cs) n := by
  have hpos : 0 < (codesOf c).length := List.length_pos_iff.2 (codesOf_ne_nil c)
  have hbyte : (codes (c :: cs))[(codesOf c).length + n]? = (codes cs)[n]? := by
    rw [codes_cons, List.getElem?_append_right (by omega), Nat.add_sub_cancel_left]
  rw [isBoundary, isBoundary, hbyte, codes_cons, List.length_append]
  cases cs with
  | nil => simp
  | cons c' cs =>
    cases n with
    | zero =>
      obtain ⟨u, us, hcodes, hu, -⟩ := exists_codesOf_eq c'
      rw [codes_cons, hcodes]
      simp [hu]
    | succ n => split <;> simp

/-- The boundaries are the offsets where the text can be cut. -/
theorem isBoundary_codes (cs : List Char) (n : ℕ) :
    isBoundary (codes cs) n = (cutAt? n cs).isSome := by
  fun_induction cutAt? n cs with
  | case1 cs => exact isBoundary_zero _
  | case2 n => simp [isBoundary]
  | case3 n c cs hle ih =>
    rw [Option.isSome_map, ← ih, ← isBoundary_behind c cs, Nat.add_sub_cancel' hle]
  | case4 n c cs hlt => exact isBoundary_inside (Nat.lt_of_not_le hlt)

theorem isBoundary_codes_iff :
    isBoundary (codes cs) n = true ↔ ∃ l, l <+: cs ∧ n = (codes l).length := by
  rw [isBoundary_codes, Option.isSome_iff_exists]
  constructor
  · rintro ⟨⟨l, r⟩, h⟩
    obtain ⟨rfl, hn⟩ := cutAt?_eq_some_iff.1 h
    exact ⟨l, List.prefix_append l r, hn⟩
  · rintro ⟨l, ⟨r, rfl⟩, hn⟩
    exact ⟨(l, r), cutAt?_eq_some_iff.2 ⟨rfl, hn⟩⟩

/-- A start has no more bytes than the text. -/
theorem length_codes_le_of_prefix {l r : List Char} (h : l <+: r) :
    (codes l).length ≤ (codes r).length := by
  obtain ⟨rest, rfl⟩ := h
  rw [codes_append, List.length_append]
  omega

/-! ### The search for a boundary -/

/-- The last boundary up to an offset, by going back one byte after the other. -/
def walkBack (us : List Char) (i : ℕ) : ℕ :=
  if 0 < i ∧ isBoundary us i = false then walkBack us (i - 1) else i
termination_by i

theorem isGreatest_walkBack (us : List Char) (n : ℕ) :
    IsGreatest {i | i ≤ n ∧ isBoundary us i = true} (walkBack us n) := by
  fun_induction walkBack us n with
  | case1 n h ih =>
    obtain ⟨⟨hle, hboundary⟩, hgreatest⟩ := ih
    refine ⟨⟨by omega, hboundary⟩, ?_⟩
    rintro i ⟨hi, hib⟩
    -- No boundary is passed over.
    have hne : i ≠ n := by
      rintro rfl
      rw [h.2] at hib
      cases hib
    exact hgreatest ⟨by omega, hib⟩
  | case2 n h =>
    refine ⟨⟨Nat.le_refl n, ?_⟩, fun i hi => hi.1⟩
    rcases Nat.eq_zero_or_pos n with rfl | hpos
    · exact isBoundary_zero us
    · simpa [hpos] using h

end Text

namespace StatementLog

open Text (codes codes_cons codes_nil codesOf slice slice_eq_ok_iff walkBack isGreatest_walkBack
  isBoundary_codes_iff length_codes length_codes_le_of_prefix)

variable {n : ℕ} {cs l : List Char}

/-- The starts of what is kept of a text are the starts of the text that fit. -/
theorem prefix_takeBytes_iff : l <+: takeBytes n cs ↔ l <+: cs ∧ (codes l).length ≤ n := by
  have hsize : ∀ c, (codesOf c).length = c.utf8Size := fun c => by
    rw [codesOf, List.length_map, String.length_utf8EncodeChar]
  fun_induction takeBytes n cs generalizing l with
  | case1 n =>
    -- Nothing is left to take.
    rw [List.prefix_nil]
    exact ⟨fun h => ⟨h, by simp [h]⟩, fun h => h.1⟩
  | case2 n c cs hle ih =>
    -- The first character fits, and takes its bytes from what is left.
    cases l with
    | nil => simp
    | cons c' l =>
      rw [List.cons_prefix_cons, List.cons_prefix_cons, and_assoc]
      refine and_congr_right fun hc => ih.trans (and_congr_right fun _ => ?_)
      rw [codes_cons, List.length_append, hc, hsize]
      omega
  | case3 n c cs hlt =>
    -- The first character does not fit, so only the empty start does.
    rw [List.prefix_nil]
    constructor
    · rintro rfl
      simp
    · rintro ⟨hstart, hfits⟩
      cases l with
      | nil => rfl
      | cons c' l =>
        rw [codes_cons, List.length_append, (List.cons_prefix_cons.1 hstart).1, hsize] at hfits
        omega

theorem takeBytes_prefix (n : ℕ) (cs : List Char) : takeBytes n cs <+: cs :=
  (prefix_takeBytes_iff.1 List.prefix_rfl).1

theorem length_codes_takeBytes_le (n : ℕ) (cs : List Char) :
    (codes (takeBytes n cs)).length ≤ n :=
  (prefix_takeBytes_iff.1 List.prefix_rfl).2

/-- The search ends where the longest start that fits does. -/
theorem walkBack_codes (n : ℕ) (cs : List Char) :
    walkBack (codes cs) n = (codes (takeBytes n cs)).length := by
  refine (isGreatest_walkBack (codes cs) n).unique ⟨⟨length_codes_takeBytes_le n cs, ?_⟩, ?_⟩
  · exact isBoundary_codes_iff.2 ⟨_, takeBytes_prefix n cs, rfl⟩
  · rintro i ⟨hi, hboundary⟩
    obtain ⟨l, hl, rfl⟩ := isBoundary_codes_iff.1 hboundary
    exact length_codes_le_of_prefix (prefix_takeBytes_iff.2 ⟨hl, hi⟩)

/-- A statement as it is logged: cut at the boundary that the search finds, with dots, if it exceeds
the bound on its bytes. -/
def truncateByOffsets (log : StatementLog) (sql : String) : Except (Text.Stop Empty) String :=
  match log.maxLength with
  | some n =>
    if n < sql.utf8ByteSize then
      (slice sql.toList 0 (walkBack (codes sql.toList) n)).map fun kept =>
        String.ofList kept ++ "..."
    else .ok sql
  | none => .ok sql

/-- It is never cut inside of a character. -/
theorem truncateByOffsets_eq (log : StatementLog) (sql : String) :
    log.truncateByOffsets sql = .ok (log.truncate sql) := by
  have hslice (n : ℕ) : (slice sql.toList 0 (walkBack (codes sql.toList) n) :
      Except (Text.Stop Empty) (List Char)) = .ok (takeBytes n sql.toList) := by
    obtain ⟨rest, hrest⟩ := takeBytes_prefix n sql.toList
    exact slice_eq_ok_iff.2 ⟨[], rest, hrest.symm, rfl, walkBack_codes n sql.toList⟩
  rw [truncateByOffsets, truncate]
  cases log.maxLength with
  | none => rfl
  | some n =>
    simp only [hslice]
    split <;> rfl

theorem truncate_of_fits {log : StatementLog} {sql : String}
    (h : ∀ n, log.maxLength = some n → sql.utf8ByteSize ≤ n) : log.truncate sql = sql := by
  rw [truncate]
  split
  · rename_i n hn
    exact if_neg (Nat.not_lt.2 (h n hn))
  · rfl

theorem truncate_of_exceeds {log : StatementLog} {sql : String} (hmax : log.maxLength = some n)
    (h : n < sql.utf8ByteSize) :
    log.truncate sql = String.ofList (takeBytes n sql.toList) ++ "..." := by
  rw [truncate, hmax]
  exact if_pos h

/-- A statement is logged as it is if it has no more bytes than it may have, or there is no bound.
Any other one is logged as the longest start of it, in whole characters, that has no more bytes than
that, with dots behind it. The search for the end of this start goes back to where a character
begins, and never cuts one. -/
theorem truncated_at_longest (log : StatementLog) (sql : String) :
    ((∀ n, log.maxLength = some n → sql.utf8ByteSize ≤ n) → log.truncate sql = sql) ∧
    (∀ n, log.maxLength = some n → n < sql.utf8ByteSize →
      ∃ kept : String, log.truncate sql = kept ++ "..." ∧ kept.toList <+: sql.toList ∧
        kept.utf8ByteSize ≤ n ∧
        ∀ start : String, start.toList <+: sql.toList → start.utf8ByteSize ≤ n →
          start.toList <+: kept.toList) ∧
    log.truncateByOffsets sql = .ok (log.truncate sql) := by
  refine ⟨truncate_of_fits, fun n hmax h => ?_, truncateByOffsets_eq log sql⟩
  refine ⟨_, truncate_of_exceeds hmax h, ?_, ?_, fun start hstart hfits => ?_⟩
  · rw [String.toList_ofList]
    exact takeBytes_prefix n sql.toList
  · rw [← length_codes]
    exact length_codes_takeBytes_le n sql.toList
  · rw [String.toList_ofList, prefix_takeBytes_iff, length_codes, String.ofList_toList]
    exact ⟨hstart, hfits⟩

/-- Three characters of four bytes that may have seven. -/
example : ({ maxLength := some 7 } : StatementLog).truncate "😀😀😀" = "😀..." := by decide

end StatementLog

end BoundSql

import BoundSql.Bytes
import BoundSql.Dialect
import BoundSql.Proofs.Text.Blank
import BoundSql.Proofs.Text.Delimited
import BoundSql.Text.Word
import Mathlib.Data.Char
import Mathlib.Data.UInt

/-! # Text by byte offsets
A scanner may take a text apart by the offsets of its bytes in UTF-8, where there need not begin a
character, or be anything at all. What it does with an offset is checked here.
* **`codes`** — the bytes of a text. Those of a character outside of ASCII are told from all
  characters of ASCII, and that is all that is known of them.
* **`byteAt`**, **`slice`** — a byte, and the text between two offsets.
* **`runEnd`**, **`closingEnd`** — where a run of characters and a delimited text end.
* **`sweep`** — a scan pass by pass, which is stopped if a pass does not get on.
* **`Cursor.At`** — what a scan has done in front of a place of the text. -/

namespace BoundSql.Text

/-! ### The bytes of a text -/

/-- The bytes of a character, each as the character with its code. -/
def codesOf (c : Char) : List Char := (String.utf8EncodeChar c).map UInt8.toChar

/-- The bytes of a text, each as the character with its code. -/
def codes (cs : List Char) : List Char := cs.flatMap codesOf

/-- They are the bytes of the text in UTF-8. -/
theorem codes_eq (cs : List Char) : codes cs = (textBytes (String.ofList cs)).map UInt8.toChar := by
  rw [codes, textBytes, String.toList_ofList, List.map_flatMap]
  rfl

@[simp] theorem codes_nil : codes [] = [] := rfl

theorem codes_append (l r : List Char) : codes (l ++ r) = codes l ++ codes r :=
  List.flatMap_append

theorem codes_cons (c : Char) (cs : List Char) : codes (c :: cs) = codesOf c ++ codes cs :=
  List.flatMap_cons

theorem length_codes (cs : List Char) : (codes cs).length = (String.ofList cs).utf8ByteSize := by
  induction cs with
  | nil => rfl
  | cons c cs ih =>
    rw [codes_cons, List.length_append, ih, codesOf, List.length_map, String.length_utf8EncodeChar,
      String.ofList_cons, String.utf8ByteSize_append, String.utf8ByteSize_singleton]

/-- Whether a character is in ASCII. -/
def IsNarrow (c : Char) : Prop := c.toNat < 128

instance (c : Char) : Decidable (IsNarrow c) := inferInstanceAs (Decidable (_ < _))

/-- A character of ASCII is its own byte. -/
theorem codesOf_of_isNarrow {c : Char} (h : IsNarrow c) : codesOf c = [c] := by
  have hbyte : String.utf8EncodeChar c = [c.toNat.toUInt8] := if_pos (Nat.le_of_lt_succ h)
  have hnumber : c.toNat.toUInt8.toNat = c.toNat := Nat.mod_eq_of_lt (Nat.lt_trans h (by decide))
  rw [codesOf, hbyte, List.map_singleton, List.singleton_inj, ← Char.toNat_inj]
  exact hnumber

/-- The bytes of any other character are no characters of ASCII. -/
theorem not_isNarrow_of_mem_codesOf {c u : Char} (h : ¬ IsNarrow c) (hu : u ∈ codesOf c) :
    ¬ IsNarrow u := by
  obtain ⟨b, hb, rfl⟩ := List.mem_map.1 hu
  show ¬ b.toNat < 128
  have hwide : ¬ c.val.toNat ≤ 127 := fun hle => h (Nat.lt_succ_of_le hle)
  -- The first byte carries the length in its upper bits, all others have the highest bit alone.
  simp only [String.utf8EncodeChar] at hb
  rw [if_neg hwide] at hb
  split_ifs at hb <;> simp only [List.mem_cons, List.not_mem_nil, or_false] at hb <;>
    rcases hb with rfl | rfl | rfl | rfl <;> simp <;> omega

theorem codesOf_ne_nil (c : Char) : codesOf c ≠ [] := by
  rw [codesOf, Ne, List.map_eq_nil_iff]
  exact String.utf8EncodeChar_ne_nil

theorem codes_cons_of_isNarrow {c : Char} (h : IsNarrow c) (cs : List Char) :
    codes (c :: cs) = c :: codes cs := by
  rw [codes_cons, codesOf_of_isNarrow h, List.singleton_append]

theorem codes_eq_nil_iff {cs : List Char} : codes cs = [] ↔ cs = [] := by
  cases cs with
  | nil => simp
  | cons c cs => simp [codes_cons, codesOf_ne_nil]

/-- A character of ASCII is one byte more. -/
theorem length_codes_concat {c : Char} (h : IsNarrow c) (cs : List Char) :
    (codes (cs ++ [c])).length = (codes cs).length + 1 := by
  rw [codes_append, List.length_append, codes_cons_of_isNarrow h, codes_nil, List.length_singleton]

theorem some_eq_some_iff_of_wide {a c u : Char} (ha : IsNarrow a) (hu : ¬ IsNarrow u)
    (hc : ¬ IsNarrow c) : some u = some a ↔ some c = some a :=
  iff_of_false (fun he => hu (Option.some.inj he ▸ ha)) fun he => hc (Option.some.inj he ▸ ha)

/-- A text begins with a character of ASCII if its bytes do. -/
theorem head?_codes_eq_some_iff {a : Char} (h : IsNarrow a) (cs : List Char) :
    (codes cs).head? = some a ↔ cs.head? = some a := by
  cases cs with
  | nil => rfl
  | cons c cs =>
    by_cases hc : IsNarrow c
    · rw [codes_cons_of_isNarrow hc, List.head?_cons, List.head?_cons]
    · -- The first byte of another character is not in ASCII.
      obtain ⟨u, us, hus⟩ := List.exists_cons_of_ne_nil (codesOf_ne_nil c)
      have hu : ¬ IsNarrow u := not_isNarrow_of_mem_codesOf hc (by simp [hus])
      rw [codes_cons, hus, List.cons_append, List.head?_cons, List.head?_cons]
      exact some_eq_some_iff_of_wide h hu hc

/-- It ends in one if its bytes do. -/
theorem getLast?_codes_eq_some_iff {a : Char} (h : IsNarrow a) (cs : List Char) :
    (codes cs).getLast? = some a ↔ cs.getLast? = some a := by
  rcases List.eq_nil_or_concat cs with rfl | ⟨cs, c, rfl⟩
  · rfl
  · rw [List.concat_eq_append, codes_append, codes_cons, codes_nil, List.append_nil,
      List.getLast?_concat]
    by_cases hc : IsNarrow c
    · rw [codesOf_of_isNarrow hc, List.getLast?_concat]
    · obtain ⟨us, u, hus⟩ := (List.eq_nil_or_concat (codesOf c)).resolve_left (codesOf_ne_nil c)
      have hu : ¬ IsNarrow u := not_isNarrow_of_mem_codesOf hc (by simp [hus])
      rw [hus, List.concat_eq_append, ← List.append_assoc, List.getLast?_concat]
      exact some_eq_some_iff_of_wide h hu hc

/-- Offsets grow with the text in front of them. -/
theorem length_codes_lt {part : List Char} (hne : part ≠ []) (front : List Char) :
    (codes front).length < (codes (front ++ part)).length := by
  have hpos := List.length_pos_iff.2 (mt codes_eq_nil_iff.1 hne)
  rw [codes_append, List.length_append]
  omega

theorem isNarrow_quoteChar (d : Dialect) : IsNarrow d.quoteChar := by cases d <;> decide

theorem isNarrow_of_opensLiteral {d : Dialect} {c : Char} (h : d.opensLiteral c = true) :
    IsNarrow c ∧ c ≠ '\\' := by
  rw [Dialect.opensLiteral, Bool.or_eq_true, Bool.and_eq_true, beq_iff_eq, beq_iff_eq] at h
  rcases h with rfl | ⟨rfl, -⟩ <;> decide

/-- A mark is a byte of no other character. -/
theorem ne_of_mem_codesOf {c u mark : Char} (hmark : IsNarrow mark) (hu : u ∈ codesOf c)
    (hne : c ≠ mark) : u ≠ mark := by
  by_cases hc : IsNarrow c
  · rw [codesOf_of_isNarrow hc, List.mem_singleton] at hu
    rwa [hu]
  · exact fun he => not_isNarrow_of_mem_codesOf hc hu (he ▸ hmark)

theorem opensLiteral_of_mem_codesOf {d : Dialect} {c u : Char} (hu : u ∈ codesOf c)
    (hl : d.opensLiteral c = false) : d.opensLiteral u = false := by
  by_cases hc : IsNarrow c
  · rw [codesOf_of_isNarrow hc, List.mem_singleton] at hu
    rwa [hu]
  · exact Bool.eq_false_iff.2 fun hopens =>
      not_isNarrow_of_mem_codesOf hc hu (isNarrow_of_opensLiteral hopens).1

/-! ### Runs and delimited text in bytes -/

/-- Whether a class of characters does not tell those outside of ASCII apart. -/
def IsUniform (p : Char → Bool) : Prop := ∀ c u, ¬ IsNarrow c → ¬ IsNarrow u → p c = p u

theorem isUniform_of_isNarrow {p : Char → Bool} (h : ∀ c, p c = true → IsNarrow c) :
    IsUniform p := by
  intro c u hc hu
  rw [Bool.eq_false_iff.2 (mt (h c) hc), Bool.eq_false_iff.2 (mt (h u) hu)]

theorem isUniform_isDigit : IsUniform Char.isDigit :=
  isUniform_of_isNarrow fun _ hc => Nat.lt_of_le_of_lt (toNat_of_isDigit hc).2 (by decide)

theorem isUniform_isWordChar : IsUniform isWordChar :=
  isUniform_of_isNarrow fun _ hc => Nat.lt_of_le_of_lt (toNat_of_isWordChar hc).2 (by decide)

theorem isUniform_ne {q : Char} (hq : IsNarrow q) : IsUniform (· ≠ q) := by
  have hne : ∀ c, ¬ IsNarrow c → decide (c ≠ q) = true := fun c hc =>
    decide_eq_true fun he => hc (he ▸ hq)
  exact fun c u hc hu => (hne c hc).trans (hne u hu).symm

/-- The run at the start of the bytes is that of the text. -/
theorem takeWhile_codes {p : Char → Bool} (hp : IsUniform p) (cs : List Char) :
    (codes cs).takeWhile p = codes (cs.takeWhile p) := by
  induction cs with
  | nil => rfl
  | cons c cs ih =>
    by_cases hc : IsNarrow c
    · rw [codes_cons_of_isNarrow hc, List.takeWhile_cons, List.takeWhile_cons, ih]
      split
      · rw [codes_cons_of_isNarrow hc]
      · rfl
    · -- All bytes of the character are in the class, or none of them.
      have hall : ∀ u ∈ codesOf c, p u = p c := fun u hu =>
        hp u c (not_isNarrow_of_mem_codesOf hc hu) hc
      rw [codes_cons, List.takeWhile_cons]
      split
      · rename_i h
        rw [List.takeWhile_append_of_pos fun u hu => (hall u hu).trans h, ih, codes_cons]
      · rename_i h
        obtain ⟨u, us, hus⟩ := List.exists_cons_of_ne_nil (codesOf_ne_nil c)
        rw [hus, List.cons_append, List.takeWhile_cons_of_neg, codes_nil]
        rwa [hall u (by simp [hus])]

/-- Characters outside of ASCII stand inside of delimited text, and so do their bytes. -/
theorem Closes.of_wide {backslash : Bool} {q : Char} (hq : IsNarrow q) {us body rest : List Char}
    (hus : ∀ u ∈ us, ¬ IsNarrow u) (h : Closes backslash q body rest) :
    Closes backslash q (us ++ body) rest := by
  induction us with
  | nil => exact h
  | cons u us ih =>
    obtain ⟨hu, hus⟩ := List.forall_mem_cons.1 hus
    refine .inside ?_ ?_ (ih hus)
    · rintro rfl
      exact hu hq
    · rintro ⟨-, rfl⟩
      exact hu (by decide)

/-- Delimited text ends where its bytes end. -/
theorem Closes.codes {backslash : Bool} {q : Char} (hq : IsNarrow q) {body rest : List Char}
    (h : Closes backslash q body rest) : Closes backslash q (codes body) (codes rest) := by
  induction h with
  | delimiter single =>
    rw [codes_cons_of_isNarrow hq, codes_nil]
    exact .delimiter (mt (head?_codes_eq_some_iff hq _).1 single)
  | doubled tail ih =>
    rw [codes_cons_of_isNarrow hq, codes_cons_of_isNarrow hq]
    exact .doubled ih
  | escaped on c tail ih =>
    rw [codes_cons_of_isNarrow (by decide), codes_cons]
    -- The escape takes the first byte along. The others, if there are any, stand inside anyway.
    obtain ⟨u, us, hus⟩ := List.exists_cons_of_ne_nil (codesOf_ne_nil c)
    rw [hus, List.cons_append]
    refine .escaped on u (ih.of_wide hq fun u' hu' => ?_)
    by_cases hc : IsNarrow c
    · rw [codesOf_of_isNarrow hc] at hus
      obtain ⟨-, rfl⟩ := List.cons.inj hus
      cases hu'
    · exact not_isNarrow_of_mem_codesOf hc (by simp [hus, hu'])
  | @inside body rest c noDelimiter noEscape tail ih =>
    by_cases hc : IsNarrow c
    · rw [codes_cons_of_isNarrow hc]
      exact .inside noDelimiter noEscape ih
    · rw [codes_cons]
      exact ih.of_wide hq fun u hu => not_isNarrow_of_mem_codesOf hc hu
  | runsOut => exact .runsOut
  | dangling on =>
    rw [codes_cons_of_isNarrow (by decide), codes_nil]
    exact .dangling on

/-! ### Bytes and parts of a text -/

/-- Why a scan stops. -/
inductive Stop (ε : Type)
  /-- The text is refused. -/
  | refused (cause : ε)
  /-- A byte is read, or a part ends, outside of the text. -/
  | outside
  /-- A part begins or ends inside of a character. -/
  | insideCharacter
  /-- A part begins behind its end. -/
  | crossed
  /-- A pass does not get on. -/
  | stalled
  deriving DecidableEq, Repr

variable {ε : Type} {cs front rest : List Char}

theorem ok_bind {α β : Type} (a : α) (f : α → Except (Stop ε) β) : Except.ok a >>= f = f a := rfl

theorem bind_eq_ok_iff {α β : Type} {x : Except (Stop ε) α} {f : α → Except (Stop ε) β} {b : β} :
    x >>= f = .ok b ↔ ∃ a, x = .ok a ∧ f a = .ok b := by
  cases x with
  | error stop => exact iff_of_false (fun h => by cases h) fun ⟨_, h, _⟩ => by cases h
  | ok a =>
    rw [ok_bind]
    exact ⟨fun h => ⟨a, rfl, h⟩, fun ⟨_, ha, h⟩ => Except.ok.inj ha ▸ h⟩

/-- The byte at an offset, which must lie in the text. -/
def byteAt (cs : List Char) (i : ℕ) : Except (Stop ε) Char :=
  match (codes cs)[i]? with
  | some u => .ok u
  | none => .error .outside

theorem lt_of_byteAt_eq_ok {i : ℕ} {u : Char}
    (h : (byteAt cs i : Except (Stop ε) Char) = .ok u) : i < (codes cs).length := by
  rw [byteAt] at h
  split at h
  · rename_i hi
    exact (List.getElem?_eq_some_iff.1 hi).1
  · cases h

/-- The two parts of a text in front of and behind an offset, if a character begins or the text ends
there. -/
def cutAt? : ℕ → List Char → Option (List Char × List Char)
  | 0, cs => some ([], cs)
  | _ + 1, [] => none
  | n + 1, c :: cs =>
    if (codesOf c).length ≤ n + 1 then
      (cutAt? (n + 1 - (codesOf c).length) cs).map fun parts => (c :: parts.1, parts.2)
    else none

/-- The part of a text between two offsets, which must be in order and lie between characters. -/
def slice (cs : List Char) (first last : ℕ) : Except (Stop ε) (List Char) :=
  if last < first then .error .crossed
  else if (codes cs).length < last then .error .outside
  else
    match cutAt? last cs with
    | none => .error .insideCharacter
    | some (front, _) =>
      match cutAt? first front with
      | none => .error .insideCharacter
      | some (_, part) => .ok part

/-- A text is cut exactly where the bytes of a front part end. -/
theorem cutAt?_eq_some_iff {n : ℕ} {l r : List Char} :
    cutAt? n cs = some (l, r) ↔ cs = l ++ r ∧ n = (codes l).length := by
  have hpos : ∀ c, 0 < (codesOf c).length := fun c => List.length_pos_iff.2 (codesOf_ne_nil c)
  fun_induction cutAt? n cs generalizing l r with
  | case1 cs =>
    -- The offset is reached. As every character has a byte, nothing is in front of it.
    rw [Option.some_inj, Prod.mk.injEq, eq_comm, eq_comm (a := (0 : ℕ)), List.length_eq_zero_iff,
      codes_eq_nil_iff]
    constructor
    · rintro ⟨rfl, rfl⟩
      exact ⟨rfl, rfl⟩
    · rintro ⟨rfl, rfl⟩
      exact ⟨rfl, rfl⟩
  | case2 n =>
    -- The text ends in front of the offset.
    refine iff_of_false (fun h => by cases h) ?_
    rintro ⟨htext, hn⟩
    rw [(List.append_eq_nil_iff.1 htext.symm).1] at hn
    cases hn
  | case3 n c cs hle ih =>
    -- The first character lies in front of the offset.
    rw [Option.map_eq_some_iff]
    constructor
    · rintro ⟨⟨l', r'⟩, hcut, hparts⟩
      obtain ⟨rfl, hn⟩ := ih.1 hcut
      obtain ⟨rfl, rfl⟩ := Prod.mk.inj hparts
      rw [codes_cons, List.length_append, ← hn]
      exact ⟨rfl, by omega⟩
    · rintro ⟨htext, hn⟩
      cases l with
      | nil => cases hn
      | cons c' l =>
        obtain ⟨rfl, rfl⟩ := List.cons.inj htext
        rw [codes_cons, List.length_append] at hn
        exact ⟨(l, r), ih.2 ⟨rfl, by omega⟩, rfl⟩
  | case4 n c cs hlt =>
    -- The offset lies inside of the first character.
    refine iff_of_false (fun h => by cases h) ?_
    rintro ⟨htext, hn⟩
    cases l with
    | nil => cases hn
    | cons c' l =>
      obtain ⟨rfl, rfl⟩ := List.cons.inj htext
      rw [codes_cons, List.length_append] at hn
      omega

/-- A part is cut out exactly where its bytes lie. -/
theorem slice_eq_ok_iff {first last : ℕ} {part : List Char} :
    (slice cs first last : Except (Stop ε) (List Char)) = .ok part ↔ ∃ l r,
      cs = l ++ part ++ r ∧ first = (codes l).length ∧ last = (codes (l ++ part)).length := by
  -- The text is cut at its later offset, and what is in front of that at the earlier one.
  rw [slice]
  constructor
  · intro h
    split at h
    · cases h
    split at h
    · cases h
    split at h
    · cases h
    rename_i front r hlast
    split at h
    · cases h
    rename_i l part' hfirst
    obtain rfl := Except.ok.inj h
    obtain ⟨rfl, rfl⟩ := cutAt?_eq_some_iff.1 hlast
    obtain ⟨rfl, rfl⟩ := cutAt?_eq_some_iff.1 hfirst
    exact ⟨l, r, rfl, rfl, rfl⟩
  · rintro ⟨l, r, rfl, rfl, rfl⟩
    have horder : ¬ (codes (l ++ part)).length < (codes l).length := by
      rw [codes_append, List.length_append]
      omega
    have hinside : ¬ (codes (l ++ part ++ r)).length < (codes (l ++ part)).length := by
      rw [codes_append (l ++ part), List.length_append]
      omega
    rw [if_neg horder, if_neg hinside, cutAt?_eq_some_iff.2 ⟨rfl, rfl⟩]
    simp only
    rw [cutAt?_eq_some_iff.2 ⟨rfl, rfl⟩]

/-- The byte at a place of a text is the first one of what follows. -/
theorem getElem?_codes_append (front rest : List Char) :
    (codes (front ++ rest))[(codes front).length]? = (codes rest).head? := by
  rw [codes_append, List.getElem?_append_right (Nat.le_refl _), Nat.sub_self,
    List.head?_eq_getElem?]

theorem byteAt_append {c : Char} (h : IsNarrow c) (front rest : List Char) :
    (byteAt (front ++ c :: rest) (codes front).length : Except (Stop ε) Char) = .ok c := by
  rw [byteAt, getElem?_codes_append, codes_cons_of_isNarrow h]
  rfl

/-- Whether there is a colon in front of an offset. -/
def colonBefore (cs : List Char) (i : ℕ) : Except (Stop ε) Bool :=
  if i = 0 then .ok false else (byteAt cs (i - 1)).map (· == ':')

theorem colonBefore_append (front rest : List Char) :
    (colonBefore (front ++ rest) (codes front).length : Except (Stop ε) Bool) =
      .ok (front.getLast? == some ':') := by
  rcases List.eq_nil_or_concat (codes front) with hnil | ⟨us, u, hus⟩
  · rw [colonBefore, hnil, codes_eq_nil_iff.1 hnil]
    rfl
  · have hlast : (codes front).getLast? = some u := by
      rw [hus, List.concat_eq_append, List.getLast?_concat]
    have hbyte : (codes (front ++ rest))[(codes front).length - 1]? = some u := by
      rw [codes_append, hus]
      simp
    have hcolon : (u == ':') = (front.getLast? == some ':') := by
      rw [Bool.eq_iff_iff, beq_iff_eq, beq_iff_eq,
        ← getLast?_codes_eq_some_iff (show IsNarrow ':' by decide), hlast, Option.some_inj]
    rw [colonBefore, if_neg (by rw [hus]; simp), byteAt, hbyte, ← hcolon]
    rfl

/-! ### Ends of runs and of delimited text -/

/-- Where the run of characters of a class that begins at an offset ends. -/
def runEnd (p : Char → Bool) (us : List Char) (i : ℕ) : ℕ :=
  if h : i < us.length then if p us[i] then runEnd p us (i + 1) else i else i
termination_by us.length - i

/-- Where the delimited text that goes on at an offset is closed. An escape at the end of the text
leads behind it. -/
def closingEnd (backslash : Bool) (q : Char) (us : List Char) (i : ℕ) : ℕ :=
  if h : i < us.length then
    if backslash && us[i] == '\\' then closingEnd backslash q us (i + 2)
    else if us[i] == q && us[i + 1]? == some q then closingEnd backslash q us (i + 2)
    else if us[i] == q then i + 1
    else closingEnd backslash q us (i + 1)
  else us.length
termination_by us.length - i

theorem runEnd_eq (p : Char → Bool) (us : List Char) (i : ℕ) :
    runEnd p us i = i + ((us.drop i).takeWhile p).length := by
  fun_induction runEnd p us i with
  | case1 i h hp ih =>
    rw [ih, List.drop_eq_getElem_cons h, List.takeWhile_cons_of_pos hp, List.length_cons]
    omega
  | case2 i h hp =>
    rw [List.drop_eq_getElem_cons h, List.takeWhile_cons_of_neg hp]
    rfl
  | case3 i h =>
    rw [List.drop_eq_nil_of_le (Nat.le_of_not_lt h)]
    rfl

/-- A run that begins at a place of a text ends at one. -/
theorem runEnd_append {p : Char → Bool} (hp : IsUniform p) (front rest : List Char) :
    runEnd p (codes (front ++ rest)) (codes front).length =
      (codes (front ++ rest.takeWhile p)).length := by
  rw [runEnd_eq, codes_append, List.drop_left, takeWhile_codes hp, codes_append, List.length_append]

/-- One step of the search for the end of delimited text. -/
theorem closingEnd_append_cons (backslash : Bool) (q c : Char) (us vs : List Char) :
    closingEnd backslash q (us ++ c :: vs) us.length =
      if backslash && c == '\\' then closingEnd backslash q (us ++ c :: vs) (us.length + 2)
      else if c == q && vs.head? == some q then
        closingEnd backslash q (us ++ c :: vs) (us.length + 2)
      else if c == q then us.length + 1
      else closingEnd backslash q (us ++ c :: vs) (us.length + 1) := by
  have hlt : us.length < (us ++ c :: vs).length := by simp
  have hthis : (us ++ c :: vs)[us.length] = c := by simp
  have hnext : (us ++ c :: vs)[us.length + 1]? = vs.head? := by
    rw [List.getElem?_append_right (by omega), Nat.add_sub_cancel_left, List.getElem?_cons_succ,
      List.head?_eq_getElem?]
  rw [closingEnd, dif_pos hlt, hthis, hnext]

/-- Delimited text ends where the grammar says. -/
theorem closingEnd_of_closes {backslash : Bool} {q : Char} (hq : backslash = true → q ≠ '\\')
    {body rest : List Char} (h : Closes backslash q body rest) (us : List Char) :
    closingEnd backslash q (us ++ (body ++ rest)) us.length = (us ++ body).length := by
  have hdelimiter : (backslash && q == '\\') = false := by
    cases backslash with
    | false => rfl
    | true => simpa using hq rfl
  -- What the search has left behind is kept in front, so that the offset is its length.
  induction h generalizing us with
  | @delimiter rest single =>
    rw [List.singleton_append, closingEnd_append_cons, hdelimiter, if_neg (by simp),
      if_neg (by simpa using single), if_pos (by simp), List.length_append, List.length_singleton]
  | @doubled body rest tail ih =>
    have hrest := ih (us ++ [q, q])
    rw [List.length_append, List.append_assoc, List.append_assoc] at hrest
    rw [List.cons_append, closingEnd_append_cons, hdelimiter, if_neg (by simp), if_pos (by simp)]
    exact hrest
  | @escaped body rest on c tail ih =>
    have hrest := ih (us ++ ['\\', c])
    rw [List.length_append, List.append_assoc, List.append_assoc] at hrest
    rw [List.cons_append, closingEnd_append_cons, if_pos (by simp [on])]
    exact hrest
  | @inside body rest c noDelimiter noEscape tail ih =>
    have hrest := ih (us ++ [c])
    rw [List.length_append, List.append_assoc, List.append_assoc] at hrest
    rw [List.cons_append, closingEnd_append_cons, if_neg (by simpa using noEscape),
      if_neg (by simp [noDelimiter]), if_neg (by simpa using noDelimiter)]
    exact hrest
  | runsOut =>
    rw [closingEnd, dif_neg (by simp)]
    rfl
  | dangling on =>
    rw [List.append_nil, closingEnd_append_cons, if_pos (by simp [on]), closingEnd,
      dif_neg (by simp)]

/-- The end of a delimited text is a place of the text. -/
theorem closingEnd_append {backslash : Bool} {q : Char} (hq : IsNarrow q)
    (hne : backslash = true → q ≠ '\\') {body rest : List Char} (h : Closes backslash q body rest)
    (front : List Char) :
    closingEnd backslash q (codes (front ++ (body ++ rest))) (codes front).length =
      (codes (front ++ body)).length := by
  rw [codes_append, codes_append body, codes_append front body]
  exact closingEnd_of_closes hne (h.codes hq) _

/-- The end of a run does not lie in front of its begin. -/
theorem le_runEnd (p : Char → Bool) (us : List Char) (i : ℕ) : i ≤ runEnd p us i := by
  rw [runEnd_eq]
  exact Nat.le_add_right _ _

/-- Nor does the end of a delimited text, if that begins in the text. -/
theorem le_closingEnd (backslash : Bool) (q : Char) (us : List Char) (i : ℕ) :
    min i us.length ≤ closingEnd backslash q us i := by
  fun_induction closingEnd backslash q us i with
  | case1 i h hescape ih => omega
  | case2 i h hescape hdoubled ih => omega
  | case3 i h hescape hdoubled hclose => omega
  | case4 i h hescape hdoubled hclose ih => omega
  | case5 i h => omega

/-! ### Scans -/

/-- What a scan has done so far. -/
structure Cursor (σ : Type) where
  /-- The offset it is at. -/
  position : ℕ
  /-- The offset up to which the text has been written out. -/
  copied : ℕ
  /-- What it has written. -/
  out : String
  /-- What else it has counted. -/
  state : σ
  deriving DecidableEq

variable {σ : Type}

/-- The cursor behind a part in place of which a text is written, after all that is left in front of
the part. The text may be refused, too. -/
def Cursor.replace (k : Cursor σ) (cs : List Char) (close : ℕ) (text : Except ε (String × σ)) :
    Except (Stop ε) (Cursor σ) := do
  let before ← slice cs k.copied k.position
  let (text, state) ← text.mapError .refused
  return ⟨close, close, k.out ++ String.ofList before ++ text, state⟩

theorem Cursor.position_of_replace {k k' : Cursor σ} {close : ℕ} {text : Except ε (String × σ)}
    (h : k.replace cs close text = .ok k') : k'.position = close := by
  obtain ⟨before, -, h⟩ := bind_eq_ok_iff.1 h
  obtain ⟨written, -, h⟩ := bind_eq_ok_iff.1 h
  rw [← Except.ok.inj h]

/-- The cursor at the end of a text, with passes that each move it on. -/
def sweep (cs : List Char) (pass : Cursor σ → Except (Stop ε) (Cursor σ)) (k : Cursor σ) :
    Except (Stop ε) (Cursor σ) :=
  if k.position < (codes cs).length then
    match pass k with
    | .error stop => .error stop
    | .ok k' => if k.position < k'.position then sweep cs pass k' else .error .stalled
  else .ok k
termination_by (codes cs).length - k.position

variable {pass : Cursor σ → Except (Stop ε) (Cursor σ)} {k k' : Cursor σ}

/-- A pass that gets on is followed by the others. -/
theorem sweep_of_pass (h : k.position < (codes cs).length) (hpass : pass k = .ok k')
    (hlt : k.position < k'.position) : sweep cs pass k = sweep cs pass k' := by
  rw [sweep, if_pos h, hpass]
  exact if_pos hlt

/-- A pass that stops ends the scan. -/
theorem sweep_of_stop (h : k.position < (codes cs).length) {stop : Stop ε}
    (hpass : pass k = .error stop) : sweep cs pass k = .error stop := by
  rw [sweep, if_pos h, hpass]

theorem sweep_of_le (h : (codes cs).length ≤ k.position) : sweep cs pass k = .ok k := by
  rw [sweep, if_neg (Nat.not_lt.2 h)]

/-- Bytes at which nothing is done are passed one by one. -/
theorem sweep_of_inert {part : List Char} (hcs : cs = front ++ (part ++ rest))
    (hk : k.position = (codes front).length)
    (hpass : ∀ (k : Cursor σ) (u : Char), u ∈ codes part → (codes cs)[k.position]? = some u →
      pass k = .ok { k with position := k.position + 1 }) :
    sweep cs pass k = sweep cs pass { k with position := (codes (front ++ part)).length } := by
  have htext : codes cs = codes front ++ (codes part ++ codes rest) := by
    rw [hcs, codes_append, codes_append]
  rw [codes_append]
  -- The induction is on the bytes, since a pass may end inside of a character.
  generalize codes part = vs at htext hpass ⊢
  generalize codes front = us at htext hk ⊢
  induction vs generalizing us k with
  | nil => rw [List.append_nil, ← hk]
  | cons v vs ih =>
    have hthis : (codes cs)[k.position]? = some v := by
      rw [htext, hk]
      simp
    obtain ⟨hlt, -⟩ := List.getElem?_eq_some_iff.1 hthis
    have hnext : codes cs = (us ++ [v]) ++ (vs ++ codes rest) := by rw [htext]; simp
    rw [sweep_of_pass hlt (hpass k v List.mem_cons_self hthis) (Nat.lt_succ_self _),
      ih (fun k u hu => hpass k u (List.mem_cons_of_mem v hu)) _ hnext (by rw [hk]; simp)]
    simp

/-- Whether a cursor is at the place of a text between `front` and `rest`, having shown `shown` in
place of `front`, if what is left of that is copied. At the end it may have been moved too far. -/
structure Cursor.At (k : Cursor σ) (cs front rest : List Char) (shown : String) : Prop where
  /-- The two parts make up the text. -/
  text : cs = front ++ rest
  /-- The offset is where they meet. -/
  position : rest ≠ [] → k.position = (codes front).length
  /-- It is not in front of that. -/
  reached : (codes front).length ≤ k.position
  /-- What has not been written yet is to be copied. -/
  copied : ∃ done pending, front = done ++ pending ∧ k.copied = (codes done).length ∧
    shown = k.out ++ String.ofList pending

namespace Cursor.At

variable {part : List Char} {shown text : String} {state : σ}

theorem position_lt (h : k.At cs front rest shown) (hne : rest ≠ []) :
    k.position < (codes cs).length := by
  have hpos : 0 < (codes rest).length := List.length_pos_iff.2 (mt codes_eq_nil_iff.1 hne)
  rw [h.position hne, h.text, codes_append, List.length_append]
  omega

/-- The byte that a character of ASCII is read as. -/
theorem byteAt_eq {c : Char} (hc : IsNarrow c) (h : k.At cs front (c :: rest) shown) :
    (byteAt cs k.position : Except (Stop ε) Char) = .ok c := by
  rw [h.position (List.cons_ne_nil c rest), h.text, byteAt_append hc]

/-- The offset behind a character of ASCII. -/
theorem position_succ {c : Char} (hc : IsNarrow c) (h : k.At cs front (c :: rest) shown) :
    k.position + 1 = (codes (front ++ [c])).length := by
  rw [h.position (List.cons_ne_nil c rest), length_codes_concat hc]

/-- The offset behind the delimited text that a character opens. -/
theorem closingEnd_eq {backslash : Bool} {c : Char} {body : List Char} (hc : IsNarrow c)
    (hne : backslash = true → c ≠ '\\') (hcloses : Closes backslash c body rest)
    (h : k.At cs front (c :: (body ++ rest)) shown) :
    closingEnd backslash c (codes cs) (k.position + 1) = (codes (front ++ c :: body)).length := by
  have htext : cs = (front ++ [c]) ++ (body ++ rest) := by rw [h.text]; simp
  rw [h.position_succ hc, htext, closingEnd_append hc hne hcloses, List.append_assoc]
  rfl

/-- The offset behind the run that follows a character. -/
theorem runEnd_eq {p : Char → Bool} (hp : IsUniform p) {c : Char} (hc : IsNarrow c)
    (h : k.At cs front (c :: rest) shown) :
    runEnd p (codes cs) (k.position + 1) = (codes (front ++ c :: rest.takeWhile p)).length := by
  have htext : cs = (front ++ [c]) ++ rest := by rw [h.text]; simp
  rw [h.position_succ hc, htext, runEnd_append hp, List.append_assoc]
  rfl

/-- A cursor is at the begin of the text before the first pass. -/
theorem start (cs : List Char) (state : σ) :
    Cursor.At ⟨0, 0, "", state⟩ cs [] cs "" :=
  ⟨rfl, fun _ => rfl, Nat.zero_le _, [], [], rfl, rfl, rfl⟩

/-- A part that is left behind is to be copied. -/
theorem skip (h : k.At cs front (part ++ rest) shown) {position : ℕ}
    (hposition : rest ≠ [] → position = (codes (front ++ part)).length)
    (hreached : (codes (front ++ part)).length ≤ position) :
    Cursor.At ⟨position, k.copied, k.out, state⟩ cs (front ++ part) rest
      (shown ++ String.ofList part) := by
  obtain ⟨done, pending, hfront, hcopied, hshown⟩ := h.copied
  refine ⟨by rw [h.text, List.append_assoc], hposition, hreached, done, pending ++ part, ?_,
    hcopied, ?_⟩
  · rw [hfront, List.append_assoc]
  · rw [hshown, String.append_assoc, ← String.ofList_append]

/-- What is left can be written in front of the text that replaces a part. -/
theorem replace_eq (h : k.At cs front (part ++ rest) shown) (hne : part ++ rest ≠ []) (close : ℕ)
    (text : Except ε (String × σ)) :
    k.replace cs close text =
      (text.mapError .refused).map fun r => ⟨close, close, shown ++ r.1, r.2⟩ := by
  obtain ⟨done, pending, hfront, hcopied, hshown⟩ := h.copied
  have hslice : (slice cs k.copied k.position : Except (Stop ε) (List Char)) = .ok pending :=
    slice_eq_ok_iff.2 ⟨done, part ++ rest, by rw [h.text, hfront], hcopied,
      by rw [h.position hne, hfront]⟩
  rw [Cursor.replace, hslice, hshown]
  cases text <;> rfl

/-- Behind the part everything is written. -/
theorem replaced (h : k.At cs front (part ++ rest) shown) {close : ℕ}
    (hclose : close = (codes (front ++ part)).length) :
    Cursor.At ⟨close, close, shown ++ text, state⟩ cs (front ++ part) rest (shown ++ text) :=
  ⟨by rw [h.text, List.append_assoc], fun _ => hclose, hclose.ge, front ++ part, [],
    (List.append_nil _).symm, hclose, by rw [String.ofList_nil, String.append_empty]⟩

/-- At the end, what is left is the last part of the text. -/
theorem slice_eq (ε : Type) (h : k.At cs front [] shown) :
    ∃ pending, (slice cs k.copied (codes cs).length : Except (Stop ε) (List Char)) = .ok pending ∧
      shown = k.out ++ String.ofList pending ∧ k.copied ≤ (codes cs).length := by
  obtain ⟨done, pending, hfront, hcopied, hshown⟩ := h.copied
  have htext : cs = done ++ pending := by rw [h.text, List.append_nil, hfront]
  refine ⟨pending, slice_eq_ok_iff.2 ⟨done, [], by rw [htext, List.append_nil], hcopied,
    by rw [htext]⟩, hshown, ?_⟩
  rw [hcopied, htext, codes_append, List.length_append]
  exact Nat.le_add_right _ _

end Cursor.At

end BoundSql.Text

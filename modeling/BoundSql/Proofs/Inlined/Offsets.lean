import BoundSql.Proofs.Inlined.Reading
import BoundSql.Proofs.Template.Offsets
import Mathlib.Data.List.TakeWhile

/-! # Inlined statements by byte offsets
Values can be put into a statement in passes over the bytes of its text, too.
* **`Inlined.pass`** — what is done at an offset, with every access to the text checked.
* **`inlinedByOffsets`** — the passes from the begin of the text to its end. A quote that nothing
  closes leads behind the end.
* **`inlinedByOffsets_eq`** — no access fails, and the text shown is the same.
* **`scans_stay_inside`** — so it is for both scans of statement text. -/

namespace BoundSql

open Text (Cursor Stop byteAt slice codes colonBefore runEnd closingEnd sweep)

namespace Inlined

/-! ### One pass -/

/-- The end of the pass at a token, where the offsets behind the token and behind what is passed are
known: its literal is written in its place, or it is left behind. -/
def passToken (sql : String) (k : Cursor ℕ) (close position : ℕ) (literal : Option String)
    (asked : ℕ) : Except (Stop Empty) (Cursor ℕ) :=
  match literal with
  | some text => do
    let k ← k.replace sql.toList close (.ok (text, asked))
    .ok { k with position := position }
  | none => .ok { k with position := position, state := asked }

section

variable (d : Dialect) (limit : Option ℕ) (params : List Param) (sql : String)

/-- The literal of the value bound to a slot. -/
def literalAt? (slot : Slot) : Option String := (valueAt? params slot).map (·.literal d limit)

/-- The pass at a dollar sign. -/
def passNumbered (k : Cursor ℕ) : Except (Stop Empty) (Cursor ℕ) := do
  let cs := sql.toList
  let close := runEnd Char.isDigit (codes cs) (k.position + 1)
  let digits ← slice cs (k.position + 1) close
  passToken sql k close (max close (k.position + 1))
    (((Piece.numbered digits).slot? k.state).bind (literalAt? d limit params)) k.state

/-- The pass at a colon. -/
def passNamed (k : Cursor ℕ) : Except (Stop Empty) (Cursor ℕ) := do
  let cs := sql.toList
  let after ← colonBefore cs k.position
  let close := runEnd Text.isWordChar (codes cs) (k.position + 1)
  if after = false ∧ k.position + 1 < close then
    let token ← slice cs k.position close
    passToken sql k close close (literalAt? d limit params (.named (String.ofList token))) k.state
  else .ok { k with position := close }

/-- The pass at a byte that opens no delimited text. -/
def passMark (c : Char) (k : Cursor ℕ) : Except (Stop Empty) (Cursor ℕ) :=
  if c = '?' then
    passToken sql k (k.position + 1) (k.position + 1)
      (literalAt? d limit params (.position (k.state + 1))) (k.state + 1)
  else if c = '$' then passNumbered d limit params sql k
  else if c = ':' then passNamed d limit params sql k
  else .ok { k with position := k.position + 1 }

/-- The pass at a byte. -/
def passAt (c : Char) (k : Cursor ℕ) : Except (Stop Empty) (Cursor ℕ) :=
  let cs := sql.toList
  if d.opensLiteral c then
    let close := closingEnd d.backslashEscapes c (codes cs) (k.position + 1)
    .ok { k with position := close }
  else if c = d.quoteChar then
    let close := runEnd (· ≠ d.quoteChar) (codes cs) (k.position + 1)
    .ok { k with position := close + 1 }
  else passMark d limit params sql c k

/-- A pass: what is done at the byte at the offset of a cursor, which counts question marks. -/
def pass (k : Cursor ℕ) : Except (Stop Empty) (Cursor ℕ) := do
  let c ← byteAt sql.toList k.position
  passAt d limit params sql c k

end

end Inlined

/-- A native statement with the literals of its bound values in place of their tokens, pass by
pass. -/
def inlinedByOffsets (d : Dialect) (limit : Option ℕ) (params : List Param) (sql : String) :
    Except (Stop Empty) String :=
  if params.isEmpty then .ok sql
  else do
    let cs := sql.toList
    let k ← sweep cs (Inlined.pass d limit params sql) ⟨0, 0, "", 0⟩
    let tail ← slice cs (min k.copied (codes cs).length) (codes cs).length
    return k.out ++ String.ofList tail

namespace Inlined

variable {d : Dialect} {limit : Option ℕ} {params : List Param} {sql : String}
  {k k' : Cursor ℕ} {front rest : List Char} {c : Char} {shown : String}

/-! ### Every pass gets on -/

theorem position_of_passToken {close position asked : ℕ} {literal : Option String}
    (h : passToken sql k close position literal asked = .ok k') : k'.position = position := by
  cases literal with
  | none => rw [← Except.ok.inj h]
  | some text =>
    obtain ⟨k'', -, h⟩ := Text.bind_eq_ok_iff.1 h
    rw [← Except.ok.inj h]

/-- A pass moves the cursor on, wherever it is. -/
theorem position_lt_of_pass (h : pass d limit params sql k = .ok k') :
    k.position < k'.position := by
  obtain ⟨c, hbyte, h⟩ := Text.bind_eq_ok_iff.1 h
  have hlt := Text.lt_of_byteAt_eq_ok hbyte
  -- A run begins behind the byte that is looked at, and does not end in front of its begin.
  have hrun : ∀ p, k.position < runEnd p (codes sql.toList) (k.position + 1) := fun p =>
    Text.le_runEnd p (codes sql.toList) (k.position + 1)
  rw [passAt] at h
  split at h
  · have hend := Text.le_closingEnd d.backslashEscapes c (codes sql.toList) (k.position + 1)
    obtain rfl := Except.ok.inj h
    show k.position < closingEnd d.backslashEscapes c (codes sql.toList) (k.position + 1)
    omega
  split at h
  · obtain rfl := Except.ok.inj h
    exact Nat.lt_succ_of_lt (hrun _)
  rw [passMark] at h
  split at h
  · rw [position_of_passToken h]
    exact Nat.lt_succ_self _
  split at h
  · obtain ⟨digits, -, h⟩ := Text.bind_eq_ok_iff.1 h
    rw [position_of_passToken h]
    exact Nat.lt_of_lt_of_le (hrun _) (Nat.le_max_left _ _)
  split at h
  · obtain ⟨after, -, h⟩ := Text.bind_eq_ok_iff.1 h
    simp only at h
    split at h
    · obtain ⟨token, -, h⟩ := Text.bind_eq_ok_iff.1 h
      rw [position_of_passToken h]
      exact hrun _
    · obtain rfl := Except.ok.inj h
      exact hrun _
  · obtain rfl := Except.ok.inj h
    exact Nat.lt_succ_self _

/-! ### What the passes over a piece come to -/

/-- Whether the passes over a piece, behind which `rest` follows, come to a cursor behind the piece
that has what is shown for it. -/
def Follows (d : Dialect) (limit : Option ℕ) (params : List Param) (sql : String) (k : Cursor ℕ)
    (front rest : List Char) (shown : String) (p : Piece) : Prop :=
  ∃ k' : Cursor ℕ, sweep sql.toList (pass d limit params sql) k =
      sweep sql.toList (pass d limit params sql) k' ∧
    k'.state = (if p = .question then k.state + 1 else k.state) ∧
    k'.At sql.toList (front ++ p.source) rest (shown ++ p.shown d limit params k.state)

theorem pass_eq (d : Dialect) (limit : Option ℕ) (params : List Param) (hc : Text.IsNarrow c)
    (h : k.At sql.toList front (c :: rest) shown) :
    pass d limit params sql k = passAt d limit params sql c k := by
  rw [pass, h.byteAt_eq hc]
  rfl

/-- No delimited text opens where a token begins. -/
theorem pass_eq_passMark (d : Dialect) (limit : Option ℕ) (params : List Param)
    (hc : c ∈ [':', '?', '$']) (h : k.At sql.toList front (c :: rest) shown) :
    pass d limit params sql k = passMark d limit params sql c k := by
  have hliteral : d.opensLiteral c = false :=
    Dialect.opensLiteral_eq_false_of_mem (List.mem_cons_of_mem _ (List.mem_cons_of_mem _ hc))
  obtain ⟨hnarrow, hquote⟩ : Text.IsNarrow c ∧ c ≠ d.quoteChar := by
    simp only [List.mem_cons, List.not_mem_nil, or_false] at hc
    rcases hc with rfl | rfl | rfl <;> cases d <;> decide
  rw [pass_eq d limit params hnarrow h, passAt, if_neg (by simp [hliteral]), if_neg hquote]

section

variable {p : Piece}

/-- A piece that is no token is left behind. -/
theorem follows_of_skip (h : k.At sql.toList front (p.source ++ rest) shown)
    (hslot : p.slot? k.state = none) {position : ℕ}
    (hposition : rest ≠ [] → position = (codes (front ++ p.source)).length)
    (hreached : (codes (front ++ p.source)).length ≤ position)
    (hsweep : sweep sql.toList (pass d limit params sql) k =
      sweep sql.toList (pass d limit params sql) { k with position := position }) :
    Follows d limit params sql k front rest shown p := by
  have hstate : (if p = .question then k.state + 1 else k.state) = k.state :=
    if_neg fun hp => by rw [hp] at hslot; cases hslot
  have hshown : p.shown d limit params k.state = String.ofList p.source := by
    rw [Piece.shown, hslot]
    rfl
  rw [Follows, hstate, hshown]
  exact ⟨_, hsweep, rfl, h.skip hposition hreached⟩

/-- A token is replaced by its literal, or else left behind. -/
theorem follows_of_token (h : k.At sql.toList front (p.source ++ rest) shown)
    (hne : p.source ≠ [])
    (hpass : pass d limit params sql k = passToken sql k (codes (front ++ p.source)).length
      (codes (front ++ p.source)).length ((p.slot? k.state).bind (literalAt? d limit params))
      (if p = .question then k.state + 1 else k.state)) :
    Follows d limit params sql k front rest shown p := by
  have hsource : p.source ++ rest ≠ [] := List.append_ne_nil_of_left_ne_nil hne rest
  have hlt := Text.length_codes_lt hne front
  rw [← h.position hsource] at hlt
  have hliteral : (p.slot? k.state).bind (literalAt? d limit params) =
      ((p.slot? k.state).bind (valueAt? params)).map (·.literal d limit) := by
    cases p.slot? k.state <;> rfl
  rw [hliteral] at hpass
  rw [Follows, Piece.shown]
  cases hvalue : (p.slot? k.state).bind (valueAt? params) with
  | none =>
    rw [hvalue] at hpass
    exact ⟨_, Text.sweep_of_pass (h.position_lt hsource) hpass hlt, rfl,
      h.skip (fun _ => rfl) (Nat.le_refl _)⟩
  | some v =>
    rw [hvalue, Option.map_some, passToken, h.replace_eq hsource] at hpass
    exact ⟨_, Text.sweep_of_pass (h.position_lt hsource) hpass hlt, rfl, h.replaced rfl⟩

end

/-! ### The kinds of pieces -/

theorem follows_literal (hq : d.opensLiteral c = true) {cs : List Char}
    (h : k.At sql.toList front (c :: cs) shown) :
    Follows d limit params sql k front (d.splitLiteral c cs).2 shown
      (.literal (c :: (d.splitLiteral c cs).1)) := by
  obtain ⟨hnarrow, hbackslash⟩ := Text.isNarrow_of_opensLiteral hq
  have hcs : (d.splitLiteral c cs).1 ++ (d.splitLiteral c cs).2 = cs :=
    Text.splitClosing_append _ _ _
  have hcloses : Text.Closes d.backslashEscapes c (d.splitLiteral c cs).1 (d.splitLiteral c cs).2 :=
    Text.closes_splitClosing _ _ _
  have hpass := pass_eq d limit params hnarrow h
  rw [← hcs] at h
  rw [passAt, if_pos hq] at hpass
  simp only [h.closingEnd_eq hnarrow (fun _ => hbackslash) hcloses] at hpass
  have hlt := Text.length_codes_lt (List.cons_ne_nil c (d.splitLiteral c cs).1) front
  rw [← h.position (List.cons_ne_nil _ _)] at hlt
  exact follows_of_skip h rfl (fun _ => rfl) (Nat.le_refl _)
    (Text.sweep_of_pass (h.position_lt (List.cons_ne_nil _ _)) hpass hlt)

/-- The text up to the next quote is the run of other characters, and the quote if there is one. -/
theorem splitAtQuote_eq (q : Char) (cs : List Char) :
    (∃ rest, splitAtQuote q cs = (cs.takeWhile (· ≠ q) ++ [q], rest)) ∨
      splitAtQuote q cs = (cs.takeWhile (· ≠ q), []) := by
  induction cs with
  | nil => exact .inr rfl
  | cons c cs ih =>
    by_cases hc : c = q
    · subst hc
      exact .inl ⟨cs, by simp [splitAtQuote]⟩
    · rcases ih with ⟨rest, ih⟩ | ih
      · exact .inl ⟨rest, by simp [splitAtQuote, hc, ih]⟩
      · exact .inr (by simp [splitAtQuote, hc, ih])

theorem follows_quoted {cs : List Char} (h : k.At sql.toList front (d.quoteChar :: cs) shown) :
    Follows d limit params sql k front (splitAtQuote d.quoteChar cs).2 shown
      (.quoted (d.quoteChar :: (splitAtQuote d.quoteChar cs).1)) := by
  have hnarrow := Text.isNarrow_quoteChar d
  have hliteral : d.opensLiteral d.quoteChar = false :=
    Dialect.opensLiteral_eq_false_of_mem (by simp)
  have hpass := pass_eq d limit params hnarrow h
  rw [passAt, if_neg (by simp [hliteral]), if_pos rfl] at hpass
  simp only [h.runEnd_eq (Text.isUniform_ne hnarrow) hnarrow] at hpass
  have hsweep := Text.sweep_of_pass (h.position_lt (List.cons_ne_nil _ _)) hpass (by
    have hlt := Text.length_codes_lt
      (List.cons_ne_nil d.quoteChar (cs.takeWhile (· ≠ d.quoteChar))) front
    rw [← h.position (List.cons_ne_nil _ _)] at hlt
    exact Nat.lt_succ_of_lt hlt)
  rw [← splitAtQuote_append d.quoteChar cs] at h
  -- Behind the run comes the quote, or the text ends and the cursor is behind the end.
  rcases splitAtQuote_eq d.quoteChar cs with ⟨rest, hsplit⟩ | hsplit
  · rw [hsplit] at h ⊢
    have hend : (codes (front ++ d.quoteChar :: cs.takeWhile (· ≠ d.quoteChar))).length + 1 =
        (codes (front ++
          d.quoteChar :: (cs.takeWhile (· ≠ d.quoteChar) ++ [d.quoteChar]))).length := by
      rw [← Text.length_codes_concat hnarrow, List.append_assoc]
      rfl
    exact follows_of_skip h rfl (fun _ => hend) hend.ge hsweep
  · rw [hsplit] at h ⊢
    exact follows_of_skip h rfl (fun hne => absurd rfl hne) (Nat.le_succ _) hsweep

theorem follows_question (h : k.At sql.toList front ('?' :: rest) shown) :
    Follows d limit params sql k front rest shown .question := by
  have hpass := pass_eq_passMark d limit params (by simp) h
  rw [passMark, if_pos rfl, h.position_succ (by decide)] at hpass
  exact follows_of_token h (List.cons_ne_nil _ _) hpass

theorem follows_numbered {cs : List Char} (h : k.At sql.toList front ('$' :: cs) shown) :
    Follows d limit params sql k front (cs.dropWhile Char.isDigit) shown
      (.numbered (cs.takeWhile Char.isDigit)) := by
  have hpass := pass_eq_passMark d limit params (by simp) h
  have hclose := h.runEnd_eq Text.isUniform_isDigit (by decide)
  have hle := Text.le_runEnd Char.isDigit (codes sql.toList) (k.position + 1)
  rw [← List.takeWhile_append_dropWhile (p := Char.isDigit) (l := cs)] at h
  have hslice : (slice sql.toList (k.position + 1)
      (codes (front ++ '$' :: cs.takeWhile Char.isDigit)).length :
      Except (Stop Empty) (List Char)) = .ok (cs.takeWhile Char.isDigit) :=
    Text.slice_eq_ok_iff.2 ⟨front ++ ['$'], cs.dropWhile Char.isDigit, by rw [h.text]; simp,
      h.position_succ (by decide), by simp⟩
  rw [hclose] at hle
  rw [passMark, if_neg (by decide), if_pos rfl, passNumbered, hclose, hslice, Text.ok_bind,
    max_eq_left hle] at hpass
  refine follows_of_token h (List.cons_ne_nil _ _) (hpass.trans ?_)
  rw [if_neg fun he => by cases he]
  rfl

/-- Behind a colon the word is looked for. -/
theorem pass_colon (d : Dialect) (limit : Option ℕ) (params : List Param)
    (h : k.At sql.toList front (':' :: rest) shown) :
    pass d limit params sql k =
      if (front.getLast? == some ':') = false ∧
        k.position + 1 < (codes (front ++ ':' :: (Text.splitWord rest).1)).length then
        passToken sql k (codes (front ++ ':' :: (Text.splitWord rest).1)).length
          (codes (front ++ ':' :: (Text.splitWord rest).1)).length
          (literalAt? d limit params (.named (String.ofList (':' :: (Text.splitWord rest).1))))
          k.state
      else .ok { k with position := (codes (front ++ ':' :: (Text.splitWord rest).1)).length } := by
  have hcolon : (colonBefore sql.toList k.position : Except (Stop Empty) Bool) =
      .ok (front.getLast? == some ':') := by
    rw [h.position (List.cons_ne_nil _ _), h.text, Text.colonBefore_append]
  have hclose := h.runEnd_eq Text.isUniform_isWordChar (by decide)
  have hslice : (slice sql.toList k.position
      (codes (front ++ ':' :: (Text.splitWord rest).1)).length :
      Except (Stop Empty) (List Char)) = .ok (':' :: (Text.splitWord rest).1) :=
    Text.slice_eq_ok_iff.2 ⟨front, (Text.splitWord rest).2, by
      rw [h.text, List.append_assoc, List.cons_append, Text.splitWord_append],
      h.position (List.cons_ne_nil _ _), rfl⟩
  rw [pass_eq_passMark d limit params (by simp) h, passMark, if_neg (by decide), if_neg (by decide),
    if_pos rfl, passNamed, hcolon, Text.ok_bind, hclose]
  simp only
  rw [show rest.takeWhile Text.isWordChar = (Text.splitWord rest).1 from rfl, hslice]
  rfl

theorem follows_named {cs : List Char} (hprev : front.getLast? ≠ some ':')
    (hne : (Text.splitWord cs).1 ≠ []) (h : k.At sql.toList front (':' :: cs) shown) :
    Follows d limit params sql k front (Text.splitWord cs).2 shown
      (.named (Text.splitWord cs).1) := by
  have hlt := Text.length_codes_lt hne (front ++ [':'])
  rw [← h.position_succ (by decide), List.append_assoc, List.singleton_append] at hlt
  have hpass := pass_colon d limit params h
  rw [if_pos ⟨by simpa using hprev, hlt⟩] at hpass
  rw [← Text.splitWord_append cs] at h
  refine follows_of_token h (List.cons_ne_nil _ _) (hpass.trans ?_)
  rw [if_neg fun he => by cases he]
  rfl

/-- At a byte that is no mark the cursor moves on by one. -/
theorem pass_of_inert (hl : d.opensLiteral c = false) (hq : c ≠ d.quoteChar) (hm : c ≠ '?')
    (hn : c ≠ '$') (hc : c ≠ ':') (hbyte : (codes sql.toList)[k.position]? = some c) :
    pass d limit params sql k = .ok { k with position := k.position + 1 } := by
  rw [pass, byteAt, hbyte]
  show passAt d limit params sql c k = _
  rw [passAt, if_neg (by simp [hl]), if_neg hq, passMark, if_neg hm, if_neg hn, if_neg hc]

/-- No byte of a word is a mark. -/
theorem pass_of_isWordChar (hword : Text.isWordChar c = true)
    (hbyte : (codes sql.toList)[k.position]? = some c) :
    pass d limit params sql k = .ok { k with position := k.position + 1 } := by
  have hinert : Template.isInert d c = true := Template.isInert_of_isWordChar hword
  simp only [Template.isInert, Bool.and_eq_true, Bool.not_eq_true', bne_iff_ne] at hinert
  obtain ⟨⟨⟨⟨hl, hq⟩, -⟩, hc⟩, hm⟩ := hinert
  exact pass_of_inert hl hq hm (Text.ne_of_isWordChar hword (by decide)) hc hbyte

theorem follows_colon (hplain : front.getLast? = some ':' ∨ (Text.splitWord rest).1 = [])
    (h : k.At sql.toList front (':' :: rest) shown) :
    Follows d limit params sql k front rest shown (.plain ':') := by
  have hstep := h.position_succ (by decide)
  have hle : k.position + 1 ≤ (codes (front ++ ':' :: (Text.splitWord rest).1)).length := by
    have hsource : front ++ ':' :: (Text.splitWord rest).1 =
        front ++ [':'] ++ (Text.splitWord rest).1 := by simp
    rw [hstep, hsource, Text.codes_append (front ++ [':']), List.length_append]
    exact Nat.le_add_right _ _
  have hpass := pass_colon d limit params h
  rw [if_neg (by
    rintro ⟨hprev, hlt⟩
    rcases hplain with hcolon | hword
    · simp [hcolon] at hprev
    · rw [hword, hstep] at hlt
      exact Nat.lt_irrefl _ hlt)] at hpass
  -- One pass leaves the word behind as well, which is passed byte by byte as it is no mark.
  have hword : ∀ u ∈ codes (Text.splitWord rest).1, Text.isWordChar u = true := by
    intro u hu
    rw [Text.splitWord, ← Text.takeWhile_codes Text.isUniform_isWordChar] at hu
    exact List.mem_takeWhile_imp hu
  have hinert : sweep sql.toList (pass d limit params sql) { k with position := k.position + 1 } =
      sweep sql.toList (pass d limit params sql)
        { k with position := (codes (front ++ [':'] ++ (Text.splitWord rest).1)).length } := by
    have htext : sql.toList =
        front ++ [':'] ++ ((Text.splitWord rest).1 ++ (Text.splitWord rest).2) := by
      rw [h.text, Text.splitWord_append, List.append_assoc]
      rfl
    exact Text.sweep_of_inert htext hstep fun k u hu => pass_of_isWordChar (hword u hu)
  rw [List.append_assoc, List.singleton_append] at hinert
  have hsweep := (Text.sweep_of_pass (h.position_lt (List.cons_ne_nil _ _)) hpass hle).trans
    hinert.symm
  exact follows_of_skip h rfl (fun _ => hstep) hstep.ge hsweep

theorem follows_plain (hl : d.opensLiteral c = false) (hq : c ≠ d.quoteChar) (hm : c ≠ '?')
    (hn : c ≠ '$') (hc : c ≠ ':') (h : k.At sql.toList front (c :: rest) shown) :
    Follows d limit params sql k front rest shown (.plain c) := by
  have htext : sql.toList = front ++ ([c] ++ rest) := h.text
  refine follows_of_skip h rfl (fun _ => rfl) (Nat.le_refl _)
    (Text.sweep_of_inert htext (h.position (List.cons_ne_nil _ _)) fun k u hu hbyte => ?_)
  have hu : u ∈ codes [c] := hu
  rw [Text.codes_cons, Text.codes_nil, List.append_nil] at hu
  -- No byte of the character is a mark either.
  exact pass_of_inert (Text.opensLiteral_of_mem_codesOf hu hl)
    (Text.ne_of_mem_codesOf (Text.isNarrow_quoteChar d) hu hq)
    (Text.ne_of_mem_codesOf (by decide) hu hm) (Text.ne_of_mem_codesOf (by decide) hu hn)
    (Text.ne_of_mem_codesOf (by decide) hu hc) hbyte

/-! ### A whole text -/

/-- The passes over a piece are followed by those over the others. -/
theorem Follows.sweep_cons {p : Piece} {pieces : List Piece}
    (h : Follows d limit params sql k front rest shown p)
    (hothers : ∀ (k' : Cursor ℕ) (shown' : String),
      k'.At sql.toList (front ++ p.source) rest shown' →
      ∃ k'', sweep sql.toList (pass d limit params sql) k' = .ok k'' ∧
        k''.At sql.toList sql.toList [] (shown' ++ shownFrom d limit params k'.state pieces)) :
    ∃ k'', sweep sql.toList (pass d limit params sql) k = .ok k'' ∧
      k''.At sql.toList sql.toList []
        (shown ++ shownFrom d limit params k.state (p :: pieces)) := by
  obtain ⟨k', hsweep, hstate, hat⟩ := h
  obtain ⟨k'', hsweep', hat'⟩ := hothers k' _ hat
  rw [hstate, String.append_assoc] at hat'
  exact ⟨k'', hsweep.trans hsweep', hat'⟩

/-- Text that ends in another character ends in no colon. -/
theorem getLast?_append_ne {part : List Char} (hne : part ≠ []) (h : part.getLast? ≠ some ':')
    (front : List Char) : false = ((front ++ part).getLast? == some ':') := by
  obtain ⟨c, hc⟩ := Option.ne_none_iff_exists'.1 (mt List.getLast?_eq_none_iff.1 hne)
  rw [hc] at h
  rw [List.getLast?_append, hc, Option.some_or]
  exact (beq_eq_false_iff_ne.2 h).symm

/-! What follows a piece that is no single character does not stand behind a colon. -/

/-- It stands behind the delimiter of a literal. -/
theorem colonBefore_literal {cs : List Char} (hl : d.opensLiteral c = true)
    (hr : (d.splitLiteral c cs).2 ≠ []) (front : List Char) :
    false = ((front ++ c :: (d.splitLiteral c cs).1).getLast? == some ':') := by
  have hcloses : Text.Closes d.backslashEscapes c (d.splitLiteral c cs).1
      (d.splitLiteral c cs).2 := Text.closes_splitClosing _ _ _
  refine getLast?_append_ne (List.cons_ne_nil _ _) ?_ front
  rw [List.getLast?_cons, hcloses.getLast?_body hr]
  intro hc
  obtain rfl : c = ':' := Option.some.inj hc
  rw [Dialect.opensLiteral_eq_false_of_mem (by simp)] at hl
  cases hl

/-- It stands behind the second quote of an identifier. -/
theorem colonBefore_quoted {cs : List Char} (hr : (splitAtQuote d.quoteChar cs).2 ≠ [])
    (front : List Char) :
    false = ((front ++ d.quoteChar :: (splitAtQuote d.quoteChar cs).1).getLast? == some ':') := by
  refine getLast?_append_ne (List.cons_ne_nil _ _) ?_ front
  rcases splitAtQuote_eq d.quoteChar cs with ⟨rest, hsplit⟩ | hsplit
  · rw [hsplit, ← List.cons_append, List.getLast?_concat]
    cases d <;> decide
  · rw [hsplit] at hr
    exact absurd rfl hr

/-- It stands behind a character of the run that a mark is followed by. -/
theorem colonBefore_run {p : Char → Bool} {mark : Char} {run : List Char}
    (hp : p ':' = false) (hrun : ∀ c ∈ run, p c = true) (hmark : run ≠ [] ∨ mark ≠ ':')
    (front : List Char) : false = ((front ++ mark :: run).getLast? == some ':') := by
  refine getLast?_append_ne (List.cons_ne_nil _ _) (fun hlast => ?_) front
  cases hlong : run.getLast? with
  | none =>
    rw [List.getLast?_eq_none_iff] at hlong
    subst hlong
    exact hmark.elim (absurd rfl) fun hne => hne (Option.some.inj hlast)
  | some c =>
    rw [List.getLast?_cons, hlong] at hlast
    obtain rfl : c = ':' := Option.some.inj hlast
    rw [hrun ':' (List.mem_of_getLast? hlong)] at hp
    cases hp

/-- From any place of the text the passes show what the pieces of the rest show. -/
theorem sweep_eq (b : Bool) (h : k.At sql.toList front rest shown)
    (hb : rest ≠ [] → b = (front.getLast? == some ':')) :
    ∃ k', sweep sql.toList (pass d limit params sql) k = .ok k' ∧
      k'.At sql.toList sql.toList [] (shown ++ shownFrom d limit params k.state
        (scanFrom d b rest)) := by
  -- The flag of the scanner says whether the cursor stands behind a colon, piece after piece.
  fun_induction scanFrom d b rest generalizing k front shown with
  | case1 b =>
    obtain rfl : front = sql.toList := by rw [h.text, List.append_nil]
    exact ⟨k, Text.sweep_of_le h.reached, by rwa [shownFrom, String.append_empty]⟩
  | case2 b c cs hl ih =>
    exact (follows_literal hl h).sweep_cons fun k' shown' h' => ih h' fun hr =>
      colonBefore_literal hl hr front
  | case3 b cs hl ih =>
    exact (follows_quoted h).sweep_cons fun k' shown' h' => ih h' fun hr =>
      colonBefore_quoted hr front
  | case4 b cs hl hq ih =>
    exact (follows_question h).sweep_cons fun k' shown' h' => ih h' fun _ =>
      getLast?_append_ne (List.cons_ne_nil _ _) (by decide) front
  | case5 b cs hl hq hm ih =>
    exact (follows_numbered h).sweep_cons fun k' shown' h' => ih h' fun _ =>
      colonBefore_run (by decide) (fun _ hc => List.mem_takeWhile_imp hc) (.inr (by decide)) front
  | case6 b c cs hl hq hm hn hname ih =>
    rw [Bool.and_eq_true, Bool.and_eq_true, decide_eq_true_eq, Bool.not_eq_true'] at hname
    obtain ⟨⟨rfl, rfl⟩, hname⟩ := hname
    -- The flag is down, so no colon stands in front of this one.
    have hprev : front.getLast? ≠ some ':' := fun hlast => by
      have hb := hb (List.cons_ne_nil _ _)
      rw [hlast] at hb
      cases hb
    have hne : (Text.splitWord cs).1 ≠ [] := fun hnil => by rw [hnil] at hname; cases hname
    exact (follows_named hprev hne h).sweep_cons fun k' shown' h' => ih h' fun _ =>
      colonBefore_run (p := Text.isWordChar) (by decide)
        (fun _ hc => List.mem_takeWhile_imp hc) (.inl hne) front
  | case7 b c cs hl hq hm hn hname ih =>
    -- A colon is plain behind another one, and where no word follows it.
    have hfollows : Follows d limit params sql k front cs shown (.plain c) := by
      by_cases hc : c = ':'
      · subst hc
        refine follows_colon ?_ h
        cases b with
        | true => exact .inl (beq_iff_eq.1 (hb (List.cons_ne_nil _ _)).symm)
        | false => exact .inr (by simpa using hname)
      · exact follows_plain (Bool.eq_false_iff.2 hl) hq hm hn hc h
    exact hfollows.sweep_cons fun k' shown' h' => ih h' fun _ => by
      rw [Piece.source, List.getLast?_concat]
      rfl

/-- No access to the text fails, every pass gets on, and what is shown is the same. -/
theorem inlinedByOffsets_eq (d : Dialect) (limit : Option ℕ) (params : List Param) (sql : String) :
    inlinedByOffsets d limit params sql = .ok (inlined d limit params sql) := by
  rw [inlinedByOffsets, inlined]
  split
  · rfl
  · have hwhole : ∃ k : Cursor ℕ,
        sweep sql.toList (pass d limit params sql) ⟨0, 0, "", 0⟩ = .ok k ∧
          k.At sql.toList sql.toList [] ("" ++ shownFrom d limit params 0 (scan d sql.toList)) :=
      sweep_eq false (Cursor.At.start sql.toList 0) fun _ => rfl
    obtain ⟨k, hsweep, hat⟩ := hwhole
    obtain ⟨pending, hslice, hshown, hle⟩ := hat.slice_eq Empty
    rw [String.empty_append] at hshown
    simp only [hsweep, Text.ok_bind]
    rw [min_eq_left hle, hslice, hshown]
    rfl

end Inlined

/-- Whatever the text and the values are, neither scan reads a byte outside of the text or cuts the
text inside of a character or the wrong way round, and neither is ever stalled: the one over a
template finds the native statement or the error of the template, the one over a statement the
statement with its values. Each pass of theirs moves on, wherever it begins. -/
theorem scans_stay_inside :
    (∀ t : Rendering, ∃ r : Except CompositionError Native,
      t.run = r.mapError .composition ∧ t.runByOffsets = r.mapError .refused) ∧
    (∀ t : Rendering, ∀ k k', t.pass k = .ok k' → k.position < k'.position) ∧
    (∀ d limit params sql,
      inlinedByOffsets d limit params sql = .ok (inlined d limit params sql)) ∧
    ∀ d limit params sql k k',
      Inlined.pass d limit params sql k = .ok k' → k.position < k'.position :=
  ⟨Rendering.runByOffsets_eq, fun _ _ _ => Rendering.position_lt_of_pass,
    Inlined.inlinedByOffsets_eq, fun _ _ _ _ _ _ => Inlined.position_lt_of_pass⟩

/-- An accented letter stands behind a bracket, a quote, a backslash and colons, in text that is cut
off inside of a literal, and inside of a quoted identifier. -/
theorem scans_stay_inside_accented :
    let t : Rendering := ⟨.mysql, OrderedMap.empty, OrderedMap.ofList [(.name "n", .int 5)],
      OrderedMap.empty, "[é]='é\\é':n:é:\"\\"⟩
    let native : Native := ⟨"\x60é\x60='é\\é':né:\"\\",
      OrderedMap.ofList [(.name "n", .int 5)], OrderedMap.empty⟩
    t.runByOffsets = .ok native ∧
      inlinedByOffsets .mysql none [⟨.named ":n", .int 5⟩] native.sql =
        .ok "\x60é\x60='é\\é'5é:\"\\" ∧
      (∃ k', t.pass ⟨18, 0, "", {}⟩ = .ok k' ∧ 18 < k'.position) ∧
      ∃ k', Inlined.pass .postgres none [] "$é\"é" ⟨3, 0, "", 0⟩ = .ok k' ∧ 3 < k'.position := by
  intro t native
  obtain ⟨r, hrun, hoffsets⟩ := scans_stay_inside.1 t
  have hr : t.run = .ok native := by decide +kernel
  have hshown : inlined .mysql none [⟨.named ":n", .int 5⟩] native.sql =
    "\x60é\x60='é\\é'5é:\"\\" := by decide +kernel
  have hpass : t.pass ⟨18, 0, "", {}⟩ = .ok ⟨20, 0, "", {}⟩ := by decide +kernel
  have hpass' : Inlined.pass .postgres none [] "$é\"é" ⟨3, 0, "", 0⟩ = .ok ⟨7, 0, "", 0⟩ := by
    decide +kernel
  refine ⟨?_, (scans_stay_inside.2.2.1 _ _ _ _).trans (congrArg _ hshown),
    ⟨_, hpass, scans_stay_inside.2.1 t _ _ hpass⟩,
    ⟨_, hpass', scans_stay_inside.2.2.2 _ _ _ _ _ _ hpass'⟩⟩
  cases r with
  | error e =>
    rw [hr] at hrun
    cases hrun
  | ok found =>
    rw [hr] at hrun
    rw [hoffsets, ← Except.ok.inj hrun]
    rfl

end BoundSql

import BoundSql.Proofs.Template.Casts
import BoundSql.Proofs.Text.Offsets

/-! # Templates by byte offsets
A template can be rewritten without its segments, in passes over the bytes of its text.
* **`Rendering.pass`** — what is done at an offset, with every access to the text checked.
* **`Rendering.runByOffsets`** — the passes from the begin of the text to its end.
* **`Rendering.Follows`** — what the passes over a segment come to.
* **`Rendering.runByOffsets_eq`** — no access fails, and the native statement is the same. -/

namespace BoundSql.Rendering

open Template
open Text (Cursor Stop byteAt slice codes colonBefore runEnd closingEnd sweep)

/-! ### One pass -/

/-- The pass at an opening bracket. -/
def passBracket (t : Rendering) (k : Cursor Numbering) :
    Except (Stop CompositionError) (Cursor Numbering) := do
  let cs := t.sql.toList
  let inside ← slice cs (k.position + 1) (codes cs).length
  if ']' ∈ inside then
    let close := k.position + 1 + (codes (inside.takeWhile (· ≠ ']'))).length
    let inner ← slice cs (k.position + 1) close
    match Text.trim inner with
    | [] => .error (.refused (.emptyIdentifier k.position t.sql))
    | name => k.replace cs (close + 1) (.ok (t.identifier (String.ofList name), k.state))
  else .error (.refused (.unclosedBracket k.position t.sql))

/-- The pass at a colon that no other one stands next to. -/
def passWord (t : Rendering) (k : Cursor Numbering) :
    Except (Stop CompositionError) (Cursor Numbering) := do
  let cs := t.sql.toList
  let us := codes cs
  let close := runEnd Text.isWordChar us (k.position + 1)
  if k.position + 1 < close ∧ us[close]? = some ':' ∧ us[close + 1]? ≠ some ':' then
    let name ← slice cs (k.position + 1) close
    if t.binds.isPositional then .error (.refused (.mixedPlaceholder (String.ofList name)))
    else k.replace cs (close + 1) (t.named (String.ofList name) k.state)
  else .ok { k with position := k.position + 1 }

/-- The pass at a colon. -/
def passColon (t : Rendering) (k : Cursor Numbering) :
    Except (Stop CompositionError) (Cursor Numbering) := do
  let cs := t.sql.toList
  let after ← colonBefore cs k.position
  if after then .ok { k with position := k.position + 1 }
  -- Both colons of a cast are passed at once.
  else if (codes cs)[k.position + 1]? = some ':' then .ok { k with position := k.position + 2 }
  else t.passWord k

/-- The pass at a byte that opens no delimited text. -/
def passMark (t : Rendering) (c : Char) (k : Cursor Numbering) :
    Except (Stop CompositionError) (Cursor Numbering) :=
  if c = '[' then t.passBracket k
  else if c = ':' then t.passColon k
  else if c = '?' ∧ t.binds.isPositional = true then
    k.replace t.sql.toList (k.position + 1) (t.positional k.state)
  else .ok { k with position := k.position + 1 }

/-- The pass at a byte. -/
def passAt (t : Rendering) (c : Char) (k : Cursor Numbering) :
    Except (Stop CompositionError) (Cursor Numbering) :=
  let cs := t.sql.toList
  if t.dialect.opensLiteral c then
    let close := closingEnd t.dialect.backslashEscapes c (codes cs) (k.position + 1)
    .ok { k with position := close }
  else if c = t.dialect.quoteChar then
    let close := closingEnd false c (codes cs) (k.position + 1)
    .ok { k with position := close }
  else t.passMark c k

/-- A pass: what is done at the byte at the offset of a cursor. -/
def pass (t : Rendering) (k : Cursor Numbering) :
    Except (Stop CompositionError) (Cursor Numbering) := do
  let c ← byteAt t.sql.toList k.position
  t.passAt c k

/-- The native statement of the whole text, pass by pass. -/
def runByOffsets (t : Rendering) : Except (Stop CompositionError) Native := do
  let cs := t.sql.toList
  let k ← sweep cs t.pass ⟨0, 0, "", {}⟩
  let tail ← slice cs k.copied (codes cs).length
  return ⟨k.out ++ String.ofList tail, k.state.binds, k.state.types⟩

/-! ### Every pass gets on -/

section

variable {t : Rendering} {k k' : Cursor Numbering}

theorem position_lt_of_passBracket (h : t.passBracket k = .ok k') : k.position < k'.position := by
  obtain ⟨inside, -, h⟩ := Text.bind_eq_ok_iff.1 h
  split at h
  · obtain ⟨inner, -, h⟩ := Text.bind_eq_ok_iff.1 h
    split at h
    · cases h
    · rw [Cursor.position_of_replace h]
      omega
  · cases h

theorem position_lt_of_passWord (h : t.passWord k = .ok k') : k.position < k'.position := by
  have hend := Text.le_runEnd Text.isWordChar (codes t.sql.toList) (k.position + 1)
  rw [passWord] at h
  split at h
  · obtain ⟨name, -, h⟩ := Text.bind_eq_ok_iff.1 h
    split at h
    · cases h
    · rw [Cursor.position_of_replace h]
      omega
  · obtain rfl := Except.ok.inj h
    exact Nat.lt_succ_self _

theorem position_lt_of_passColon (h : t.passColon k = .ok k') : k.position < k'.position := by
  obtain ⟨after, -, h⟩ := Text.bind_eq_ok_iff.1 h
  split at h
  · obtain rfl := Except.ok.inj h
    exact Nat.lt_succ_self _
  · split at h
    · obtain rfl := Except.ok.inj h
      exact Nat.lt_add_of_pos_right (by decide)
    · exact position_lt_of_passWord h

/-- A pass moves the cursor on, wherever it is. -/
theorem position_lt_of_pass (h : t.pass k = .ok k') : k.position < k'.position := by
  obtain ⟨c, hbyte, h⟩ := Text.bind_eq_ok_iff.1 h
  have hlt := Text.lt_of_byteAt_eq_ok hbyte
  have hclose : ∀ (backslash : Bool) (q : Char),
      k.position < closingEnd backslash q (codes t.sql.toList) (k.position + 1) := by
    intro backslash q
    have hend := Text.le_closingEnd backslash q (codes t.sql.toList) (k.position + 1)
    omega
  -- Whatever stands at the cursor, it is left behind by at least a byte.
  rw [passAt] at h
  split at h
  · obtain rfl := Except.ok.inj h
    exact hclose _ _
  split at h
  · obtain rfl := Except.ok.inj h
    exact hclose _ _
  rw [passMark] at h
  split at h
  · exact position_lt_of_passBracket h
  split at h
  · exact position_lt_of_passColon h
  split at h
  · rw [Cursor.position_of_replace h]
    exact Nat.lt_succ_self _
  · obtain rfl := Except.ok.inj h
    exact Nat.lt_succ_self _

end

variable {t : Rendering} {k : Cursor Numbering} {front rest : List Char} {c : Char}
  {shown : String}

/-! ### What the passes over a segment come to -/

/-- Whether the passes over a segment, behind which `rest` follows, stop with the error that the
segment is at fault with, or come to a cursor behind the segment that has its native text. -/
def Follows (t : Rendering) (k : Cursor Numbering) (front rest : List Char) (shown : String)
    (s : Segment) : Prop :=
  match t.segment (codes front).length k.state s with
  | .error e => sweep t.sql.toList t.pass k = .error (.refused e)
  | .ok (text, n) => ∃ k' : Cursor Numbering,
      sweep t.sql.toList t.pass k = sweep t.sql.toList t.pass k' ∧ k'.state = n ∧
        k'.At t.sql.toList (front ++ s.source) rest (shown ++ text)

theorem pass_eq (hc : Text.IsNarrow c) (h : k.At t.sql.toList front (c :: rest) shown) :
    t.pass k = t.passAt c k := by
  rw [pass, h.byteAt_eq hc]
  rfl

/-- No delimited text opens at a mark of the template. -/
theorem pass_eq_passMark (hc : c ∈ ['[', ':', '?'])
    (h : k.At t.sql.toList front (c :: rest) shown) : t.pass k = t.passMark c k := by
  have hliteral : t.dialect.opensLiteral c = false :=
    Dialect.opensLiteral_eq_false_of_mem (List.mem_cons_of_mem _ (List.mem_append_left ['$'] hc))
  obtain ⟨hnarrow, hquote⟩ : Text.IsNarrow c ∧ c ≠ t.dialect.quoteChar := by
    simp only [List.mem_cons, List.not_mem_nil, or_false] at hc
    rcases hc with rfl | rfl | rfl <;> cases t.dialect <;> decide
  rw [pass_eq hnarrow h, passAt, if_neg (by simp [hliteral]), if_neg hquote]

section

variable {s : Segment}

/-- A segment that stands for itself may be left behind. -/
theorem follows_of_skip (h : k.At t.sql.toList front (s.source ++ rest) shown)
    (hne : s.source ≠ [])
    (hsegment : t.segment (codes front).length k.state s = .ok (String.ofList s.source, k.state))
    (hpass : t.pass k = .ok { k with position := (codes (front ++ s.source)).length }) :
    t.Follows k front rest shown s := by
  have hsource : s.source ++ rest ≠ [] := List.append_ne_nil_of_left_ne_nil hne rest
  have hposition := h.position hsource
  rw [Follows, hsegment]
  refine ⟨_, Text.sweep_of_pass (h.position_lt hsource) hpass ?_, rfl,
    h.skip (fun _ => rfl) (Nat.le_refl _)⟩
  rw [hposition]
  exact Text.length_codes_lt hne front

/-- A segment may be at fault. -/
theorem follows_of_stop (h : k.At t.sql.toList front (s.source ++ rest) shown)
    (hne : s.source ≠ []) {e : CompositionError}
    (hsegment : t.segment (codes front).length k.state s = .error e)
    (hpass : t.pass k = .error (.refused e)) : t.Follows k front rest shown s := by
  have hsource : s.source ++ rest ≠ [] := List.append_ne_nil_of_left_ne_nil hne rest
  rw [Follows, hsegment]
  exact Text.sweep_of_stop (h.position_lt hsource) hpass

/-- A segment may be replaced, if there is a text for it. -/
theorem follows_of_replace (h : k.At t.sql.toList front (s.source ++ rest) shown)
    (hne : s.source ≠ []) {text : Except CompositionError (String × Numbering)}
    (hsegment : t.segment (codes front).length k.state s = text)
    (hpass : t.pass k = k.replace t.sql.toList (codes (front ++ s.source)).length text) :
    t.Follows k front rest shown s := by
  have hsource : s.source ++ rest ≠ [] := List.append_ne_nil_of_left_ne_nil hne rest
  have hposition := h.position hsource
  rw [h.replace_eq hsource] at hpass
  cases text with
  | error e => exact follows_of_stop h hne hsegment hpass
  | ok r =>
    rw [Follows, hsegment]
    refine ⟨_, Text.sweep_of_pass (h.position_lt hsource) hpass ?_, rfl, h.replaced rfl⟩
    rw [hposition]
    exact Text.length_codes_lt hne front

end

/-! ### The kinds of segments -/

theorem follows_literal {text : List Char} {prev : Option Char}
    (hs : (Segment.literal text).Starts t.dialect prev rest)
    (h : k.At t.sql.toList front (text ++ rest) shown) :
    t.Follows k front rest shown (.literal text) := by
  have hne := hs.source_ne_nil
  obtain ⟨q, body, rfl, hq, hcloses⟩ := hs
  obtain ⟨hnarrow, hbackslash⟩ := Text.isNarrow_of_opensLiteral hq
  refine follows_of_skip h hne rfl ?_
  rw [pass_eq hnarrow h, passAt, if_pos hq]
  simp only
  rw [h.closingEnd_eq hnarrow (fun _ => hbackslash) hcloses]
  rfl

theorem follows_quoted {text : List Char} {prev : Option Char}
    (hs : (Segment.quoted text).Starts t.dialect prev rest)
    (h : k.At t.sql.toList front (text ++ rest) shown) :
    t.Follows k front rest shown (.quoted text) := by
  have hne := hs.source_ne_nil
  obtain ⟨body, rfl, hcloses⟩ := hs
  have hnarrow := Text.isNarrow_quoteChar t.dialect
  have hliteral : t.dialect.opensLiteral t.dialect.quoteChar = false :=
    Dialect.opensLiteral_eq_false_of_mem (by simp)
  refine follows_of_skip h hne rfl ?_
  rw [pass_eq hnarrow h, passAt, if_neg (by simp [hliteral]), if_pos rfl]
  simp only
  rw [h.closingEnd_eq hnarrow (fun hb => by cases hb) hcloses]
  rfl

/-- At an opening bracket the text behind it is looked through. -/
theorem pass_bracket (h : k.At t.sql.toList front ('[' :: rest) shown) :
    t.pass k = t.passBracket k ∧
      (slice t.sql.toList (k.position + 1) (codes t.sql.toList).length :
        Except (Stop CompositionError) (List Char)) = .ok rest := by
  have htext : t.sql.toList = (front ++ ['[']) ++ rest := by rw [h.text]; simp
  constructor
  · rw [pass_eq_passMark (by simp) h, passMark, if_pos rfl]
  · exact Text.slice_eq_ok_iff.2 ⟨front ++ ['['], [], by rw [List.append_nil]; exact htext,
      h.position_succ (by decide), by rw [htext]⟩

theorem follows_bracket {inner : List Char} (hinner : ']' ∉ inner)
    (h : k.At t.sql.toList front ((Segment.bracket inner).source ++ rest) shown) :
    t.Follows k front rest shown (.bracket inner) := by
  have hsource : (Segment.bracket inner).source ++ rest = '[' :: (inner ++ ']' :: rest) := by
    simp [Segment.source]
  have hne : (Segment.bracket inner).source ≠ [] := List.cons_ne_nil _ _
  have h' := hsource ▸ h
  obtain ⟨hpass, hinside⟩ := pass_bracket h'
  have htake := (afterBracket?_append_cons hinner rest).2
  -- The offsets of the two brackets, and the text that lies between them.
  have hopen := h'.position_succ (by decide)
  have hclose : k.position + 1 + (codes inner).length = (codes (front ++ '[' :: inner)).length := by
    rw [hopen, ← List.length_append, ← Text.codes_append, List.append_assoc]
    rfl
  have hend : (codes (front ++ '[' :: inner)).length + 1 =
      (codes (front ++ (Segment.bracket inner).source)).length := by
    rw [← Text.length_codes_concat (show Text.IsNarrow ']' by decide), List.append_assoc]
    rfl
  have hslice : (slice t.sql.toList (k.position + 1) (codes (front ++ '[' :: inner)).length :
      Except (Stop CompositionError) (List Char)) = .ok inner :=
    Text.slice_eq_ok_iff.2 ⟨front ++ ['['], ']' :: rest, by rw [h'.text]; simp, hopen, by simp⟩
  have hbracket : t.passBracket k = match Text.trim inner with
      | [] => .error (.refused (.emptyIdentifier k.position t.sql))
      | name => k.replace t.sql.toList (codes (front ++ (Segment.bracket inner).source)).length
        (.ok (t.identifier (String.ofList name), k.state)) := by
    rw [passBracket, hinside]
    show (if ']' ∈ inner ++ ']' :: rest then _ else _) = _
    rw [if_pos (by simp), htake, hclose, hslice, ← hend]
    rfl
  rw [hbracket] at hpass
  have hposition := h'.position (List.cons_ne_nil _ _)
  cases hname : Text.trim inner with
  | nil =>
    rw [hname, hposition] at hpass
    exact follows_of_stop h hne (by rw [segment, hname]) hpass
  | cons c name =>
    rw [hname] at hpass
    exact follows_of_replace h hne (by rw [segment, hname]) hpass

theorem follows_unclosed {inner : List Char} (hinner : ']' ∉ inner)
    (h : k.At t.sql.toList front ('[' :: inner) shown) :
    t.Follows k front [] shown (.unclosed inner) := by
  obtain ⟨hpass, hinside⟩ := pass_bracket h
  rw [passBracket, hinside] at hpass
  have hpass : t.pass k = if ']' ∈ inner then _ else _ := hpass
  rw [if_neg hinner, h.position (List.cons_ne_nil _ _)] at hpass
  exact follows_of_stop (by rw [List.append_nil]; exact h) (List.cons_ne_nil _ _) rfl hpass

/-! ### Colons -/

section

variable (h : k.At t.sql.toList front (':' :: rest) shown)

include h

/-- Behind a colon a word is looked for, and a colon behind it that no other one follows. -/
theorem runEnd_iff :
    (k.position + 1 < runEnd Text.isWordChar (codes t.sql.toList) (k.position + 1) ∧
      (codes t.sql.toList)[runEnd Text.isWordChar (codes t.sql.toList) (k.position + 1)]? =
        some ':' ∧
      (codes t.sql.toList)[runEnd Text.isWordChar (codes t.sql.toList) (k.position + 1) + 1]? ≠
        some ':') ↔
      ∃ name post, rest = name ++ ':' :: post ∧ IsPlaceholder name post := by
  have hcolon : Text.IsNarrow ':' := by decide
  have hrest := Text.splitWord_append rest
  rw [h.runEnd_eq Text.isUniform_isWordChar hcolon, h.position (List.cons_ne_nil _ _), h.text]
  -- The word, and what stands behind it.
  obtain ⟨name, hname⟩ : ∃ name, rest.takeWhile Text.isWordChar = name := ⟨_, rfl⟩
  obtain ⟨behind, hbehind⟩ : ∃ behind, rest.dropWhile Text.isWordChar = behind := ⟨_, rfl⟩
  rw [Text.splitWord, hname, hbehind] at hrest
  have htext : front ++ ':' :: rest = (front ++ ':' :: name) ++ behind := by
    rw [← hrest, List.append_assoc, List.cons_append]
  have hlength : (codes (front ++ ':' :: name)).length =
      (codes front).length + 1 + (codes name).length := by
    rw [Text.codes_append, Text.codes_cons_of_isNarrow hcolon, List.length_append,
      List.length_cons]
    omega
  have hword : (codes front).length + 1 < (codes (front ++ ':' :: name)).length ↔ name ≠ [] := by
    rw [hlength, ← not_iff_not, not_not, ← Text.codes_eq_nil_iff, ← List.length_eq_zero_iff]
    omega
  have hnext : ∀ post, behind = ':' :: post →
      (codes (front ++ ':' :: rest))[(codes (front ++ ':' :: name)).length + 1]? =
        (codes post).head? := by
    rintro post rfl
    rw [← Text.length_codes_concat hcolon, htext, ← List.singleton_append (l := post),
      ← List.append_assoc, Text.getElem?_codes_append]
  rw [hname, hword, htext, Text.getElem?_codes_append, Text.head?_codes_eq_some_iff hcolon, ← htext]
  constructor
  · rintro ⟨hne, hthis, hpost⟩
    obtain ⟨post, rfl⟩ := List.head?_eq_some_iff.1 hthis
    rw [hnext post rfl] at hpost
    refine ⟨name, post, hrest.symm, ?_, mt (Text.head?_codes_eq_some_iff hcolon post).2 hpost⟩
    have hall : name.all Text.isWordChar = true := hname ▸ List.all_takeWhile
    simpa [Text.isWord, hall] using hne
  · rintro ⟨name', post, rfl, hisword, hpost⟩
    have hsplit := splitWord_append_colon hisword post
    obtain rfl : name' = name := (congrArg Prod.fst hsplit).symm.trans hname
    obtain rfl : ':' :: post = behind := (congrArg Prod.snd hsplit).symm.trans hbehind
    rw [hnext post rfl]
    refine ⟨?_, rfl, mt (Text.head?_codes_eq_some_iff hcolon post).1 hpost⟩
    rintro rfl
    cases hisword

/-- What a pass does at a colon goes by the characters next to it. -/
theorem pass_colon : t.pass k =
    if front.getLast? == some ':' then .ok { k with position := k.position + 1 }
    else if rest.head? = some ':' then .ok { k with position := k.position + 2 }
    else t.passWord k := by
  have htext : t.sql.toList = (front ++ [':']) ++ rest := by rw [h.text]; simp
  have hnext : (codes t.sql.toList)[k.position + 1]? = some ':' ↔ rest.head? = some ':' := by
    rw [h.position_succ (by decide), htext, Text.getElem?_codes_append,
      Text.head?_codes_eq_some_iff (by decide)]
  rw [pass_eq_passMark (by simp) h, passMark, if_neg (by decide), if_pos rfl, passColon,
    h.position (List.cons_ne_nil _ _)]
  rw [h.position (List.cons_ne_nil _ _)] at hnext
  simp only [hnext]
  rw [h.text, Text.colonBefore_append]
  rfl

end

theorem follows_placeholder {name : List Char}
    (hs : (Segment.placeholder name).Starts t.dialect front.getLast? rest)
    (h : k.At t.sql.toList front ((Segment.placeholder name).source ++ rest) shown) :
    t.Follows k front rest shown (.placeholder name) := by
  obtain ⟨hprev, hplaceholder⟩ := hs
  have hsource : (Segment.placeholder name).source ++ rest = ':' :: (name ++ ':' :: rest) := by
    simp [Segment.source]
  have hne : (Segment.placeholder name).source ≠ [] := List.cons_ne_nil _ _
  have h' := hsource ▸ h
  have hhead : (name ++ ':' :: rest).head? ≠ some ':' := by
    cases name with
    | nil => cases hplaceholder.1
    | cons c name =>
      have hc := Text.isWordChar_of_mem hplaceholder.1 (List.mem_cons_self (a := c) (l := name))
      rintro ⟨⟩
      exact absurd hc (by decide)
  have htake : (name ++ ':' :: rest).takeWhile Text.isWordChar = name :=
    congrArg Prod.fst (splitWord_append_colon hplaceholder.1 rest)
  have hclose := h'.runEnd_eq Text.isUniform_isWordChar (by decide)
  rw [htake] at hclose
  have hslice : (slice t.sql.toList (k.position + 1) (codes (front ++ ':' :: name)).length :
      Except (Stop CompositionError) (List Char)) = .ok name :=
    Text.slice_eq_ok_iff.2 ⟨front ++ [':'], ':' :: rest, by rw [h'.text]; simp,
      h'.position_succ (by decide), by simp⟩
  have hend : (codes (front ++ ':' :: name)).length + 1 =
      (codes (front ++ (Segment.placeholder name).source)).length := by
    rw [← Text.length_codes_concat (show Text.IsNarrow ':' by decide), List.append_assoc]
    rfl
  have hpass := pass_colon h'
  rw [if_neg (by simpa using hprev), if_neg hhead, passWord,
    if_pos ((runEnd_iff h').2 ⟨name, rest, rfl, hplaceholder⟩), hclose, hslice, hend] at hpass
  -- The name is refused where parameters are positional, and else looked up.
  by_cases hp : t.binds.isPositional = true
  · exact follows_of_stop h hne (by rw [segment, if_pos hp]) (hpass.trans (if_pos hp))
  · exact follows_of_replace h hne (by rw [segment, if_neg hp]) (hpass.trans (if_neg hp))

theorem follows_colon (hs : (Segment.plain ':').Starts t.dialect front.getLast? rest)
    (h : k.At t.sql.toList front (':' :: rest) shown) :
    t.Follows k front rest shown (.plain ':') := by
  have hsegment : ∀ start, t.segment start k.state (.plain ':') =
      .ok (String.ofList [':'], k.state) := fun _ => rfl
  have hstep := h.position_succ (by decide)
  have hne : (Segment.plain ':').source ≠ [] := List.cons_ne_nil _ _
  have hpass := pass_colon h
  by_cases hprev : front.getLast? = some ':'
  · rw [if_pos (by simp [hprev]), hstep] at hpass
    exact follows_of_skip h hne (hsegment _) hpass
  rw [if_neg (by simpa using hprev)] at hpass
  by_cases hhead : rest.head? = some ':'
  · -- The pass leaves two colons behind at once, as would two passes, one for each.
    rw [if_pos hhead] at hpass
    obtain ⟨rest, rfl⟩ := List.head?_eq_some_iff.1 hhead
    have hnext : Cursor.At { k with position := k.position + 1 } t.sql.toList (front ++ [':'])
        (':' :: rest) (shown ++ String.ofList [':']) :=
      Cursor.At.skip h (fun _ => hstep) hstep.ge
    have hpass' := pass_colon hnext
    rw [if_pos (by simp)] at hpass'
    have hlt := h.position_lt (List.cons_ne_nil _ _)
    have hlt' := hnext.position_lt (List.cons_ne_nil _ _)
    rw [Follows, hsegment]
    refine ⟨{ k with position := k.position + 1 }, ?_, rfl, hnext⟩
    rw [Text.sweep_of_pass hlt hpass (by simp), Text.sweep_of_pass hlt' hpass' (by simp)]
  · have hword : ¬ ∃ name post, rest = name ++ ':' :: post ∧ IsPlaceholder name post :=
      hs.2.2.2.2 rfl hprev
    rw [if_neg hhead, passWord, if_neg (mt (runEnd_iff h).1 hword), hstep] at hpass
    exact follows_of_skip h hne (hsegment _) hpass

/-! ### Other characters -/

theorem follows_question (h : k.At t.sql.toList front ('?' :: rest) shown) :
    t.Follows k front rest shown .question := by
  have hne : Segment.question.source ≠ [] := List.cons_ne_nil _ _
  have hstep := h.position_succ (by decide)
  have hpass := pass_eq_passMark (by simp) h
  rw [passMark, if_neg (by decide), if_neg (by decide)] at hpass
  by_cases hp : t.binds.isPositional = true
  · rw [if_pos ⟨rfl, hp⟩, hstep] at hpass
    exact follows_of_replace h hne (by rw [segment, if_pos hp]) hpass
  · rw [if_neg (fun hq => hp hq.2), hstep] at hpass
    exact follows_of_skip h hne (by rw [segment, if_neg hp]; rfl) hpass

/-- At a byte that is no mark the cursor moves on by one. -/
theorem pass_of_inert (hl : t.dialect.opensLiteral c = false) (hq : c ≠ t.dialect.quoteChar)
    (hb : c ≠ '[') (hc : c ≠ ':') (hm : c ≠ '?')
    (hbyte : (codes t.sql.toList)[k.position]? = some c) :
    t.pass k = .ok { k with position := k.position + 1 } := by
  rw [pass, byteAt, hbyte]
  show t.passAt c k = _
  rw [passAt, if_neg (by simp [hl]), if_neg hq, passMark, if_neg hb, if_neg hc,
    if_neg (fun h => hm h.1)]

/-- A character that is no mark is left behind byte by byte. -/
theorem follows_plain (hs : (Segment.plain c).Starts t.dialect front.getLast? rest) (hc : c ≠ ':')
    (h : k.At t.sql.toList front (c :: rest) shown) : t.Follows k front rest shown (.plain c) := by
  obtain ⟨hliteral, hquote, hbracket, hquestion, -⟩ := hs
  have hpass : ∀ (k : Cursor Numbering) (u : Char), u ∈ codes [c] →
      (codes t.sql.toList)[k.position]? = some u →
      t.pass k = .ok { k with position := k.position + 1 } := by
    intro k u hu hbyte
    rw [Text.codes_cons, Text.codes_nil, List.append_nil] at hu
    -- No byte of the character is a mark either.
    exact pass_of_inert (Text.opensLiteral_of_mem_codesOf hu hliteral)
      (Text.ne_of_mem_codesOf (Text.isNarrow_quoteChar _) hu hquote)
      (Text.ne_of_mem_codesOf (by decide) hu hbracket) (Text.ne_of_mem_codesOf (by decide) hu hc)
      (Text.ne_of_mem_codesOf (by decide) hu hquestion) hbyte
  have htext : t.sql.toList = front ++ ([c] ++ rest) := h.text
  have hsweep := Text.sweep_of_inert htext (h.position (List.cons_ne_nil _ _)) hpass
  have hnext : Cursor.At { k with position := (codes (front ++ [c])).length } t.sql.toList
      (front ++ [c]) rest (shown ++ String.ofList [c]) :=
    Cursor.At.skip h (fun _ => rfl) (Nat.le_refl _)
  rw [Follows, segment, String.singleton_eq_ofList]
  exact ⟨_, hsweep, rfl, hnext⟩

/-! ### A whole text -/

/-- The passes over a segment do what the segment asks for. -/
theorem follows_of_starts {s : Segment} (hs : s.Starts t.dialect front.getLast? rest)
    (h : k.At t.sql.toList front (s.source ++ rest) shown) : t.Follows k front rest shown s := by
  cases s with
  | literal text => exact follows_literal hs h
  | quoted text => exact follows_quoted hs h
  | bracket inner => exact follows_bracket hs h
  | unclosed inner =>
    obtain ⟨hinner, rfl⟩ := hs
    rw [List.append_nil] at h
    exact follows_unclosed hinner h
  | placeholder name => exact follows_placeholder hs h
  | question => exact follows_question h
  | plain c =>
    by_cases hc : c = ':'
    · subst hc
      exact follows_colon hs h
    · exact follows_plain hs hc h

/-- From any place of the text the passes do what the segments of the rest ask for. -/
theorem sweep_eq (h : k.At t.sql.toList front rest shown) :
    match t.segments (codes front).length k.state
        (scanFrom t.dialect (afterColon front.getLast?) rest) with
    | .error e => sweep t.sql.toList t.pass k = .error (.refused e)
    | .ok (text, n) => ∃ k' : Cursor Numbering, sweep t.sql.toList t.pass k = .ok k' ∧
        k'.state = n ∧ k'.At t.sql.toList t.sql.toList [] (shown ++ text) := by
  -- What follows the first segment is shorter.
  induction hn : rest.length using Nat.strongRecOn generalizing k front rest shown with
  | _ n ih =>
    cases rest with
    | nil =>
      obtain rfl : front = t.sql.toList := by rw [h.text, List.append_nil]
      rw [scanFrom, segments]
      exact ⟨k, Text.sweep_of_le h.reached, rfl, by rwa [String.append_empty]⟩
    | cons c cs =>
      obtain ⟨s, rest, hcs, hs, hrest⟩ := exists_starts t.dialect front.getLast? c cs
      rw [hcs] at h ⊢
      have hlast : s.source.getLast? = (front ++ s.source).getLast? := by
        obtain ⟨c, hc⟩ := Option.ne_none_iff_exists'.1
          (mt List.getLast?_eq_none_iff.1 hs.source_ne_nil)
        rw [List.getLast?_append, hc, Option.some_or]
      have hstart : (codes front).length + (String.ofList s.source).utf8ByteSize =
          (codes (front ++ s.source)).length := by
        rw [Text.codes_append, List.length_append, Text.length_codes s.source]
      -- The first segment is passed, and the passes go on at the place behind it.
      have hfirst := follows_of_starts hs h
      rw [hs.scanFrom_append, segments, hlast, hstart]
      rw [Follows] at hfirst
      cases hsegment : t.segment (codes front).length k.state s with
      | error e =>
        rw [hsegment] at hfirst
        exact hfirst
      | ok first =>
        obtain ⟨out, n'⟩ := first
        rw [hsegment] at hfirst
        obtain ⟨k', hsweep, rfl, hat⟩ := hfirst
        have hothers := ih rest.length (by rw [← hn, List.length_cons]; omega) hat rfl
        simp only [hsweep]
        cases hsegments : t.segments (codes (front ++ s.source)).length k'.state
            (scanFrom t.dialect (afterColon (front ++ s.source).getLast?) rest) with
        | error e =>
          rw [hsegments] at hothers
          exact hothers
        | ok r =>
          rw [hsegments] at hothers
          simpa only [String.append_assoc] using hothers

/-- No access to the text fails, every pass gets on, and what is found is the same, a native
statement or an error. -/
theorem runByOffsets_eq (t : Rendering) : ∃ r : Except CompositionError Native,
    t.run = r.mapError .composition ∧ t.runByOffsets = r.mapError .refused := by
  have hsweep := sweep_eq (Cursor.At.start t.sql.toList ({} : Numbering))
  have hscan : scan t.dialect t.sql.toList =
      scanFrom t.dialect (afterColon ([] : List Char).getLast?) t.sql.toList := rfl
  rw [run, hscan, runByOffsets]
  cases hsegments : t.segments 0 {}
      (scanFrom t.dialect (afterColon ([] : List Char).getLast?) t.sql.toList) with
  | error e =>
    have hsweep : sweep t.sql.toList t.pass ⟨0, 0, "", {}⟩ = .error (.refused e) := by
      rwa [Text.codes_nil, List.length_nil, hsegments] at hsweep
    exact ⟨.error e, rfl, by rw [hsweep]; rfl⟩
  | ok r =>
    rw [Text.codes_nil, List.length_nil, hsegments] at hsweep
    obtain ⟨k, hsweep, hstate, hat⟩ := hsweep
    obtain ⟨pending, hslice, hshown, -⟩ := hat.slice_eq CompositionError
    rw [String.empty_append] at hshown
    refine ⟨.ok ⟨r.1, r.2.binds, r.2.types⟩, rfl, ?_⟩
    simp only [hsweep, Text.ok_bind, hslice]
    rw [hshown, hstate]
    rfl

end BoundSql.Rendering

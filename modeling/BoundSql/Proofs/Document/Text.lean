import BoundSql.Document.Text
import Mathlib.Tactic.SplitIfs

/-! # Strings of JSON documents are read back
* **`bytesText?_textBytes`** — the bytes of a text are those of no other text.
* **`Document.scanString_escape`** — an escaped text is a whole string: scanning it stops at the
  closing quote.
* **`Document.unescape_escape`** — and it stands for the text.
* **`Document.escape_of_isPlain`** — text that needs no escapes is written as it is. -/

namespace BoundSql

/-- The text of a text's bytes is the text. -/
theorem bytesText?_textBytes (s : String) : bytesText? (textBytes s) = some s := by
  have hbytes : (⟨(textBytes s).toArray⟩ : ByteArray) = s.toByteArray := by
    rw [← String.utf8Encode_toList, List.utf8Encode, textBytes]
    apply ByteArray.ext
    simp
  rw [bytesText?, hbytes, String.fromUTF8?, dif_pos s.isValidUTF8]
  rfl

namespace Document

/-- The escape of a control character that has no short one. -/
theorem codeUnit?_hexDigit (n : Fin 0x20) :
    codeUnit? (byte '0') (byte '0') (hexDigit (n / 16)) (hexDigit (n % 16)) = some n.val ∧
      ([byte '0', byte '0', hexDigit (n / 16), hexDigit (n % 16)].all fun h =>
        (hexValue? h).isSome) = true ∧
      isLowSurrogate n = false ∧ isHighSurrogate n = false ∧
      String.utf8EncodeChar (Char.ofNat n) = [n.val.toUInt8] := by
  revert n
  decide

/-- The ways a byte is written between quotes: a quote, a backslash and five control characters have
escapes of their own, the other control characters go by their number, and any other byte stands for
itself. -/
inductive Escaped (b : UInt8) : Bytes → Prop
  /-- An escape of its own. -/
  | simple (e : UInt8) (known : isSimpleEscape e = true) (other : e ≠ byte 'u')
      (stands : simpleEscape e = b) : Escaped b [byte '\\', e]
  /-- An escape by number. -/
  | number (n : Fin 0x20) (stands : n.val.toUInt8 = b) :
      Escaped b [byte '\\', byte 'u', byte '0', byte '0', hexDigit (n / 16), hexDigit (n % 16)]
  /-- The byte itself. -/
  | itself (printable : ¬ b < 0x20) (noQuote : b ≠ byte '"') (noBackslash : b ≠ byte '\\') :
      Escaped b [b]

theorem escaped_escapeByte (b : UInt8) : Escaped b (escapeByte b) := by
  rw [escapeByte]
  split_ifs with h₁ h₂ h₃ h₄ h₅ h₆ h₇ h₈
  · exact .simple (byte '"') (by decide) (by decide) (by rw [h₁]; decide)
  · exact .simple (byte '\\') (by decide) (by decide) (by rw [h₂]; decide)
  · exact .simple (byte 'b') (by decide) (by decide) (by rw [h₃]; decide)
  · exact .simple (byte 't') (by decide) (by decide) (by rw [h₄]; decide)
  · exact .simple (byte 'n') (by decide) (by decide) (by rw [h₅]; decide)
  · exact .simple (byte 'f') (by decide) (by decide) (by rw [h₆]; decide)
  · exact .simple (byte 'r') (by decide) (by decide) (by rw [h₇]; decide)
  · have hlt : b.toNat < 0x20 := UInt8.lt_iff_toNat_lt.1 h₈
    exact .number ⟨b.toNat, hlt⟩ (by simp)
  · exact .itself h₈ h₁ h₂

/-- A byte between quotes is scanned as a whole. -/
theorem Escaped.scanString_append {b : UInt8} {raw : Bytes} (h : Escaped b raw) (bs : Bytes) :
    scanString (raw ++ bs) = (scanString bs).map fun r => (raw ++ r.1, r.2) := by
  have hquote : byte '\\' ≠ byte '"' := by decide
  rw [scanString.eq_def]
  cases h with
  | simple e known other stands =>
    simp only [List.cons_append, List.nil_append, if_neg hquote, if_true, if_neg other, known]
  | number n stands =>
    simp only [List.cons_append, List.nil_append, if_neg hquote, if_true,
      (codeUnit?_hexDigit n).2.1]
  | itself printable noQuote noBackslash =>
    simp only [List.cons_append, List.nil_append, if_neg noQuote, if_neg noBackslash,
      if_neg printable]

/-- A byte between quotes stands for itself. -/
theorem Escaped.unescapeBytes_append {b : UInt8} {raw : Bytes} (h : Escaped b raw) (bs : Bytes) :
    unescapeBytes (raw ++ bs) = (unescapeBytes bs).map fun r => b :: r := by
  cases h with
  | simple e known other stands =>
    -- Only a `u` begins the longer escapes.
    have hother : e ≠ 0x75 := other
    rw [List.cons_append, List.cons_append, List.nil_append, show byte '\\' = 0x5C from rfl,
      unescapeBytes.eq_3 e bs fun _ _ _ _ _ he => absurd he hother, stands]
  | number n stands =>
    obtain ⟨hunit, -, hlow, hhigh, hchar⟩ := codeUnit?_hexDigit n
    simp only [List.cons_append, List.nil_append, show byte '\\' = 0x5C from rfl,
      show byte 'u' = 0x75 from rfl, unescapeBytes.eq_2, hunit, hlow, hhigh, hchar, stands,
      Bool.false_eq_true, if_false]
  | itself printable noQuote noBackslash =>
    have hbackslash : b ≠ 0x5C := noBackslash
    rw [List.cons_append, List.nil_append,
      unescapeBytes.eq_4 b bs (fun _ _ _ _ _ hb => absurd hb hbackslash)
        fun _ _ hb => absurd hb hbackslash]

/-! ### Texts -/

/-- Escaped bytes are scanned up to the closing quote. -/
theorem scanString_flatMap_escapeByte (bs rest : Bytes) :
    scanString (bs.flatMap escapeByte ++ byte '"' :: rest) =
      some (bs.flatMap escapeByte, rest) := by
  induction bs with
  | nil =>
    rw [List.flatMap_nil, List.nil_append, scanString.eq_def]
    exact if_pos rfl
  | cons b bs ih =>
    rw [List.flatMap_cons, List.append_assoc, (escaped_escapeByte b).scanString_append, ih,
      Option.map_some]

/-- Escaped bytes stand for the bytes. -/
theorem unescapeBytes_flatMap_escapeByte (bs : Bytes) :
    unescapeBytes (bs.flatMap escapeByte) = some bs := by
  induction bs with
  | nil => rfl
  | cons b bs ih =>
    rw [List.flatMap_cons, (escaped_escapeByte b).unescapeBytes_append, ih, Option.map_some]

/-- An escaped text is scanned up to the closing quote. -/
theorem scanString_escape (s : String) (rest : Bytes) :
    scanString (escape s ++ byte '"' :: rest) = some (escape s, rest) :=
  scanString_flatMap_escapeByte (textBytes s) rest

/-- An escaped text stands for the text. -/
theorem unescape_escape (s : String) : unescape (escape s) = some s := by
  rw [unescape, escape, unescapeBytes_flatMap_escapeByte, Option.bind_some, bytesText?_textBytes]

/-! ### Plain text -/

/-- Whether a character stands for itself between quotes, in one byte. -/
def isPlain (c : Char) : Bool := 0x20 ≤ c.toNat && c.toNat < 0x80 && c != '"' && c != '\\'

/-- A plain character is not escaped. -/
theorem flatMap_escapeByte_of_isPlain {c : Char} (h : isPlain c = true) :
    (String.utf8EncodeChar c).flatMap escapeByte = [byte c] := by
  simp only [isPlain, Bool.and_eq_true, decide_eq_true_eq, bne_iff_ne] at h
  obtain ⟨⟨⟨hlow, hhigh⟩, hquote⟩, hbackslash⟩ := h
  have hnumber : (byte c).toNat = c.toNat := Nat.mod_eq_of_lt (by omega)
  -- A byte below 0x80 is that of one character, so comparing the bytes compares the characters.
  have hother : ∀ d : Char, d.toNat < 0x80 → c ≠ d → byte c ≠ byte d := by
    intro d hd hne hbyte
    have : (byte d).toNat = d.toNat := Nat.mod_eq_of_lt (by omega)
    exact hne (Char.toNat_inj.1 (by rw [← hnumber, hbyte, this]))
  have hcontrol : ∀ d : UInt8, d < 0x20 → byte c ≠ d := by
    rintro _ hd rfl
    rw [UInt8.lt_iff_toNat_lt, hnumber] at hd
    exact absurd hd (Nat.not_lt.2 hlow)
  have hbyte : String.utf8EncodeChar c = [byte c] := if_pos (Nat.le_of_lt_succ hhigh)
  rw [hbyte, List.flatMap_singleton, escapeByte, if_neg (hother '"' (by decide) hquote),
    if_neg (hother '\\' (by decide) hbackslash), if_neg (hcontrol _ (by decide)),
    if_neg (hcontrol _ (by decide)), if_neg (hcontrol _ (by decide)),
    if_neg (hcontrol _ (by decide)), if_neg (hcontrol _ (by decide)),
    if_neg fun h => hcontrol _ h rfl]

/-- Plain text stands for itself. -/
theorem escape_of_isPlain {s : String} (h : ∀ c ∈ s.toList, isPlain c = true) :
    escape s = asciiBytes s := by
  rw [escape, textBytes, asciiBytes, List.flatMap_assoc, List.map_eq_flatMap, List.flatMap_def,
    List.flatMap_def, List.map_congr_left fun c hc => flatMap_escapeByte_of_isPlain (h c hc)]

end Document

end BoundSql

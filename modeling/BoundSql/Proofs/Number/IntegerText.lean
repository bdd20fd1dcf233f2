import BoundSql.Proofs.Number.DecimalText
import BoundSql.Proofs.Text.Blank
import Mathlib.Data.Int.Notation
import Mathlib.Data.Nat.Notation

/-! # Which texts are integers
**`WritesInteger`** says when a text writes an integer in decimal: an optional sign and digits.
* **`readInteger_eq_ok_iff`** — these texts are read, as the integer they write, if it lies between
  the bounds, and no others.
* **`trim_toString`** — the text of an integer has no white space to cut off. -/

namespace BoundSql.Number

/-- Whether a text writes an integer: digits, one at least, after an optional sign. -/
def WritesInteger (cs : List Char) (n : ℤ) : Prop :=
  ∃ sign digits : List Char, cs = sign ++ digits ∧ digits ≠ [] ∧
    (∀ c ∈ digits, c.isDigit = true) ∧
    ((sign = [] ∨ sign = ['+']) ∧ n = Nat.ofDigitChars 10 digits 0 ∨
      sign = ['-'] ∧ n = -(Nat.ofDigitChars 10 digits 0 : ℤ))

/-- Digits that are read are digits, and are worth no more than the limit. -/
theorem readDigits_eq_ok_iff {limit : ℕ} {overflow : IntegerError} {start n : ℕ}
    {digits : List Char} (hstart : start ≤ limit) :
    readDigits limit overflow start digits = .ok n ↔
      (∀ c ∈ digits, c.isDigit = true) ∧ n = digitsValue start digits ∧ n ≤ limit := by
  constructor
  · intro h
    -- That they are digits does not depend on the limit, which the value so far may pass.
    have hdigits : ∀ c ∈ digits, c.isDigit = true := by
      clear hstart
      induction digits generalizing start with
      | nil => simp
      | cons c digits ih =>
        rw [readDigits] at h
        split at h
        · cases h
        · rename_i hc
          split at h
          · cases h
          · exact List.forall_mem_cons.2 ⟨by simpa using hc, ih h⟩
    rw [readDigits_eq limit overflow hdigits hstart] at h
    split at h
    · obtain rfl := Except.ok.inj h
      exact ⟨hdigits, rfl, by assumption⟩
    · cases h
  · rintro ⟨hdigits, rfl, hle⟩
    rw [readDigits_eq limit overflow hdigits hstart, if_pos hle]

/-- Digits that are read up to a limit, with what is made of their value. -/
theorem map_readDigits_eq_ok_iff (overflow : IntegerError) {limit : ℕ} {digits : List Char}
    {f : ℕ → ℤ} {n : ℤ} : (readDigits limit overflow 0 digits).map f = .ok n ↔
      (∀ c ∈ digits, c.isDigit = true) ∧ n = f (Nat.ofDigitChars 10 digits 0) ∧
        Nat.ofDigitChars 10 digits 0 ≤ limit := by
  rw [← digitsValue_eq_ofDigitChars]
  constructor
  · intro h
    cases hread : readDigits limit overflow 0 digits with
    | error e =>
      rw [hread] at h
      cases h
    | ok m =>
      obtain ⟨hdigits, rfl, hle⟩ := (readDigits_eq_ok_iff (Nat.zero_le _)).1 hread
      rw [hread] at h
      exact ⟨hdigits, (Except.ok.inj h).symm, hle⟩
  · rintro ⟨hdigits, rfl, hle⟩
    rw [(readDigits_eq_ok_iff (Nat.zero_le _)).2 ⟨hdigits, rfl, hle⟩]
    rfl

/-- Digits after a minus that are read, in the form in which `readInteger` negates them. -/
theorem readInteger_minus_eq_ok_iff {low high : ℕ} (hlow : low ≠ 0) {digits : List Char}
    (hne : digits ≠ []) {n : ℤ} : readInteger low high ('-' :: digits) = .ok n ↔
      (∀ c ∈ digits, c.isDigit = true) ∧ n = -(Nat.ofDigitChars 10 digits 0 : ℤ) ∧
        Nat.ofDigitChars 10 digits 0 ≤ low := by
  rw [readInteger_minus hne hlow]
  refine Iff.trans ?_ (map_readDigits_eq_ok_iff .tooSmall (f := fun m => -(m : ℤ)))
  cases readDigits low .tooSmall 0 digits <;> exact Iff.rfl

/-- A text is read exactly if it writes an integer between the bounds, and then as that integer. -/
theorem readInteger_eq_ok_iff {low high : ℕ} (hlow : low ≠ 0) {cs : List Char} {n : ℤ} :
    readInteger low high cs = .ok n ↔ WritesInteger cs n ∧ -(low : ℤ) ≤ n ∧ n ≤ high := by
  constructor
  · intro h
    unfold readInteger at h
    split at h
    -- No text, and a sign alone, are refused.
    · cases h
    · cases h
    · cases h
    · rename_i digits hne
      obtain ⟨hdigits, rfl, hle⟩ := (map_readDigits_eq_ok_iff _).1 h
      exact ⟨⟨['+'], digits, rfl, fun he => hne (he ▸ rfl), hdigits, .inl ⟨.inr rfl, rfl⟩⟩,
        by simp only [Int.ofNat_eq_natCast]; omega, by simp only [Int.ofNat_eq_natCast]; omega⟩
    · rename_i digits hne
      have hne : digits ≠ [] := fun he => hne (he ▸ rfl)
      have hread : readInteger low high ('-' :: digits) = .ok n := by
        rw [readInteger_minus hne hlow]
        rwa [if_neg hlow] at h
      obtain ⟨hdigits, rfl, hle⟩ := (readInteger_minus_eq_ok_iff hlow hne).1 hread
      exact ⟨⟨['-'], digits, rfl, hne, hdigits, .inr ⟨rfl, rfl⟩⟩, by omega, by omega⟩
    · rename_i hne _ _ _ _
      obtain ⟨hdigits, rfl, hle⟩ := (map_readDigits_eq_ok_iff _).1 h
      exact ⟨⟨[], cs, rfl, hne, hdigits, .inl ⟨.inl rfl, rfl⟩⟩,
        by simp only [Int.ofNat_eq_natCast]; omega, by simp only [Int.ofNat_eq_natCast]; omega⟩
  · rintro ⟨⟨sign, digits, rfl, hne, hdigits, hsign⟩, hbelow, habove⟩
    rcases hsign with ⟨rfl | rfl, rfl⟩ | ⟨rfl, rfl⟩
    · rw [List.nil_append, readInteger_digits hdigits hne]
      exact (map_readDigits_eq_ok_iff _).2 ⟨hdigits, rfl, by omega⟩
    · rw [List.singleton_append, readInteger_plus hne]
      exact (map_readDigits_eq_ok_iff _).2 ⟨hdigits, rfl, by omega⟩
    · rw [List.singleton_append]
      exact (readInteger_minus_eq_ok_iff hlow hne).2 ⟨hdigits, rfl, by omega⟩

/-! ### The text of an integer -/

/-- The text of an integer holds no white space. -/
theorem isBlank_of_mem_toString (n : ℤ) : ∀ c ∈ (toString n).toList, Text.isBlank c = false := by
  have hdigits : ∀ m : ℕ, ∀ c ∈ Nat.toDigits 10 m, Text.isBlank c = false := fun m c hc =>
    Text.isBlank_of_isDigit (isDigit_of_mem_toDigits hc)
  cases n with
  | ofNat m =>
    rw [show Int.ofNat m = (m : ℤ) from rfl, toList_toString_ofNat]
    exact hdigits m
  | negSucc m =>
    rw [toList_toString_negSucc, List.forall_mem_cons]
    exact ⟨by decide, hdigits (m + 1)⟩

/-- The text of an integer writes the integer. -/
theorem writesInteger_toString (n : ℤ) : WritesInteger (toString n).toList n := by
  have hvalue : ∀ m : ℕ, (Nat.ofDigitChars 10 (Nat.toDigits 10 m) 0 : ℤ) = m := fun m =>
    congrArg Nat.cast Nat.ofDigitChars_ten_toDigits
  cases n with
  | ofNat m =>
    refine ⟨[], Nat.toDigits 10 m, toList_toString_ofNat m, Nat.toDigits_ne_nil,
      fun _ => isDigit_of_mem_toDigits, .inl ⟨.inl rfl, ?_⟩⟩
    rw [hvalue]
    rfl
  | negSucc m =>
    refine ⟨['-'], Nat.toDigits 10 (m + 1), toList_toString_negSucc m, Nat.toDigits_ne_nil,
      fun _ => isDigit_of_mem_toDigits, .inr ⟨rfl, ?_⟩⟩
    rw [hvalue]
    rfl

theorem trim_toString (n : ℤ) : Text.trim (toString n).toList = (toString n).toList :=
  Text.trim_eq_self (fun c hc => isBlank_of_mem_toString n c (List.mem_of_mem_head? hc))
    fun c hc => isBlank_of_mem_toString n c (List.mem_of_getLast? hc)

end BoundSql.Number

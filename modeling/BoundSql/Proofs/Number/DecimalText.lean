import BoundSql.Number.DecimalText

/-! # Integers in decimal text
* **`digitsValue_toDigits`** — the digits of a number are worth the number.
* **`readDigits_eq`** — digits are read up to the limit, and refused past it.
* **`readInteger_toString`** — the text of an integer is read as the integer if it lies between the
  bounds, and refused on the side where it does not. -/

namespace BoundSql.Number

/-! ### Digits -/

/-- Digits are worth what the library makes of them. -/
theorem digitsValue_eq_ofDigitChars (start : Nat) (digits : List Char) :
    digitsValue start digits = Nat.ofDigitChars 10 digits start := by
  simp only [digitsValue, digitValue, Nat.ofDigitChars, Nat.mul_comm]

/-- The digits of a number are worth the number. -/
theorem digitsValue_toDigits (n : Nat) : digitsValue 0 (Nat.toDigits 10 n) = n := by
  rw [digitsValue_eq_ofDigitChars, Nat.ofDigitChars_ten_toDigits]

/-- Different numbers have different texts. -/
theorem toString_inj {m n : Nat} (h : toString m = toString n) : m = n := by
  have hdigits : Nat.toDigits 10 m = Nat.toDigits 10 n := by
    simpa [Nat.repr] using congrArg String.toList h
  rw [← digitsValue_toDigits m, hdigits, digitsValue_toDigits]

/-- More digits are worth no less. -/
theorem le_digitsValue (start : Nat) (digits : List Char) : start ≤ digitsValue start digits := by
  induction digits generalizing start with
  | nil => exact Nat.le_refl start
  | cons c digits ih =>
    have h : start * 10 + digitValue c ≤ digitsValue start (c :: digits) := ih _
    omega

/-- Digits are read up to the limit, and refused past it. -/
theorem readDigits_eq (limit : Nat) (overflow : IntegerError) {start : Nat} {digits : List Char}
    (hdigits : ∀ c ∈ digits, c.isDigit = true) (hstart : start ≤ limit) :
    readDigits limit overflow start digits =
      if digitsValue start digits ≤ limit then .ok (digitsValue start digits)
      else .error overflow := by
  induction digits generalizing start with
  | nil => rw [readDigits, show digitsValue start [] = start from rfl, if_pos hstart]
  | cons c digits ih =>
    have hc := hdigits c List.mem_cons_self
    have hvalue : digitsValue start (c :: digits) =
        digitsValue (start * 10 + digitValue c) digits := rfl
    rw [readDigits, hc, hvalue]
    by_cases hlimit : limit < start * 10 + digitValue c
    · have hle := le_digitsValue (start * 10 + digitValue c) digits
      rw [if_neg (by simp), if_pos hlimit, if_neg (by omega)]
    · rw [if_neg (by simp), if_neg hlimit,
        ih (fun c' hc' => hdigits c' (List.mem_cons_of_mem c hc')) (by omega)]

/-! ### Signs -/

variable {low high : Nat} {digits : List Char}

/-- Digits without a sign are read as they are. -/
theorem readInteger_digits (hdigits : ∀ c ∈ digits, c.isDigit = true) (hne : digits ≠ []) :
    readInteger low high digits = (readDigits high .tooLarge 0 digits).map Int.ofNat := by
  unfold readInteger
  split
  · exact absurd rfl hne
  · exact absurd (hdigits '+' List.mem_cons_self) (by decide)
  · exact absurd (hdigits '-' List.mem_cons_self) (by decide)
  · exact absurd (hdigits '+' List.mem_cons_self) (by decide)
  · exact absurd (hdigits '-' List.mem_cons_self) (by decide)
  · rfl

/-- A plus in front changes nothing. -/
theorem readInteger_plus (hne : digits ≠ []) :
    readInteger low high ('+' :: digits) = (readDigits high .tooLarge 0 digits).map Int.ofNat := by
  obtain ⟨c, digits, rfl⟩ := List.exists_cons_of_ne_nil hne
  rw [readInteger]
  simp

/-- Digits after a minus are read up to the lower bound. -/
theorem readInteger_minus (hne : digits ≠ []) (hlow : low ≠ 0) :
    readInteger low high ('-' :: digits) =
      (readDigits low .tooSmall 0 digits).map fun n => -(n : Int) := by
  obtain ⟨c, digits, rfl⟩ := List.exists_cons_of_ne_nil hne
  rw [readInteger, if_neg hlow]
  simp

/-! ### The text of an integer -/

theorem toList_toString_ofNat (n : Nat) : (toString (n : Int)).toList = Nat.toDigits 10 n := by
  rw [Int.toString_eq_repr, Int.repr.eq_def]
  exact Nat.toList_repr

theorem toList_toString_negSucc (n : Nat) :
    (toString (Int.negSucc n)).toList = '-' :: Nat.toDigits 10 (n + 1) := by
  rw [Int.toString_eq_repr, Int.repr.eq_def]
  simp only [String.toList_append, Nat.toList_repr]
  rfl

theorem isDigit_of_mem_toDigits {n : Nat} {c : Char} (h : c ∈ Nat.toDigits 10 n) :
    c.isDigit = true :=
  Nat.isDigit_of_mem_toDigits (by decide) (by decide) h

/-- The text of an integer is read as the integer, if it lies between the bounds. -/
theorem readInteger_toString (hlow : low ≠ 0) (n : Int) :
    readInteger low high (toString n).toList =
      if n < -(low : Int) then .error .tooSmall
      else if (high : Int) < n then .error .tooLarge
      else .ok n := by
  cases n with
  | ofNat m =>
    rw [show Int.ofNat m = (m : Int) from rfl, toList_toString_ofNat,
      readInteger_digits (fun _ => isDigit_of_mem_toDigits) Nat.toDigits_ne_nil,
      readDigits_eq high _ (fun _ => isDigit_of_mem_toDigits) (Nat.zero_le _),
      digitsValue_toDigits, if_neg (show ¬ (m : Int) < -(low : Int) by omega)]
    by_cases hm : m ≤ high
    · rw [if_pos hm, if_neg (by omega)]
      rfl
    · rw [if_neg hm, if_pos (by omega)]
      rfl
  | negSucc m =>
    rw [toList_toString_negSucc, readInteger_minus Nat.toDigits_ne_nil hlow,
      readDigits_eq low _ (fun _ => isDigit_of_mem_toDigits) (Nat.zero_le _),
      digitsValue_toDigits]
    -- Digits after a minus are read up to the magnitude of the lower bound.
    by_cases hm : m + 1 ≤ low
    · rw [if_pos hm, if_neg (by omega), if_neg (by omega)]
      rfl
    · rw [if_neg hm, if_pos (by omega)]
      rfl

/-- A plus in front of the text of an integer that is not negative changes nothing. -/
theorem readInteger_plus_toString {n : Int} (hn : 0 ≤ n) :
    readInteger low high ('+' :: (toString n).toList) =
      readInteger low high (toString n).toList := by
  obtain ⟨m, rfl⟩ := Int.eq_ofNat_of_zero_le hn
  rw [toList_toString_ofNat, readInteger_plus Nat.toDigits_ne_nil,
    readInteger_digits (fun _ => isDigit_of_mem_toDigits) Nat.toDigits_ne_nil]

end BoundSql.Number

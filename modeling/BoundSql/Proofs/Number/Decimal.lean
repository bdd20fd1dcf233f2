import BoundSql.Postgres.Numeric
import BoundSql.Proofs.Number.PlaceValue
import Mathlib.Data.List.TakeWhile

/-! # Decimal numerals
**`Decimal`** — a decimal number as it is written: its sign and the digits before and after the
point. **`Decimal.WrittenAs`** is the grammar of its texts, and **`Decimal.value`** its value. Every
text is that of one numeral at most, and cutting it at sign and point finds it
(**`Decimal.writtenAs_iff`**). -/

namespace BoundSql.Number

/-- A number under a sign. -/
def signed (negative : Bool) (magnitude : ℚ) : ℚ := if negative then -magnitude else magnitude

/-- A decimal numeral. -/
structure Decimal where
  /-- Whether the sign is negative. -/
  negative : Bool
  /-- The digits before the point. -/
  whole : List Char
  /-- The digits after the point. -/
  fraction : List Char
  deriving DecidableEq

namespace Decimal

/-- How a sign is written: a plus may be left out. -/
inductive Sign : Bool → List Char → Prop
  /-- A minus. -/
  | minus : Sign true ['-']
  /-- A plus. -/
  | plus : Sign false ['+']
  /-- No sign. -/
  | none : Sign false []

/-- How the digits before and after the point are written: a point with none behind it may be left
out. -/
inductive Magnitude : List Char → List Char → List Char → Prop
  /-- With a point. -/
  | point (whole fraction : List Char) : Magnitude whole fraction (whole ++ '.' :: fraction)
  /-- Without a point. -/
  | integer (whole : List Char) : Magnitude whole [] whole

/-- The texts of a numeral: a sign and digits, of which there is at least one. -/
structure WrittenAs (d : Decimal) (cs : List Char) : Prop where
  /-- The text is that of the sign, followed by that of the digits. -/
  text : ∃ sign magnitude, cs = sign ++ magnitude ∧ Sign d.negative sign ∧
    Magnitude d.whole d.fraction magnitude
  /-- Only digits stand on either side of the point. -/
  digits : ∀ c ∈ d.whole ++ d.fraction, c.isDigit = true
  /-- There is a digit. -/
  nonempty : d.whole ++ d.fraction ≠ []

/-- The digits of a numeral. -/
def digits (d : Decimal) : List ℕ := (d.whole ++ d.fraction).map digitValue

/-- The value of a numeral: the last digit before the point is worth one. -/
def value (d : Decimal) : ℚ :=
  signed d.negative (placeValue 10 (d.whole.length - 1) d.digits)

/-! ### Digits -/

theorem isDigit_point : '.'.isDigit = false := by decide

theorem isDigit_minus : '-'.isDigit = false := by decide

theorem isDigit_plus : '+'.isDigit = false := by decide

theorem isDigit_iff {c : Char} :
    c.isDigit = true ↔ '0'.toNat ≤ c.toNat ∧ c.toNat ≤ '9'.toNat := by
  rw [Char.isDigit, Bool.and_eq_true, decide_eq_true_eq, decide_eq_true_eq, ge_iff_le,
    UInt32.le_iff_toNat_le, UInt32.le_iff_toNat_le]
  exact Iff.rfl

/-- A digit is worth less than ten. -/
theorem digitValue_lt {c : Char} (h : c.isDigit = true) : digitValue c < 10 := by
  have hhigh : c.toNat ≤ 57 := (isDigit_iff.1 h).2
  have hzero : '0'.toNat = 48 := rfl
  rw [digitValue, hzero]
  omega

/-- Only one digit is worth nothing. -/
theorem eq_zero_of_digitValue_eq_zero {c : Char} (h : c.isDigit = true) (hc : digitValue c = 0) :
    c = '0' := by
  have hlow := (isDigit_iff.1 h).1
  rw [digitValue] at hc
  exact Char.toNat_inj.1 (by omega)

/-! ### Cutting a text at sign and point -/

open Postgres.Numeric (splitSign splitPoint isDecimal)

/-- Text that goes on with a digit or a point is cut after its sign. -/
theorem splitSign_append {negative : Bool} {sign : List Char} (hs : Sign negative sign)
    {cs : List Char} (hc : ∀ c ∈ cs.head?, c = '.' ∨ c.isDigit = true) :
    splitSign (sign ++ cs) = (negative, cs) := by
  cases hs with
  | minus => rfl
  | plus => rfl
  | none =>
    -- Neither a digit nor a point is taken for a sign.
    have hno : ∀ c : Char, c.isDigit = false → c ≠ '.' → cs.head? ≠ some c := by
      intro c hdigit hpoint hhead
      rcases hc c hhead with h | h
      · exact hpoint h
      · rw [hdigit] at h
        cases h
    rw [List.nil_append]
    unfold splitSign
    split
    · exact absurd rfl (hno '-' isDigit_minus (by decide))
    · exact absurd rfl (hno '+' isDigit_plus (by decide))
    · rfl

/-- What stands before a sign's rest is a way to write the sign. -/
theorem exists_sign (cs : List Char) :
    ∃ sign, cs = sign ++ (splitSign cs).2 ∧ Sign (splitSign cs).1 sign := by
  unfold splitSign
  split
  · exact ⟨['-'], rfl, .minus⟩
  · exact ⟨['+'], rfl, .plus⟩
  · exact ⟨[], rfl, .none⟩

/-- Digits are cut at the point. -/
theorem splitPoint_eq {whole fraction magnitude : List Char}
    (h : Magnitude whole fraction magnitude)
    (hw : ∀ c ∈ whole, c.isDigit = true) : splitPoint magnitude = (whole, fraction) := by
  have hpoint : ∀ c ∈ whole, (c != '.') = true := by
    intro c hc
    rw [bne_iff_ne]
    rintro rfl
    have hdigit := hw '.' hc
    rw [isDigit_point] at hdigit
    cases hdigit
  cases h with
  | point =>
    rw [splitPoint, List.takeWhile_append_of_pos hpoint, List.dropWhile_append_of_pos hpoint]
    simp
  | integer =>
    rw [splitPoint, List.takeWhile_eq_self_iff.2 hpoint, List.dropWhile_eq_nil_iff.2 hpoint]
    rfl

/-- A text is a way to write what stands before and after its first point. -/
theorem magnitude_splitPoint (cs : List Char) :
    Magnitude (splitPoint cs).1 (splitPoint cs).2 cs := by
  have happend := List.takeWhile_append_dropWhile (p := (· != '.')) (l := cs)
  cases hdrop : cs.dropWhile (· != '.') with
  | nil =>
    rw [hdrop, List.append_nil] at happend
    rw [splitPoint, hdrop, happend]
    exact .integer cs
  | cons c rest =>
    have hc : c = '.' := by
      have hhead := List.head_dropWhile_not (· != '.') (l := cs) (by rw [hdrop]; simp)
      simpa [hdrop] using hhead
    rw [hdrop, hc] at happend
    have hmagnitude := Magnitude.point (cs.takeWhile (· != '.')) rest
    rw [happend] at hmagnitude
    rw [splitPoint, hdrop, List.drop_one, List.tail_cons]
    exact hmagnitude

/-- Whether only digits stand around the point, and at least one. -/
theorem isDecimal_iff {whole fraction : List Char} : isDecimal whole fraction = true ↔
    (∀ c ∈ whole ++ fraction, c.isDigit = true) ∧ whole ++ fraction ≠ [] := by
  rw [isDecimal, Bool.and_eq_true, Bool.and_eq_true, Bool.not_eq_true', ← Bool.not_eq_true,
    Bool.and_eq_true, List.isEmpty_iff, List.isEmpty_iff, List.all_eq_true, List.all_eq_true,
    List.forall_mem_append, Ne, List.append_eq_nil_iff]
  tauto

/-- The sign and the digits that cutting a text at sign and point finds. -/
def cut (cs : List Char) : Decimal :=
  ⟨(splitSign cs).1, (splitPoint (splitSign cs).2).1, (splitPoint (splitSign cs).2).2⟩

/-- Every text is that of one numeral at most: the one that cutting it finds. -/
theorem writtenAs_iff {d : Decimal} {cs : List Char} :
    d.WrittenAs cs ↔ d = cut cs ∧ isDecimal d.whole d.fraction = true := by
  obtain ⟨negative, whole, fraction⟩ := d
  constructor
  · rintro ⟨⟨sign, magnitude, rfl, hsign, hmagnitude⟩, hdigits, hne⟩
    -- The first character after the sign is a digit, or the point if no digit stands before it.
    have hhead : ∀ c ∈ magnitude.head?, c = '.' ∨ c.isDigit = true := by
      intro c hc
      cases hmagnitude with
      | point =>
        cases whole with
        | nil => exact .inl (by simpa using hc.symm)
        | cons a whole =>
          have ha : a = c := by simpa using hc
          exact .inr (ha ▸ hdigits a (by simp))
      | integer => exact .inr (hdigits c (List.mem_append_left _ (List.mem_of_mem_head? hc)))
    have hparts : splitPoint magnitude = (whole, fraction) :=
      splitPoint_eq hmagnitude fun c hc => hdigits c (List.mem_append_left _ hc)
    refine ⟨?_, isDecimal_iff.2 ⟨hdigits, hne⟩⟩
    rw [cut, splitSign_append hsign hhead, hparts]
  · rintro ⟨hcut, hd⟩
    obtain ⟨hdigits, hne⟩ := isDecimal_iff.1 hd
    obtain ⟨sign, hcs, hsign⟩ := exists_sign cs
    have hmagnitude := magnitude_splitPoint (splitSign cs).2
    obtain ⟨rfl, rfl, rfl⟩ := Decimal.mk.inj hcut
    exact ⟨⟨sign, _, hcs, hsign, hmagnitude⟩, hdigits, hne⟩

end Decimal

end BoundSql.Number

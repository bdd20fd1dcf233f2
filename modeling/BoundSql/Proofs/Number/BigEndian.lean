import BoundSql.Number.BigEndian
import Mathlib.Algebra.Order.Ring.Int
import Mathlib.Tactic.Positivity
import Mathlib.Tactic.Ring

/-! # Reading big-endian numbers back
What the readers of big-endian bytes make of the bytes of a number.
* **`ofBigEndian_bigEndianNat`** — the number up to the width.
* **`ofBigEndian_bigEndian`**, **`ofBigEndianSigned_bigEndian`** — the number itself, where it fits
  without and with a sign. -/

namespace BoundSql.Number

/-- The number of bytes with one more byte in front. -/
theorem ofBigEndian_cons (b : UInt8) (bs : Bytes) :
    ofBigEndian (b :: bs) = b.toNat * 256 ^ bs.length + ofBigEndian bs := by
  -- Reading goes on from the bytes before, which the bytes to come move up.
  have hstart : ∀ (cs : Bytes) (start : ℕ),
      cs.foldl (fun n b => n * 256 + b.toNat) start = start * 256 ^ cs.length + ofBigEndian cs := by
    intro cs
    induction cs with
    | nil => intro start; simp [ofBigEndian]
    | cons c cs ih =>
      intro start
      have hhere : ofBigEndian (c :: cs) = c.toNat * 256 ^ cs.length + ofBigEndian cs := by
        rw [← ih]
        simp [ofBigEndian]
      rw [List.foldl_cons, ih, hhere, List.length_cons, pow_succ]
      ring
  rw [← hstart]
  simp [ofBigEndian]

/-- Bytes read back as the number that was written, up to the width. -/
theorem ofBigEndian_bigEndianNat (width n : ℕ) :
    ofBigEndian (bigEndianNat width n) = n % 256 ^ width := by
  induction width with
  | zero => simp [bigEndianNat, ofBigEndian, Nat.mod_one]
  | succ w ih =>
    have hbyte : (n / 256 ^ w % 256).toUInt8.toNat = n / 256 ^ w % 256 := by simp
    rw [bigEndianNat, Nat.pow_eq, ofBigEndian_cons, length_bigEndianNat, ih, hbyte, pow_succ,
      Nat.mod_mul]
    ring

/-- A natural number that fits into the width reads back as itself. -/
theorem ofBigEndian_bigEndian {width n : ℕ} (h : n < 256 ^ width) :
    ofBigEndian (bigEndian width n) = n := by
  have hmod : ((n : ℤ) % ((256 ^ width : ℕ) : ℤ)).toNat = n := by
    rw [Int.emod_eq_of_lt (by omega) (by exact_mod_cast h), Int.toNat_natCast]
  rw [bigEndian, Nat.pow_eq, hmod, ofBigEndian_bigEndianNat, Nat.mod_eq_of_lt h]

/-- An integer that fits into the width with its sign reads back as itself. -/
theorem ofBigEndianSigned_bigEndian {width : ℕ} {n : ℤ} (hlow : -(256 ^ width : ℕ) ≤ 2 * n)
    (hhigh : 2 * n < (256 ^ width : ℕ)) : ofBigEndianSigned (bigEndian width n) = n := by
  set m : ℕ := 256 ^ width with hm
  have hpos : 0 < m := by positivity
  have hread : (ofBigEndian (bigEndian width n) : ℤ) = n % m := by
    have hlt : (n % m).toNat < m := by
      have := Int.emod_lt_of_pos n (show (0 : ℤ) < m by exact_mod_cast hpos)
      omega
    rw [bigEndian, Nat.pow_eq, ofBigEndian_bigEndianNat, ← hm, Nat.mod_eq_of_lt hlt,
      Int.toNat_of_nonneg (Int.emod_nonneg _ (by omega))]
  rw [ofBigEndianSigned, length_bigEndian, Nat.pow_eq, ← hm]
  -- A number from zero on stands for itself, and a negative one is read past the half.
  rcases le_or_gt 0 n with hn | hn
  · have hself : n % (m : ℤ) = n := Int.emod_eq_of_lt hn (by omega)
    rw [hself] at hread
    rw [if_pos (by omega), hread]
  · have hwrap : n % (m : ℤ) = n + m := by
      rw [← Int.add_emod_right, Int.emod_eq_of_lt (by omega) (by omega)]
    rw [hwrap] at hread
    rw [if_neg (by omega), hread]
    ring

end BoundSql.Number

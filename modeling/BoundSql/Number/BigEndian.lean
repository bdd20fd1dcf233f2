import BoundSql.Bytes

/-! # Big-endian numbers
**`bigEndian`** — the bytes of a number at a fixed width, the most significant first; negative
numbers in two's complement. **`ofBigEndian`** and **`ofBigEndianSigned`** read them. -/

namespace BoundSql.Number

/-- The `width` lowest bytes of a natural number. -/
def bigEndianNat : Nat → Nat → Bytes
  | 0, _ => []
  | width + 1, n => (n / Nat.pow 256 width % 256).toUInt8 :: bigEndianNat width n

/-- The `width` lowest bytes of an integer. -/
def bigEndian (width : Nat) (n : Int) : Bytes :=
  bigEndianNat width (n % (Nat.pow 256 width : Nat)).toNat

/-- The natural number of bytes. -/
def ofBigEndian (bs : Bytes) : Nat := bs.foldl (fun n b => n * 256 + b.toNat) 0

/-- The integer of bytes in two's complement. -/
def ofBigEndianSigned (bs : Bytes) : Int :=
  let n := ofBigEndian bs
  if 2 * n < Nat.pow 256 bs.length then n else (n : Int) - (Nat.pow 256 bs.length : Nat)

@[simp] theorem length_bigEndianNat (width n : Nat) : (bigEndianNat width n).length = width := by
  induction width with
  | zero => rfl
  | succ w ih => simp [bigEndianNat, ih]

@[simp] theorem length_bigEndian (width : Nat) (n : Int) : (bigEndian width n).length = width := by
  simp [bigEndian]

end BoundSql.Number

import BoundSql.Proofs.Number.IntegerText
import BoundSql.Wire
import Mathlib.Tactic.NormNum
import Mathlib.Tactic.SplitIfs

/-! # Declared categories
A value that is sent under a declared category is converted to it, or refused.
* **`WireValue.toValue`** — a wire value among the dynamic values: these are the ones that a
  parameter can carry (`Value.coerce_eq_ok_iff`).
* **`Value.convert?_str_int`** — which texts are converted to integers.
* **`Value.declared_conversions_exact`** — a conversion keeps what the value says, and what no
  parameter can carry is refused under every declaration. -/

namespace BoundSql

/-! ### Values that a parameter can carry -/

/-- A wire value as a dynamic value. -/
def WireValue.toValue : WireValue → Value
  | str s => .str s
  | int n => .int n.toInt
  | bool b => .bool b
  | null => .null

namespace Value

variable {parameter : String} {v : Value} {w : WireValue}

/-- Whether no parameter can carry a value: an integer that has more than 64 bits, a floating-point
number, a list, an object. -/
def IsForeign : Value → Prop
  | int n => n < -2 ^ 63 ∨ 2 ^ 63 ≤ n
  | float _ | list _ | object _ => True
  | str _ | bool _ | null => False

/-- An integer fits 64 bits exactly if it is that of a 64-bit one. -/
theorem int64?_eq_some_iff {n : ℤ} {i : Int64} : int64? n = some i ↔ n = i.toInt := by
  have hpow : ((Nat.pow 2 63 : ℕ) : ℤ) = 2 ^ 63 := by norm_num
  rw [int64?, hpow]
  constructor
  · intro h
    split at h
    · rename_i hrange
      rw [← Option.some.inj h, Int64.toInt_ofInt_of_le (by omega) (by omega)]
    · cases h
  · rintro rfl
    have hlow := Int64.le_toInt i
    have hhigh := Int64.toInt_lt i
    rw [if_pos ⟨by omega, by omega⟩, Int64.ofInt_toInt]

/-- The values that a parameter can carry are the wire values. -/
theorem coerce_eq_ok_iff : v.coerce parameter = .ok w ↔ v = w.toValue := by
  constructor
  · intro h
    cases v with
    | int n =>
      rw [coerce] at h
      cases hn : int64? n with
      | none =>
        rw [hn] at h
        cases h
      | some i =>
        rw [hn] at h
        rw [← Except.ok.inj h, int64?_eq_some_iff.1 hn]
        rfl
    | str s | bool b | null =>
      rw [← Except.ok.inj h]
      rfl
    | float x | list items | object fields => cases h
  · rintro rfl
    cases w with
    | int n =>
      rw [WireValue.toValue, coerce, int64?_eq_some_iff.2 rfl]
    | str s | bool b | null => rfl

/-- A value that no parameter can carry is refused under its own type. -/
theorem coerce_of_isForeign (h : v.IsForeign) (parameter : String) :
    v.coerce parameter = .error (.unsupportedBindType parameter v.typeName) := by
  cases v with
  | int n =>
    have hnone : int64? n = none := by
      rw [Option.eq_none_iff_forall_ne_some]
      intro i hi
      obtain rfl := int64?_eq_some_iff.1 hi
      have hlow := Int64.le_toInt i
      have hhigh := Int64.toInt_lt i
      rcases h with h | h <;> omega
    rw [coerce, hnone]
    rfl
  | float x | list items | object fields => rfl
  | str s | bool b | null => exact h.elim

/-! ### Conversions -/

/-- A value under a declared category has the wire value of its own category first. -/
theorem coerceAs_eq_ok_iff {declared : WireType} : v.coerceAs parameter declared = .ok w ↔
    ∃ natural, v.coerce parameter = .ok natural ∧ convert? natural declared = some w := by
  rw [coerceAs]
  cases hv : v.coerce parameter with
  | error e => simp
  | ok natural => cases hw : convert? natural declared <;> simp [hw]

/-- A wire value under a declared category is converted. -/
theorem coerceAs_toValue {declared : WireType} {converted : WireValue} :
    w.toValue.coerceAs parameter declared = .ok converted ↔
      convert? w declared = some converted := by
  rw [coerceAs_eq_ok_iff, coerce_eq_ok_iff.2 rfl]
  simp

/-- A conversion ends in the declared category, and without a value only if there was none or none
is declared. -/
theorem type_of_convert?_eq_some {declared : WireType} {converted : WireValue}
    (h : convert? w declared = some converted) :
    (converted.type = declared ∨ converted = .null) ∧
      (converted = .null → w = .null ∨ declared = .null) := by
  have hnull : ∀ result, result.type = declared → declared ≠ .null → result = converted →
      (converted.type = declared ∨ converted = .null) ∧
        (converted = .null → w = .null ∨ declared = .null) := by
    rintro result rfl hne rfl
    exact ⟨.inl rfl, fun he => absurd (congrArg WireValue.type he) hne⟩
  -- Where nothing is converted, nothing is declared or there was no value.
  cases declared with
  | null => exact ⟨.inr (by cases w <;> exact (Option.some.inj h).symm), fun _ => .inr rfl⟩
  | str =>
    cases w with
    | null => exact ⟨.inr (Option.some.inj h).symm, fun _ => .inl rfl⟩
    | str s | int n | bool b => exact hnull _ rfl (by decide) (Option.some.inj h)
  | int =>
    cases w with
    | null => exact ⟨.inr (Option.some.inj h).symm, fun _ => .inl rfl⟩
    | int n | bool b => exact hnull _ rfl (by decide) (Option.some.inj h)
    | str s =>
      rw [convert?] at h
      split at h
      · exact hnull _ rfl (by decide) (Option.some.inj h)
      · cases h
  | bool =>
    cases w with
    | null => exact ⟨.inr (Option.some.inj h).symm, fun _ => .inl rfl⟩
    | bool b => exact hnull _ rfl (by decide) (Option.some.inj h)
    | str s | int n =>
      rw [convert?] at h
      split_ifs at h <;> exact hnull _ rfl (by decide) (Option.some.inj h)

/-- A text is converted to an integer exactly if it writes one of 64 bits between white space. -/
theorem convert?_str_int {s : String} {converted : WireValue} :
    convert? (.str s) .int = some converted ↔
      ∃ n : ℤ, Number.WritesInteger (Text.trim s.toList) n ∧ (-2 ^ 63 ≤ n ∧ n < 2 ^ 63) ∧
        converted = .int (Int64.ofInt n) := by
  have hread : ∀ n : ℤ, Number.readSigned 64 (Text.trim s.toList) = .ok n ↔
      Number.WritesInteger (Text.trim s.toList) n ∧ -2 ^ 63 ≤ n ∧ n < 2 ^ 63 := by
    intro n
    have hlow : ((Nat.pow 2 (64 - 1) : ℕ) : ℤ) = 2 ^ 63 := by norm_num
    have hhigh : ((Nat.pow 2 (64 - 1) - 1 : ℕ) : ℤ) = 2 ^ 63 - 1 := by norm_num
    rw [Number.readSigned, Number.readInteger_eq_ok_iff (by norm_num), hlow, hhigh]
    constructor
    · rintro ⟨hwrites, hrange⟩
      exact ⟨hwrites, by omega⟩
    · rintro ⟨hwrites, hrange⟩
      exact ⟨hwrites, by omega⟩
  rw [convert?]
  cases hresult : Number.readSigned 64 (Text.trim s.toList) with
  | error e =>
    refine iff_of_false (by simp) ?_
    rintro ⟨n, hwrites, hrange, -⟩
    cases hresult.symm.trans ((hread n).2 ⟨hwrites, hrange⟩)
  | ok n =>
    obtain ⟨hwrites, hrange⟩ := (hread n).1 hresult
    constructor
    · intro h
      exact ⟨n, hwrites, hrange, (Option.some.inj h).symm⟩
    · rintro ⟨m, hm, hmrange, rfl⟩
      obtain rfl := Except.ok.inj (hresult.symm.trans ((hread m).2 ⟨hm, hmrange⟩))
      rfl

/-- The text of an integer of 64 bits is converted back. -/
theorem convert?_toString (n : Int64) :
    convert? (.str (toString n.toInt)) .int = some (.int n) := by
  refine convert?_str_int.2 ⟨n.toInt, ?_, ⟨Int64.le_toInt n, Int64.toInt_lt n⟩, ?_⟩
  · rw [Number.trim_toString]
    exact Number.writesInteger_toString n.toInt
  · rw [Int64.ofInt_toInt]

/-- A boolean is converted to an integer and to a text, and back. -/
theorem convert?_bool (b : Bool) {declared : WireType} (h : declared = .int ∨ declared = .str) :
    ∃ w, convert? (.bool b) declared = some w ∧ w.type = declared ∧
      convert? w .bool = some (.bool b) := by
  rcases h with rfl | rfl
  · exact ⟨_, rfl, rfl, by cases b <;> decide⟩
  · exact ⟨_, rfl, rfl, by cases b <;> decide⟩

/-- Declared categories lose nothing. A value that is sent is of the declared category, or none, and
it is none only if there was none or none is declared. An integer under text is its decimal text,
and that text under integer is the integer again; a text is an integer exactly if it is, without the
white space around it, an optional sign and digits whose value has 64 bits, and then it is sent as
that value; a boolean goes through integer and through text and comes back. An integer of more bits,
a floating-point number, a list and an object are refused under every declaration, by the name of
the parameter. -/
theorem declared_conversions_exact (parameter : String) :
    (∀ (v : Value) (declared : WireType) (w : WireValue), v.coerceAs parameter declared = .ok w →
      (w.type = declared ∨ w = .null) ∧ (w = .null → v = .null ∨ declared = .null)) ∧
    (∀ n : Int64,
      (int n.toInt).coerceAs parameter .str = .ok (.str (toString n.toInt)) ∧
      (str (toString n.toInt)).coerceAs parameter .int = .ok (.int n)) ∧
    (∀ (s : String) (w : WireValue), (str s).coerceAs parameter .int = .ok w ↔
      ∃ n : ℤ, Number.WritesInteger (Text.trim s.toList) n ∧ (-2 ^ 63 ≤ n ∧ n < 2 ^ 63) ∧
        w = .int (Int64.ofInt n)) ∧
    (∀ (b : Bool) (declared : WireType), declared = .int ∨ declared = .str →
      ∃ w, (bool b).coerceAs parameter declared = .ok w ∧ w.type = declared ∧
        w.toValue.coerceAs parameter .bool = .ok (.bool b)) ∧
    ∀ (v : Value) (declared : WireType), v.IsForeign →
      v.coerceAs parameter declared = .error (.unsupportedBindType parameter v.typeName) := by
  refine ⟨fun v declared w h => ?_, fun n => ⟨?_, ?_⟩, fun s w => ?_, fun b declared h => ?_,
    fun v declared h => ?_⟩
  · obtain ⟨natural, hv, hw⟩ := coerceAs_eq_ok_iff.1 h
    obtain ⟨htype, hnull⟩ := type_of_convert?_eq_some hw
    refine ⟨htype, fun he => (hnull he).imp_left fun hn => ?_⟩
    rw [coerce_eq_ok_iff.1 hv, hn]
    rfl
  · exact (coerceAs_toValue (w := .int n)).2 rfl
  · exact (coerceAs_toValue (w := .str (toString n.toInt))).2 (convert?_toString n)
  · exact (coerceAs_toValue (w := .str s)).trans convert?_str_int
  · obtain ⟨w, hw, htype, hback⟩ := convert?_bool b h
    exact ⟨w, (coerceAs_toValue (w := .bool b)).2 hw, htype, coerceAs_toValue.2 hback⟩
  · rw [coerceAs, coerce_of_isForeign h]

/-- The smallest integer of 64 bits with white space and leading zeros, and one that is larger than
the largest. -/
theorem declared_conversions_exact_bounds :
    (str "\t-0009223372036854775808 ").coerceAs "n" .int = .ok (.int (-9223372036854775808)) ∧
      (int 9223372036854775808).coerceAs "n" .str = .error (.unsupportedBindType "n" "integer") ∧
      ∃ w, (bool true).coerceAs "n" .str = .ok w ∧ w.type = .str := by
  obtain ⟨htype, -, htext, hbool, hforeign⟩ := declared_conversions_exact "n"
  have hwrites : Number.WritesInteger (Text.trim "\t-0009223372036854775808 ".toList)
      (-9223372036854775808) :=
    ⟨['-'], "0009223372036854775808".toList, by decide, by decide,
      List.all_eq_true.1 (by decide), .inr ⟨rfl, by decide⟩⟩
  obtain ⟨w, hw, hstr, -⟩ := hbool true .str (.inr rfl)
  exact ⟨(htext _ _).2 ⟨_, hwrites, by decide, rfl⟩, hforeign _ _ (.inr (by decide)), w, hw, hstr⟩

end Value

end BoundSql

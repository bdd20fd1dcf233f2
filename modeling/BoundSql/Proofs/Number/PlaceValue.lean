import BoundSql.Number.DecimalText
import Mathlib.Algebra.Order.Field.Power
import Mathlib.Algebra.Order.Field.Rat
import Mathlib.Data.List.Basic
import Mathlib.Data.List.Induction
import Mathlib.Tactic.GCongr
import Mathlib.Tactic.Linarith
import Mathlib.Tactic.Ring

/-! # Numbers written by places
**`placeValue`** — the number that digits write in a base, where each place is worth the base times
the place after it.
* **`placeValue_append`**, **`placeValue_replicate_zero_append`** — digits in front of others, and
  zeros that change nothing.
* **`le_placeValue`**, **`placeValue_lt`** — digits write a number between the worth of their first
  place and that of the place before it.
* **`placeValue_inj`** — digits that end in none that is zero are known by the number they write. -/

namespace BoundSql.Number

/-- The number of digits, the first of which stands at the place worth `base ^ weight`. -/
def placeValue (base : ℚ) (weight : ℤ) (digits : List ℕ) : ℚ :=
  (digits.mapIdx fun (i digit : ℕ) => (digit : ℚ) * base ^ (weight - i)).sum

variable {base : ℚ} {weight : ℤ}

@[simp] theorem placeValue_nil (base : ℚ) (weight : ℤ) : placeValue base weight [] = 0 := by
  simp [placeValue]

@[simp] theorem placeValue_cons (base : ℚ) (weight : ℤ) (digit : ℕ) (digits : List ℕ) :
    placeValue base weight (digit :: digits) =
      digit * base ^ weight + placeValue base (weight - 1) digits := by
  simp only [placeValue, List.mapIdx_cons, List.sum_cons, Nat.cast_zero, sub_zero, Nat.cast_add,
    Nat.cast_one, sub_sub, add_comm (1 : ℤ)]

/-- The digits behind others stand as many places lower. -/
theorem placeValue_append (base : ℚ) (weight : ℤ) (l r : List ℕ) :
    placeValue base weight (l ++ r) =
      placeValue base weight l + placeValue base (weight - l.length) r := by
  induction l generalizing weight with
  | nil => simp
  | cons digit l ih =>
    have hweight : weight - 1 - (l.length : ℤ) = weight - (digit :: l).length := by
      push_cast [List.length_cons]
      ring
    rw [List.cons_append, placeValue_cons, ih, placeValue_cons, hweight, add_assoc]

/-- Zeros are worth nothing. -/
theorem placeValue_replicate_zero (base : ℚ) (weight : ℤ) (count : ℕ) :
    placeValue base weight (List.replicate count 0) = 0 := by
  induction count generalizing weight with
  | zero => rw [List.replicate_zero, placeValue_nil]
  | succ count ih =>
    rw [List.replicate_succ, placeValue_cons, ih, Nat.cast_zero, zero_mul, add_zero]

/-- Zeros in front only move the places on. -/
theorem placeValue_replicate_zero_append (base : ℚ) (weight : ℤ) (count : ℕ) (digits : List ℕ) :
    placeValue base weight (List.replicate count 0 ++ digits) =
      placeValue base (weight - count) digits := by
  rw [placeValue_append, placeValue_replicate_zero, List.length_replicate, zero_add]

/-- Zeros behind change nothing. -/
theorem placeValue_append_replicate_zero (base : ℚ) (weight : ℤ) (digits : List ℕ) (count : ℕ) :
    placeValue base weight (digits ++ List.replicate count 0) = placeValue base weight digits := by
  rw [placeValue_append, placeValue_replicate_zero, add_zero]

/-- Digits whose last stands at the place worth one write a natural number. -/
theorem placeValue_eq_foldl (base : ℕ) (hbase : base ≠ 0) (digits : List ℕ) :
    placeValue base (digits.length - 1) digits =
      (digits.foldl (fun n digit => n * base + digit) 0 : ℕ) := by
  -- Appending a digit makes every place before it worth the base times as much.
  induction digits using List.reverseRecOn with
  | nil => simp
  | append_singleton digits digit ih =>
    have hshift : ∀ (l : List ℕ) (w : ℤ),
        placeValue (base : ℚ) (w + 1) l = placeValue base w l * base := by
      intro l
      induction l with
      | nil => intro w; simp
      | cons d l ihl =>
        intro w
        have hw : w + 1 - 1 = w - 1 + 1 := by ring
        rw [placeValue_cons, placeValue_cons, hw, ihl, zpow_add_one₀ (by exact_mod_cast hbase)]
        ring
    have hlength : ((digits ++ [digit]).length : ℤ) - 1 = digits.length - 1 + 1 := by
      rw [List.length_append, List.length_singleton]
      push_cast
      ring
    rw [hlength, placeValue_append, hshift, ih, List.foldl_append, placeValue_cons, placeValue_nil]
    simp

/-! ### How large a number is -/

/-- Digits write no negative number. -/
theorem placeValue_nonneg (hbase : 0 < base) (weight : ℤ) (digits : List ℕ) :
    0 ≤ placeValue base weight digits := by
  induction digits generalizing weight with
  | nil => rw [placeValue_nil]
  | cons digit digits ih =>
    rw [placeValue_cons]
    have := ih (weight - 1)
    positivity

/-- Digits write less than the worth of the place before their first. -/
theorem placeValue_lt {base : ℕ} (hbase : 0 < base) (weight : ℤ) {digits : List ℕ}
    (hdigits : ∀ digit ∈ digits, digit < base) :
    placeValue base weight digits < (base : ℚ) ^ (weight + 1) := by
  have hpos : (0 : ℚ) < base := by exact_mod_cast hbase
  induction digits generalizing weight with
  | nil =>
    rw [placeValue_nil]
    positivity
  | cons digit digits ih =>
    have hrest := ih (weight - 1) fun d hd => hdigits d (List.mem_cons_of_mem _ hd)
    rw [sub_add_cancel] at hrest
    have hdigit : (digit : ℚ) + 1 ≤ base := by
      exact_mod_cast hdigits digit List.mem_cons_self
    calc placeValue base weight (digit :: digits)
        < digit * (base : ℚ) ^ weight + (base : ℚ) ^ weight := by
          rw [placeValue_cons]
          linarith only [hrest]
      _ = (digit + 1) * (base : ℚ) ^ weight := by ring
      _ ≤ base * (base : ℚ) ^ weight := by gcongr
      _ = (base : ℚ) ^ (weight + 1) := by rw [zpow_add_one₀ hpos.ne', mul_comm]

/-- Digits that begin with none that is zero write at least the worth of their first place. -/
theorem le_placeValue (hbase : 0 < base) (weight : ℤ) {digits : List ℕ} (hne : digits ≠ [])
    (hfirst : digits.head? ≠ some 0) : base ^ weight ≤ placeValue base weight digits := by
  cases digits with
  | nil => exact absurd rfl hne
  | cons digit digits =>
    have hdigit : (1 : ℚ) ≤ digit := by
      have : digit ≠ 0 := by simpa using hfirst
      exact_mod_cast Nat.one_le_iff_ne_zero.2 this
    have hworth : (0 : ℚ) < base ^ weight := by positivity
    have hrest := placeValue_nonneg hbase (weight - 1) digits
    rw [placeValue_cons]
    nlinarith only [hdigit, hworth, hrest]

/-- Digits that end in none that is zero write more than nothing. -/
theorem placeValue_pos (hbase : 0 < base) (weight : ℤ) {digits : List ℕ} (hne : digits ≠ [])
    (hlast : digits.getLast? ≠ some 0) : 0 < placeValue base weight digits := by
  have hsplit := List.dropLast_append_getLast hne
  have hdigit : digits.getLast hne ≠ 0 := by
    intro h
    exact hlast (by rw [List.getLast?_eq_getLast_of_ne_nil hne, h])
  have hworth : 0 < (digits.getLast hne : ℚ) * base ^ (weight - digits.dropLast.length) := by
    have : (0 : ℚ) < digits.getLast hne := by exact_mod_cast Nat.pos_of_ne_zero hdigit
    positivity
  have hfront := placeValue_nonneg hbase weight digits.dropLast
  rw [← hsplit, placeValue_append, placeValue_cons, placeValue_nil]
  linarith only [hworth, hfront]

/-! ### Which digits write a number -/

/-- Digits that end in none that is zero are known by the number they write and the place of the
first. -/
theorem placeValue_inj {base : ℕ} (hbase : 0 < base) {weight : ℤ} {l r : List ℕ}
    (hl : ∀ digit ∈ l, digit < base) (hr : ∀ digit ∈ r, digit < base)
    (hlLast : l.getLast? ≠ some 0) (hrLast : r.getLast? ≠ some 0)
    (h : placeValue base weight l = placeValue base weight r) : l = r := by
  have hpos : (0 : ℚ) < base := by exact_mod_cast hbase
  induction l generalizing weight r with
  | nil =>
    -- Only no digits at all write zero.
    by_contra hne
    have := placeValue_pos hpos weight (Ne.symm hne) hrLast
    rw [← h, placeValue_nil] at this
    exact lt_irrefl 0 this
  | cons a l ih =>
    cases r with
    | nil =>
      have := placeValue_pos hpos weight (List.cons_ne_nil a l) hlLast
      rw [h, placeValue_nil] at this
      exact absurd this (lt_irrefl 0)
    | cons b r =>
      rw [placeValue_cons, placeValue_cons] at h
      have hworth : (0 : ℚ) < (base : ℚ) ^ weight := by positivity
      -- What follows a digit is worth less than one more of the digit.
      have hlRest := placeValue_lt hbase (weight - 1) fun d hd => hl d (List.mem_cons_of_mem _ hd)
      have hrRest := placeValue_lt hbase (weight - 1) fun d hd => hr d (List.mem_cons_of_mem _ hd)
      rw [sub_add_cancel] at hlRest hrRest
      have hlNonneg := placeValue_nonneg hpos (weight - 1) l
      have hrNonneg := placeValue_nonneg hpos (weight - 1) r
      have hab : a = b := by
        rcases lt_trichotomy a b with hlt | heq | hgt
        · have hone : (a : ℚ) + 1 ≤ b := by exact_mod_cast hlt
          nlinarith only [h, hone, hworth, hlRest, hrNonneg]
        · exact heq
        · have hone : (b : ℚ) + 1 ≤ a := by exact_mod_cast hgt
          nlinarith only [h, hone, hworth, hrRest, hlNonneg]
      subst hab
      have hlast : ∀ {ds : List ℕ}, (a :: ds).getLast? ≠ some 0 → ds.getLast? ≠ some 0 := by
        intro ds hds hzero
        rw [List.getLast?_cons, hzero] at hds
        exact hds rfl
      rw [ih (fun d hd => hl d (List.mem_cons_of_mem _ hd))
        (fun d hd => hr d (List.mem_cons_of_mem _ hd)) (hlast hlLast) (hlast hrLast)
        (add_left_cancel h)]

/-- The place of the first digit, if it is not zero, is known by the number. -/
theorem weight_eq_of_placeValue_eq {base : ℕ} (hbase : 1 < base) {weight weight' : ℤ}
    {l r : List ℕ} (hl : ∀ digit ∈ l, digit < base) (hr : ∀ digit ∈ r, digit < base)
    (hlNe : l ≠ []) (hrNe : r ≠ []) (hlFirst : l.head? ≠ some 0) (hrFirst : r.head? ≠ some 0)
    (h : placeValue base weight l = placeValue base weight' r) : weight = weight' := by
  have hone : (1 : ℚ) < base := by exact_mod_cast hbase
  have hpos : (0 : ℚ) < base := zero_lt_one.trans hone
  have hbelow : ∀ {w w' : ℤ} {ds es : List ℕ}, ds ≠ [] → ds.head? ≠ some 0 →
      (∀ digit ∈ es, digit < base) → placeValue (base : ℚ) w ds = placeValue base w' es →
        w ≤ w' := by
    intro w w' ds es hne hfirst hes heq
    have hlt : (base : ℚ) ^ w < (base : ℚ) ^ (w' + 1) :=
      calc (base : ℚ) ^ w ≤ placeValue base w ds := le_placeValue hpos w hne hfirst
        _ = placeValue base w' es := heq
        _ < (base : ℚ) ^ (w' + 1) := placeValue_lt (zero_lt_one.trans hbase) w' hes
    exact Int.lt_add_one_iff.1 ((zpow_lt_zpow_iff_right₀ hone).1 hlt)
  exact le_antisymm (hbelow hlNe hlFirst hr h) (hbelow hrNe hrFirst hl h.symm)

end BoundSql.Number

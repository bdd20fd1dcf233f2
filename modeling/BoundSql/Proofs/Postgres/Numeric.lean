import BoundSql.Postgres.Encoding
import BoundSql.Proofs.Number.BigEndian
import BoundSql.Proofs.Number.Decimal
import BoundSql.Proofs.Number.DecimalText
import Mathlib.Data.List.DropRight
import Mathlib.Data.Nat.Digits.Defs

/-! # Decimal numbers in groups of four digits
What a server reads from the bytes of a decimal number.
* **`Numeric.value`**, **`Numeric.ofBytes?`** — the value of groups under a weight and a sign, and
  the number that bytes state.
* **`Numeric.Canonical`** — the one way to state a value with a scale (`eq_of_value_eq`).
* **`Numeric.value_ofDecimal`**, **`Numeric.canonical_ofDecimal`** — cutting digits into groups
  keeps their value and ends in this way.
* **`numeric_bytes_exact`** — the bytes of a text state its value. -/

namespace BoundSql.Postgres

open Number (Decimal digitValue placeValue signed)

namespace Numeric

/-! ### Values -/

/-- The value of a number: the group at place `i` is worth itself times `10000 ^ (weight - i)`. -/
def value (n : Numeric) : ℚ := signed n.negative (placeValue 10000 n.weight n.groups)

/-- Whether a number is stated in the one way for its value and scale. -/
structure Canonical (n : Numeric) : Prop where
  /-- A group holds four digits. -/
  groups_lt : ∀ g ∈ n.groups, g < 10000
  /-- The first group is not zero. -/
  head?_ne : n.groups.head? ≠ some 0
  /-- The last group is not zero. -/
  getLast?_ne : n.groups.getLast? ≠ some 0
  /-- Zero has no weight and no sign. -/
  zero : n.groups = [] → n.weight = 0 ∧ n.negative = false

/-- A number is zero exactly if it has no groups. -/
theorem Canonical.value_eq_zero_iff {n : Numeric} (h : n.Canonical) :
    n.value = 0 ↔ n.groups = [] := by
  constructor
  · intro hv
    by_contra hne
    have hpos := Number.placeValue_pos (show (0 : ℚ) < 10000 by norm_num) n.weight hne h.getLast?_ne
    rw [value, signed] at hv
    split at hv <;> linarith only [hv, hpos]
  · intro hg
    simp [value, signed, hg]

/-- Magnitudes that are not zero are known by their values under signs, and so are the signs. -/
theorem signed_inj {b c : Bool} {p q : ℚ} (hp : 0 < p) (hq : 0 < q) (h : signed b p = signed c q) :
    b = c ∧ p = q := by
  cases b <;> cases c <;> simp only [signed, Bool.false_eq_true, if_true, if_false] at h
  · exact ⟨rfl, h⟩
  · linarith only [hp, hq, h]
  · linarith only [hp, hq, h]
  · exact ⟨rfl, neg_inj.1 h⟩

/-- A value is stated in one way with each scale. -/
theorem Canonical.eq_of_value_eq {n m : Numeric} (hn : n.Canonical) (hm : m.Canonical)
    (hvalue : n.value = m.value) (hscale : n.scale = m.scale) : n = m := by
  obtain ⟨nneg, nweight, nscale, ngroups⟩ := n
  obtain ⟨mneg, mweight, mscale, mgroups⟩ := m
  have hempty : ngroups = [] ↔ mgroups = [] := by
    rw [← hn.value_eq_zero_iff, ← hm.value_eq_zero_iff, hvalue]
  by_cases hg : ngroups = []
  · -- Zero has neither weight nor sign.
    obtain ⟨hnw, hns⟩ := hn.zero hg
    obtain ⟨hmw, hms⟩ := hm.zero (hempty.1 hg)
    rw [show nneg = mneg from hns.trans hms.symm, show nweight = mweight from hnw.trans hmw.symm,
      show nscale = mscale from hscale, show ngroups = mgroups from hg.trans (hempty.1 hg).symm]
  · have hg' : mgroups ≠ [] := mt hempty.2 hg
    have hbase : (0 : ℚ) < 10000 := by norm_num
    obtain ⟨hsign, hplace⟩ := signed_inj
      (Number.placeValue_pos hbase nweight hg hn.getLast?_ne)
      (Number.placeValue_pos hbase mweight hg' hm.getLast?_ne) hvalue
    have hplace : placeValue ((10000 : ℕ) : ℚ) nweight ngroups =
        placeValue ((10000 : ℕ) : ℚ) mweight mgroups := by exact_mod_cast hplace
    have hweight : nweight = mweight :=
      Number.weight_eq_of_placeValue_eq (by norm_num) hn.groups_lt hm.groups_lt hg hg'
        hn.head?_ne hm.head?_ne hplace
    rw [hweight] at hplace
    have hgroups : ngroups = mgroups :=
      Number.placeValue_inj (by norm_num) hn.groups_lt hm.groups_lt hn.getLast?_ne
        hm.getLast?_ne hplace
    rw [show nneg = mneg from hsign, hweight, show nscale = mscale from hscale, hgroups]

/-! ### Digits in groups -/

/-- Padding makes a number of digits a multiple of four. -/
theorem add_padding_mod (digits : ℕ) : (digits + padding digits) % 4 = 0 := by
  rw [padding]
  omega

theorem length_padWhole_mod (ds : List Char) : (padWhole ds).length % 4 = 0 := by
  rw [padWhole, List.length_append, List.length_replicate, Nat.add_comm, add_padding_mod]

theorem length_padFraction (ds : List Char) :
    (padFraction ds).length = ds.length + padding ds.length := by
  rw [padFraction, List.length_append, List.length_replicate]

/-- Induction over a multiple of four digits takes four at a time, as grouping does. -/
@[elab_as_elim]
theorem induction_fours {motive : (ds : List Char) → ds.length % 4 = 0 → Prop}
    (nil : motive [] rfl)
    (four : ∀ (a b c d : Char) (rest : List Char) (h : rest.length % 4 = 0)
      (h' : (a :: b :: c :: d :: rest).length % 4 = 0), motive rest h →
        motive (a :: b :: c :: d :: rest) h') :
    ∀ (ds : List Char) (h : ds.length % 4 = 0), motive ds h
  | [], _ => nil
  | a :: b :: c :: d :: rest, h' => by
    have h : rest.length % 4 = 0 := by
      simp only [List.length_cons] at h'
      omega
    exact four a b c d rest h h' (induction_fours nil four rest h)
  | [_], h | [_, _], h | [_, _, _], h => by simp at h

/-- Every four digits make a group. -/
theorem length_groupsOf {ds : List Char} (h : ds.length % 4 = 0) :
    4 * (groupsOf ds).length = ds.length := by
  induction ds, h using induction_fours with
  | nil => rfl
  | four a b c d rest _ _ ih =>
    rw [groupsOf, List.length_cons]
    simp only [List.length_cons]
    omega

/-- Four digits make a group below ten thousand. -/
theorem lt_of_mem_groupsOf {ds : List Char} (h : ds.length % 4 = 0)
    (hds : ∀ c ∈ ds, c.isDigit = true) : ∀ g ∈ groupsOf ds, g < 10000 := by
  induction ds, h using induction_fours with
  | nil => simp [groupsOf]
  | four a b c d rest _ _ ih =>
    have ha := Decimal.digitValue_lt (hds a (by simp))
    have hb := Decimal.digitValue_lt (hds b (by simp))
    have hc := Decimal.digitValue_lt (hds c (by simp))
    have hd := Decimal.digitValue_lt (hds d (by simp))
    intro g hg
    rw [groupsOf, List.mem_cons] at hg
    rcases hg with rfl | hg
    · simp only [Number.digitsValue, List.foldl_cons, List.foldl_nil]
      omega
    · exact ih (fun x hx => hds x (by simp [hx])) g hg

/-- Groups are worth what their digits are. -/
theorem placeValue_groupsOf {ds : List Char} (h : ds.length % 4 = 0) (weight : ℤ) :
    placeValue 10000 weight (groupsOf ds) = placeValue 10 (4 * weight + 3) (ds.map digitValue) := by
  induction ds, h using induction_fours generalizing weight with
  | nil => simp [groupsOf]
  | four a b c d rest _ _ ih =>
    have hworth : (10000 : ℚ) ^ weight = 10 ^ (4 * weight) := by
      rw [zpow_mul]
      norm_num
    have hplace : ∀ k : ℤ, (10 : ℚ) ^ (4 * weight + k) = 10000 ^ weight * 10 ^ k := by
      intro k
      rw [zpow_add₀ (by norm_num), hworth]
    have h₂ : 4 * weight + 3 - 1 = 4 * weight + 2 := by ring
    have h₁ : 4 * weight + 2 - 1 = 4 * weight + 1 := by ring
    have h₀ : 4 * weight + 1 - 1 = 4 * weight + 0 := by ring
    have hnext : 4 * weight + 0 - 1 = 4 * (weight - 1) + 3 := by ring
    simp only [groupsOf, Number.digitsValue, List.foldl_cons, List.foldl_nil, List.map_cons,
      Number.placeValue_cons, h₂, h₁, h₀, hnext, hplace, ih]
    push_cast
    norm_num
    ring

/-! ### Groups without zeros at either end -/

/-- The groups that are kept end in none that is zero. -/
theorem getLast?_dropTrailing (groups : List ℕ) : (dropTrailing groups).getLast? ≠ some 0 := by
  intro h
  have hne : groups.rdropWhile isZeroGroup ≠ [] := by
    intro hnil
    rw [show dropTrailing groups = [] from hnil] at h
    cases h
  have hlast := List.rdropWhile_last_not isZeroGroup groups hne
  rw [show dropTrailing groups = groups.rdropWhile isZeroGroup from rfl,
    List.getLast?_eq_getLast_of_ne_nil hne, Option.some_inj] at h
  rw [h] at hlast
  exact hlast rfl

/-- What is dropped behind are zeros. -/
theorem exists_dropTrailing_append (groups : List ℕ) :
    ∃ count, groups = dropTrailing groups ++ List.replicate count 0 := by
  have hzero : groups.rtakeWhile isZeroGroup =
      List.replicate (groups.rtakeWhile isZeroGroup).length 0 := by
    refine List.eq_replicate_iff.2 ⟨rfl, fun g hg => ?_⟩
    simpa [isZeroGroup] using List.mem_rtakeWhile_imp hg
  refine ⟨(groups.rtakeWhile isZeroGroup).length, ?_⟩
  rw [← hzero]
  exact List.rdropWhile_append_rtakeWhile.symm

/-- What is dropped in front are zeros. -/
theorem replicate_append_dropWhile (groups : List ℕ) :
    groups = List.replicate (groups.takeWhile isZeroGroup).length 0 ++
      groups.dropWhile isZeroGroup := by
  have hzero : groups.takeWhile isZeroGroup =
      List.replicate (groups.takeWhile isZeroGroup).length 0 := by
    refine List.eq_replicate_iff.2 ⟨rfl, fun g hg => ?_⟩
    simpa [isZeroGroup] using List.mem_takeWhile_imp hg
  rw [← hzero, List.takeWhile_append_dropWhile]

/-- The groups that are kept. -/
def kept (groups : List ℕ) : List ℕ := dropTrailing (groups.dropWhile isZeroGroup)

/-- The groups that are kept begin with none that is zero. -/
theorem head?_kept (groups : List ℕ) : (kept groups).head? ≠ some 0 := by
  intro h
  obtain ⟨count, hgroups⟩ := exists_dropTrailing_append (groups.dropWhile isZeroGroup)
  have hne : groups.dropWhile isZeroGroup ≠ [] := by
    intro hnil
    rw [kept, hnil] at h
    cases h
  have hhead := List.head_dropWhile_not isZeroGroup hne
  have hfirst : (groups.dropWhile isZeroGroup).head? = some 0 := by
    rw [hgroups, List.head?_append]
    rw [kept] at h
    rw [h, Option.some_or]
  rw [List.head?_eq_some_head hne, Option.some_inj] at hfirst
  rw [hfirst] at hhead
  cases hhead

/-- The groups that are kept are among the groups. -/
theorem sublist_kept (groups : List ℕ) : (kept groups).Sublist groups :=
  (List.rdropWhile_prefix isZeroGroup _).sublist.trans (List.dropWhile_sublist isZeroGroup)

/-- The groups that are kept and the zeros in front of them are no more than the groups. -/
theorem length_takeWhile_add_length_kept_le (groups : List ℕ) :
    (groups.takeWhile isZeroGroup).length + (kept groups).length ≤ groups.length := by
  have hkept : (kept groups).length ≤ (groups.dropWhile isZeroGroup).length :=
    (List.rdropWhile_prefix isZeroGroup _).length_le
  have hsplit := congrArg List.length
    (List.takeWhile_append_dropWhile (p := isZeroGroup) (l := groups))
  rw [List.length_append] at hsplit
  omega

/-- The groups that are kept have the value of all, under the weight of their own first. -/
theorem placeValue_kept (weight : ℤ) (groups : List ℕ) :
    placeValue 10000 weight groups =
      placeValue 10000 (weight - (groups.takeWhile isZeroGroup).length) (kept groups) := by
  obtain ⟨count, hgroups⟩ := exists_dropTrailing_append (groups.dropWhile isZeroGroup)
  conv_lhs => rw [replicate_append_dropWhile groups, hgroups]
  rw [Number.placeValue_replicate_zero_append, Number.placeValue_append_replicate_zero, kept]

variable {negative : Bool} {weight : ℤ} {scale : ℕ} {groups : List ℕ}

/-- Where no group is kept, the number is zero. -/
theorem ofGroups_of_kept_eq_nil (h : kept groups = []) :
    ofGroups negative weight scale groups = ⟨false, 0, scale, []⟩ := by
  rw [ofGroups]
  exact if_pos (by rw [← kept, h]; rfl)

/-- Where groups are kept, the number has these. -/
theorem ofGroups_of_kept_ne_nil (h : kept groups ≠ []) :
    ofGroups negative weight scale groups =
      ⟨negative, weight - (groups.takeWhile isZeroGroup).length, scale, kept groups⟩ := by
  rw [ofGroups]
  exact if_neg (by rwa [← kept, List.isEmpty_iff])

/-- Leaving out zero groups keeps the value. -/
theorem value_ofGroups : (ofGroups negative weight scale groups).value =
    signed negative (placeValue 10000 weight groups) := by
  rw [placeValue_kept]
  by_cases h : kept groups = []
  · rw [ofGroups_of_kept_eq_nil h, h]
    cases negative <;> simp [value, signed]
  · rw [ofGroups_of_kept_ne_nil h, value]

/-- Leaving out zero groups states the value in the one way. -/
theorem canonical_ofGroups (h : ∀ g ∈ groups, g < 10000) :
    (ofGroups negative weight scale groups).Canonical := by
  by_cases hk : kept groups = []
  · rw [ofGroups_of_kept_eq_nil hk]
    exact ⟨by simp, by simp, by simp, fun _ => ⟨rfl, rfl⟩⟩
  · rw [ofGroups_of_kept_ne_nil hk]
    exact ⟨fun g hg => h g ((sublist_kept groups).subset hg), head?_kept groups,
      getLast?_dropTrailing _, fun hg => absurd hg hk⟩

theorem scale_ofGroups : (ofGroups negative weight scale groups).scale = scale := by
  by_cases hk : kept groups = []
  · rw [ofGroups_of_kept_eq_nil hk]
  · rw [ofGroups_of_kept_ne_nil hk]

/-- The weight falls by fewer than there are groups. -/
theorem weight_ofGroups : (ofGroups negative weight scale groups).weight = 0 ∨
    weight - groups.length < (ofGroups negative weight scale groups).weight ∧
      (ofGroups negative weight scale groups).weight ≤ weight := by
  by_cases hk : kept groups = []
  · rw [ofGroups_of_kept_eq_nil hk]
    exact .inl rfl
  · have hpos := List.length_pos_iff.2 hk
    have hle := length_takeWhile_add_length_kept_le groups
    rw [ofGroups_of_kept_ne_nil hk]
    refine .inr ⟨?_, ?_⟩
    · show weight - (groups.length : ℤ) < weight - (groups.takeWhile isZeroGroup).length
      omega
    · show weight - ((groups.takeWhile isZeroGroup).length : ℤ) ≤ weight
      omega

/-- There are no more groups than before. -/
theorem length_groups_ofGroups_le :
    (ofGroups negative weight scale groups).groups.length ≤ groups.length := by
  by_cases hk : kept groups = []
  · rw [ofGroups_of_kept_eq_nil hk]
    exact Nat.zero_le _
  · rw [ofGroups_of_kept_ne_nil hk]
    exact (sublist_kept groups).length_le

/-! ### The number of a text -/

/-- The digits before the point that are cut into groups. -/
def wholeDigits (d : Decimal) : List Char := padWhole (d.whole.dropWhile (· == '0'))

/-- The digits that are cut into groups. -/
def groupedDigits (d : Decimal) : List Char := wholeDigits d ++ padFraction d.fraction

/-- The number of a numeral, whether or not the format can state it. -/
def ofDecimal (d : Decimal) : Numeric :=
  ofGroups d.negative (((wholeDigits d).length / 4 : ℕ) - 1) d.fraction.length
    (groupsOf (groupedDigits d))

/-- Whether the format can state the number of a numeral. -/
def WithinLimits (d : Decimal) : Prop :=
  d.fraction.length ≤ maxScale ∧ (wholeDigits d).length / 4 ≤ maxGroups ∧
    (ofDecimal d).groups.length ≤ maxGroups

instance (d : Decimal) : Decidable (WithinLimits d) := inferInstanceAs (Decidable (_ ∧ _ ∧ _))

/-- Digits make a number if it is within the limits. -/
theorem ofParts_eq (d : Decimal) : ofParts d.negative d.whole d.fraction =
    if WithinLimits d then .ok (ofDecimal d) else .error .tooLarge := by
  rw [show ofParts d.negative d.whole d.fraction =
    if maxScale < d.fraction.length || maxGroups < (wholeDigits d).length / 4 ||
      maxGroups < (ofDecimal d).groups.length then .error .tooLarge else .ok (ofDecimal d) from rfl]
  by_cases h : WithinLimits d
  · rw [if_pos h, if_neg]
    simp only [Bool.or_eq_true, decide_eq_true_eq, not_or, not_lt]
    exact ⟨⟨h.1, h.2.1⟩, h.2.2⟩
  · rw [if_neg h, if_pos]
    simp only [WithinLimits, not_and_or, not_le] at h
    simpa only [Bool.or_eq_true, decide_eq_true_eq, or_assoc] using h

/-- A text makes a number exactly if it writes a numeral that is within the limits. -/
theorem ofText_eq_ok_iff {cs : List Char} {n : Numeric} :
    ofText cs = .ok n ↔ ∃ d : Decimal, d.WrittenAs cs ∧ n = ofDecimal d ∧
      d.fraction.length ≤ maxScale ∧ (wholeDigits d).length / 4 ≤ maxGroups ∧
        n.groups.length ≤ maxGroups := by
  rw [show ofText cs = if isDecimal (Decimal.cut cs).whole (Decimal.cut cs).fraction then
    ofParts (Decimal.cut cs).negative (Decimal.cut cs).whole (Decimal.cut cs).fraction
      else .error .invalid from rfl, ofParts_eq]
  constructor
  · intro h
    split at h
    · rename_i hd
      split at h
      · rename_i hlimits
        obtain rfl := Except.ok.inj h
        exact ⟨Decimal.cut cs, Decimal.writtenAs_iff.2 ⟨rfl, hd⟩, rfl, hlimits⟩
      · cases h
    · cases h
  · rintro ⟨d, hd, rfl, hlimits⟩
    obtain ⟨rfl, hdec⟩ := Decimal.writtenAs_iff.1 hd
    rw [if_pos hdec]
    exact if_pos hlimits

theorem length_groupedDigits_mod (d : Decimal) : (groupedDigits d).length % 4 = 0 := by
  have hwhole := length_padWhole_mod (d.whole.dropWhile (· == '0'))
  have hfraction := add_padding_mod d.fraction.length
  rw [groupedDigits, List.length_append, length_padFraction, wholeDigits]
  omega

/-- Zeros are digits worth nothing. -/
theorem map_digitValue_replicate (count : ℕ) :
    (List.replicate count '0').map digitValue = List.replicate count 0 := by
  rw [List.map_replicate]
  rfl

/-- Cutting digits into groups keeps their value. -/
theorem value_ofDecimal (d : Decimal) : (ofDecimal d).value = d.value := by
  set stripped := d.whole.dropWhile (· == '0') with hstripped
  -- Both values are those of the digits without zeros in front and behind.
  have hzeros : d.whole.takeWhile (· == '0') =
      List.replicate (d.whole.takeWhile (· == '0')).length '0' := by
    refine List.eq_replicate_iff.2 ⟨rfl, fun c hc => ?_⟩
    simpa using List.mem_takeWhile_imp hc
  have hwritten : placeValue 10 (d.whole.length - 1) d.digits =
      placeValue 10 (stripped.length - 1) ((stripped ++ d.fraction).map digitValue) := by
    have hsplit :
        d.whole = List.replicate (d.whole.takeWhile (· == '0')).length '0' ++ stripped := by
      rw [← hzeros, hstripped, List.takeWhile_append_dropWhile]
    generalize (d.whole.takeWhile (· == '0')).length = count at hsplit
    have hweight : (d.whole.length : ℤ) - 1 - count = stripped.length - 1 := by
      rw [hsplit, List.length_append, List.length_replicate]
      push_cast
      ring
    rw [Decimal.digits, hsplit, List.append_assoc, List.map_append, map_digitValue_replicate,
      Number.placeValue_replicate_zero_append, ← hsplit, hweight]
  have hgrouped : placeValue 10 ((wholeDigits d).length - 1) ((groupedDigits d).map digitValue) =
      placeValue 10 (stripped.length - 1) ((stripped ++ d.fraction).map digitValue) := by
    have hweight : ((wholeDigits d).length : ℤ) - 1 - padding stripped.length =
        stripped.length - 1 := by
      rw [wholeDigits, padWhole, List.length_append, List.length_replicate]
      push_cast
      ring
    have hdigits : (groupedDigits d).map digitValue =
        List.replicate (padding stripped.length) 0 ++ ((stripped ++ d.fraction).map digitValue ++
          List.replicate (padding d.fraction.length) 0) := by
      rw [groupedDigits, wholeDigits, padWhole, padFraction, List.append_assoc,
        ← List.append_assoc stripped, List.map_append, List.map_append, map_digitValue_replicate,
        map_digitValue_replicate]
    rw [hdigits, Number.placeValue_replicate_zero_append, Number.placeValue_append_replicate_zero,
      hweight]
  have hplace : 4 * ((((wholeDigits d).length / 4 : ℕ) : ℤ) - 1) + 3 =
      (wholeDigits d).length - 1 := by
    have := length_padWhole_mod stripped
    rw [wholeDigits, ← hstripped]
    omega
  rw [ofDecimal, value_ofGroups, placeValue_groupsOf (length_groupedDigits_mod d), hplace, hgrouped,
    Decimal.value, hwritten]

/-- All that is cut into groups are digits. -/
theorem isDigit_of_mem_groupedDigits {d : Decimal}
    (h : ∀ c ∈ d.whole ++ d.fraction, c.isDigit = true) :
    ∀ c ∈ groupedDigits d, c.isDigit = true := by
  have hzero : ∀ (count : ℕ), ∀ c ∈ List.replicate count '0', c.isDigit = true := by
    intro count c hc
    rw [List.eq_of_mem_replicate hc]
    decide
  intro c hc
  rw [groupedDigits, wholeDigits, padWhole, padFraction, List.mem_append, List.mem_append,
    List.mem_append] at hc
  rcases hc with (hc | hc) | (hc | hc)
  · exact hzero _ c hc
  · exact h c (List.mem_append_left _ ((List.dropWhile_sublist _).subset hc))
  · exact h c (List.mem_append_right _ hc)
  · exact hzero _ c hc

/-- A numeral's number is stated in the one way. -/
theorem canonical_ofDecimal {d : Decimal} (h : ∀ c ∈ d.whole ++ d.fraction, c.isDigit = true) :
    (ofDecimal d).Canonical :=
  canonical_ofGroups
    (lt_of_mem_groupsOf (length_groupedDigits_mod d) (isDigit_of_mem_groupedDigits h))

/-! ### Bytes -/

/-- Bytes in fields of two; nothing if a byte is left over. -/
def fields? : Bytes → Option (List Bytes)
  | [] => some []
  | [_] => none
  | a :: b :: rest => (fields? rest).map ([a, b] :: ·)

/-- The sign a code states. -/
def readSign? (code : ℕ) : Option Bool :=
  if code = 0x4000 then some true else if code = 0 then some false else none

/-- The number that bytes state: how many groups there are, the weight, the sign, the scale and the
groups, each in two bytes. -/
def ofBytes? (bs : Bytes) : Option Numeric :=
  match fields? bs with
  | some (count :: weight :: sign :: scale :: groups) =>
    if Number.ofBigEndianSigned count = groups.length then
      (readSign? (Number.ofBigEndian sign)).map fun negative =>
        ⟨negative, Number.ofBigEndianSigned weight, Number.ofBigEndian scale,
          groups.map Number.ofBigEndian⟩
    else none
  | _ => none

/-- Whether the format can state a number. -/
structure Fits (n : Numeric) : Prop where
  /-- There are not too many groups. -/
  count : n.groups.length ≤ maxGroups
  /-- The weight is a signed number of two bytes. -/
  weight : -32768 ≤ n.weight ∧ n.weight < 32768
  /-- The scale is a number of two bytes. -/
  scale : n.scale ≤ maxScale
  /-- So is every group. -/
  groups : ∀ g ∈ n.groups, g < 65536

/-- Fields of two bytes are found again. -/
theorem fields?_flatten {fs : List Bytes} (h : ∀ f ∈ fs, f.length = 2) :
    fields? fs.flatten = some fs := by
  induction fs with
  | nil => rfl
  | cons f fs ih =>
    obtain ⟨a, b, rfl⟩ := List.length_eq_two.1 (h f List.mem_cons_self)
    have hrest := ih fun f hf => h f (List.mem_cons_of_mem _ hf)
    show (fields? fs.flatten).map ([a, b] :: ·) = some ([a, b] :: fs)
    rw [hrest, Option.map_some]

/-- The fields of a number's bytes. -/
def fields (n : Numeric) : List Bytes :=
  Number.bigEndian 2 n.groups.length :: Number.bigEndian 2 n.weight ::
    Number.bigEndian 2 (signCode n.negative) :: Number.bigEndian 2 n.scale ::
      n.groups.map fun (g : ℕ) => Number.bigEndian 2 g

theorem fields?_bytes (n : Numeric) : fields? n.bytes = some n.fields := by
  have hbytes : n.bytes = n.fields.flatten := by
    rw [bytes, fields, List.flatMap_def]
    simp only [List.flatten_cons, List.append_assoc]
  rw [hbytes]
  refine fields?_flatten fun f hf => ?_
  simp only [fields, List.mem_cons, List.mem_map] at hf
  rcases hf with rfl | rfl | rfl | rfl | ⟨g, -, rfl⟩ <;> exact Number.length_bigEndian 2 _

/-- A number that the format can state is what its bytes state. -/
theorem ofBytes?_bytes {n : Numeric} (h : n.Fits) : ofBytes? n.bytes = some n := by
  -- Every field fits its sixteen bits, so each of them is read back.
  have hcount : Number.ofBigEndianSigned (Number.bigEndian 2 n.groups.length) =
      n.groups.length := by
    have := h.count
    rw [maxGroups] at this
    exact Number.ofBigEndianSigned_bigEndian (by norm_num; omega) (by norm_num; omega)
  have hweight : Number.ofBigEndianSigned (Number.bigEndian 2 n.weight) = n.weight := by
    obtain ⟨hlow, hhigh⟩ := h.weight
    exact Number.ofBigEndianSigned_bigEndian (by norm_num; omega) (by norm_num; omega)
  have hsign : readSign? (Number.ofBigEndian (Number.bigEndian 2 (signCode n.negative))) =
      some n.negative := by
    have hcode : signCode n.negative < 256 ^ 2 := by cases n.negative <;> decide
    rw [Number.ofBigEndian_bigEndian hcode]
    cases n.negative <;> rfl
  have hscale : Number.ofBigEndian (Number.bigEndian 2 n.scale) = n.scale := by
    have := h.scale
    rw [maxScale] at this
    exact Number.ofBigEndian_bigEndian (by norm_num; omega)
  have hgroups : (n.groups.map fun (g : ℕ) => Number.bigEndian 2 g).map Number.ofBigEndian =
      n.groups := by
    have hread : ∀ g ∈ n.groups, Number.ofBigEndian (Number.bigEndian 2 g) = g := by
      intro g hg
      exact Number.ofBigEndian_bigEndian (by norm_num; exact h.groups g hg)
    rw [List.map_map, Function.comp_def, List.map_congr_left hread, List.map_id']
  rw [ofBytes?, fields?_bytes, fields]
  simp only [hcount, List.length_map, if_true, hsign, Option.map_some, hweight, hscale, hgroups]

/-- The number of a text is one that the format can state. -/
theorem fits_of_ofText_eq_ok {cs : List Char} {n : Numeric} (h : ofText cs = .ok n) : n.Fits := by
  obtain ⟨d, hd, rfl, hscale, hwhole, hgroups⟩ := ofText_eq_ok_iff.1 h
  have hlength := length_groupsOf (length_groupedDigits_mod d)
  rw [groupedDigits, List.length_append, length_padFraction] at hlength
  have hpad : padding d.fraction.length < 4 := Nat.mod_lt _ (by norm_num)
  have hwholeMod := length_padWhole_mod (d.whole.dropWhile (· == '0'))
  rw [← wholeDigits] at hwholeMod
  rw [maxScale] at hscale
  rw [maxGroups] at hwhole
  refine ⟨hgroups, ?_, ?_, ?_⟩
  · rcases @weight_ofGroups d.negative ((((wholeDigits d).length / 4 : ℕ) : ℤ) - 1)
      d.fraction.length (groupsOf (groupedDigits d)) with hzero | ⟨hlow, hhigh⟩
    · rw [ofDecimal, hzero]
      norm_num
    · rw [groupedDigits] at hlow hhigh
      rw [ofDecimal, groupedDigits]
      omega
  · rw [ofDecimal, scale_ofGroups, maxScale]
    exact hscale
  · intro g hg
    have := (canonical_ofDecimal hd.digits).groups_lt g hg
    omega

/-! ### Integers -/

/-- The numeral of an integer. -/
def numeralOfInt (i : ℤ) : Decimal := ⟨i < 0, Nat.toDigits 10 i.natAbs, []⟩

theorem isDigit_of_mem_numeralOfInt (i : ℤ) :
    ∀ c ∈ (numeralOfInt i).whole ++ (numeralOfInt i).fraction, c.isDigit = true := by
  intro c hc
  rw [numeralOfInt, List.append_nil] at hc
  exact Number.isDigit_of_mem_toDigits hc

/-- A numeral of an integer is written as its sign and its digits. -/
theorem writtenAs_of_sign {i : ℤ} {sign : List Char}
    (hsign : Decimal.Sign (numeralOfInt i).negative sign) :
    (numeralOfInt i).WrittenAs (sign ++ Nat.toDigits 10 i.natAbs) :=
  ⟨⟨sign, _, rfl, hsign, .integer _⟩, isDigit_of_mem_numeralOfInt i, by
    rw [numeralOfInt, List.append_nil]
    exact Nat.toDigits_ne_nil⟩

theorem negative_numeralOfInt_natCast (m : ℕ) : (numeralOfInt m).negative = false := by
  simp [numeralOfInt]

/-- An integer is written as its numeral. -/
theorem writtenAs_numeralOfInt (i : ℤ) : (numeralOfInt i).WrittenAs (toString i).toList := by
  cases i with
  | ofNat m =>
    have hsign : Decimal.Sign (numeralOfInt m).negative [] := by
      rw [negative_numeralOfInt_natCast]
      exact .none
    rw [show Int.ofNat m = (m : ℤ) from rfl, Number.toList_toString_ofNat]
    exact writtenAs_of_sign hsign
  | negSucc m =>
    have hsign : Decimal.Sign (numeralOfInt (Int.negSucc m)).negative ['-'] := by
      rw [numeralOfInt, decide_eq_true (Int.negSucc_lt_zero m)]
      exact .minus
    rw [Number.toList_toString_negSucc]
    exact writtenAs_of_sign hsign

/-- An integer that is not negative may be written with a plus. -/
theorem writtenAs_plus_numeralOfInt {i : ℤ} (hi : 0 ≤ i) :
    (numeralOfInt i).WrittenAs ('+' :: (toString i).toList) := by
  obtain ⟨m, rfl⟩ := Int.eq_ofNat_of_zero_le hi
  have hsign : Decimal.Sign (numeralOfInt m).negative ['+'] := by
    rw [negative_numeralOfInt_natCast]
    exact .plus
  rw [Number.toList_toString_ofNat]
  exact writtenAs_of_sign hsign

/-- The numeral of an integer has its value. -/
theorem value_numeralOfInt (i : ℤ) : (numeralOfInt i).value = i := by
  -- The digits are those of the magnitude, and the sign is put in front of its value.
  have hmagnitude : placeValue 10 ((Nat.toDigits 10 i.natAbs).length - 1)
      ((Nat.toDigits 10 i.natAbs).map digitValue) = (i.natAbs : ℚ) := by
    have hplaces := Number.placeValue_eq_foldl 10 (by norm_num)
      ((Nat.toDigits 10 i.natAbs).map digitValue)
    have hread : (Nat.toDigits 10 i.natAbs).foldl (fun n c => n * 10 + digitValue c) 0 =
        i.natAbs := Number.digitsValue_toDigits i.natAbs
    rw [List.length_map, List.foldl_map, hread] at hplaces
    exact_mod_cast hplaces
  have hvalue : (numeralOfInt i).value = signed (decide (i < 0)) i.natAbs := by
    rw [Decimal.value, Decimal.digits, numeralOfInt, List.append_nil, hmagnitude]
  rw [hvalue, signed]
  split
  · rename_i hneg
    have hi : i = -(i.natAbs : ℤ) := by
      have : i < 0 := by simpa using hneg
      omega
    rw [hi]
    simp
  · rename_i hpos
    have hi : i = (i.natAbs : ℤ) := by
      have : 0 ≤ i := by simpa using hpos
      omega
    rw [hi]
    simp

/-- An integer of at most nineteen digits is within the limits. -/
theorem withinLimits_numeralOfInt {i : ℤ} (h : i.natAbs < 10 ^ 19) :
    WithinLimits (numeralOfInt i) := by
  have hlength : (Nat.toDigits 10 i.natAbs).length ≤ 19 :=
    Nat.toDigits_length 10 i.natAbs 19 (by norm_num) h
  have hwhole : (wholeDigits (numeralOfInt i)).length ≤ 22 := by
    have hpad : padding ((numeralOfInt i).whole.dropWhile (· == '0')).length < 4 :=
      Nat.mod_lt _ (by norm_num)
    have hdrop : ((numeralOfInt i).whole.dropWhile (· == '0')).length ≤ 19 :=
      (List.dropWhile_sublist _).length_le.trans hlength
    rw [wholeDigits, padWhole, List.length_append, List.length_replicate]
    omega
  have hgroups := length_groupsOf (length_groupedDigits_mod (numeralOfInt i))
  have hkept : (ofDecimal (numeralOfInt i)).groups.length ≤
      (groupsOf (groupedDigits (numeralOfInt i))).length := length_groups_ofGroups_le
  have hgrouped : (groupedDigits (numeralOfInt i)).length =
      (wholeDigits (numeralOfInt i)).length := by
    rw [groupedDigits, List.length_append]
    simp [numeralOfInt, padFraction, padding]
  refine ⟨Nat.zero_le _, ?_, ?_⟩
  · rw [maxGroups]
    omega
  · rw [maxGroups]
    omega

/-- Every text of an integer of at most nineteen digits makes its number. -/
theorem ofText_of_writtenAs_numeralOfInt {i : ℤ} (h : i.natAbs < 10 ^ 19) {cs : List Char}
    (hcs : (numeralOfInt i).WrittenAs cs) : ofText cs = .ok (ofDecimal (numeralOfInt i)) :=
  ofText_eq_ok_iff.2 ⟨numeralOfInt i, hcs, rfl, withinLimits_numeralOfInt h⟩

end Numeric

/-! ### The bytes of a text -/

/-- A text has bytes exactly if it makes a number, and then those of the number. -/
theorem numericBytes_eq_ok_iff {cs : List Char} {bs : Bytes} :
    numericBytes cs = .ok bs ↔ ∃ n, Numeric.ofText cs = .ok n ∧ bs = n.bytes := by
  rw [numericBytes]
  constructor
  · intro h
    split at h
    · rename_i n hn
      cases h
      exact ⟨n, hn, rfl⟩
    · cases h
    · cases h
  · rintro ⟨n, hn, rfl⟩
    rw [hn]

/-- Every text of a 64-bit integer has the bytes of its number, which state the number. -/
theorem numericBytes_of_writtenAs (i : Int64) :
    (∀ cs, (Numeric.numeralOfInt i.toInt).WrittenAs cs →
      numericBytes cs = .ok (Numeric.ofDecimal (Numeric.numeralOfInt i.toInt)).bytes) ∧
    Numeric.ofBytes? (Numeric.ofDecimal (Numeric.numeralOfInt i.toInt)).bytes =
      some (Numeric.ofDecimal (Numeric.numeralOfInt i.toInt)) := by
  have hbound : i.toInt.natAbs < 10 ^ 19 := by
    have hlow := i.le_toInt
    have hhigh := i.toInt_lt
    norm_num at hlow hhigh ⊢
    omega
  have htext : ∀ cs, (Numeric.numeralOfInt i.toInt).WrittenAs cs →
      Numeric.ofText cs = .ok (Numeric.ofDecimal (Numeric.numeralOfInt i.toInt)) := fun cs =>
    Numeric.ofText_of_writtenAs_numeralOfInt hbound
  exact ⟨fun cs hcs => numericBytes_eq_ok_iff.2 ⟨_, htext cs hcs, rfl⟩, Numeric.ofBytes?_bytes
    (Numeric.fits_of_ofText_eq_ok (htext _ (Numeric.writtenAs_numeralOfInt _)))⟩

/-- The bytes of a text that writes a numeral state a number with its value, as many digits after
the point as are written, and groups in the one way for both; so texts of one value and scale have
the same bytes. The text of every integer of 64 bits has bytes, which state the integer. -/
theorem numeric_bytes_exact :
    (∀ cs bs, numericBytes cs = .ok bs → ∃ (d : Decimal) (n : Numeric),
      (∀ d' : Decimal, d'.WrittenAs cs ↔ d' = d) ∧ Numeric.ofBytes? bs = some n ∧
      n.value = d.value ∧ n.scale = d.fraction.length ∧ n.Canonical ∧
      (d.value = 0 ↔ n.groups = []) ∧
      ∀ cs' bs' d', numericBytes cs' = .ok bs' → Decimal.WrittenAs d' cs' → d'.value = d.value →
        d'.fraction.length = d.fraction.length → bs' = bs) ∧
    ∀ i : Int64, ∃ bs n, numericBytes (toString i.toInt).toList = .ok bs ∧
      Numeric.ofBytes? bs = some n ∧ n.value = i.toInt ∧ n.scale = 0 := by
  have hunique : ∀ {d d' : Decimal} {cs : List Char},
      d.WrittenAs cs → d'.WrittenAs cs → d' = d := by
    intro d d' cs hd hd'
    rw [(Decimal.writtenAs_iff.1 hd).1, (Decimal.writtenAs_iff.1 hd').1]
  constructor
  · intro cs bs h
    obtain ⟨n, hn, rfl⟩ := numericBytes_eq_ok_iff.1 h
    obtain ⟨d, hd, rfl, -⟩ := Numeric.ofText_eq_ok_iff.1 hn
    have hcanonical := Numeric.canonical_ofDecimal hd.digits
    have hvalue := Numeric.value_ofDecimal d
    refine ⟨d, Numeric.ofDecimal d, fun d' => ⟨hunique hd, fun h => h ▸ hd⟩,
      Numeric.ofBytes?_bytes (Numeric.fits_of_ofText_eq_ok hn), hvalue, Numeric.scale_ofGroups,
      hcanonical, ?_, ?_⟩
    · rw [← hvalue]
      exact hcanonical.value_eq_zero_iff
    · intro cs' bs' d' h' hd' hsame hscale
      obtain ⟨n', hn', rfl⟩ := numericBytes_eq_ok_iff.1 h'
      obtain ⟨d'', hd'', rfl, -⟩ := Numeric.ofText_eq_ok_iff.1 hn'
      obtain rfl := hunique hd'' hd'
      -- Both numbers are canonical, so their values and scales leave no room for other bytes.
      have hnumbers : Numeric.ofDecimal d' = Numeric.ofDecimal d := by
        refine (Numeric.canonical_ofDecimal hd'.digits).eq_of_value_eq hcanonical ?_ ?_
        · rw [Numeric.value_ofDecimal, hvalue, hsame]
        · rw [Numeric.ofDecimal, Numeric.ofDecimal, Numeric.scale_ofGroups, Numeric.scale_ofGroups,
            hscale]
      rw [hnumbers]
  · intro i
    obtain ⟨hbytes, hread⟩ := numericBytes_of_writtenAs i
    refine ⟨_, _, hbytes _ (Numeric.writtenAs_numeralOfInt _), hread, ?_, Numeric.scale_ofGroups⟩
    rw [Numeric.value_ofDecimal, Numeric.value_numeralOfInt]

/-- A negative number under two texts, one with zeros in front. -/
theorem numeric_bytes_exact_two_texts :
    let text := "-0012345.60".toList
    let shorter := "-12345.60".toList
    let bs : Bytes := [0, 3, 0, 1, 64, 0, 0, 2, 0, 1, 9, 41, 23, 112]
    numericBytes text = .ok bs ∧ numericBytes shorter = .ok bs ∧
      ∃ (d : Decimal) (n : Numeric), d.WrittenAs text ∧ Numeric.ofBytes? bs = some n ∧
        n.value = d.value ∧ n.scale = d.fraction.length ∧ n.Canonical ∧
        ∀ bs', numericBytes shorter = .ok bs' → bs' = bs := by
  intro text shorter bs
  have htext : numericBytes text = .ok bs := by decide +kernel
  have hshorter : numericBytes shorter = .ok bs := by decide +kernel
  obtain ⟨d, n, hd, hn, hvalue, hscale, hcanonical, -, hsame⟩ := numeric_bytes_exact.1 text bs htext
  let d' : Decimal := ⟨true, ['1', '2', '3', '4', '5'], ['6', '0']⟩
  have hcut : d = ⟨true, ['0', '0', '1', '2', '3', '4', '5'], ['6', '0']⟩ :=
    ((hd _).1 (Decimal.writtenAs_iff.2 ⟨by decide +kernel, by decide +kernel⟩)).symm
  have hd' : d'.WrittenAs shorter :=
    Decimal.writtenAs_iff.2 ⟨by decide +kernel, by decide +kernel⟩
  have hvalue' : d'.value = d.value := by
    rw [hcut]
    norm_num [d', Decimal.value, Decimal.digits, signed, digitValue]
  refine ⟨htext, hshorter, d, n, (hd d).2 rfl, hn, hvalue, hscale, hcanonical, fun bs' h => ?_⟩
  exact hsame shorter bs' d' h hd' hvalue' (by rw [hcut])

end BoundSql.Postgres

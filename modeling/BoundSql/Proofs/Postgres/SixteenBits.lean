import BoundSql.Proofs.Postgres.Numeric

/-! # Decimal numbers in integers of sixteen bits
The number of a text is computed without bounds. Here the same steps are taken on integers of fixed
width, whose operations are checked, and on an output buffer.
* **`Writing`** — computations that append to a buffer, and stop if they refuse their input or if a
  result does not fit its integers.
* **`Numeric.write`** — the bytes of a decimal text, computed so.
* **`Numeric.writeParts_eq`** — all results fit, so this comes to what is computed without bounds.
* **`numeric_written_or_refused`** — which texts are written, and that nothing is if one is not. -/

namespace BoundSql.Postgres

open Number (Decimal digitValue digitsValue)

/-! ### Computations on a buffer -/

/-- Why a computation stops. -/
inductive Halt
  /-- Its input is refused. -/
  | refused (cause : NumericError)
  /-- A result does not fit the integers it is computed in. -/
  | overflow

/-- A computation on a buffer, where what was appended before it stopped is left. -/
abbrev Writing (α : Type) := ExceptT Halt (StateM Bytes) α

namespace Writing

variable {α β : Type}

/-- How a computation ends, and the buffer it leaves. -/
def runOn (w : Writing α) (buffer : Bytes) : Except Halt α × Bytes := w.run.run buffer

/-- The result of an operation on signed integers of sixteen bits. -/
def short (n : ℤ) : Writing ℤ := if -32768 ≤ n ∧ n ≤ 32767 then pure n else throw .overflow

/-- A difference of unsigned integers. -/
def difference (a b : ℕ) : Writing ℕ := if b ≤ a then pure (a - b) else throw .overflow

/-- A length as an integer up to a limit. -/
def convert (limit n : ℕ) : Writing ℕ := if n ≤ limit then pure n else throw (.refused .tooLarge)

/-- Appends a number in two bytes. -/
def emit (n : ℤ) : Writing Unit := modify (· ++ Number.bigEndian 2 n)

theorem short_of_le {n : ℤ} (hlow : -32768 ≤ n) (hhigh : n ≤ 32767) : short n = pure n :=
  if_pos ⟨hlow, hhigh⟩

theorem difference_of_le {a b : ℕ} (h : b ≤ a) : difference a b = pure (a - b) := if_pos h

theorem convert_of_le {limit n : ℕ} (h : n ≤ limit) : convert limit n = pure n := if_pos h

theorem convert_of_lt {limit n : ℕ} (h : limit < n) :
    convert limit n = throw (.refused .tooLarge) := if_neg (Nat.not_le.2 h)

/-- Nothing is computed after a stop. -/
theorem throw_bind (halt : Halt) (f : α → Writing β) :
    (throw halt : Writing α) >>= f = throw halt := rfl

theorem runOn_throw (halt : Halt) (buffer : Bytes) :
    (throw halt : Writing α).runOn buffer = (.error halt, buffer) := rfl

theorem runOn_emit_bind (n : ℤ) (f : Unit → Writing α) (buffer : Bytes) :
    (emit n >>= f).runOn buffer = (f ()).runOn (buffer ++ Number.bigEndian 2 n) := rfl

/-- Numbers are appended one after another. -/
theorem runOn_forM_emit (ns : List ℤ) (buffer : Bytes) :
    (forM ns emit).runOn buffer = (.ok (), buffer ++ ns.flatMap (Number.bigEndian 2)) := by
  induction ns generalizing buffer with
  | nil => rw [List.flatMap_nil, List.append_nil]; rfl
  | cons n ns ih =>
    rw [List.forM_cons, runOn_emit_bind, ih, List.flatMap_cons, List.append_assoc]

end Writing

namespace Numeric

open Writing

/-! ### The steps -/

/-- A group that takes up one more digit. -/
def pushDigit (group : ℤ) (c : Char) : Writing ℤ := do
  let digit ← difference c.toNat '0'.toNat
  let shifted ← short (group * 10)
  short (shifted + digit)

/-- Digits cut into fours. -/
def cutFours : List Char → List (List Char)
  | a :: b :: c :: d :: rest => [a, b, c, d] :: cutFours rest
  | [] => []
  | digits => [digits]

/-- Appends the number with the given digits before and after the point. -/
def writeParts (negative : Bool) (whole fraction : List Char) : Writing Unit := do
  let whole := whole.dropWhile (· == '0')
  let scale ← convert maxScale fraction.length
  let wholePad ← difference 4 (whole.length % 4)
  let fractionPad ← difference 4 (fraction.length % 4)
  let digits := List.replicate (wholePad % 4) '0' ++ whole ++
    (fraction ++ List.replicate (fractionPad % 4) '0')
  let groups ← (cutFours digits).mapM fun four => four.foldlM pushDigit 0
  let wholeGroups ← convert maxGroups ((wholePad % 4 + whole.length) / 4)
  let weight ← short (wholeGroups - 1)
  let leading ← convert maxGroups (groups.takeWhile (· == 0)).length
  let weight ← short (weight - leading)
  let kept := (groups.dropWhile (· == 0)).rdropWhile (· == 0)
  let count ← convert maxGroups kept.length
  -- Nothing is appended before all lengths are known to fit.
  emit count
  emit (if kept.isEmpty then 0 else weight)
  emit (if negative && !kept.isEmpty then 0x4000 else 0)
  emit scale
  forM kept emit

/-- Appends the number that a text writes. -/
def write (cs : List Char) : Writing Unit :=
  let signed := splitSign cs
  let parts := splitPoint signed.2
  if isDecimal parts.1 parts.2 then writeParts signed.1 parts.1 parts.2
  else throw (.refused .invalid)

/-- Appends a number. -/
def writeNumber (n : Numeric) : Writing Unit := do
  emit n.groups.length
  emit n.weight
  emit (signCode n.negative)
  emit n.scale
  forM (n.groups.map Nat.cast) emit

theorem cast_signCode (negative : Bool) :
    (signCode negative : ℤ) = if negative then 0x4000 else 0 := by
  cases negative <;> rfl

/-- What is appended are the bytes of the number. -/
theorem runOn_writeNumber (n : Numeric) (buffer : Bytes) :
    n.writeNumber.runOn buffer = (.ok (), buffer ++ n.bytes) := by
  rw [writeNumber, runOn_emit_bind, runOn_emit_bind, runOn_emit_bind, runOn_emit_bind,
    runOn_forM_emit, List.flatMap_map, bytes]
  simp only [List.append_assoc]

/-! ### Groups fit -/

/-- A group below a thousand takes up a digit. -/
theorem pushDigit_eq {group : ℕ} {c : Char} (hgroup : group < 1000) (hc : c.isDigit = true) :
    pushDigit group c = pure ((group * 10 + digitValue c : ℕ) : ℤ) := by
  have hdigit := Decimal.digitValue_lt hc
  rw [pushDigit, difference_of_le (Decimal.isDigit_iff.1 hc).1, pure_bind,
    short_of_le (by omega) (by omega), pure_bind,
    show c.toNat - '0'.toNat = digitValue c from rfl, short_of_le (by omega) (by omega)]
  push_cast
  rfl

/-- After `k` digits there is room for those up to the fourth. -/
theorem foldlM_pushDigit {ds : List Char} {group k : ℕ} (hgroup : group < 10 ^ k)
    (hlength : k + ds.length ≤ 4) (hds : ∀ c ∈ ds, c.isDigit = true) :
    ds.foldlM pushDigit (group : ℤ) = pure (digitsValue group ds : ℤ) := by
  induction ds generalizing group k with
  | nil => rfl
  | cons c ds ih =>
    rw [List.length_cons] at hlength
    have hc := hds c List.mem_cons_self
    have hbound : (10 : ℕ) ^ k ≤ 10 ^ 3 := Nat.pow_le_pow_right (by norm_num) (by omega)
    have hnext : group * 10 + digitValue c < 10 ^ (k + 1) := by
      have hdigit := Decimal.digitValue_lt hc
      rw [pow_succ]
      omega
    rw [List.foldlM_cons, pushDigit_eq (by omega) hc, pure_bind,
      ih hnext (by omega) fun c' hc' => hds c' (List.mem_cons_of_mem c hc')]
    rfl

/-- All groups fit. -/
theorem mapM_cutFours {ds : List Char} (h : ds.length % 4 = 0)
    (hds : ∀ c ∈ ds, c.isDigit = true) :
    (cutFours ds).mapM (fun four => four.foldlM pushDigit 0) =
      (pure ((groupsOf ds).map Nat.cast) : Writing (List ℤ)) := by
  induction ds, h using induction_fours with
  | nil => rfl
  | four a b c d rest _ _ ih =>
    have hfirst : [a, b, c, d].foldlM pushDigit 0 =
        (pure ((digitsValue 0 [a, b, c, d] : ℕ) : ℤ) : Writing ℤ) :=
      foldlM_pushDigit (k := 0) (by norm_num) (by simp) fun x hx =>
        hds x (List.mem_append_left rest hx)
    rw [cutFours, groupsOf, List.mapM_cons, hfirst, pure_bind,
      ih fun x hx => hds x (List.mem_append_right [a, b, c, d] hx), pure_bind, List.map_cons]

/-! ### Weights fit -/

/-- Only zeros make a group that is zero. -/
theorem eq_zero_of_head?_groupsOf {ds : List Char} (h : ds.length % 4 = 0)
    (hds : ∀ c ∈ ds, c.isDigit = true) (hhead : (groupsOf ds).head? = some 0) :
    ∀ c ∈ ds.take 4, c = '0' := by
  match ds, h with
  | [], _ => simp
  | a :: b :: c :: d :: rest, _ =>
    have hzero : digitsValue 0 [a, b, c, d] = 0 := Option.some.inj hhead
    simp only [digitsValue, List.foldl_cons, List.foldl_nil] at hzero
    intro x hx
    refine Decimal.eq_zero_of_digitValue_eq_zero (hds x (List.mem_of_mem_take hx)) ?_
    simp only [List.take_succ_cons, List.take_zero, List.mem_cons, List.not_mem_nil, or_false] at hx
    rcases hx with rfl | rfl | rfl | rfl <;> omega

/-- Digits before the point, without zeros in front, begin with a group that is not zero. -/
theorem head?_groupsOf_ne {d : Decimal} (h : ∀ c ∈ d.whole ++ d.fraction, c.isDigit = true)
    {c : Char} {rest : List Char} (hwhole : d.whole.dropWhile (· == '0') = c :: rest) :
    (groupsOf (groupedDigits d)).head? ≠ some 0 := by
  have hne : c ≠ '0' := by
    have hhead := List.head_dropWhile_not (· == '0') (l := d.whole) (by rw [hwhole]; simp)
    simpa [hwhole] using hhead
  intro hhead
  -- The first group is padded with at most three zeros, so the first digit is in it.
  have hpad : padding (c :: rest).length < 4 := Nat.mod_lt _ (by norm_num)
  obtain ⟨room, hroom⟩ : ∃ room, 4 - padding (c :: rest).length = room + 1 :=
    ⟨3 - padding (c :: rest).length, by omega⟩
  have hzeros := eq_zero_of_head?_groupsOf (length_groupedDigits_mod d)
    (isDigit_of_mem_groupedDigits h) hhead
  refine hne (hzeros c ?_)
  rw [groupedDigits, wholeDigits, hwhole, padWhole, List.append_assoc, List.take_append,
    List.length_replicate, hroom, List.cons_append, List.take_succ_cons]
  exact List.mem_append_right _ List.mem_cons_self

/-- Zero groups in front are groups of the fraction. -/
theorem length_takeWhile_groupsOf_le {d : Decimal}
    (h : ∀ c ∈ d.whole ++ d.fraction, c.isDigit = true) :
    4 * ((groupsOf (groupedDigits d)).takeWhile isZeroGroup).length ≤
      (padFraction d.fraction).length := by
  have hmod := length_groupedDigits_mod d
  cases hwhole : d.whole.dropWhile (· == '0') with
  | nil =>
    -- All groups are groups of the fraction.
    have hgroups := length_groupsOf hmod
    have hle := (List.takeWhile_sublist isZeroGroup (l := groupsOf (groupedDigits d))).length_le
    have hfraction : groupedDigits d = padFraction d.fraction := by
      rw [groupedDigits, wholeDigits, hwhole]
      rfl
    rw [hfraction] at hgroups hle ⊢
    omega
  | cons c rest =>
    have hfirst := head?_groupsOf_ne h hwhole
    have hnone : (groupsOf (groupedDigits d)).takeWhile isZeroGroup = [] := by
      cases hgroups : groupsOf (groupedDigits d) with
      | nil => rfl
      | cons g groups =>
        rw [hgroups] at hfirst
        have hg : ¬ isZeroGroup g = true := by simpa [isZeroGroup] using hfirst
        rw [List.takeWhile_cons_of_neg hg]
    rw [hnone]
    exact Nat.zero_le _

/-! ### Groups as integers -/

/-- Among integers the same groups are zero. -/
theorem isZeroGroup_cast : (fun g : ℤ => g == 0) ∘ Nat.cast = isZeroGroup := by
  funext g
  simp [isZeroGroup]

theorem takeWhile_cast (groups : List ℕ) :
    (groups.map (Nat.cast : ℕ → ℤ)).takeWhile (· == 0) =
      (groups.takeWhile isZeroGroup).map Nat.cast := by
  rw [List.takeWhile_map, isZeroGroup_cast]

/-- Among integers the same groups are kept. -/
theorem rdropWhile_cast (groups : List ℕ) :
    ((groups.map (Nat.cast : ℕ → ℤ)).dropWhile (· == 0)).rdropWhile (· == 0) =
      (kept groups).map Nat.cast := by
  rw [List.dropWhile_map, isZeroGroup_cast, List.rdropWhile, ← List.map_reverse,
    List.dropWhile_map, isZeroGroup_cast, ← List.map_reverse]
  rfl

/-- The number of groups, whether or not any are kept. -/
theorem ofGroups_eq (negative : Bool) (weight : ℤ) (scale : ℕ) (groups : List ℕ) :
    ofGroups negative weight scale groups =
      ⟨negative && !(kept groups).isEmpty,
        if (kept groups).isEmpty then 0 else weight - (groups.takeWhile isZeroGroup).length,
        scale, kept groups⟩ := by
  by_cases h : kept groups = []
  · rw [ofGroups_of_kept_eq_nil h, h]
    cases negative <;> rfl
  · have hempty : (kept groups).isEmpty = false := by simpa using h
    rw [ofGroups_of_kept_ne_nil h, hempty]
    cases negative <;> rfl

theorem groups_ofDecimal (d : Decimal) :
    (ofDecimal d).groups = kept (groupsOf (groupedDigits d)) := by
  rw [ofDecimal, ofGroups_eq]

/-! ### The number of a text -/

/-- Digits are written as the number they make, or refused before anything is written. -/
theorem writeParts_eq {d : Decimal} (h : ∀ c ∈ d.whole ++ d.fraction, c.isDigit = true) :
    writeParts d.negative d.whole d.fraction =
      if WithinLimits d then (ofDecimal d).writeNumber else throw (.refused .tooLarge) := by
  have hpad : ∀ n : ℕ, n % 4 ≤ 4 := fun n => (Nat.mod_lt n (by norm_num)).le
  have hdigits : List.replicate ((4 - (d.whole.dropWhile (· == '0')).length % 4) % 4) '0' ++
      d.whole.dropWhile (· == '0') ++ (d.fraction ++
        List.replicate ((4 - d.fraction.length % 4) % 4) '0') = groupedDigits d := rfl
  have hlength : (4 - (d.whole.dropWhile (· == '0')).length % 4) % 4 +
      (d.whole.dropWhile (· == '0')).length = (wholeDigits d).length := by
    rw [wholeDigits, padWhole, List.length_append, List.length_replicate]
    rfl
  have hleading := length_takeWhile_groupsOf_le h
  have hnumber := ofGroups_eq d.negative (((wholeDigits d).length / 4 : ℕ) - 1) d.fraction.length
    (groupsOf (groupedDigits d))
  rw [← ofDecimal] at hnumber
  -- Step by step the conversions to sixteen bits succeed, or one of them meets a limit.
  unfold writeParts
  dsimp only
  by_cases hscale : d.fraction.length ≤ maxScale
  swap
  · rw [convert_of_lt (Nat.lt_of_not_le hscale), throw_bind]
    exact (if_neg fun hlimits => hscale hlimits.1).symm
  rw [convert_of_le hscale, pure_bind, difference_of_le (hpad _), pure_bind,
    difference_of_le (hpad _), pure_bind, hdigits,
    mapM_cutFours (length_groupedDigits_mod d) (isDigit_of_mem_groupedDigits h), pure_bind,
    hlength]
  by_cases hwhole : (wholeDigits d).length / 4 ≤ maxGroups
  swap
  · rw [convert_of_lt (Nat.lt_of_not_le hwhole), throw_bind]
    exact (if_neg fun hlimits => hwhole hlimits.2.1).symm
  -- The weight lies between those of the first group of all and of the last one of the fraction.
  have hfraction : (padFraction d.fraction).length ≤ 65536 := by
    rw [maxScale] at hscale
    rw [length_padFraction, padding]
    omega
  have hgroups : (wholeDigits d).length / 4 ≤ 32767 := hwhole
  rw [convert_of_le hwhole, pure_bind, short_of_le (by omega) (by omega), pure_bind,
    takeWhile_cast, List.length_map, convert_of_le (by rw [maxGroups]; omega), pure_bind,
    short_of_le (by omega) (by omega), pure_bind, rdropWhile_cast, List.length_map]
  by_cases hkept : (kept (groupsOf (groupedDigits d))).length ≤ maxGroups
  swap
  · rw [convert_of_lt (Nat.lt_of_not_le hkept), throw_bind]
    exact (if_neg fun hlimits => hkept (groups_ofDecimal d ▸ hlimits.2.2)).symm
  · rw [convert_of_le hkept, pure_bind]
    refine Eq.trans ?_ (if_pos ⟨hscale, hwhole, (groups_ofDecimal d).symm ▸ hkept⟩).symm
    rw [hnumber, writeNumber, List.isEmpty_map, cast_signCode]

/-- A text is written as the number it makes, or refused with the same cause before anything is
written. No result fails to fit. -/
theorem runOn_write (cs : List Char) (buffer : Bytes) :
    (write cs).runOn buffer =
      match ofText cs with
      | .ok n => (.ok (), buffer ++ n.bytes)
      | .error cause => (.error (.refused cause), buffer) := by
  have hwrite : write cs = if isDecimal (Decimal.cut cs).whole (Decimal.cut cs).fraction then
      writeParts (Decimal.cut cs).negative (Decimal.cut cs).whole (Decimal.cut cs).fraction
        else throw (.refused .invalid) := rfl
  have hread : ofText cs = if isDecimal (Decimal.cut cs).whole (Decimal.cut cs).fraction then
      ofParts (Decimal.cut cs).negative (Decimal.cut cs).whole (Decimal.cut cs).fraction
        else .error .invalid := rfl
  rw [hwrite, hread]
  by_cases hdecimal : isDecimal (Decimal.cut cs).whole (Decimal.cut cs).fraction = true
  · rw [if_pos hdecimal, if_pos hdecimal, ofParts_eq,
      writeParts_eq (Decimal.writtenAs_iff.2 ⟨rfl, hdecimal⟩).digits]
    by_cases hlimits : WithinLimits (Decimal.cut cs)
    · rw [if_pos hlimits, if_pos hlimits, runOn_writeNumber]
    · rw [if_neg hlimits, if_neg hlimits, runOn_throw]
  · rw [if_neg hdecimal, if_neg hdecimal, runOn_throw]

end Numeric

open Numeric in
/-- A text has bytes as a decimal number exactly if it writes a numeral within the limits: no more
than 65535 digits after the point, no more than 32767 groups of four before it, where zeros in front
do not count, and no more than 32767 groups from the first to the last that are not zero. Computed
in integers of sixteen bits no result overflows, whatever the text is: its bytes are appended to the
buffer, or it is refused and the buffer stays as it was. -/
theorem numeric_written_or_refused (cs : List Char) :
    ((∃ bs, numericBytes cs = .ok bs) ↔ ∃ d : Decimal, d.WrittenAs cs ∧
      d.fraction.length ≤ 65535 ∧ (wholeDigits d).length / 4 ≤ 32767 ∧
        (kept (groupsOf (groupedDigits d))).length ≤ 32767) ∧
    ∀ buffer,
      (∀ bs, numericBytes cs = .ok bs → (write cs).runOn buffer = (.ok (), buffer ++ bs)) ∧
      ∀ failure, numericBytes cs = .error failure →
        ∃ cause, ofText cs = .error cause ∧
          (write cs).runOn buffer = (.error (.refused cause), buffer) := by
  refine ⟨⟨?_, ?_⟩, fun buffer => ⟨fun bs h => ?_, fun failure h => ?_⟩⟩
  · rintro ⟨bs, h⟩
    obtain ⟨n, hn, -⟩ := numericBytes_eq_ok_iff.1 h
    obtain ⟨d, hd, rfl, hscale, hwhole, hgroups⟩ := ofText_eq_ok_iff.1 hn
    rw [groups_ofDecimal] at hgroups
    exact ⟨d, hd, hscale, hwhole, hgroups⟩
  · rintro ⟨d, hd, hscale, hwhole, hgroups⟩
    rw [← groups_ofDecimal] at hgroups
    exact ⟨_, numericBytes_eq_ok_iff.2
      ⟨_, ofText_eq_ok_iff.2 ⟨d, hd, rfl, hscale, hwhole, hgroups⟩, rfl⟩⟩
  · obtain ⟨n, hn, rfl⟩ := numericBytes_eq_ok_iff.1 h
    rw [runOn_write, hn]
  · cases hn : ofText cs with
    | ok n => cases h.symm.trans (numericBytes_eq_ok_iff.2 ⟨n, hn, rfl⟩)
    | error cause => exact ⟨cause, rfl, by rw [runOn_write, hn]⟩

open Numeric in
/-- A negative number is written behind what is in the buffer, and a point alone is refused. -/
theorem numeric_written_or_refused_half :
    (write ['-', '.', '5']).runOn [7] = (.ok (), [7, 0, 1, 255, 255, 64, 0, 0, 1, 19, 136]) ∧
      (write ['.']).runOn [7] = (.error (.refused .invalid), [7]) ∧
      ∃ d : Decimal, d.WrittenAs ['-', '.', '5'] ∧ d.fraction.length ≤ 65535 := by
  have hhalf : numericBytes ['-', '.', '5'] = .ok [0, 1, 255, 255, 64, 0, 0, 1, 19, 136] := by
    decide
  have hpoint : numericBytes ['.'] = .error (.numeric (String.ofList ['.'])) := rfl
  obtain ⟨haccepted, hrun⟩ := numeric_written_or_refused ['-', '.', '5']
  obtain ⟨d, hd, hscale, -⟩ := haccepted.1 ⟨_, hhalf⟩
  obtain ⟨cause, hcause, hrefused⟩ := ((numeric_written_or_refused ['.']).2 [7]).2 _ hpoint
  have hinvalid : ofText ['.'] = .error .invalid := rfl
  obtain rfl := Except.error.inj (hcause.symm.trans hinvalid)
  exact ⟨(hrun [7]).1 _ hhalf, hrefused, d, hd, hscale⟩

end BoundSql.Postgres

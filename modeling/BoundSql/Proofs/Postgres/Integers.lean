import BoundSql.Proofs.Document.Text
import BoundSql.Proofs.Number.IntegerText
import BoundSql.Proofs.Postgres.Numeric

/-! # Integers under server types
What a server reads where an integer was sent, as an integer, as text or as a boolean.
* **`ServerType.Holds`** — an integer is in the range of a type.
* **`ServerType.number?`** — the number that bytes state in the format of a type.
* **`readSignedBytes_toString`** — the text of an integer is sent as the integer, or refused for the
  same cause.
* **`integers_exact`** — no integer is cut or wrapped, whichever way it is sent. -/

namespace BoundSql.Postgres

open Number (Decimal)

/-! ### Types and ranges -/

namespace ServerType

/-- Whether a type holds integers, or their texts, as they are. -/
def IsExact (type : ServerType) : Prop :=
  type ∈ [int2, int4, int8, oid, numeric] ∨ type.isText = true

/-- Whether an integer is in the range of a type that holds integers. -/
def Holds (type : ServerType) (n : ℤ) : Prop :=
  match type with
  | int2 => -2 ^ 15 ≤ n ∧ n < 2 ^ 15
  | int4 => -2 ^ 31 ≤ n ∧ n < 2 ^ 31
  | int8 => -2 ^ 63 ≤ n ∧ n < 2 ^ 63
  | oid => 0 ≤ n ∧ n < 2 ^ 32
  | _ => True

/-- The number of bytes at a width. -/
def integer? (width : ℕ) (read : Bytes → ℤ) (bs : Bytes) : Option ℚ :=
  if bs.length = width then some (read bs) else none

/-- The number that a text writes in decimal. -/
def decimal? (s : String) : Option ℚ :=
  let d := Decimal.cut s.toList
  if Numeric.isDecimal d.whole d.fraction then some d.value else none

/-- The number that bytes state in the format of a type. -/
def number? (type : ServerType) (bs : Bytes) : Option ℚ :=
  match type with
  | int2 => integer? 2 Number.ofBigEndianSigned bs
  | int4 => integer? 4 Number.ofBigEndianSigned bs
  | int8 => integer? 8 Number.ofBigEndianSigned bs
  | oid => integer? 4 (fun bs => Number.ofBigEndian bs) bs
  | numeric => (Numeric.ofBytes? bs).map Numeric.value
  | type => if type.isText then (bytesText? bs).bind decimal? else none

/-- The text of an integer writes the integer. -/
theorem decimal?_toString (n : ℤ) : decimal? (toString n) = some (n : ℚ) := by
  obtain ⟨hcut, hdecimal⟩ := Decimal.writtenAs_iff.1 (Numeric.writtenAs_numeralOfInt n)
  rw [decimal?, ← hcut, if_pos hdecimal, Numeric.value_numeralOfInt]

end ServerType

/-! ### Bounded integers -/

/-- An integer is sent exactly if it lies between the bounds. -/
theorem boundedBytes_eq_ok_iff {width : ℕ} {low high n : ℤ} {bs : Bytes} :
    boundedBytes width low high n = .ok bs ↔
      (low ≤ n ∧ n ≤ high) ∧ bs = Number.bigEndian width n := by
  rw [boundedBytes]
  split
  · exact ⟨fun h => (by cases h), fun h => absurd h.1.1 (by omega)⟩
  · split
    · exact ⟨fun h => (by cases h), fun h => absurd h.1.2 (by omega)⟩
    · exact ⟨fun h => ⟨⟨by omega, by omega⟩, (Except.ok.inj h).symm⟩, fun h => by rw [h.2]⟩

/-- A signed integer is sent exactly if it fits the width. -/
theorem signedBytes_eq_ok_iff {width : ℕ} {n : ℤ} {bs : Bytes} :
    signedBytes width n = .ok bs ↔
      (-2 ^ (8 * width - 1) ≤ n ∧ n < 2 ^ (8 * width - 1)) ∧ bs = Number.bigEndian width n := by
  rw [signedBytes, boundedBytes_eq_ok_iff, Nat.pow_eq, Int.le_sub_one_iff]
  push_cast
  exact Iff.rfl

/-- An unsigned integer is sent exactly if it fits the width. -/
theorem unsignedBytes_eq_ok_iff {width : ℕ} {n : ℤ} {bs : Bytes} :
    unsignedBytes width n = .ok bs ↔
      (0 ≤ n ∧ n < 256 ^ width) ∧ bs = Number.bigEndian width n := by
  rw [unsignedBytes, boundedBytes_eq_ok_iff, Nat.pow_eq, Int.le_sub_one_iff]
  push_cast
  exact Iff.rfl

/-- A signed integer that fits the width is read back. -/
theorem integer?_of_signed {width : ℕ} (hwidth : 0 < width) {n : ℤ}
    (h : -2 ^ (8 * width - 1) ≤ n ∧ n < 2 ^ (8 * width - 1)) :
    ServerType.integer? width Number.ofBigEndianSigned (Number.bigEndian width n) =
      some (n : ℚ) := by
  have hpow : (256 : ℤ) ^ width = 2 * 2 ^ (8 * width - 1) := by
    rw [← pow_succ', show 8 * width - 1 + 1 = 8 * width by omega, pow_mul]
    norm_num
  rw [ServerType.integer?, if_pos (Number.length_bigEndian width n),
    Number.ofBigEndianSigned_bigEndian (by push_cast; omega) (by push_cast; omega)]

/-- An unsigned integer that fits the width is read back. -/
theorem integer?_of_unsigned {width : ℕ} {n : ℤ} (h : 0 ≤ n ∧ n < 256 ^ width) :
    ServerType.integer? width (fun bs => Number.ofBigEndian bs) (Number.bigEndian width n) =
      some (n : ℚ) := by
  obtain ⟨m, rfl⟩ := Int.eq_ofNat_of_zero_le h.1
  have hm : m < 256 ^ width := by exact_mod_cast h.2
  rw [ServerType.integer?, if_pos (Number.length_bigEndian width m),
    Number.ofBigEndian_bigEndian hm]

/-! ### Integers as integers -/

/-- The bytes of an integer's text are those of the integer's decimal text. -/
theorem encodeInt_of_isText {type : ServerType} (h : type.isText = true) (n : ℤ) :
    encodeInt n type = .ok (textBytes (toString n)) := by
  cases type with
  | text | varchar | bpchar | name | unknown | citext => rfl
  | _ => cases h

/-- Where bytes are sent exactly under a condition, and are read back then. -/
theorem sent_and_read {P : Prop} {sent : Except EncodeError Bytes} {bytes : Bytes}
    {read : Bytes → Option ℚ} {q : ℚ} (hsent : ∀ bs, sent = .ok bs ↔ P ∧ bs = bytes)
    (hread : P → read bytes = some q) :
    ((∃ bs, sent = .ok bs) ↔ P) ∧ ∀ bs, sent = .ok bs → read bs = some q := by
  refine ⟨⟨?_, fun h => ⟨_, (hsent _).2 ⟨h, rfl⟩⟩⟩, fun bs h => ?_⟩
  · rintro ⟨bs, h⟩
    exact ((hsent bs).1 h).1
  · obtain ⟨hp, rfl⟩ := (hsent bs).1 h
    exact hread hp

/-- The bytes of an integer's text state the integer under a text type. -/
theorem number?_toString {type : ServerType} (h : type.isText = true) (n : ℤ) :
    type.number? (textBytes (toString n)) = some (n : ℚ) := by
  have hnumber : type.number? (textBytes (toString n)) =
      (bytesText? (textBytes (toString n))).bind ServerType.decimal? := by
    cases type with
    | text | varchar | bpchar | name | unknown | citext => rfl
    | _ => cases h
  rw [hnumber, bytesText?_textBytes, Option.bind_some, ServerType.decimal?_toString]

/-- An integer is sent exactly if it is in the range of the type, and then it is read back. -/
theorem encodeInt_spec {type : ServerType} (htype : type.IsExact) (v : Int64) :
    ((∃ bs, encodeInt v.toInt type = .ok bs) ↔ type.Holds v.toInt) ∧
      ∀ bs, encodeInt v.toInt type = .ok bs → type.number? bs = some (v.toInt : ℚ) := by
  have hsigned : ∀ width, 0 < width →
      ((∃ bs, signedBytes width v.toInt = .ok bs) ↔
        -2 ^ (8 * width - 1) ≤ v.toInt ∧ v.toInt < 2 ^ (8 * width - 1)) ∧
      ∀ bs, signedBytes width v.toInt = .ok bs →
        ServerType.integer? width Number.ofBigEndianSigned bs = some (v.toInt : ℚ) :=
    fun width hwidth => sent_and_read (fun _ => signedBytes_eq_ok_iff) (integer?_of_signed hwidth)
  rcases htype with hnumber | htext
  · simp only [List.mem_cons, List.not_mem_nil, or_false] at hnumber
    rcases hnumber with rfl | rfl | rfl | rfl | rfl
    · exact hsigned 2 (by norm_num)
    · exact hsigned 4 (by norm_num)
    · exact hsigned 8 (by norm_num)
    · exact sent_and_read (fun _ => unsignedBytes_eq_ok_iff) fun hfits => integer?_of_unsigned hfits
    · -- The numeric type has no range: every integer is sent in its base-10000 form.
      obtain ⟨hbytes, hread⟩ := numericBytes_of_writtenAs v
      have hsent := hbytes _ (Numeric.writtenAs_numeralOfInt v.toInt)
      refine ⟨⟨fun _ => trivial, fun _ => ⟨_, hsent⟩⟩, fun bs h => ?_⟩
      obtain rfl := Except.ok.inj (hsent.symm.trans h)
      rw [ServerType.number?, hread, Option.map_some, Numeric.value_ofDecimal,
        Numeric.value_numeralOfInt]
  · have hholds : type.Holds v.toInt := by
      cases type with
      | text | varchar | bpchar | name | unknown | citext => trivial
      | _ => cases htext
    rw [encodeInt_of_isText htext]
    exact ⟨⟨fun _ => hholds, fun _ => ⟨_, rfl⟩⟩, fun bs h =>
      Except.ok.inj h ▸ number?_toString htext v.toInt⟩

/-! ### Integers as text -/

/-- The text of an integer is sent as the integer, or refused for the same cause. -/
theorem readSignedBytes_toString (width : ℕ) (n : ℤ) :
    readSignedBytes width (toString n).toList = signedBytes width n := by
  have hpos : 0 < Nat.pow 2 (8 * width - 1) := Nat.pow_pos (by norm_num)
  have hhigh : ((Nat.pow 2 (8 * width - 1) - 1 : ℕ) : ℤ) = (Nat.pow 2 (8 * width - 1) : ℕ) - 1 := by
    omega
  rw [readSignedBytes, Number.readSigned, Number.readInteger_toString hpos.ne', signedBytes,
    boundedBytes, hhigh]
  by_cases hlow : n < -(Nat.pow 2 (8 * width - 1) : ℕ)
  · rw [if_pos hlow, if_pos hlow]
  · rw [if_neg hlow, if_neg hlow]
    by_cases hlarge : (Nat.pow 2 (8 * width - 1) : ℕ) - 1 < n
    · rw [if_pos hlarge, if_pos hlarge]
    · rw [if_neg hlarge, if_neg hlarge]

/-- A plus in front of a number that is not negative changes nothing. -/
theorem readSignedBytes_plus_toString (width : ℕ) {n : ℤ} (hn : 0 ≤ n) :
    readSignedBytes width ('+' :: (toString n).toList) = signedBytes width n := by
  rw [← readSignedBytes_toString, readSignedBytes, Number.readSigned,
    Number.readInteger_plus_toString hn]
  rfl

/-- What is cut off the text of an integer is the white space around it. -/
theorem trim_integer {left sign right : String} {n : ℤ}
    (hblank : ∀ c ∈ left.toList ++ right.toList, Text.isBlank c = true)
    (hsign : sign = "" ∨ sign = "+") :
    Text.trim (left ++ sign ++ toString n ++ right).toList =
      sign.toList ++ (toString n).toList := by
  have hnone : ∀ c ∈ sign.toList ++ (toString n).toList, Text.isBlank c = false := by
    intro c hc
    rcases List.mem_append.1 hc with hc | hc
    · rcases hsign with rfl | rfl
      · cases hc
      · obtain rfl := List.mem_singleton.1 hc
        decide
    · exact Number.isBlank_of_mem_toString n c hc
  rw [String.toList_append, String.toList_append, String.toList_append,
    List.append_assoc left.toList]
  exact Text.trim_append (fun c hc => hblank c (List.mem_append_left _ hc))
    (fun c hc => hblank c (List.mem_append_right _ hc))
    (fun c hc => hnone c (List.mem_of_mem_head? hc)) fun c hc => hnone c (List.mem_of_getLast? hc)

/-- The text of an integer is sent as the integer, with white space around it or without. -/
theorem encodeText_integer {type : ServerType} (htype : type ∈ [.int2, .int4, .int8, .numeric])
    (v : Int64) {left sign right : String}
    (hblank : ∀ c ∈ left.toList ++ right.toList, Text.isBlank c = true)
    (hsign : sign = "" ∨ sign = "+" ∧ 0 ≤ v.toInt) :
    encodeText (left ++ sign ++ toString v.toInt ++ right) type = encodeInt v.toInt type := by
  have htrim := trim_integer (n := v.toInt) hblank (hsign.imp_right And.left)
  -- What is left of the text is its sign and the digits, and only those are read.
  have hsigned : ∀ width, readSignedBytes width (sign.toList ++ (toString v.toInt).toList) =
      signedBytes width v.toInt := by
    intro width
    rcases hsign with rfl | ⟨rfl, hpos⟩
    · exact readSignedBytes_toString width v.toInt
    · exact readSignedBytes_plus_toString width hpos
  have hnumeric : numericBytes (sign.toList ++ (toString v.toInt).toList) =
      numericBytes (toString v.toInt).toList := by
    obtain ⟨hbytes, -⟩ := numericBytes_of_writtenAs v
    rw [hbytes _ (Numeric.writtenAs_numeralOfInt v.toInt)]
    rcases hsign with rfl | ⟨rfl, hpos⟩
    · exact hbytes _ (Numeric.writtenAs_numeralOfInt v.toInt)
    · exact hbytes _ (Numeric.writtenAs_plus_numeralOfInt hpos)
  simp only [List.mem_cons, List.not_mem_nil, or_false] at htype
  rcases htype with rfl | rfl | rfl | rfl
  · rw [encodeText, htrim]
    exact hsigned 2
  · rw [encodeText, htrim]
    exact hsigned 4
  · rw [encodeText, htrim]
    exact hsigned 8
  · rw [encodeText, htrim]
    exact hnumeric

/-! ### Booleans -/

/-- A boolean is sent as zero or one. -/
theorem encodeBool_eq {type : ServerType}
    (htype : type ∈ [.int2, .int4, .int8, .bool] ∨ type.isText = true) (b : Bool) :
    encodeBool b type = encodeInt (b.toNat : ℤ) type ∧ ∃ bs, encodeBool b type = .ok bs := by
  rcases htype with hnumber | htext
  · simp only [List.mem_cons, List.not_mem_nil, or_false] at hnumber
    rcases hnumber with rfl | rfl | rfl | rfl
    · exact ⟨by cases b <;> rfl, _, rfl⟩
    · exact ⟨by cases b <;> rfl, _, rfl⟩
    · exact ⟨by cases b <;> rfl, _, rfl⟩
    · exact ⟨by cases b <;> rfl, _, rfl⟩
  · have hdigit : encodeBool b type = .ok (textBytes (WireValue.digit b)) := by
      cases type with
      | text | varchar | bpchar | name | unknown | citext => rfl
      | _ => cases htext
    rw [hdigit, encodeInt_of_isText htext]
    exact ⟨by cases b <;> rfl, _, rfl⟩

/-! ### Whichever way an integer is sent -/

/-- No integer is cut or wrapped. Under integer types, the exact numeric type and text types, a
64-bit integer is sent exactly if it is in the range of the type, and the server reads the same
number. The text of the integer, in white space and with a plus where it is not negative, is sent
under the integer types and the numeric one as the integer is, or refused as it is; and a boolean is
sent under the integer types, as a boolean and as text as the integer zero or one is. -/
theorem integers_exact :
    (∀ (v : Int64) (type : ServerType), type.IsExact →
      ((∃ sent, encode (.int v) type = .ok sent) ↔ type.Holds v.toInt) ∧
      ∀ sent, encode (.int v) type = .ok sent →
        ∃ bs, sent = some bs ∧ type.number? bs = some (v.toInt : ℚ)) ∧
    (∀ (v : Int64) (type : ServerType), type ∈ [.int2, .int4, .int8, .numeric] →
      ∀ left sign right : String,
        (∀ c ∈ left.toList ++ right.toList, Text.isBlank c = true) →
        (sign = "" ∨ sign = "+" ∧ 0 ≤ v.toInt) →
        encode (.str (left ++ sign ++ toString v.toInt ++ right)) type = encode (.int v) type) ∧
    ∀ (b : Bool) (type : ServerType),
      type ∈ [.int2, .int4, .int8, .bool] ∨ type.isText = true →
      encode (.bool b) type = encode (.int (if b then 1 else 0)) type ∧
        ∃ bs, encode (.bool b) type = .ok (some bs) := by
  refine ⟨fun v type htype => ?_, fun v type htype left sign right hblank hsign => ?_,
    fun b type htype => ?_⟩
  · obtain ⟨hsent, hread⟩ := encodeInt_spec htype v
    have hsome : ∀ sent, encode (.int v) type = .ok sent ↔
        ∃ bs, encodeInt v.toInt type = .ok bs ∧ sent = some bs := by
      intro sent
      rw [encode]
      cases encodeInt v.toInt type <;> simp [Except.map, eq_comm]
    refine ⟨⟨?_, fun h => ?_⟩, fun sent h => ?_⟩
    · rintro ⟨sent, h⟩
      obtain ⟨bs, hbs, -⟩ := (hsome sent).1 h
      exact hsent.1 ⟨bs, hbs⟩
    · obtain ⟨bs, hbs⟩ := hsent.2 h
      exact ⟨some bs, (hsome _).2 ⟨bs, hbs, rfl⟩⟩
    · obtain ⟨bs, hbs, rfl⟩ := (hsome sent).1 h
      exact ⟨bs, rfl, hread bs hbs⟩
  · rw [encode, encode, encodeText_integer htype v hblank hsign]
  · obtain ⟨heq, bs, hbs⟩ := encodeBool_eq htype b
    have hint : (if b then 1 else 0 : Int64).toInt = b.toNat := by cases b <;> rfl
    rw [encode, encode, hint, ← heq, hbs]
    exact ⟨rfl, bs, rfl⟩

/-- The text of 300, with a plus, under a type of two bytes, and the largest object identifier. -/
theorem integers_exact_three_hundred :
    encode (.str "\t+300 ") .int2 = .ok (some [1, 44]) ∧
      ServerType.int2.number? [1, 44] = some 300 ∧
      encode (.bool true) .text = encode (.int 1) .text ∧
      ∃ sent, encode (.int 4294967295) .oid = .ok sent := by
  obtain ⟨hint, htext, hbool⟩ := integers_exact
  have hsent : encode (.int 300) .int2 = .ok (some [1, 44]) := by decide
  refine ⟨?_, ?_, (hbool true .text (.inr rfl)).1, ?_⟩
  · have hblank : ∀ c ∈ "\t".toList ++ " ".toList, Text.isBlank c = true := by
      intro c hc
      rcases List.mem_append.1 hc with hc | hc <;> obtain rfl := List.mem_singleton.1 hc <;> decide
    have hwritten : "\t" ++ "+" ++ toString (300 : Int64).toInt ++ " " = "\t+300 " := by decide
    have hplus := htext 300 .int2 (by decide) "\t" "+" " " hblank (.inr ⟨rfl, by decide⟩)
    rw [hwritten] at hplus
    exact hplus.trans hsent
  · obtain ⟨bs, hbs, hread⟩ := (hint 300 .int2 (.inl (by decide))).2 _ hsent
    obtain rfl := Option.some.inj hbs
    exact hread
  · exact (hint 4294967295 .oid (.inl (by decide))).1.2 ⟨by decide, by decide⟩

end BoundSql.Postgres

import BoundSql.Document.Basic

/-! # Documents are read back
* **`Document.WellFormed`** — a document whose numbers and strings are written as such.
* **`Document.readValue_write`** — a well-formed document in front of what may follow it is read as
  itself.
* **`Document.read_write`** — the bytes of a well-formed document are read as that document. -/

namespace BoundSql.Document

/-! ### Numbers and strings -/

/-- Whether a byte may go on with a number. -/
def continuesNumber (b : UInt8) : Bool :=
  isDigitByte b || b == byte '.' || b == byte 'e' || b == byte 'E'

/-- Whether bytes end a number in front of them. -/
def EndsNumber (rest : Bytes) : Prop := ∀ b, rest.head? = some b → continuesNumber b = false

/-- Whether bytes are a number, in front of all that ends one. -/
def IsNumber (text : Bytes) : Prop :=
  ∀ rest, EndsNumber rest → scanNumber (text ++ rest) = some (text, rest)

/-- Whether bytes can stand between the quotes of a string. -/
def IsRaw (raw : Bytes) : Prop := ∀ rest, scanString (raw ++ byte '"' :: rest) = some (raw, rest)

theorem endsNumber_nil : EndsNumber [] := by
  intro b hb
  cases hb

theorem endsNumber_cons {b : UInt8} (h : continuesNumber b = false) (rest : Bytes) :
    EndsNumber (b :: rest) := by
  intro c hc
  obtain rfl := Option.some.inj hc
  exact h

/-- What ends a number has neither a digit nor a fraction nor an exponent in front. -/
theorem EndsNumber.scan {rest : Bytes} (h : EndsNumber rest) :
    rest.takeWhile isDigitByte = [] ∧ rest.dropWhile isDigitByte = rest ∧
      scanFraction rest = some ([], rest) ∧ scanExponent rest = some ([], rest) := by
  cases rest with
  | nil => exact ⟨rfl, rfl, rfl, rfl⟩
  | cons b rest =>
    have hb := h b rfl
    simp only [continuesNumber, Bool.or_eq_false_iff, beq_eq_false_iff_ne] at hb
    obtain ⟨⟨⟨hdigit, hpoint⟩, hlower⟩, hupper⟩ := hb
    refine ⟨List.takeWhile_cons_of_neg (by simp [hdigit]),
      List.dropWhile_cons_of_neg (by simp [hdigit]), ?_, ?_⟩
    · rw [scanFraction, if_neg hpoint]
    · rw [scanExponent.eq_def]
      exact if_neg fun he => he.elim hlower hupper

/-- Digits that do not begin with a zero are a number. -/
theorem isNumber_digits {b : UInt8} {bs : Bytes} (hdigits : ∀ c ∈ b :: bs, isDigitByte c = true)
    (hzero : b ≠ byte '0') : IsNumber (b :: bs) := by
  intro rest hrest
  obtain ⟨htake, hdrop, hfraction, hexponent⟩ := hrest.scan
  have hminus : b ≠ byte '-' := by
    rintro rfl
    exact absurd (hdigits _ List.mem_cons_self) (by decide)
  -- The digits run up to `rest`, and what ends a number adds no fraction and no exponent to them.
  have hrun : scanDigits (b :: bs ++ rest) = some (b :: bs, rest) := by
    rw [scanDigits, List.takeWhile_append_of_pos hdigits, List.dropWhile_append_of_pos hdigits,
      htake, hdrop, List.append_nil]
  have hwhole : scanWhole (b :: bs ++ rest) = some (b :: bs, rest) := by
    rw [← hrun, List.cons_append, scanWhole, if_neg hzero]
  have hmagnitude : scanMagnitude (b :: bs ++ rest) = some (b :: bs, rest) := by
    simp only [scanMagnitude, hwhole, Option.bind_some, hfraction, hexponent, Option.map_some,
      List.append_nil]
  rw [← hmagnitude, List.cons_append, scanNumber, if_neg hminus]

/-- A number begins with a minus or a digit. -/
theorem IsNumber.exists_cons {text : Bytes} (h : IsNumber text) :
    ∃ b bs, text = b :: bs ∧ (b = byte '-' ∨ isDigitByte b = true) := by
  have hscan := h [] endsNumber_nil
  rw [List.append_nil] at hscan
  cases text with
  | nil => cases hscan
  | cons b bs =>
    refine ⟨b, bs, rfl, ?_⟩
    rw [scanNumber] at hscan
    by_cases hminus : b = byte '-'
    · exact .inl hminus
    · right
      rw [if_neg hminus, scanMagnitude] at hscan
      by_cases hzero : b = byte '0'
      · rw [hzero]
        decide
      · by_cases hdigit : isDigitByte b = true
        · exact hdigit
        · rw [scanWhole, if_neg hzero, scanDigits, List.takeWhile_cons_of_neg hdigit] at hscan
          cases hscan

/-! ### Documents -/

mutual

/-- Whether the numbers and strings of a document are written as such. -/
def WellFormed : Document → Prop
  | null => True
  | bool _ => True
  | number text => IsNumber text
  | string raw => IsRaw raw
  | list items => AllWellFormed items
  | object fields => FieldsWellFormed fields

/-- Whether those of each item of a list are. -/
def AllWellFormed : List Document → Prop
  | [] => True
  | d :: ds => d.WellFormed ∧ AllWellFormed ds

/-- Whether those of each field of an object are. -/
def FieldsWellFormed : List (Bytes × Document) → Prop
  | [] => True
  | (name, d) :: fields => IsRaw name ∧ d.WellFormed ∧ FieldsWellFormed fields

end

/-- Whether a byte begins neither a blank nor the end of a list. -/
def beginsValue (b : UInt8) : Bool := !isBlankByte b && b != byte ']'

theorem skipBlanks_cons {b : UInt8} (h : isBlankByte b = false) (bs : Bytes) :
    skipBlanks (b :: bs) = b :: bs := by
  rw [skipBlanks, List.dropWhile_cons_of_neg (by simp [h])]

/-- The minus and the digits begin no other kind of document. -/
theorem beginsNumber {b : UInt8} (h : b = byte '-' ∨ isDigitByte b = true) :
    beginsValue b = true ∧ b ≠ byte '"' ∧ b ≠ byte '[' ∧ b ≠ 0x7B ∧ b ≠ byte 'n' ∧ b ≠ byte 't' ∧
      b ≠ byte 'f' := by
  rcases h with rfl | h
  · decide
  · simp only [isDigitByte, Bool.and_eq_true, decide_eq_true_eq, UInt8.le_iff_toNat_le] at h
    have hne : ∀ c : UInt8, c.toNat < 0x30 ∨ 0x39 < c.toNat → b ≠ c := by
      rintro c hc rfl
      have h₁ : (0x30 : UInt8).toNat = 0x30 := rfl
      have h₂ : (0x39 : UInt8).toNat = 0x39 := rfl
      omega
    refine ⟨?_, hne _ (by decide), hne _ (by decide), hne _ (by decide), hne _ (by decide),
      hne _ (by decide), hne _ (by decide)⟩
    simp [beginsValue, isBlankByte, hne 0x20 (by decide), hne 0x0A (by decide),
      hne 0x0D (by decide), hne 0x09 (by decide), hne (byte ']') (by decide)]

/-- What a document begins with. -/
theorem WellFormed.exists_cons {d : Document} (h : d.WellFormed) :
    ∃ b bs, d.write = b :: bs ∧ beginsValue b = true := by
  cases d with
  | null => exact ⟨_, _, rfl, by decide⟩
  | bool b => cases b <;> exact ⟨_, _, rfl, by decide⟩
  | number text =>
    rw [WellFormed] at h
    obtain ⟨b, bs, rfl, hb⟩ := h.exists_cons
    exact ⟨b, bs, by rw [write], (beginsNumber hb).1⟩
  | string raw => exact ⟨_, _, by rw [write, inQuotes], by decide⟩
  | list items => exact ⟨_, _, by rw [write], by decide⟩
  | object fields => exact ⟨_, _, by rw [write], by decide⟩

/-! ### Steps of reading -/

/-- A blank does not stand in front of a value. -/
theorem isBlankByte_of_beginsValue {b : UInt8} (h : beginsValue b = true) :
    isBlankByte b = false := by
  rw [beginsValue, Bool.and_eq_true] at h
  simpa using h.1

/-- A number is read as such. -/
theorem readValue_number {text : Bytes} (h : IsNumber text) (steps : Nat) {rest : Bytes}
    (hrest : EndsNumber rest) :
    readValue (steps + 1) (text ++ rest) = some (.number text, rest) := by
  have hscan := h rest hrest
  obtain ⟨b, bs, rfl, hb⟩ := h.exists_cons
  obtain ⟨hbegins, hquote, hbracket, hbrace, hn, ht, hf⟩ := beginsNumber hb
  rw [List.cons_append] at hscan ⊢
  rw [readValue, skipBlanks_cons (isBlankByte_of_beginsValue hbegins)]
  simp only [if_neg hquote, if_neg hbracket, if_neg hbrace, if_neg hn, if_neg ht, if_neg hf, hscan,
    Option.map_some]

/-- A string is read as such. -/
theorem readValue_string {raw : Bytes} (h : IsRaw raw) (steps : Nat) (rest : Bytes) :
    readValue (steps + 1) (inQuotes raw ++ rest) = some (.string raw, rest) := by
  have hblank : isBlankByte (byte '"') = false := by decide
  rw [inQuotes, List.cons_append, List.append_assoc, List.singleton_append, readValue,
    skipBlanks_cons hblank]
  simp only [if_true, h rest, Option.map_some]

/-- An opening bracket in front of the items of a list begins the list. -/
theorem readValue_bracket {steps : Nat} {b : UInt8} {bs rest : Bytes} {items : List Document}
    (hb : beginsValue b = true) (h : readItems steps (b :: bs) = some (items, rest)) :
    readValue (steps + 1) (byte '[' :: b :: bs) = some (.list items, rest) := by
  have hblank : isBlankByte (byte '[') = false := by decide
  have hquote : byte '[' ≠ byte '"' := by decide
  have hend : b ≠ byte ']' := by
    rintro rfl
    exact absurd hb (by decide)
  rw [readValue, skipBlanks_cons hblank]
  simp only [if_neg hquote, if_true, skipBlanks_cons (isBlankByte_of_beginsValue hb), if_neg hend,
    h, Option.map_some]

/-- An opening brace in front of the fields of an object begins the object. -/
theorem readValue_brace {steps : Nat} {bs rest : Bytes} {fields : List (Bytes × Document)}
    (h : readFields steps (byte '"' :: bs) = some (fields, rest)) :
    readValue (steps + 1) (0x7B :: byte '"' :: bs) = some (.object fields, rest) := by
  have hblank : isBlankByte 0x7B = false := by decide
  have hquote : (0x7B : UInt8) ≠ byte '"' := by decide
  have hbracket : (0x7B : UInt8) ≠ byte '[' := by decide
  have hblank' : isBlankByte (byte '"') = false := by decide
  have hend : byte '"' ≠ 0x7D := by decide
  rw [readValue, skipBlanks_cons hblank]
  simp only [if_neg hquote, if_neg hbracket, if_true, skipBlanks_cons hblank', if_neg hend, h,
    Option.map_some]

/-- The item before the closing bracket is the last. -/
theorem readItems_last {steps : Nat} {bs rest : Bytes} {d : Document}
    (h : readValue steps bs = some (d, byte ']' :: rest)) :
    readItems (steps + 1) bs = some ([d], rest) := by
  have hblank : isBlankByte (byte ']') = false := by decide
  rw [readItems, h]
  simp only [skipBlanks_cons hblank, if_true]

/-- After a comma the items go on. -/
theorem readItems_comma {steps : Nat} {bs after rest : Bytes} {d : Document} {ds : List Document}
    (h : readValue steps bs = some (d, byte ',' :: after))
    (hitems : readItems steps after = some (ds, rest)) :
    readItems (steps + 1) bs = some (d :: ds, rest) := by
  have hblank : isBlankByte (byte ',') = false := by decide
  have hend : byte ',' ≠ byte ']' := by decide
  rw [readItems, h]
  simp only [skipBlanks_cons hblank, if_neg hend, if_true, hitems, Option.map_some]

/-- A field, read up to the byte that follows its document. -/
theorem readFields_field {steps : Nat} {name bs after : Bytes} {c : UInt8} {d : Document}
    (hname : IsRaw name) (h : readValue steps bs = some (d, c :: after))
    (hblank : isBlankByte c = false) :
    readFields (steps + 1) (inQuotes name ++ byte ':' :: bs) =
      if c = 0x7D then some ([(name, d)], after)
      else if c = byte ',' then (readFields steps after).map fun r => ((name, d) :: r.1, r.2)
      else none := by
  have hquote : isBlankByte (byte '"') = false := by decide
  have hcolon : isBlankByte (byte ':') = false := by decide
  rw [inQuotes, List.cons_append, List.append_assoc, List.singleton_append, readFields,
    skipBlanks_cons hquote]
  simp only [ne_eq, not_true_eq_false, if_false, hname (byte ':' :: bs), skipBlanks_cons hcolon, h,
    skipBlanks_cons hblank]

/-! ### Whole documents -/

-- Reading takes a step for every value, every item and every field. Each of them has a byte of its
-- own, so two steps for every byte are enough, with one more for the items of a list.

/-- Separated byte strings begin with what the first of them begins with. -/
theorem exists_separated_cons (separator b : UInt8) (bs : Bytes) (rest : List Bytes) :
    ∃ cs, separated separator ((b :: bs) :: rest) = b :: cs := by
  cases rest with
  | nil => exact ⟨bs, rfl⟩
  | cons c rest => exact ⟨bs ++ separator :: separated separator (c :: rest), rfl⟩

/-- The first of several items stands before a comma and the others. -/
theorem separated_writeItems_cons (separator : UInt8) (d e : Document) (ds : List Document) :
    separated separator (writeItems (d :: e :: ds)) =
      d.write ++ separator :: separated separator (writeItems (e :: ds)) := by
  rw [writeItems, writeItems, separated]
  rintro ⟨⟩

/-- The first of several fields stands before a comma and the others. -/
theorem separated_writeFields_cons (separator : UInt8) (name : Bytes) (d : Document)
    (f : Bytes × Document) (fields : List (Bytes × Document)) :
    separated separator (writeFields ((name, d) :: f :: fields)) =
      inQuotes name ++ byte ':' :: d.write ++
        separator :: separated separator (writeFields (f :: fields)) := by
  rw [writeFields, writeFields, separated]
  rintro ⟨⟩

mutual

/-- A well-formed document in front of what ends a number is read as itself. -/
theorem readValue_write : ∀ (steps : Nat) (d : Document) (rest : Bytes), d.WellFormed →
    2 * d.write.length ≤ steps → EndsNumber rest →
    readValue steps (d.write ++ rest) = some (d, rest)
  | 0, d, _, h, hsteps, _ => by
    -- Every document is written with a byte at least, so some steps are left.
    obtain ⟨b, bs, hwrite, -⟩ := h.exists_cons
    rw [hwrite, List.length_cons] at hsteps
    omega
  | _ + 1, null, _, _, _, _ => rfl
  | _ + 1, bool true, _, _, _, _ => rfl
  | _ + 1, bool false, _, _, _, _ => rfl
  | steps + 1, number text, rest, h, _, hrest => by
    rw [write]
    exact readValue_number h steps hrest
  | steps + 1, string raw, rest, h, _, _ => by
    rw [write]
    exact readValue_string h steps rest
  | _ + 1, list [], _, _, _, _ => rfl
  | steps + 1, list (d :: ds), rest, h, hsteps, _ => by
    rw [WellFormed, AllWellFormed] at h
    rw [write, List.length_cons, List.length_append, List.length_singleton] at hsteps
    have hitems := readItems_write steps d ds rest h.1 h.2 (by omega)
    -- The first item begins the list, so the list is not taken for an empty one.
    obtain ⟨b, bs, hb, hbegins⟩ := h.1.exists_cons
    obtain ⟨cs, hcs⟩ := exists_separated_cons (byte ',') b bs (writeItems ds)
    rw [← hb, ← writeItems] at hcs
    rw [write, List.cons_append, List.append_assoc, List.singleton_append]
    rw [hcs, List.cons_append] at hitems ⊢
    exact readValue_bracket hbegins hitems
  | _ + 1, object [], _, _, _, _ => rfl
  | steps + 1, object ((name, d) :: fields), rest, h, hsteps, _ => by
    rw [WellFormed, FieldsWellFormed] at h
    rw [write, List.length_cons, List.length_append, List.length_singleton] at hsteps
    have hfields := readFields_write steps name d fields rest h.1 h.2.1 h.2.2 (by omega)
    -- The first field begins with the quote of its name, so the object is not taken for an empty
    -- one.
    obtain ⟨cs, hcs⟩ : ∃ cs,
        separated (byte ',') (writeFields ((name, d) :: fields)) = byte '"' :: cs := by
      rw [writeFields, inQuotes, List.cons_append]
      exact exists_separated_cons _ _ _ _
    rw [write, List.cons_append, List.append_assoc, List.singleton_append]
    rw [hcs, List.cons_append] at hfields ⊢
    exact readValue_brace hfields

/-- The items of a list are read up to the closing bracket. -/
theorem readItems_write : ∀ (steps : Nat) (d : Document) (ds : List Document) (rest : Bytes),
    d.WellFormed → AllWellFormed ds →
    2 * (separated (byte ',') (writeItems (d :: ds))).length + 1 ≤ steps →
    readItems steps (separated (byte ',') (writeItems (d :: ds)) ++ byte ']' :: rest) =
      some (d :: ds, rest)
  | 0, _, _, _, _, _, hsteps => by omega
  | steps + 1, d, [], rest, hd, _, hsteps => by
    rw [writeItems, writeItems, separated] at hsteps ⊢
    exact readItems_last
      (readValue_write steps d _ hd (by omega) (endsNumber_cons (by decide) rest))
  | steps + 1, d, e :: ds, rest, hd, hds, hsteps => by
    rw [AllWellFormed] at hds
    rw [separated_writeItems_cons, List.length_append, List.length_cons] at hsteps
    rw [separated_writeItems_cons, List.append_assoc, List.cons_append]
    exact readItems_comma
      (readValue_write steps d _ hd (by omega) (endsNumber_cons (by decide) _))
      (readItems_write steps e ds rest hds.1 hds.2 (by omega))

/-- The fields of an object are read up to the closing brace. -/
theorem readFields_write : ∀ (steps : Nat) (name : Bytes) (d : Document)
    (fields : List (Bytes × Document)) (rest : Bytes),
    IsRaw name → d.WellFormed → FieldsWellFormed fields →
    2 * (separated (byte ',') (writeFields ((name, d) :: fields))).length + 1 ≤ steps →
    readFields steps (separated (byte ',') (writeFields ((name, d) :: fields)) ++ 0x7D :: rest) =
      some ((name, d) :: fields, rest)
  | 0, _, _, _, _, _, _, _, hsteps => by omega
  | steps + 1, name, d, [], rest, hname, hd, _, hsteps => by
    rw [writeFields, writeFields, separated] at hsteps ⊢
    rw [List.length_append, List.length_cons] at hsteps
    have hvalue := readValue_write steps d (0x7D :: rest) hd (by omega)
      (endsNumber_cons (by decide) rest)
    rw [List.append_assoc, List.cons_append, readFields_field hname hvalue (by decide), if_pos rfl]
  | steps + 1, name, d, (other, e) :: fields, rest, hname, hd, hfields, hsteps => by
    rw [FieldsWellFormed] at hfields
    rw [separated_writeFields_cons, List.length_append, List.length_append, List.length_cons,
      List.length_cons] at hsteps
    have hvalue := readValue_write steps d
      (byte ',' :: (separated (byte ',') (writeFields ((other, e) :: fields)) ++ 0x7D :: rest)) hd
      (by omega) (endsNumber_cons (by decide) _)
    have hrest := readFields_write steps other e fields rest hfields.1 hfields.2.1 hfields.2.2
      (by omega)
    rw [separated_writeFields_cons, List.append_assoc, List.append_assoc, List.cons_append,
      List.cons_append, readFields_field hname hvalue (by decide), if_neg (by decide), if_pos rfl,
      hrest, Option.map_some]

end

/-- The bytes of a well-formed document are read as that document. -/
theorem read_write {d : Document} (h : d.WellFormed) : read d.write = some d := by
  have hread := readValue_write (2 * d.write.length + 2) d [] h (by omega) endsNumber_nil
  rw [List.append_nil] at hread
  rw [read, hread]
  rfl

end BoundSql.Document

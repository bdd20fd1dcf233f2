import BoundSql.Proofs.Number.DecimalText
import BoundSql.Proofs.Template.Composed
import BoundSql.Time.Stamp
import Mathlib.Algebra.Order.Ring.Nat
import Mathlib.Tactic.SplitIfs

/-! # Time stamps are read back
* **`Time.readForm_stamp`** — a time stamp is read as the numbers of its moment.
* **`Date.dayNumber_mem`** — every day lies between the first and the last.
* **`Time.isStamp_stamp`** — the time stamp of every moment is one. -/

namespace BoundSql

namespace Time

/-! ### Digits -/

/-- Padding writes digits. -/
theorem isDigit_of_mem_padded {width n : Nat} {c : Char} (h : c ∈ padded width n) :
    c.isDigit = true := by
  rcases List.mem_append.1 h with h | h
  · rw [List.eq_of_mem_replicate h]
    rfl
  · exact Number.isDigit_of_mem_toDigits h

/-- The zeros in front of a number leave its value. -/
theorem digitsValue_padded (width n : Nat) : Number.digitsValue 0 (padded width n) = n := by
  rw [Number.digitsValue_eq_ofDigitChars, padded, Nat.ofDigitChars_append,
    Nat.ofDigitChars_replicate_zero, Nat.mul_zero, Nat.ofDigitChars_ten_toDigits]

/-- A number that fits its width is written in that width. -/
theorem length_padded {width n : Nat} (hwidth : 0 < width) (h : n < 10 ^ width) :
    (padded width n).length = width := by
  have hle := (Nat.length_toDigits_le_iff (by decide) hwidth).2 h
  rw [padded, List.length_append, List.length_replicate, Nat.sub_add_cancel hle]

/-- A padded number begins with a digit. -/
theorem exists_padded_eq_cons (width n : Nat) :
    ∃ c cs, padded width n = c :: cs ∧ c.isDigit = true := by
  have hne : padded width n ≠ [] := fun h => Nat.toDigits_ne_nil (List.append_eq_nil_iff.1 h).2
  obtain ⟨c, cs, h⟩ := List.exists_cons_of_ne_nil hne
  exact ⟨c, cs, h, isDigit_of_mem_padded (h ▸ List.mem_cons_self)⟩

/-- Digits in front of what the reader does not look at or does not count are read as their
value. -/
theorem readDigits_append {least most : Nat} {digits rest : List Char}
    (hdigits : ∀ c ∈ digits, c.isDigit = true) (hleast : least ≤ digits.length)
    (hmost : digits.length ≤ most)
    (hrest : (rest.take (most - digits.length)).takeWhile Char.isDigit = []) :
    readDigits least most (digits ++ rest) = some (Number.digitsValue 0 digits, rest) := by
  have hrun : ((digits ++ rest).take most).takeWhile Char.isDigit = digits := by
    rw [List.take_append, List.take_of_length_le hmost, List.takeWhile_append_of_pos hdigits, hrest,
      List.append_nil]
  rw [readDigits, hrun]
  simp only [if_neg (Nat.not_lt.2 hleast), List.drop_left]

/-- A number written in the most digits that are read is read as that number. -/
theorem readDigits_padded {least width n : Nat} (hwidth : 0 < width) (hleast : least ≤ width)
    (h : n < 10 ^ width) (rest : List Char) :
    readDigits least width (padded width n ++ rest) = some (n, rest) := by
  have hlength := length_padded hwidth h
  have hrest : (rest.take (width - (padded width n).length)).takeWhile Char.isDigit = [] := by
    rw [hlength, Nat.sub_self]
    rfl
  rw [readDigits_append (fun _ => isDigit_of_mem_padded) (hleast.trans_eq hlength.symm) hlength.le
    hrest, digitsValue_padded]

/-- A number in front of a hyphen is read as that number, in however many digits. -/
theorem readAllDigits_padded (width n : Nat) (rest : List Char) :
    readAllDigits (padded width n ++ '-' :: rest) = some (n, '-' :: rest) := by
  obtain ⟨c, cs, hpadded, -⟩ := exists_padded_eq_cons width n
  have hleast : 1 ≤ (padded width n).length := by
    rw [hpadded, List.length_cons]
    omega
  have hmost : (padded width n).length ≤ (padded width n ++ '-' :: rest).length := by
    rw [List.length_append]
    omega
  rw [readAllDigits, readDigits_append (fun _ => isDigit_of_mem_padded) hleast hmost,
    digitsValue_padded]
  rw [List.length_append, Nat.add_sub_cancel_left, List.length_cons, List.take_succ_cons]
  rfl

/-! ### Fields -/

/-- The signs and the separators of a time stamp are no blanks. -/
theorem trimStart_mark {c : Char} (hc : c = '-' ∨ c = '+' ∨ c = ':' ∨ c = 'Z') (cs : List Char) :
    Text.trimStart (c :: cs) = c :: cs := by
  refine List.dropWhile_cons_of_neg ?_
  rcases hc with rfl | rfl | rfl | rfl <;> decide

/-- A field that begins with a digit is read in its width. -/
theorem readNumber_cons (f : Field) {c : Char} (hc : c.isDigit = true) (cs : List Char) :
    readNumber f (c :: cs) = (readDigits 1 f.width (c :: cs)).map fun r => ((r.1 : Int), r.2) := by
  have hminus : c ≠ '-' := by
    rintro rfl
    exact absurd hc (by decide)
  have hplus : c ≠ '+' := by
    rintro rfl
    exact absurd hc (by decide)
  have htrim : Text.trimStart (c :: cs) = c :: cs :=
    List.dropWhile_cons_of_neg (by simp [Text.isBlank_of_isDigit hc])
  rw [readNumber, htrim]
  · intro rest _ h
    rw [htrim] at h
    exact hminus (List.cons.inj h).1
  · intro rest _ h
    rw [htrim] at h
    exact hplus (List.cons.inj h).1

/-- A number in the width of its field is read as that number. -/
theorem readNumber_padded (f : Field) {n : Nat} (h : n < 10 ^ f.width) (rest : List Char) :
    readNumber f (padded f.width n ++ rest) = some ((n : Int), rest) := by
  have hwidth : 1 ≤ f.width := by cases f <;> decide
  obtain ⟨c, cs, hpadded, hc⟩ := exists_padded_eq_cons f.width n
  have hread := readDigits_padded hwidth hwidth h rest
  rw [hpadded, List.cons_append] at hread ⊢
  rw [readNumber_cons f hc, hread, Option.map_some]

/-- A year in front of a hyphen is read as that year. -/
theorem readNumber_yearText (year : Int) (rest : List Char) :
    readNumber .year (yearText year ++ '-' :: rest) = some (year, '-' :: rest) := by
  rw [yearText]
  -- A year of four digits stands alone, any other behind its sign and in all its digits.
  split_ifs with hfour hsign
  · obtain ⟨n, rfl⟩ := Int.eq_ofNat_of_zero_le hfour.1
    have hn : n < 10 ^ Field.year.width := by
      rw [Field.width]
      omega
    exact readNumber_padded .year hn _
  · rw [List.cons_append, readNumber.eq_1 _ _ (trimStart_mark (by decide) _), readAllDigits_padded,
      Option.map_some]
    have : -(year.natAbs : Int) = year := by omega
    simp only [this]
  · rw [List.cons_append, readNumber.eq_2 _ _ (trimStart_mark (by decide) _), readAllDigits_padded,
      Option.map_some]
    have : (year.natAbs : Int) = year := by omega
    simp only [this]

/-- A fraction of some digits and the power of ten that is left to nine of them. -/
theorem readFraction_padded {width n : Nat} (hwidth : 0 < width) (hnine : width ≤ 9)
    (h : n < 10 ^ width) (rest : List Char) :
    readFraction ('.' :: padded width n ++ 'Z' :: rest) =
      some (n * 10 ^ (9 - width), 'Z' :: rest) := by
  have hlength := length_padded hwidth h
  have hrun : (padded width n ++ 'Z' :: rest).takeWhile Char.isDigit = padded width n := by
    rw [List.takeWhile_append_of_pos fun _ => isDigit_of_mem_padded,
      List.takeWhile_cons_of_neg (by decide), List.append_nil]
  have hsome : (padded width n).isEmpty = false := by
    rw [List.isEmpty_eq_false_iff, ← List.length_pos_iff, hlength]
    exact hwidth
  have hkept : (padded width n).take 9 = padded width n :=
    List.take_of_length_le (hlength.trans_le hnine)
  rw [List.cons_append, readFraction]
  simp only [hrun, hsome, Bool.false_eq_true, if_false, hkept, hlength, digitsValue_padded,
    Nat.pow_eq, List.drop_left' hlength]

/-- A fraction of a second in front of a `Z` is read as its nanoseconds. -/
theorem readFraction_fractionText {nanosecond : Nat} (h : nanosecond < 1000000000)
    (rest : List Char) :
    readFraction (fractionText nanosecond ++ 'Z' :: rest) = some (nanosecond, 'Z' :: rest) := by
  rw [fractionText]
  split_ifs with hzero hmilli hmicro
  · rw [hzero]
    rfl
  · rw [readFraction_padded (by decide) (by decide) (by omega)]
    have : nanosecond / 1000000 * 10 ^ (9 - 3) = nanosecond := by omega
    rw [this]
  · rw [readFraction_padded (by decide) (by decide) (by omega)]
    have : nanosecond / 1000 * 10 ^ (9 - 6) = nanosecond := by omega
    rw [this]
  · rw [readFraction_padded (by decide) (by decide) (by omega), Nat.sub_self, Nat.pow_zero,
      Nat.mul_one]

/-! ### Time stamps -/

/-- The numbers of a moment of universal time. -/
def partsOf (m : Moment) : Parts :=
  { year := m.date.year, month := m.date.month, day := m.date.day, hour := m.time.hour,
    minute := m.time.minute, second := m.time.second, nanosecond := m.time.nanosecond }

/-- No month has more than 31 days. -/
theorem daysInMonth_le (year : Int) (month : Nat) : daysInMonth year month ≤ 31 := by
  rw [daysInMonth]
  split_ifs <;> omega

/-- A number of two digits is read as that number. -/
theorem readNumber_padded_two {f : Field} (hf : f.width = 2) {n : Nat} (h : n < 100)
    (rest : List Char) : readNumber f (padded 2 n ++ rest) = some ((n : Int), rest) := by
  have hn : n < 10 ^ f.width := by
    rw [hf]
    omega
  have hread := readNumber_padded f hn rest
  rwa [hf] at hread

/-- A `Z` is no offset. -/
theorem readOffset_zulu (rest : List Char) :
    readOffset .relaxed ('Z' :: rest) = some (0, rest) := by
  have hutc : ¬ (('Z' :: rest).take 3).map Char.toUpper = ['U', 'T', 'C'] := by
    intro h
    rw [List.take_succ_cons, List.map_cons] at h
    exact absurd (List.cons.inj h).1 (by decide)
  have hzulu : Text.trimStart ('Z' :: rest) = 'Z' :: rest := trimStart_mark (by decide) rest
  simp only [readOffset, hzulu, hutc, and_false, if_false, true_or, if_true]

/-! ### Directives -/

section

variable {ds : List Directive} {p : Parts} {cs rest : List Char}

theorem readDirectives_number {f : Field} {n : Int} (h : readNumber f cs = some (n, rest)) :
    readDirectives (.number f :: ds) p cs = readDirectives ds (p.set f n) rest := by
  rw [readDirectives, Directive.read, h, Option.map_some, Option.bind_some]

theorem readDirectives_oneOf {options : List Char} {c : Char} (h : options.contains c = true) :
    readDirectives (.oneOf options :: ds) p (c :: cs) = readDirectives ds p cs := by
  simp only [readDirectives, Directive.read, h, if_true, Option.bind_some]

/-- Blanks that a form allows need not stand there. -/
theorem readDirectives_blanks (h : Text.trimStart cs = cs) :
    readDirectives (.blanks :: ds) p cs = readDirectives ds p cs := by
  rw [readDirectives, Directive.read, h, Option.bind_some]

theorem readDirectives_fraction {n : Nat} (h : readFraction cs = some (n, rest)) :
    readDirectives (.fraction :: ds) p cs = readDirectives ds { p with nanosecond := n } rest := by
  rw [readDirectives, Directive.read, h, Option.map_some, Option.bind_some]

theorem readDirectives_offset {form : OffsetForm} {n : Int}
    (h : readOffset form cs = some (n, rest)) :
    readDirectives (.offset form :: ds) p cs = readDirectives ds { p with offset := n } rest := by
  rw [readDirectives, Directive.read, h, Option.map_some, Option.bind_some]

end

/-- A time stamp is read as the numbers of its moment. -/
theorem readForm_stamp (m : Moment) : readForm relaxedForm (stamp m) = some (partsOf m) := by
  obtain ⟨⟨year, month, day, hyear, hmonth, hday⟩, ⟨hour, minute, second, nanosecond, htime⟩⟩ := m
  have hdays := daysInMonth_le year month
  have hmonth := readNumber_padded_two (f := .month) rfl (show month < 100 by omega)
  have hday := readNumber_padded_two (f := .day) rfl (show day < 100 by omega)
  have hhour := readNumber_padded_two (f := .hour) rfl (show hour < 100 by omega)
  have hminute := readNumber_padded_two (f := .minute) rfl (show minute < 100 by omega)
  have hsecond := readNumber_padded_two (f := .second) rfl (show second < 100 by omega)
  have hfraction := readFraction_fractionText htime.2.2.2 []
  have hhyphen : ∀ cs, Text.trimStart ('-' :: cs) = '-' :: cs := trimStart_mark (by decide)
  have hcolon : ∀ cs, Text.trimStart (':' :: cs) = ':' :: cs := trimStart_mark (by decide)
  simp only [stamp, List.append_assoc, List.cons_append]
  rw [readForm, relaxedForm]
  -- The date with the `T`, then the time with the offset.
  rw [readDirectives_number (readNumber_yearText year _), readDirectives_blanks (hhyphen _),
    readDirectives_oneOf (by decide), readDirectives_number (hmonth _),
    readDirectives_blanks (hhyphen _), readDirectives_oneOf (by decide),
    readDirectives_number (hday _), readDirectives_oneOf (by decide)]
  rw [readDirectives_number (hhour _), readDirectives_blanks (hcolon _),
    readDirectives_oneOf (by decide), readDirectives_number (hminute _),
    readDirectives_blanks (hcolon _), readDirectives_oneOf (by decide),
    readDirectives_number (hsecond _), readDirectives_fraction hfraction,
    readDirectives_blanks (trimStart_mark (by decide) _), readDirectives_offset (readOffset_zulu _),
    readDirectives_blanks rfl]
  rfl

end Time

/-! ### Days -/

/-- The date of a date's parts. -/
theorem Date.ofParts?_self (d : Date) : ofParts? d.year d.month d.day = some d := by
  rw [ofParts?, dif_pos d.year_mem, dif_pos d.month_mem, dif_pos d.day_mem]

/-- The time of a time's parts. -/
theorem TimeOfDay.ofParts?_self (t : TimeOfDay) :
    ofParts? t.hour t.minute t.second t.nanosecond = some t := by
  rw [ofParts?, dif_pos t.mem]

/-- Every day lies between the first and the last. -/
theorem Date.dayNumber_mem (d : Date) :
    first.dayNumber ≤ d.dayNumber ∧ d.dayNumber ≤ last.dayNumber := by
  obtain ⟨year, month, day, hyear, hmonth, hday⟩ := d
  have hdays := Time.daysInMonth_le year month
  have hfirst : first.dayNumber = -96465292 := by decide
  have hlast : last.dayNumber = 95026236 := by decide
  rw [minYear, maxYear] at hyear
  rw [hfirst, hlast, dayNumber]
  simp only
  split_ifs with hearly <;> constructor <;> omega

/-- A time, a leap second counted to the second before it, lies within the day. -/
theorem TimeOfDay.nanoseconds_mem (t : TimeOfDay) :
    t.leapNanoseconds ≤ t.nanoseconds ∧
      ((t.nanoseconds : Int) - t.leapNanoseconds) < nanosecondsPerDay := by
  obtain ⟨hour, minute, second, nanosecond, hmem⟩ := t
  simp only [leapNanoseconds, nanoseconds, nanosecondsPerDay]
  split_ifs with hleap <;> constructor <;> omega

namespace Time

/-- The numbers of a moment write its universal time. -/
theorem instant?_partsOf (m : Moment) : (partsOf m).instant? = some m.nanoseconds := by
  have hmoment : (partsOf m).moment? = some m := by
    rw [Parts.moment?, Parts.date?, Parts.time?, partsOf, Date.ofParts?_self,
      TimeOfDay.ofParts?_self]
    rfl
  -- A leap second is counted to the second before it, so it does not reach into the next day.
  have hday : (m.nanoseconds - m.time.leapNanoseconds) / nanosecondsPerDay = m.date.dayNumber := by
    obtain ⟨hleap, hlt⟩ := m.time.nanoseconds_mem
    rw [Moment.nanoseconds]
    rw [nanosecondsPerDay] at hlt ⊢
    omega
  have hoffset : (partsOf m).offset = 0 := rfl
  rw [Parts.instant?, hmoment, Option.bind_some]
  simp only [hoffset, Int.zero_mul, Int.sub_zero, hday]
  exact if_pos ⟨by decide, m.date.dayNumber_mem⟩

/-- The time stamp of a moment is one. -/
theorem isStamp_stamp (m : Moment) : isStamp (stamp m) = true := by
  rw [isStamp, readForm_stamp, Option.bind_some, instant?_partsOf, Option.isSome_some]

end Time

end BoundSql

import BoundSql.Time.Reading

/-! # Time stamps
**`stamp`** writes a moment of universal time with a `T` before the time and a `Z` after it;
**`isStamp`** says which texts count as time stamps when they are read. -/

namespace BoundSql.Time

/-- Digits of a number, with zeros in front up to a width. -/
def padded (width n : Nat) : List Char :=
  let digits := Nat.toDigits 10 n
  List.replicate (width - digits.length) '0' ++ digits

/-- A year: four digits, or a sign and at least four digits if four do not hold it. -/
def yearText (year : Int) : List Char :=
  if 0 ≤ year ∧ year ≤ 9999 then padded 4 year.toNat
  else (if year < 0 then '-' else '+') :: padded 4 year.natAbs

/-- A fraction of a second with three, six or nine digits, or none if it is zero. -/
def fractionText (nanosecond : Nat) : List Char :=
  if nanosecond = 0 then []
  else if nanosecond % 1000000 = 0 then '.' :: padded 3 (nanosecond / 1000000)
  else if nanosecond % 1000 = 0 then '.' :: padded 6 (nanosecond / 1000)
  else '.' :: padded 9 nanosecond

/-- A moment of universal time as a time stamp. -/
def stamp (m : Moment) : List Char :=
  yearText m.date.year ++ '-' :: padded 2 m.date.month ++ '-' :: padded 2 m.date.day ++
    'T' :: padded 2 m.time.hour ++ ':' :: padded 2 m.time.minute ++
    ':' :: padded 2 m.time.second ++ fractionText m.time.nanosecond ++ ['Z']

/-- Whether text is a time stamp. -/
def isStamp (cs : List Char) : Bool :=
  ((readForm relaxedForm cs).bind Parts.instant?).isSome

end BoundSql.Time

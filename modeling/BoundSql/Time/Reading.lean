import BoundSql.Number.DecimalText
import BoundSql.Text.Blank
import BoundSql.Time.Civil

/-! # Reading dates and times
A form of written time is a list of **`Directive`**s, and **`readForm`** reads text in that form.
The forms of dates (`dateForm`), times (`timeForms`) and moments (`momentForms`), and of moments
with an offset from universal time (`strictForm`, `spacedForm`, `relaxedForm`) are such lists.
**`readDate`**, **`readTime`**, **`readMoment`** and **`readInstant`** try the forms in turn. -/

namespace BoundSql.Time

/-- A number in written time. -/
inductive Field
  /-- The year. -/
  | year
  /-- The month. -/
  | month
  /-- The day of the month. -/
  | day
  /-- The hour. -/
  | hour
  /-- The minute. -/
  | minute
  /-- The second. -/
  | second
  deriving DecidableEq, Repr

/-- The number of digits of a field. -/
def Field.width : Field → Nat
  | year => 4
  | _ => 2

/-- How the offset from universal time is written. -/
inductive OffsetForm
  /-- `Z`, or hours, one colon and minutes. -/
  | strict
  /-- `Z`, or hours and optional minutes, with any colons and blanks before and between. -/
  | permissive
  /-- `UTC`, `Z`, or hours and minutes, with any colons and blanks before and between. -/
  | relaxed
  deriving DecidableEq, Repr

/-- A part of a form of written time. -/
inductive Directive
  /-- A number of at most its field's width after any blanks; a signed year of any width. -/
  | number (f : Field)
  /-- A number of exactly its field's width. -/
  | digits (f : Field)
  /-- One of the given characters. -/
  | oneOf (cs : List Char)
  /-- Any blanks. -/
  | blanks
  /-- A point and digits, or nothing. -/
  | fraction
  /-- An offset from universal time. -/
  | offset (form : OffsetForm)
  deriving DecidableEq, Repr

/-- The numbers read so far. -/
structure Parts where
  /-- The year. -/
  year : Int := 0
  /-- The month. -/
  month : Nat := 0
  /-- The day of the month. -/
  day : Nat := 0
  /-- The hour. -/
  hour : Nat := 0
  /-- The minute. -/
  minute : Nat := 0
  /-- The second. -/
  second : Nat := 0
  /-- The nanosecond. -/
  nanosecond : Nat := 0
  /-- The offset from universal time in seconds. -/
  offset : Int := 0
  deriving DecidableEq, Repr

/-- The parts with a field set. -/
def Parts.set (p : Parts) (f : Field) (n : Int) : Parts :=
  match f with
  | .year => { p with year := n }
  | .month => { p with month := n.toNat }
  | .day => { p with day := n.toNat }
  | .hour => { p with hour := n.toNat }
  | .minute => { p with minute := n.toNat }
  | .second => { p with second := n.toNat }

/-- From `least` to `most` digits, as a number, and what follows. -/
def readDigits (least most : Nat) (cs : List Char) : Option (Nat × List Char) :=
  let digits := (cs.take most).takeWhile Char.isDigit
  if digits.length < least then none
  else some (Number.digitsValue 0 digits, cs.drop digits.length)

/-- All digits at the start of text, as a number, and what follows. -/
def readAllDigits (cs : List Char) : Option (Nat × List Char) := readDigits 1 cs.length cs

/-- A field's number after any blanks, and what follows. -/
def readNumber (f : Field) (cs : List Char) : Option (Int × List Char) :=
  match f, Text.trimStart cs with
  | .year, '-' :: rest => (readAllDigits rest).map fun r => (-(r.1 : Int), r.2)
  | .year, '+' :: rest => (readAllDigits rest).map fun r => ((r.1 : Int), r.2)
  | f, rest => (readDigits 1 f.width rest).map fun r => ((r.1 : Int), r.2)

/-- A point and digits as nanoseconds, and what follows. Digits after the ninth are dropped. -/
def readFraction : List Char → Option (Nat × List Char)
  | '.' :: cs =>
    let digits := cs.takeWhile Char.isDigit
    if digits.isEmpty then none
    else
      let kept := digits.take 9
      some (Number.digitsValue 0 kept * Nat.pow 10 (9 - kept.length), cs.drop digits.length)
  | cs => some (0, cs)

/-- What stands between the hours and the minutes of an offset, skipped. -/
def skipSeparator : OffsetForm → List Char → Option (List Char)
  | .strict, ':' :: cs => some cs
  | .strict, _ => none
  | _, cs => some (cs.dropWhile fun c => c == ':' || Text.isBlank c)

/-- Whether an offset's sign is negative, if a character is one. The minus sign proper counts
besides the hyphen. -/
def offsetSign? (c : Char) : Option Bool :=
  if c = '+' then some false
  else if c = '-' ∨ c.toNat = 0x2212 then some true
  else none

/-- The minutes of an offset, and what follows. -/
def readOffsetMinutes (form : OffsetForm) (cs : List Char) : Option (Nat × List Char) :=
  match form, cs with
  | .permissive, [] => some (0, [])
  | _, cs =>
    (readDigits 2 2 cs).bind fun r => if r.1 < 60 then some r else none

/-- Hours and minutes of an offset, after its sign, in seconds, and what follows. -/
def readOffsetMagnitude (form : OffsetForm) (cs : List Char) : Option (Nat × List Char) :=
  (readDigits 2 2 cs).bind fun hours =>
    (skipSeparator form hours.2).bind fun rest =>
      (readOffsetMinutes form rest).map fun minutes =>
        (hours.1 * 3600 + minutes.1 * 60, minutes.2)

/-- An offset from universal time in seconds, and what follows. -/
def readOffset (form : OffsetForm) (text : List Char) : Option (Int × List Char) :=
  let cs := match form with
    | .strict => text
    | _ => Text.trimStart text
  if form = .relaxed ∧ (cs.take 3).map Char.toUpper = ['U', 'T', 'C'] then some (0, cs.drop 3)
  else
    match cs with
    | [] => none
    | c :: rest =>
      if c = 'Z' ∨ c = 'z' then some (0, rest)
      else
        (offsetSign? c).bind fun negative =>
          (readOffsetMagnitude form rest).map fun r =>
            (if negative then -(r.1 : Int) else r.1, r.2)

/-- The parts after a directive, and what follows it. -/
def Directive.read (d : Directive) (p : Parts) (cs : List Char) : Option (Parts × List Char) :=
  match d with
  | number f => (readNumber f cs).map fun r => (p.set f r.1, r.2)
  | digits f => (readDigits f.width f.width cs).map fun r => (p.set f r.1, r.2)
  | oneOf options =>
    match cs with
    | [] => none
    | c :: rest => if options.contains c then some (p, rest) else none
  | blanks => some (p, Text.trimStart cs)
  | fraction => (readFraction cs).map fun r => ({ p with nanosecond := r.1 }, r.2)
  | offset form => (readOffset form cs).map fun r => ({ p with offset := r.1 }, r.2)

/-- The parts after directives, and what follows them. -/
def readDirectives : List Directive → Parts → List Char → Option (Parts × List Char)
  | [], p, cs => some (p, cs)
  | d :: ds, p, cs => (d.read p cs).bind fun r => readDirectives ds r.1 r.2

/-- The parts of text in a form, which must end with it. -/
def readForm (form : List Directive) (cs : List Char) : Option Parts :=
  (readDirectives form {} cs).bind fun r => if r.2.isEmpty then some r.1 else none

/-- The date of parts. -/
def Parts.date? (p : Parts) : Option Date := Date.ofParts? p.year p.month p.day

/-- The time of parts. -/
def Parts.time? (p : Parts) : Option TimeOfDay :=
  TimeOfDay.ofParts? p.hour p.minute p.second p.nanosecond

/-- The day and time of parts. -/
def Parts.moment? (p : Parts) : Option Moment :=
  p.date?.bind fun date => p.time?.map fun time => ⟨date, time⟩

/-- The universal time of parts, in nanoseconds since the start of 1970. Offsets stay below a day,
and the day must be one that a date can have; a leap second belongs to the day of the second before
it. -/
def Parts.instant? (p : Parts) : Option Int :=
  p.moment?.bind fun m =>
    let t := m.nanoseconds - p.offset * 1000000000
    let day := (t - m.time.leapNanoseconds) / nanosecondsPerDay
    if p.offset.natAbs < 86400 ∧ Date.first.dayNumber ≤ day ∧ day ≤ Date.last.dayNumber then some t
    else none

/-! ### Forms -/

/-- Year, month and day with hyphens between. -/
def dateForm : List Directive :=
  [.number .year, .oneOf ['-'], .number .month, .oneOf ['-'], .number .day]

/-- Hours and minutes. -/
def shortTimeForm : List Directive := [.number .hour, .oneOf [':'], .number .minute]

/-- Hours, minutes and seconds with an optional fraction. -/
def longTimeForm : List Directive :=
  shortTimeForm ++ [.oneOf [':'], .number .second, .fraction]

/-- The forms of a time. -/
def timeForms : List (List Directive) := [longTimeForm, shortTimeForm]

/-- The forms of a moment: a date and a time with blanks or a `T` between. -/
def momentForms : List (List Directive) :=
  [dateForm ++ .blanks :: longTimeForm, dateForm ++ .oneOf ['T'] :: longTimeForm,
    dateForm ++ .blanks :: shortTimeForm, dateForm ++ .oneOf ['T'] :: shortTimeForm]

/-- A moment with fixed widths and a strict offset. -/
def strictForm : List Directive :=
  [.digits .year, .oneOf ['-'], .digits .month, .oneOf ['-'], .digits .day,
    .oneOf ['T', 't', ' '], .digits .hour, .oneOf [':'], .digits .minute, .oneOf [':'],
    .digits .second, .fraction, .offset .strict]

/-- A moment with blanks between date and time and a permissive offset. -/
def spacedForm : List Directive :=
  dateForm ++ .blanks :: (longTimeForm ++ [.offset .permissive])

/-- A moment with blanks allowed around its numbers and a relaxed offset, and blanks at the end. -/
def relaxedForm : List Directive :=
  [.number .year, .blanks, .oneOf ['-'], .number .month, .blanks, .oneOf ['-'], .number .day,
    .oneOf ['T', 't', ' '], .number .hour, .blanks, .oneOf [':'], .number .minute, .blanks,
    .oneOf [':'], .number .second, .fraction, .blanks, .offset .relaxed, .blanks]

/-- The date that text writes. -/
def readDate (cs : List Char) : Option Date := (readForm dateForm cs).bind Parts.date?

/-- The time that text writes. -/
def readTime (cs : List Char) : Option TimeOfDay :=
  timeForms.findSome? fun form => (readForm form cs).bind Parts.time?

/-- The moment that text writes; a bare date means its start. -/
def readMoment (cs : List Char) : Option Moment :=
  match momentForms.findSome? fun form => (readForm form cs).bind Parts.moment? with
  | some m => some m
  | none => (readDate cs).map fun date => ⟨date, .midnight⟩

/-- The universal time that text writes, in nanoseconds since the start of 1970. A moment without
an offset is universal time already. -/
def readInstant (cs : List Char) : Option Int :=
  match [strictForm, spacedForm].findSome? fun form => (readForm form cs).bind Parts.instant? with
  | some t => some t
  | none => (readMoment cs).map Moment.nanoseconds

end BoundSql.Time

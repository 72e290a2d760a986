import Appraisal.Text.Blank

/-!
# Instants

Points in time in UTC with nanoseconds, written and read as in RFC 3339. A leap second is told by a
nanosecond part of a full second or more.
-/

namespace Appraisal

structure Instant where
  /-- Seconds since the start of 1970. -/
  seconds : Int
  nanos : Nat
  deriving DecidableEq, Repr

namespace Instant

def le (a b : Instant) : Bool :=
  a.seconds < b.seconds || (a.seconds = b.seconds && a.nanos ≤ b.nanos)

/-- The later of two instants. -/
def later (a b : Instant) : Instant :=
  if b.le a then a else b

theorem le_refl (a : Instant) : a.le a = true := by
  simp [le]

theorem le_trans {a b c : Instant} (hab : a.le b = true) (hbc : b.le c = true) :
    a.le c = true := by
  simp only [le, Bool.or_eq_true, Bool.and_eq_true, decide_eq_true_eq] at *
  omega

theorem le_later_right (a b : Instant) : b.le (a.later b) = true := by
  unfold later
  split
  · assumption
  · exact le_refl b

/-- The number of days from the start of 1970 to a date of the Gregorian calendar. Years are
counted from March, so that the leap day is the last one. -/
def daysFromDate (year : Int) (month day : Nat) : Int :=
  let y := if month ≤ 2 then year - 1 else year
  let era := y / 400
  let yearOfEra := y % 400
  let monthFromMarch : Int := (month + 9) % 12
  let dayOfYear := (153 * monthFromMarch + 2) / 5 + day - 1
  era * 146097 + (yearOfEra * 365 + yearOfEra / 4 - yearOfEra / 100 + dayOfYear) - 719468

/-- Year, month and day of a number of days since the start of 1970. -/
def dateFromDays (days : Int) : Int × Nat × Nat :=
  let z := days + 719468
  let era := z / 146097
  let dayOfEra := z % 146097
  let yearOfEra := (dayOfEra - dayOfEra / 1460 + dayOfEra / 36524 - dayOfEra / 146096) / 365
  let dayOfYear := dayOfEra - (365 * yearOfEra + yearOfEra / 4 - yearOfEra / 100)
  let monthFromMarch := (5 * dayOfYear + 2) / 153
  let day := dayOfYear - (153 * monthFromMarch + 2) / 5 + 1
  let month := if monthFromMarch < 10 then monthFromMarch + 3 else monthFromMarch - 9
  let year := yearOfEra + era * 400 + (if month ≤ 2 then 1 else 0)
  (year, month.toNat, day.toNat)

def isLeapYear (year : Int) : Bool :=
  year % 4 = 0 && (year % 100 ≠ 0 || year % 400 = 0)

def daysInMonth (year : Int) (month : Nat) : Nat :=
  if month = 2 then (if isLeapYear year then 29 else 28)
  else if [4, 6, 9, 11].contains month then 30
  else 31

/-- A number with zeros in front up to `width` digits. -/
def padded (width n : Nat) : String :=
  let digits := Nat.toDigits 10 n
  String.ofList (List.replicate (width - digits.length) '0' ++ digits)

/-- Years outside of four digits carry a sign. -/
def yearText (year : Int) : String :=
  if 0 ≤ year ∧ year ≤ 9999 then padded 4 year.toNat
  else (if year < 0 then "-" else "+") ++ padded 4 year.natAbs

/-- A fraction of a second in 0, 3, 6 or 9 digits, as few as hold it. -/
def fractionText (nanos : Nat) : String :=
  if nanos = 0 then ""
  else if nanos % 1000000 = 0 then "." ++ padded 3 (nanos / 1000000)
  else if nanos % 1000 = 0 then "." ++ padded 6 (nanos / 1000)
  else "." ++ padded 9 nanos

/-- Date and time of day in UTC. -/
def civilText (t : Instant) : String :=
  let (year, month, day) := dateFromDays (t.seconds / 86400)
  let ofDay := (t.seconds % 86400).toNat
  let second := ofDay % 60 + t.nanos / 1000000000
  yearText year ++ "-" ++ padded 2 month ++ "-" ++ padded 2 day ++ "T" ++
    padded 2 (ofDay / 3600) ++ ":" ++ padded 2 (ofDay / 60 % 60) ++ ":" ++ padded 2 second ++
    fractionText (t.nanos % 1000000000)

def render (t : Instant) : String :=
  t.civilText ++ "Z"

/-- The text of a point in time in a table, where the distance to UTC is spelled out. -/
def timestamp (t : Instant) : String :=
  t.civilText ++ "+00:00"

def isDigit (c : Char) : Bool :=
  '0' ≤ c && c ≤ '9'

def digitsValue (cs : List Char) : Nat :=
  cs.foldl (fun n c => 10 * n + (c.toNat - '0'.toNat)) 0

/-- One to `width` digits at the front. -/
def digits? (width : Nat) (cs : List Char) : Option (Nat × List Char) :=
  let digits := (cs.takeWhile isDigit).take width
  if digits.isEmpty then none else some (digitsValue digits, cs.drop digits.length)

/-- A number of one to `width` digits, after blanks. -/
def number? (width : Nat) (cs : List Char) : Option (Nat × List Char) :=
  digits? width (cs.dropWhile Text.isBlank)

/-- A year of up to four digits, or of any number of them right behind a sign. -/
def year? (cs : List Char) : Option (Int × List Char) :=
  match cs.dropWhile Text.isBlank with
  | '-' :: cs => (digits? cs.length cs).map fun (n, rest) => (-(n : Int), rest)
  | '+' :: cs => (digits? cs.length cs).map fun (n, rest) => ((n : Int), rest)
  | cs => (digits? 4 cs).map fun (n, rest) => ((n : Int), rest)

/-- The text after `mark`, which may stand after blanks. -/
def after? (mark : Char) (cs : List Char) : Option (List Char) :=
  match cs.dropWhile Text.isBlank with
  | c :: rest => if c = mark then some rest else none
  | [] => none

/-- The nanoseconds of a fraction; digits beyond the ninth are dropped. -/
def fraction? : List Char → Option (Nat × List Char)
  | '.' :: cs =>
    let digits := cs.takeWhile isDigit
    let kept := digits.take 9
    if digits.isEmpty then none
    else some (digitsValue kept * Nat.pow 10 (9 - kept.length), cs.drop digits.length)
  | cs => some (0, cs)

def offsetMinutes? (sign : Int) (cs : List Char) : Option Int :=
  match cs with
  | h :: h' :: rest =>
    match rest.dropWhile fun c => c = ':' || Text.isBlank c with
    | m :: m' :: rest =>
      let hours := digitsValue [h, h']
      let minutes := digitsValue [m, m']
      if [h, h', m, m'].all isDigit ∧ hours < 24 ∧ minutes < 60 ∧ rest.all Text.isBlank then
        some (sign * (hours * 60 + minutes))
      else none
    | _ => none
  | _ => none

/-- The distance to UTC in minutes, at the end of the text. -/
def offset? (cs : List Char) : Option Int :=
  match cs.dropWhile Text.isBlank with
  | 'Z' :: rest | 'z' :: rest => if rest.all Text.isBlank then some 0 else none
  | '+' :: rest => offsetMinutes? 1 rest
  | '-' :: rest | '−' :: rest => offsetMinutes? (-1) rest
  | cs =>
    if (cs.take 3).map Char.toUpper = ['U', 'T', 'C'] ∧ (cs.drop 3).all Text.isBlank then
      some 0
    else none

/-- The years in which instants lie. -/
def isYear (year : Int) : Bool :=
  -262143 ≤ year && year ≤ 262142

/-- The start of the first of these years. -/
def earliest : Int :=
  daysFromDate (-262143) 1 1 * 86400

/-- The start of the year behind the last one. -/
def bound : Int :=
  daysFromDate 262143 1 1 * 86400

/-- The instant of a date and a time of day at a distance to UTC in minutes, unless there is no such
date or time or they lead out of the years. -/
def ofCivil? (year : Int) (month day hour minute second nanos : Nat) (offset : Int) :
    Option Instant :=
  if isYear year ∧ 1 ≤ month ∧ month ≤ 12 ∧ 1 ≤ day ∧ day ≤ daysInMonth year month ∧
      hour < 24 ∧ minute < 60 ∧ second ≤ 60 then
    let leap := if second = 60 then 1 else 0
    let ofDay : Int := hour * 3600 + minute * 60 + (second - leap : Nat)
    let seconds := daysFromDate year month day * 86400 + ofDay - offset * 60
    if earliest ≤ seconds ∧ seconds < bound then
      some { seconds, nanos := nanos + leap * 1000000000 }
    else none
  else none

/-- What stands behind the letter or the blank between date and time. -/
def behindDate? : List Char → Option (List Char)
  | 'T' :: rest | 't' :: rest | ' ' :: rest => some rest
  | _ => none

/-- The instant that a text tells. -/
def parse? (s : String) : Option Instant := do
  let (year, cs) ← year? s.toList
  let (month, cs) ← number? 2 (← after? '-' cs)
  let (day, cs) ← number? 2 (← after? '-' cs)
  let (hour, cs) ← number? 2 (← behindDate? cs)
  let (minute, cs) ← number? 2 (← after? ':' cs)
  let (second, cs) ← number? 2 (← after? ':' cs)
  let (nanos, cs) ← fraction? cs
  ofCivil? year month day hour minute second nanos (← offset? cs)

/-- A number of exactly `width` digits at the front. -/
def exactDigits? (width : Nat) (cs : List Char) : Option (Nat × List Char) :=
  let digits := cs.take width
  if digits.length = width ∧ digits.all isDigit then some (digitsValue digits, cs.drop width)
  else none

/-- The text right behind `mark`. -/
def behind? (mark : Char) : List Char → Option (List Char)
  | c :: rest => if c = mark then some rest else none
  | [] => none

def sign? : Char → Option Int
  | '+' => some 1
  | '-' | '−' => some (-1)
  | _ => none

/-- The distance to UTC in minutes, which a timestamp ends with. -/
def exactOffset? : List Char → Option Int
  | ['Z'] | ['z'] => some 0
  | c :: cs => do
    let sign ← sign? c
    let (hours, cs) ← exactDigits? 2 cs
    let (minutes, cs) ← exactDigits? 2 (← behind? ':' cs)
    if hours < 24 ∧ minutes < 60 ∧ cs.isEmpty then some (sign * (hours * 60 + minutes)) else none
  | [] => none

/-- The instant that a timestamp tells. Nothing may be left out of it, and nothing stand between
its parts. -/
def ofTimestamp? (s : String) : Option Instant := do
  let (year, cs) ← exactDigits? 4 s.toList
  let (month, cs) ← exactDigits? 2 (← behind? '-' cs)
  let (day, cs) ← exactDigits? 2 (← behind? '-' cs)
  let (hour, cs) ← exactDigits? 2 (← behindDate? cs)
  let (minute, cs) ← exactDigits? 2 (← behind? ':' cs)
  let (second, cs) ← exactDigits? 2 (← behind? ':' cs)
  let (nanos, cs) ← fraction? cs
  ofCivil? year month day hour minute second nanos (← exactOffset? cs)

end Instant

end Appraisal

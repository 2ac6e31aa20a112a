import HostScript.Text.CodePoint

/-!
# Dates and times

Days of the Gregorian calendar and moments on them. `Date.of` and `Moment.of` check their parts from
the largest to the smallest and name the first one that is out of range; a day is made exactly of
parts that are all in range (`Date.of_eq_ok_iff`).
-/

namespace HostScript

/-- A day. -/
structure Date where
  year : Nat
  month : Nat
  day : Nat
deriving DecidableEq

/-- A time on a day, with its distance to universal time in minutes if that is known. -/
structure Moment where
  date : Date
  hour : Nat
  minute : Nat
  second : Nat
  microsecond : Nat
  offset : Option Int
deriving DecidableEq

/-- Why parts make no day or time. -/
inductive CalendarFault
  | year (n : Nat)
  | month
  | day
  | hour
  | minute
  | second
  | offset (minutes : Int)
deriving DecidableEq

/-- A number of minutes as days and seconds. -/
def minutesText (minutes : Int) : Text :=
  let seconds := minutes.emod 1440 * 60
  let rest : Text := if seconds = 0 then [] else ", seconds=" ++ Text.ofInt seconds
  "datetime.timedelta(days=" ++ Text.ofInt (minutes.ediv 1440) ++ rest ++ ")"

/-- The wording of why parts make no day or time. -/
def CalendarFault.message : CalendarFault → Text
  | year n => "year " ++ Text.ofNat n ++ " is out of range"
  | month => "month must be in 1..12"
  | day => "day is out of range for month"
  | hour => "hour must be in 0..23"
  | minute => "minute must be in 0..59"
  | second => "second must be in 0..59"
  | offset minutes =>
    "offset must be a timedelta strictly between -timedelta(hours=24) and timedelta(hours=24), not "
      ++ minutesText minutes ++ "."

/-- The digits of a number, with zeros in front up to the given width. -/
def paddedDigits (width n : Nat) : Text :=
  let digits := Text.ofNat n
  Text.replicate (width - digits.length) '0' ++ digits

namespace Date

/-- Whether a year has a leap day. -/
def isLeap (year : Nat) : Bool := year % 4 = 0 && (year % 100 != 0 || year % 400 = 0)

/-- The number of days in a month. -/
def daysIn (year month : Nat) : Nat :=
  match month with
  | 2 => if isLeap year then 29 else 28
  | 4 => 30
  | 6 => 30
  | 9 => 30
  | 11 => 30
  | _ => 31

/-- The day with the given parts. -/
def of (year month day : Nat) : Except CalendarFault Date :=
  if year < 1 ∨ 9999 < year then .error (.year year)
  else if month < 1 ∨ 12 < month then .error .month
  else if day < 1 ∨ daysIn year month < day then .error .day
  else .ok ⟨year, month, day⟩

theorem of_eq_ok_iff {year month day : Nat} {d : Date} :
    of year month day = .ok d ↔ (1 ≤ year ∧ year ≤ 9999) ∧ (1 ≤ month ∧ month ≤ 12) ∧
      (1 ≤ day ∧ day ≤ daysIn year month) ∧ d = ⟨year, month, day⟩ := by
  unfold of
  split
  · simp; omega
  · split
    · simp; omega
    · split
      · simp; omega
      · simp; grind

/-- The text of a day. -/
def text (d : Date) : Text :=
  paddedDigits 4 d.year ++ "-" ++ paddedDigits 2 d.month ++ "-" ++ paddedDigits 2 d.day

end Date

namespace Moment

/-- Checks that a distance to universal time is less than a day. -/
def checkOffset (minutes : Int) : Except CalendarFault Unit :=
  if minutes.natAbs < 1440 then .ok () else .error (.offset minutes)

/-- The moment with the given parts. -/
def of (year month day hour minute second microsecond : Nat) (offset : Option Int) :
    Except CalendarFault Moment := do
  if let some minutes := offset then checkOffset minutes
  let date ← Date.of year month day
  if 23 < hour then .error .hour
  else if 59 < minute then .error .minute
  else if 59 < second then .error .second
  else return ⟨date, hour, minute, second, microsecond, offset⟩

/-- The text of a distance to universal time. -/
def offsetText (minutes : Int) : Text :=
  (if minutes < 0 then "-" else "+") ++ paddedDigits 2 (minutes.natAbs / 60) ++ ":"
    ++ paddedDigits 2 (minutes.natAbs % 60)

/-- The text of a moment. -/
def text (m : Moment) : Text :=
  let fraction : Text := if m.microsecond = 0 then [] else "." ++ paddedDigits 6 m.microsecond
  m.date.text ++ " " ++ paddedDigits 2 m.hour ++ ":" ++ paddedDigits 2 m.minute ++ ":"
    ++ paddedDigits 2 m.second ++ fraction ++ (m.offset.map offsetText).getD []

end Moment

end HostScript

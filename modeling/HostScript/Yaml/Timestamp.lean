import HostScript.Setting
import HostScript.Yaml.Fault

/-!
# Timestamps

A day, or a day and a time: `2001-12-14`, `2001-12-14t21:59:43.10-05:00`. A fraction of a second
counts to the microsecond.
-/

namespace HostScript.Yaml

/-- A time of a day: the fraction of the second by its digits, and the distance to universal time in
minutes, if it is given. -/
structure Clock where
  hour : Nat
  minute : Nat
  second : Nat
  fraction : Text
  offset : Option Int

/-- The parts of a timestamp. `isPadded` says that month and day have two digits. -/
structure Timestamp where
  year : Nat
  month : Nat
  day : Nat
  isPadded : Bool
  clock : Option Clock

namespace Timestamp

-- powers of natural numbers mean the same whatever else is imported
attribute [local instance (2000)] instPowNat

/-- The number of at least `least` and at most `most` digits at the head of a text, how many there
are, and what follows. -/
def digits? (least most : Nat) (t : Text) : Option (Nat × Nat × Text) :=
  let found := (t.take most).takeWhile CodePoint.isDigit
  if found.length < least then none
  else some (found.foldl (fun n c => n * 10 + c.hexDigit?.getD 0) 0, found.length,
    t.drop found.length)

/-- What follows a character, which must be next. -/
def behind? (x : Char) : Text → Option Text
  | c :: rest => if c = .scalar x then some rest else none
  | [] => none

/-- Whether a code point is a space or a tab. -/
def isBlank (c : CodePoint) : Bool := c = .scalar ' ' || c = .scalar '\t'

/-- The distance to universal time that makes up the rest of a text, if there is any. -/
def offset? (t : Text) : Option (Option Int) :=
  if t.isEmpty then some none
  else match t.dropWhile isBlank with
    | [.scalar 'Z'] => some (some 0)
    | .scalar s :: rest => do
      if s ≠ '+' ∧ s ≠ '-' then none
      let (hours, _, rest) ← digits? 1 2 rest
      let minutes ←
        if rest.isEmpty then some 0
        else do
          let (minutes, _, rest) ← digits? 2 2 (← behind? ':' rest)
          if rest.isEmpty then some minutes else none
      let total : Int := hours * 60 + minutes
      return some (if s = '-' then -total else total)
    | _ => none

/-- The time that makes up the rest of a text. -/
def clock? (t : Text) : Option Clock := do
  let (hour, _, t) ← digits? 1 2 t
  let (minute, _, t) ← digits? 2 2 (← behind? ':' t)
  let (second, _, t) ← digits? 2 2 (← behind? ':' t)
  let (fraction, t) := match t with
    | .scalar '.' :: rest => (rest.takeWhile CodePoint.isDigit, rest.dropWhile CodePoint.isDigit)
    | t => ([], t)
  return ⟨hour, minute, second, fraction, ← offset? t⟩

/-- What follows a letter or blanks between day and time. -/
def behindDay? (t : Text) : Option Text :=
  match t with
  | c :: rest =>
    if c = .scalar 'T' ∨ c = .scalar 't' then some rest
    else if isBlank c then some (rest.dropWhile isBlank)
    else none
  | [] => none

/-- The timestamp that a text writes. -/
def ofText? (t : Text) : Option Timestamp := do
  let (year, _, t) ← digits? 4 4 t
  let (month, monthSize, t) ← digits? 1 2 (← behind? '-' t)
  let (day, daySize, t) ← digits? 1 2 (← behind? '-' t)
  let isPadded := monthSize = 2 && daySize = 2
  if t.isEmpty then return ⟨year, month, day, isPadded, none⟩
  else return ⟨year, month, day, isPadded, some (← clock? (← behindDay? t))⟩

/-- The timestamp that a text writes, with or without a line end behind it. -/
def ofLine? (t : Text) : Option Timestamp :=
  ofText? (if t.getLast? = some (.scalar '\n') then t.dropLast else t)

/-- Whether a text without quotes is a timestamp: a day alone must have all its digits. -/
def isPlain (t : Text) : Bool := (ofText? t).any fun stamp => stamp.isPadded || stamp.clock.isSome

/-- The microseconds that the digits of a fraction write. -/
def microseconds (fraction : Text) : Nat :=
  let digits := fraction.take 6
  digits.foldl (fun n c => n * 10 + c.hexDigit?.getD 0) 0 * 10 ^ (6 - digits.length)

/-- The day or the moment of a timestamp. -/
def setting (stamp : Timestamp) : Except CalendarFault Setting :=
  match stamp.clock with
  | none => (Date.of stamp.year stamp.month stamp.day).map .date
  | some clock =>
    (Moment.of stamp.year stamp.month stamp.day clock.hour clock.minute clock.second
      (microseconds clock.fraction) clock.offset).map .moment

end Timestamp

end HostScript.Yaml

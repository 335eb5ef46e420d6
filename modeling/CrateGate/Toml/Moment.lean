import CrateGate.Datum
import CrateGate.Text.Digit
import CrateGate.Toml.Problem

/-!
# Dates and times of TOML

`1979-05-27`, `07:32:00.5`, both of them with a `T` or a blank between, and then possibly a zone.
What does not have the form of a date is read as something else; a date that has the form and does
not exist is a mistake.
-/

namespace CrateGate.Toml

/-- The number of two digits. -/
def twoDigits? (a b : Char) : Option Nat :=
  if a.isDigit && b.isDigit then some (10 * (a.toNat - 48) + (b.toNat - 48)) else none

/-- The number of two digits if it lies in a range. -/
def twoDigitsIn? (low high : Nat) (a b : Char) : Option Nat :=
  (twoDigits? a b).filter fun n => low ≤ n && n ≤ high

/-- The first six places after the point, as millionths. -/
def millionths (digits : List Char) : Nat :=
  let places := digits.take 6
  Text.decimalValue (places ++ List.replicate (6 - places.length) '0')

/-- The places of a second, if there are any here. -/
def readMicros : List Char → Nat × List Char
  | '.' :: rest =>
    let (digits, after) := rest.span Char.isDigit
    if digits.isEmpty then (0, '.' :: rest) else (millionths digits, after)
  | cs => (0, cs)

/-- A time of day, if one starts here. -/
def readClock? : List Char → Option (Clock × List Char)
  | h :: h' :: ':' :: m :: m' :: ':' :: s :: s' :: rest => do
    let hour ← twoDigitsIn? 0 23 h h'
    let minute ← twoDigitsIn? 0 59 m m'
    let second ← twoDigitsIn? 0 59 s s'
    let (micro, rest) := readMicros rest
    some (⟨hour, minute, second, micro⟩, rest)
  | _ => none

/-- Four digits, two digits from 01 to 12 and two from 01 to 31 with hyphens between them, if they
start here. -/
def readDay? : List Char → Option (Date × List Char)
  | y :: y' :: y'' :: y''' :: '-' :: m :: m' :: '-' :: d :: d' :: rest => do
    let century ← twoDigits? y y'
    let year ← twoDigits? y'' y'''
    let month ← twoDigitsIn? 1 12 m m'
    let day ← twoDigitsIn? 1 31 d d'
    some (⟨100 * century + year, month, day⟩, rest)
  | _ => none

/-- A zone, as minutes east of Greenwich, if one starts here. -/
def readZone? : List Char → Option (Int × List Char)
  | 'Z' :: rest => some (0, rest)
  | 'z' :: rest => some (0, rest)
  | sign :: h :: h' :: ':' :: m :: m' :: rest =>
    if sign = '+' || sign = '-' then do
      let hour ← twoDigitsIn? 0 23 h h'
      let minute ← twoDigitsIn? 0 59 m m'
      let size : Int := 60 * hour + minute
      some (if sign = '-' then -size else size, rest)
    else none
  | _ => none

/-- The time of day after a date, if there is one. -/
def readTimePart? : List Char → Option (Clock × List Char)
  | c :: rest => if c = 'T' || c = 't' || c = ' ' then readClock? rest else none
  | [] => none

/-- A date, a time, or both, if one starts here. -/
def readMoment? (cs : List Char) : Option (Except Problem (Moment × List Char)) :=
  match readDay? cs with
  | some (date, rest) =>
    let (moment, rest) :=
      match readTimePart? rest with
      | none => (Moment.day date, rest)
      | some (clock, rest) =>
        match readZone? rest with
        | none => (.floating date clock, rest)
        | some (zone, rest) => (.zoned date clock zone, rest)
    some (if date.exists? then .ok (moment, rest) else .error .malformed)
  | none => (readClock? cs).map fun (clock, rest) => .ok (.time clock, rest)

end CrateGate.Toml

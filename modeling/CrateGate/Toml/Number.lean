import CrateGate.Datum
import CrateGate.Text.Digit
import CrateGate.Toml.Problem

/-!
# Numbers of TOML

Integers in four bases and decimal fractions, with single underscores between digits. A sign and
an exponent belong to decimal numbers only. A number ends where its form ends; what follows is not
looked at.
-/

namespace CrateGate.Toml

/-- Digits after the first one, each possibly after an underscore. -/
def moreDigits (isDigit : Char → Bool) : List Char → List Char × List Char
  | [] => ([], [])
  | '_' :: c :: rest =>
    if isDigit c then
      let (digits, after) := moreDigits isDigit rest
      (c :: digits, after)
    else ([], '_' :: c :: rest)
  | c :: rest =>
    if isDigit c then
      let (digits, after) := moreDigits isDigit rest
      (c :: digits, after)
    else ([], c :: rest)

/-- Digits with single underscores between them, if there is one at least. -/
def digitRun? (isDigit : Char → Bool) : List Char → Option (List Char × List Char)
  | [] => none
  | c :: rest =>
    if isDigit c then
      let (digits, after) := moreDigits isDigit rest
      some (c :: digits, after)
    else none

/-- Digits of the base 8. -/
def isOctal (c : Char) : Bool :=
  '0' ≤ c && c ≤ '7'

/-- Digits of the base 2. -/
def isBinary (c : Char) : Bool :=
  c = '0' || c = '1'

/-- An integer in the base 16, 8 or 2, if one starts here. -/
def readBased? : List Char → Option (Nat × List Char)
  | '0' :: 'x' :: rest => inBase 16 Text.isHexDigit rest
  | '0' :: 'o' :: rest => inBase 8 isOctal rest
  | '0' :: 'b' :: rest => inBase 2 isBinary rest
  | _ => none
where
  /-- The number of the digits of a base. -/
  inBase (base : Nat) (isDigit : Char → Bool) (cs : List Char) : Option (Nat × List Char) :=
    (digitRun? isDigit cs).map fun (digits, rest) => (Text.numberIn base digits, rest)

/-- The sign before a number: whether it is a minus, and what follows it. -/
def readSign : List Char → Bool × List Char
  | '-' :: rest => (true, rest)
  | '+' :: rest => (false, rest)
  | cs => (false, cs)

/-- The digits before the point: a zero alone, or digits of which the first is no zero. -/
def wholeDigits? : List Char → Option (List Char × List Char)
  | '0' :: rest => some (['0'], rest)
  | cs => digitRun? Char.isDigit cs

/-- The digits after a point, if both are here. -/
def fractionDigits? : List Char → Option (List Char × List Char)
  | '.' :: rest => digitRun? Char.isDigit rest
  | _ => none

/-- The exponent, if one is here. -/
def exponent? : List Char → Option (Int × List Char)
  | c :: rest =>
    if c = 'e' || c = 'E' then
      let (negative, rest) := readSign rest
      (digitRun? Char.isDigit rest).map fun (ds, after) =>
        let n := Text.numberIn 10 ds
        (if negative then -(n : Int) else n, after)
    else none
  | [] => none

/-- A decimal number, if one starts here. -/
def readDecimal? (cs : List Char) : Option (Except Problem (Atom × List Char)) :=
  let (negative, unsigned) := readSign cs
  match wholeDigits? unsigned with
  | none => none
  | some (whole, rest) =>
    let fraction := fractionDigits? rest
    let (places, rest) := fraction.getD ([], rest)
    let power := exponent? rest
    let (shift, rest) := power.getD (0, rest)
    if fraction.isSome || power.isSome then
      let digits := Text.numberIn 10 (whole ++ places)
      some (.ok (.real (.ofDecimal negative digits (shift - places.length)), rest))
    else if Text.digitLimit < whole.length then some (.error .oversized)
    else
      let n := Text.numberIn 10 whole
      some (.ok (.integer (if negative then -(n : Int) else n), rest))

/-- Infinity or the value that is no number, with or without a sign, if one starts here. -/
def readSpecial? (cs : List Char) : Option (Atom × List Char) :=
  let (negative, unsigned) := readSign cs
  match unsigned with
  | 'i' :: 'n' :: 'f' :: rest => some (.real (.infinite negative), rest)
  | 'n' :: 'a' :: 'n' :: rest => some (.real .nan, rest)
  | _ => none

/-- A number of any form, if one starts here. -/
def readNumber? (cs : List Char) : Option (Except Problem (Atom × List Char)) :=
  match readBased? cs with
  | some (n, rest) => some (.ok (.integer n, rest))
  | none =>
    match readDecimal? cs with
    | some reading => some reading
    | none => (readSpecial? cs).map .ok

end CrateGate.Toml

import CrateGate.Decimal.Binary64

/-!
# Shortest decimals

The text of a floating-point number: the fewest digits that read back as the same number, and of
those the nearest. The digits are searched on the decimal grids of 1, 2, … 17 digits: of the two
grid points around the number, one that still rounds to it is taken.

The point is written among the digits while it stands at most 16 places after the first of them or
at most three zeros before it; otherwise there is an exponent of at least two digits.
-/

namespace CrateGate.Binary64

/-- The ends of the interval of reals that round to a positive number, with the number between
them, all in quarters of its unit, `2 ^ (exponent - 2)`. -/
def quarters (mantissa : Nat) (exponent : Int) : Nat × Nat × Nat :=
  let isEdge : Bool := mantissa = Nat.pow 2 52 && exponent > -1074
  let low := if isEdge then 4 * mantissa - 1 else 4 * mantissa - 2
  (low, 4 * mantissa, 4 * mantissa + 2)

/-- The power of ten `10 ^ power` as a fraction. -/
def powerOfTen (power : Int) : Nat × Nat :=
  let n := Nat.pow 10 power.natAbs
  if power < 0 then (1, n) else (n, 1)

/-- The first power of ten above `num / den`, looked for from `power` on. -/
def powerAbove (num den : Nat) : Nat → Int → Int
  | 0, power => power
  | fuel + 1, power =>
    let (up, down) := powerOfTen power
    if num * down < den * up then power else powerAbove num den fuel (power + 1)

/-- Of the two multiples of `10 ^ power` around the number, the nearest that rounds to it, if one
does: as a count of that power, and never 0. An end of the interval belongs to it if the mantissa
is even. -/
def gridPoint? (mantissa : Nat) (exponent power : Int) : Option Nat :=
  let (low, mid, high) := quarters mantissa exponent
  let (up, down) := powerOfTen power
  let (num, den) := scaled down up (exponent - 2)
  let within (k : Nat) : Bool :=
    if mantissa % 2 = 0 then low * num ≤ k * den && k * den ≤ high * num
    else low * num < k * den && k * den < high * num
  let below := mid * num / den
  let twice := 2 * (mid * num % den)
  let downward := twice < den || (twice == den && below % 2 == 0)
  match within below && 0 < below, within (below + 1) with
  | true, true => some (if downward then below else below + 1)
  | true, false => some below
  | false, true => some (below + 1)
  | false, false => none

/-- The shortest decimal of a positive number, on grids from `count` digits on, where `top` is the
power of ten above the number. -/
def shortestFrom (mantissa : Nat) (exponent top : Int) : Nat → Nat → Nat × Int
  | 0, count => (mantissa, top - count)
  | fuel + 1, count =>
    match gridPoint? mantissa exponent (top - count) with
    | some k => (k, top - count)
    | none => shortestFrom mantissa exponent top fuel (count + 1)

/-- The shortest decimal that reads back as a finite number, as digits and a power of ten. -/
def shortest (mantissa : Nat) (exponent : Int) : Nat × Int :=
  if mantissa = 0 then (0, 0)
  else
    let (num, den) := scaled mantissa 1 exponent
    let top := powerAbove num den 640 (-330)
    shortestFrom mantissa exponent top 17 1

/-- The digits of `n` without the zeros at their end. -/
def significant (n : Nat) : List Char :=
  ((Nat.toDigits 10 n).reverse.dropWhile (· = '0')).reverse

/-- Digits with the decimal point after the first `place` of them; `place` may lie outside. -/
def positional (digits : List Char) (place : Int) : List Char :=
  let zeros (n : Int) : List Char := List.replicate n.toNat '0'
  if place ≤ 0 then '0' :: '.' :: zeros (-place) ++ digits
  else if digits.length ≤ place.toNat then digits ++ zeros (place - digits.length) ++ ['.', '0']
  else digits.take place.toNat ++ '.' :: digits.drop place.toNat

/-- Digits with the decimal point after the first and an exponent of at least two digits. -/
def scientific (digits : List Char) (exponent : Int) : List Char :=
  let lead := digits.take 1 ++ (if digits.length ≤ 1 then [] else '.' :: digits.drop 1)
  let size := Nat.toDigits 10 exponent.natAbs
  lead ++ 'e' :: (if exponent < 0 then '-' else '+') ::
    (if size.length < 2 then '0' :: size else size)

/-- The text of a number. -/
def text : Binary64 → String
  | nan => "nan"
  | infinite negative => if negative then "-inf" else "inf"
  | finite negative mantissa exponent =>
    let (digits, power) := shortest mantissa exponent
    let place : Int := (Nat.toDigits 10 digits).length + power
    let shown :=
      if digits = 0 then ['0', '.', '0']
      else if -4 < place ∧ place ≤ 16 then positional (significant digits) place
      else scientific (significant digits) (place - 1)
    String.ofList (if negative then '-' :: shown else shown)

end CrateGate.Binary64

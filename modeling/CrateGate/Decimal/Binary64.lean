/-!
# Binary floating-point numbers

The numbers of the 64-bit binary format, written out: a sign, a mantissa below 2^53 and a power of
two. `Binary64.ofDecimal` rounds a decimal to the nearest of them, to the one with an even mantissa
if two are equally near, and `Binary64.compare` orders them exactly, among themselves and against
the integers.
-/

namespace CrateGate

/-- A floating-point number. A finite one is `mantissa * 2 ^ exponent`, below zero if `negative`;
its mantissa is at least 2^52 unless its exponent is the least, -1074. -/
inductive Binary64
  | nan
  | infinite (negative : Bool)
  | finite (negative : Bool) (mantissa : Nat) (exponent : Int)
deriving DecidableEq, Repr

namespace Binary64

/-- The quotient `num / den` rounded to the nearest integer, a half to the even neighbour. -/
def roundDiv (num den : Nat) : Nat :=
  let low := num / den
  let twice := 2 * (num % den)
  if twice < den then low
  else if twice > den then low + 1
  else if low % 2 = 0 then low
  else low + 1

/-- The product of `num / den` and `2 ^ e` as a fraction, for a power of either sign. -/
def scaled (num den : Nat) (e : Int) : Nat × Nat :=
  let n := Nat.pow 2 e.natAbs
  if e < 0 then (num, den * n) else (num * n, den)

/-- The exponent at which `num / den` has a mantissa of 53 bits, if the range allows it. -/
def exponentFor (num den : Nat) : Int :=
  let guess : Int := (Nat.log2 num : Int) - (Nat.log2 den : Int) - 52
  let (n, d) := scaled num den (-guess)
  let exact :=
    if n / d ≥ Nat.pow 2 53 then guess + 1
    else if n / d < Nat.pow 2 52 then guess - 1
    else guess
  max exact (-1074)

/-- The number nearest to the positive fraction `num / den`. -/
def ofFraction (negative : Bool) (num den : Nat) : Binary64 :=
  let e := exponentFor num den
  let (n, d) := scaled num den (-e)
  let m := roundDiv n d
  let (m, e) := if m = Nat.pow 2 53 then (Nat.pow 2 52, e + 1) else (m, e)
  if e > 971 then infinite negative else finite negative m e

/-- How many decimal digits `n` has. -/
def digitCount (n : Nat) : Nat :=
  (Nat.toDigits 10 n).length

/-- The number nearest to `digits * 10 ^ power`. Beyond the range on either side the power of ten
is not computed. -/
def ofDecimal (negative : Bool) (digits : Nat) (power : Int) : Binary64 :=
  let size : Int := digitCount digits + power
  if digits = 0 ∨ size < -330 then finite negative 0 (-1074)
  else if size > 310 then infinite negative
  else if power < 0 then ofFraction negative digits (Nat.pow 10 power.natAbs)
  else ofFraction negative (digits * Nat.pow 10 power.natAbs) 1

/-- The value of a finite number as a fraction with a positive denominator. -/
def fraction (negative : Bool) (mantissa : Nat) (exponent : Int) : Int × Nat :=
  let (n, d) := scaled mantissa 1 exponent
  (if negative then -(n : Int) else n, d)

/-- The order of two fractions with positive denominators. -/
def compareFractions (a b : Int × Nat) : Ordering :=
  compare (a.1 * b.2) (b.1 * a.2)

/-- The order of a number and an integer, if the number has one. -/
def compareInt : Binary64 → Int → Option Ordering
  | nan, _ => none
  | infinite negative, _ => some (if negative then .lt else .gt)
  | finite s m e, i => some (compareFractions (fraction s m e) (i, 1))

/-- The order of two numbers by value; a value that is no number has no place in it. -/
def compare : Binary64 → Binary64 → Option Ordering
  | nan, _ => none
  | _, nan => none
  | infinite s, infinite t => some (if s = t then .eq else if s then .lt else .gt)
  | infinite s, finite .. => some (if s then .lt else .gt)
  | finite .., infinite t => some (if t then .gt else .lt)
  | finite s m e, finite t n f => some (compareFractions (fraction s m e) (fraction t n f))

end Binary64

end CrateGate

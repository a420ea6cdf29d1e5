/-
The numbers that YAML scalars stand for. A number is kept as the nearest binary number with 53
significant bits, because two keys of a mapping are the same if they are equal after rounding: `1`,
`0x1` and `1.0` are one key, and so are two decimals that no such binary number tells apart.
-/
import SourceLint.Rounding
import SourceLint.Text

namespace SourceLint.External.Yaml

/-- A number rounded to 53 significant bits. Zero has no sign. -/
inductive Number where
  | notANumber
  | infinite (negative : Bool)
  | finite (negative : Bool) (mantissa : Nat) (exponent : Int)
  deriving DecidableEq, Repr

namespace Number

open Rounding (powerOfTwo)

/-- A power of ten. -/
def powerOfTen (exponent : Nat) : Nat := Nat.pow 10 exponent

/-- A fraction times a power of two, as a fraction. -/
def scaled (numerator denominator : Nat) : Int → Nat × Nat
  | .ofNat power => (numerator * powerOfTwo power, denominator)
  | .negSucc power => (numerator, denominator * powerOfTwo (power + 1))

/-- The exponent of the last bit that is kept of a fraction. -/
def lastBit (numerator denominator : Nat) : Int :=
  let guess : Int := (numerator.log2 : Int) - (denominator.log2 : Int) - 52
  let (top, bottom) := scaled numerator denominator (-guess)
  max (if top < bottom * powerOfTwo 52 then guess - 1 else guess) (-1074)

/-- A fraction rounded. Its denominator is not zero. -/
def ofFraction (negative : Bool) (numerator denominator : Nat) : Number :=
  if numerator = 0 then .finite false 0 0
  else
    let exponent := lastBit numerator denominator
    let (top, bottom) := scaled numerator denominator (-exponent)
    let mantissa := Rounding.quotient top bottom
    if mantissa = 0 then .finite false 0 0
    else
      let (mantissa, exponent) :=
        if mantissa = powerOfTwo 53 then (powerOfTwo 52, exponent + 1) else (mantissa, exponent)
      if exponent > 971 then .infinite negative else .finite negative mantissa exponent

/-- An integer rounded. -/
def ofNat (negative : Bool) (magnitude : Nat) : Number := ofFraction negative magnitude 1

/-- A decimal number rounded: digits, and the power of ten of the last of them. Powers that lie far
outside the range of binary numbers are not computed. -/
def ofDecimal (negative : Bool) (digits : Text) (power : Int) : Number :=
  let digits := digits.dropWhile (· == ('0' : CodeUnit))
  let magnitude := Text.digitsValue digits
  let top : Int := digits.length + power
  if magnitude = 0 || top < -330 then .finite false 0 0
  else if top > 310 then .infinite negative
  else
    match power with
    | .ofNat power => ofFraction negative (magnitude * powerOfTen power) 1
    | .negSucc power => ofFraction negative magnitude (powerOfTen (power + 1))

/-- Two numbers count as one key; what is not a number is equal to nothing. -/
def sameKey (left right : Number) : Bool := left == right && left != notANumber

end Number

end SourceLint.External.Yaml

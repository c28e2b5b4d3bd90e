/-!
# Binary floating point of 64 bits

A number of this format is a mantissa below `2^53` times a power of two that is at least `2^-1074`.
Each finite value has one form here: the mantissa is at least `2^52` unless the exponent is the
smallest one. Reading a decimal is done on the exact quotient of two natural numbers, which is
rounded once, to the nearest number of the format, a half going to the even mantissa.
-/

namespace Coalesce

/-- A number of the binary format with 53 bits of mantissa and exponents from `-1074` to `971`. -/
inductive Binary64 where
  | nan
  | infinite (negative : Bool)
  /-- The number `mantissa * 2 ^ exponent`, or its negation. -/
  | finite (negative : Bool) (mantissa : Nat) (exponent : Int)
deriving DecidableEq, Repr, Inhabited

namespace Binary64

/-- The smallest exponent. -/
def minExponent : Int := -1074

/-- The largest exponent. -/
def maxExponent : Int := 971

/-- The integer nearest to a quotient, a half going to the even neighbour. -/
def roundQuotient (num den : Nat) : Nat :=
  let quotient := num / den
  let twice := 2 * (num % den)
  if twice < den then quotient
  else if den < twice then quotient + 1
  else if quotient % 2 = 0 then quotient else quotient + 1

/-- The number nearest to `num / den`; what rounds beyond the largest exponent is infinite. -/
def ofQuotient (negative : Bool) (num den : Nat) : Binary64 :=
  if num = 0 then finite negative 0 minExponent
  else
    let estimate : Int := (num.log2 : Int) - den.log2 - 53
    let low := if estimate < minExponent then minExponent else estimate
    let scaled (exponent : Int) : Nat × Nat :=
      (num * Nat.pow 2 (-exponent).toNat, den * Nat.pow 2 exponent.toNat)
    let exponent :=
      if Nat.pow 2 53 ≤ (scaled low).1 / (scaled low).2 then low + 1 else low
    let rounded := roundQuotient (scaled exponent).1 (scaled exponent).2
    let (mantissa, exponent) :=
      if rounded = Nat.pow 2 53 then (Nat.pow 2 52, exponent + 1) else (rounded, exponent)
    if maxExponent < exponent then infinite negative else finite negative mantissa exponent

/-- The number nearest to `digits * 10 ^ exponent`. Decimals far outside the format's range are
decided by their magnitude alone. -/
def ofDecimal (negative : Bool) (digits : Nat) (exponent : Int) : Binary64 :=
  let magnitude : Int := exponent + (toString digits).length
  if digits = 0 ∨ magnitude < -400 then finite negative 0 minExponent
  else if 400 < magnitude then infinite negative
  else
    ofQuotient negative (digits * Nat.pow 10 exponent.toNat) (Nat.pow 10 (-exponent).toNat)

/-- The 64 bits of the interchange format: sign, biased exponent, fraction. All numbers that are
not a number share the quiet pattern without payload. -/
def bits : Binary64 → Nat
  | nan => 0x7ff8000000000000
  | infinite negative => negative.toNat * Nat.pow 2 63 + 0x7ff * Nat.pow 2 52
  | finite negative mantissa exponent =>
    negative.toNat * Nat.pow 2 63 +
      if mantissa < Nat.pow 2 52 then mantissa
      else (exponent + 1075).toNat * Nat.pow 2 52 + (mantissa - Nat.pow 2 52)

end Binary64

end Coalesce

import Coalesce.Decimal.Binary64

/-!
# The shortest decimal of a binary number

Of all decimals that read back as a given number the one with the fewest digits is printed, of
those the nearest to the number, and of two equally near ones the larger. The search runs over the
grids of multiples of `10^k`, the coarsest first. On a grid only the two neighbours of the number
matter: if any point of the grid reads back as the number, so does one of them.

The number `m * 2^q` is the nearest one to everything between the midpoints to its neighbours, and
to the midpoints themselves if `m` is even. Below a power of two the neighbour is twice as close.
All comparisons are made between natural numbers, in units of a quarter of `2^q`.
-/

namespace Coalesce

/-- A decimal number `digits * 10 ^ exponent`. -/
structure Decimal where
  digits : Nat
  exponent : Int
deriving DecidableEq, Repr

namespace Decimal

/-- The points of the grid of multiples of `10 ^ k` next to the number `m * 2 ^ q` that read back
as it, the nearest of them. -/
def onGrid? (m : Nat) (q k : Int) : Option Nat :=
  let unit := Nat.pow 2 (q - 2).toNat * Nat.pow 10 (-k).toNat
  let point := Nat.pow 10 k.toNat * Nat.pow 2 (2 - q).toNat
  let low := if m = Nat.pow 2 52 ∧ Binary64.minExponent < q then 4 * m - 1 else 4 * m - 2
  let high := 4 * m + 2
  let readsBack (c : Nat) : Bool :=
    if m % 2 = 0 then low * unit ≤ c * point ∧ c * point ≤ high * unit
    else low * unit < c * point ∧ c * point < high * unit
  let below := 4 * m * unit / point
  match readsBack below, readsBack (below + 1) with
  | true, false => some below
  | false, true => some (below + 1)
  | true, true =>
    some (if 2 * (4 * m * unit) < (2 * below + 1) * point then below else below + 1)
  | false, false => none

/-- The first grid with a point that reads back, among those of exponent below `n - 344`. -/
def search (m : Nat) (q : Int) : (n : Nat) → Decimal
  | 0 => ⟨0, 0⟩
  | n + 1 =>
    let k : Int := (n : Int) - 344
    match onGrid? m q k with
    | some digits => ⟨digits, k⟩
    | none => search m q n

/-- The shortest decimal that reads back as `m * 2 ^ q`, for a mantissa that is not zero. -/
def shortest (m : Nat) (q : Int) : Decimal := search m q 654

/-- A decimal in positional notation, always with a point and a digit on either side of it. -/
def positional (d : Decimal) : String :=
  let digits := (toString d.digits).toList
  if 0 ≤ d.exponent then
    String.ofList (digits ++ List.replicate d.exponent.toNat '0' ++ ['.', '0'])
  else
    let places := (-d.exponent).toNat
    let padded := List.replicate (places + 1 - digits.length) '0' ++ digits
    String.ofList
      (padded.take (padded.length - places) ++ '.' :: padded.drop (padded.length - places))

/-- The text of a number: the shortest decimal in positional notation, and names for the values
that are no number or not finite. -/
def text : Binary64 → String
  | .nan => "NaN"
  | .infinite negative => if negative then "-inf" else "inf"
  | .finite negative m q =>
    (if negative then "-" else "") ++ if m = 0 then "0.0" else positional (shortest m q)

end Decimal

end Coalesce

/-!
# Shortest decimals

A binary number stands for all reals that round to it. Its decimal text uses the coarsest decimal
grid that has a point among those reals, and of two such points the nearer one. All comparisons are
made in exact arithmetic on natural numbers.
-/

namespace ScriptMachine

/-- A positive binary number `mantissa * 2 ^ exponent`. -/
structure Dyadic where
  mantissa : Nat
  exponent : Int
  /-- Whether the number below is half as far away as the number above. -/
  narrowBelow : Bool

/-- A decimal number `digits * 10 ^ exponent`. -/
structure Decimal where
  digits : Nat
  exponent : Int

namespace Dyadic

/-- The point of the grid of multiples of `10 ^ e` that rounds to `x` and lies nearest to it.

With the spacing of binary numbers at `x` as four units of length `unit`, the number itself is
`value`, and the reals that round to it reach two units up and two units down, or one unit down
where the numbers below lie closer. The ends belong to them if the mantissa is even. -/
def gridPoint? (x : Dyadic) (e : Int) : Option Nat :=
  let unit := Nat.pow 2 x.exponent.toNat * Nat.pow 10 (-e).toNat
  let grid := 4 * Nat.pow 2 (-x.exponent).toNat * Nat.pow 10 e.toNat
  let value := 4 * x.mantissa * unit
  let low := value - (if x.narrowBelow then unit else 2 * unit)
  let high := value + 2 * unit
  let closed := x.mantissa % 2 == 0
  let below := value / grid
  let above := below + 1
  let belowFits := low < below * grid || (closed && low == below * grid)
  let aboveFits := above * grid < high || (closed && above * grid == high)
  if belowFits && (!aboveFits || value - below * grid < above * grid - value) then some below
  else if aboveFits then some above
  else none

/-- The shortest decimal that rounds to `x`, looked for on the grids from `10 ^ 39` down. -/
def shortest? (x : Dyadic) : Option Decimal :=
  (List.range 100).findSome? fun (i : Nat) =>
    let e := 39 - (i : Int)
    (x.gridPoint? e).map fun digits => ⟨digits, e⟩

end Dyadic

namespace Decimal

/-- A decimal written out in full, without an exponent. -/
def positional (x : Decimal) : List Char :=
  let ds := Nat.toDigits 10 x.digits
  let fraction := (-x.exponent).toNat
  if 0 ≤ x.exponent then ds ++ List.replicate x.exponent.toNat '0'
  else if ds.length ≤ fraction then
    ['0', '.'] ++ List.replicate (fraction - ds.length) '0' ++ ds
  else ds.take (ds.length - fraction) ++ ['.'] ++ ds.drop (ds.length - fraction)

end Decimal

end ScriptMachine

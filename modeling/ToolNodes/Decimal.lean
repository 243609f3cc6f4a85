/-!
# Binary64 magnitudes in exact arithmetic

A finite binary64 magnitude is `mantissa * 2 ^ exponent`. Every operation takes the exact rational
result and rounds it once, to the nearest magnitude and to the one with the even mantissa when two
are equally near; a result past the largest magnitude is refused. Nothing here depends on the
machine's floating-point unit, so all of it evaluates inside the logic.

A decimal reads back as a magnitude when it lies among the numbers that round to it. Of all
decimals that read back the shortest is the one with the fewest digits, and of those the one
nearest to the magnitude; of two that are equally near, the one with the even last digit. The search
goes through the lengths one to seventeen, and on the grid of each length looks at the two
neighbours of the magnitude.
-/

namespace ToolNodes

/-- The number `digits * 10 ^ exponent`. -/
structure Decimal where
  digits : Nat
  exponent : Int
deriving DecidableEq, Repr

namespace Decimal

/-! ## Magnitudes -/

/-- The magnitude `mantissa * 2 ^ exponent`. The values that `Magnitude.nearest` makes have
`mantissa < 2 ^ 53`, `-1074 ≤ exponent`, and `2 ^ 52 ≤ mantissa` unless the exponent is least. -/
structure Magnitude where
  mantissa : Nat
  exponent : Int
deriving DecidableEq, Repr

namespace Magnitude

/-- The exponent of the least positive magnitude, and of zero. -/
def leastExponent : Int := -1074

def greatestExponent : Int := 971

def zero : Magnitude := ⟨0, leastExponent⟩

/-- The quotient rounded to the nearest whole number, a half to the even one. -/
def divideToEven (num den : Nat) : Nat :=
  let q := num / den
  let twice := 2 * (num % den)
  if twice < den then q
  else if den < twice then q + 1
  else if q % 2 = 0 then q else q + 1

/-- `num / den` over the unit `2 ^ exponent`, as numerator and denominator. -/
def inUnits (num den : Nat) (exponent : Int) : Nat × Nat :=
  (num * Nat.pow 2 (-exponent).toNat, den * Nat.pow 2 exponent.toNat)

/-- The exponent that gives the quotient a mantissa of 53 bits, or the least exponent when that is
greater. -/
def exponentOf (num den : Nat) : Int :=
  let guess : Int := (Nat.log2 num : Int) - Nat.log2 den - 52
  let (n, d) := inUnits num den guess
  max leastExponent (if n / d < Nat.pow 2 52 then guess - 1 else guess)

/-- The magnitude nearest to `num / den`; none when that is past the largest one. -/
def nearest (num den : Nat) : Option Magnitude :=
  if num = 0 then some zero
  else
    let e := exponentOf num den
    let (n, d) := inUnits num den e
    let m := divideToEven n d
    let rounded : Magnitude := if m = Nat.pow 2 53 then ⟨Nat.pow 2 52, e + 1⟩ else ⟨m, e⟩
    if rounded.exponent ≤ greatestExponent then some rounded else none

/-- The exact value, as numerator and denominator. -/
def ratio (x : Magnitude) : Nat × Nat :=
  (x.mantissa * Nat.pow 2 x.exponent.toNat, Nat.pow 2 (-x.exponent).toNat)

/-- The product, rounded. -/
def mul (x y : Magnitude) : Option Magnitude :=
  nearest (x.ratio.1 * y.ratio.1) (x.ratio.2 * y.ratio.2)

/-- The quotient, rounded. -/
def div (x y : Magnitude) : Option Magnitude :=
  nearest (x.ratio.1 * y.ratio.2) (x.ratio.2 * y.ratio.1)

def isZero (x : Magnitude) : Bool := x.mantissa = 0

end Magnitude

/-! ## The shortest decimal -/

/-- Compares `a * 10 ^ i` with `n * 2 ^ j`. -/
def compareScaled (a : Nat) (i : Int) (n : Nat) (j : Int) : Ordering :=
  compare (a * Nat.pow 10 i.toNat * Nat.pow 2 (-j).toNat)
    (n * Nat.pow 2 j.toNat * Nat.pow 10 (-i).toNat)

namespace Magnitude

def narrowBelow (x : Magnitude) : Bool :=
  x.mantissa = Nat.pow 2 52 && x.exponent != leastExponent

/-- Whether the decimal lies among the numbers that round to the magnitude. The ends of that
interval belong to it when the mantissa is even. -/
def readsBack (x : Magnitude) (d : Decimal) : Bool :=
  let low := if x.narrowBelow then 4 * x.mantissa - 1 else 4 * x.mantissa - 2
  let high := 4 * x.mantissa + 2
  let even := x.mantissa % 2 = 0
  let below := compareScaled d.digits d.exponent low (x.exponent - 2)
  let above := compareScaled d.digits d.exponent high (x.exponent - 2)
  (below == .gt || (even && below == .eq)) && (above == .lt || (even && above == .eq))

/-- The greatest whole number `n` with `n * 10 ^ exponent` at most the magnitude. -/
def floorOnGrid (x : Magnitude) (exponent : Int) : Nat :=
  x.ratio.1 * Nat.pow 10 (-exponent).toNat / (x.ratio.2 * Nat.pow 10 exponent.toNat)

/-- The decimal exponent of the leading digit of a positive magnitude: the greatest `k` with
`10 ^ k` at most the magnitude. -/
def leadingExponent (x : Magnitude) : Int :=
  let (n, d) := x.ratio
  let guess : Int := ((Nat.log2 n : Int) - Nat.log2 d) * 30103 / 100000
  let candidates := [guess + 2, guess + 1, guess, guess - 1, guess - 2]
  (candidates.find? fun k => d * Nat.pow 10 k.toNat ≤ n * Nat.pow 10 (-k).toNat).getD guess

/-- The nearer of the two neighbours on a grid that read back, the even one of two that are
equally near. -/
def onGrid? (x : Magnitude) (exponent : Int) : Option Decimal :=
  let n := x.floorOnGrid exponent
  let down : Decimal := ⟨n, exponent⟩
  let up : Decimal := ⟨n + 1, exponent⟩
  match x.readsBack down, x.readsBack up with
  | true, false => some down
  | false, true => some up
  | false, false => none
  | true, true =>
    -- the half-way point `(2 n + 1) / 2` on this grid against the magnitude
    match compareScaled (2 * n + 1) exponent (2 * x.mantissa) x.exponent with
    | .gt => some down
    | .lt => some up
    | .eq => some (if n % 2 = 0 then down else up)

def shortest (x : Magnitude) : Decimal :=
  let lead := x.leadingExponent
  let grids := (List.range 17).map fun (n : Nat) => lead - n
  (grids.findSome? x.onGrid?).getD ⟨x.floorOnGrid (lead - 17), lead - 17⟩

end Magnitude

end Decimal

end ToolNodes

import TemplateRender.Double.Basic

/-!
The fewest decimal digits that read back as a given number. A positive number `m * 2 ^ q` is
what every real between it and halfway to its neighbours rounds to, the halfway points included
when `m` is even. For one digit, two digits and so on, the two neighbours of the number on that
decimal grid are tried. The first grid with a neighbour inside the interval wins, and of two the
nearer; a tie goes up.
-/
namespace TemplateRender.Double

/-- A positive decimal number `digits * 10 ^ exponent`. -/
structure Decimal where
  digits : Nat
  exponent : Int
deriving DecidableEq, Repr

/-- A positive real with the bounds of the interval that rounds to it, over one denominator. -/
structure Rounding where
  value : Nat
  lower : Nat
  upper : Nat
  denominator : Nat
  closed : Bool
deriving Repr

/-- In quarters of the unit in the last place the bounds are two below and two above. Below a
power of two the numbers are twice as dense, so there the lower bound is one below. -/
def rounding (d : Double) : Rounding :=
  let scale := 1 <<< (d.exponent - 2).toNat
  let below := if d.fraction = 0 ∧ 1 < d.exponentField then 1 else 2
  { value := 4 * d.significand * scale
    lower := (4 * d.significand - below) * scale
    upper := (4 * d.significand + 2) * scale
    denominator := 1 <<< (2 - d.exponent).toNat
    closed := d.significand % 2 == 0 }

def digitCount (n : Nat) : Nat := (Nat.toDigits 10 n).length

/-- The exponent of the leading decimal digit of a positive fraction. -/
def leadingExponent (value denominator : Nat) : Int :=
  if denominator ≤ value then digitCount (value / denominator) - 1
  else -(digitCount ((denominator + value - 1) / value - 1) : Nat)

/-- The neighbours of the number on the grid of multiples of `10 ^ k` that lie in its interval,
reduced to the nearer of them. -/
def Rounding.onGrid? (r : Rounding) (k : Int) : Option Nat :=
  let unit := r.denominator * Nat.pow 10 k.toNat
  let scale := Nat.pow 10 (-k).toNat
  let below := r.value * scale / unit
  let inside (n : Nat) : Bool :=
    if r.closed then r.lower * scale ≤ n * unit && n * unit ≤ r.upper * scale
    else r.lower * scale < n * unit && n * unit < r.upper * scale
  let nearerBelow := 2 * (r.value * scale - below * unit) < unit
  match inside below, inside (below + 1) with
  | true, true => some (if nearerBelow then below else below + 1)
  | true, false => some below
  | false, true => some (below + 1)
  | false, false => none

/-- A grid point that is ten to the number of its digits is one digit at the next exponent. -/
def Decimal.normal (n : Nat) (k : Int) : Decimal :=
  if n % 10 = 0 then ⟨n / 10, k + 1⟩ else ⟨n, k⟩

/-- Seventeen digits always read back, so the search ends. -/
def shortest (d : Double) : Decimal :=
  let r := d.rounding
  let lead := leadingExponent r.value r.denominator
  let found := (List.range 17).findSome? fun (i : Nat) =>
    (r.onGrid? (lead - i)).map fun n => Decimal.normal n (lead - i)
  found.getD ⟨d.significand, 0⟩

end TemplateRender.Double

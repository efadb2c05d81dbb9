import NestedBatch.Double.Basic

/-! The decimal with the fewest digits that reads back as a given double, and
of those with equally many digits the nearest one. -/
namespace NestedBatch

/-- The positive number `digits * 10 ^ exponent`. -/
structure Decimal where
  digits : Nat
  exponent : Int
  deriving DecidableEq

inductive Tie where
  | larger
  | even
  deriving DecidableEq

namespace Decimal

/-- The same number with no zero at the end of its digits. `fuel` bounds the zeros. -/
def stripped (fuel : Nat) (d : Decimal) : Decimal :=
  match fuel with
  | 0 => d
  | fuel + 1 =>
    if d.digits ≠ 0 ∧ d.digits % 10 = 0 then stripped fuel ⟨d.digits / 10, d.exponent + 1⟩ else d

end Decimal

namespace Magnitude

/-- The size and the ends of the interval that rounds to it, over one denominator. -/
structure Interval where
  low : Nat
  middle : Nat
  high : Nat
  unit : Nat
  closed : Bool

/-- Halfway to the two neighbours. Below a power of two the neighbours lie half as far apart. -/
def interval (g : Magnitude) : Interval :=
  let narrow : Bool := g.mantissa = Nat.pow 2 52 ∧ -1074 < g.exponent
  let scale := if 2 ≤ g.exponent then Nat.pow 2 (g.exponent - 2).toNat else 1
  let unit := if 2 ≤ g.exponent then 1 else Nat.pow 2 (2 - g.exponent).toNat
  { low := (if narrow then 4 * g.mantissa - 1 else 4 * g.mantissa - 2) * scale
    middle := 4 * g.mantissa * scale
    high := (4 * g.mantissa + 2) * scale
    unit := unit
    closed := g.mantissa % 2 = 0 }

/-- Does `t * 10 ^ k` lie in the interval? -/
def Interval.holds (i : Interval) (t : Nat) (k : Int) : Bool :=
  let num := if 0 ≤ k then t * Nat.pow 10 k.toNat * i.unit else t * i.unit
  let den := if 0 ≤ k then 1 else Nat.pow 10 (-k).toNat
  if i.closed then i.low * den ≤ num && num ≤ i.high * den
  else i.low * den < num && num < i.high * den

/-- The multiple of `10 ^ k` next below or next above the size that lies in the
interval; if both do, the nearer one. -/
def Interval.onGrid (i : Interval) (tie : Tie) (k : Int) : Option Nat :=
  let num := if 0 ≤ k then i.middle else i.middle * Nat.pow 10 (-k).toNat
  let den := if 0 ≤ k then i.unit * Nat.pow 10 k.toNat else i.unit
  let t := num / den
  let rest := num % den
  let upper : Bool :=
    if 2 * rest = den then
      match tie with
      | .larger => true
      | .even => t % 2 = 1
    else den < 2 * rest
  match i.holds t k, i.holds (t + 1) k with
  | true, true => some (if upper then t + 1 else t)
  | true, false => some t
  | false, true => some (t + 1)
  | false, false => none

def Interval.decade (i : Interval) : Int :=
  let guess : Int := ((Numeral.ofNat i.middle).length : Int) - (Numeral.ofNat i.unit).length
  let reaches : Bool :=
    if 0 ≤ guess then i.unit * Nat.pow 10 guess.toNat ≤ i.middle
    else i.unit ≤ i.middle * Nat.pow 10 (-guess).toNat
  if reaches then guess + 1 else guess

/-- The shortest decimal of a positive size. Seventeen digits are always enough. -/
def shortest (g : Magnitude) (tie : Tie) : Decimal :=
  let i := g.interval
  let top := i.decade
  let found := (List.range 17).findSome? fun n =>
    let k := top - (n + 1 : Nat)
    (i.onGrid tie k).map fun t => (⟨t, k⟩ : Decimal)
  (found.getD ⟨0, 0⟩).stripped 20

end Magnitude

end NestedBatch

import NestedBatch.Text.Numeral

/-! Double-precision numbers as exact values: a sign and `mantissa * 2 ^ exponent`,
an infinity, or the one value that is no number. Every rounding here goes to
the nearest double, and halfway to the one with the even mantissa. -/
namespace NestedBatch

/-- The size of a finite double. The mantissa has 53 bits unless the exponent
is the smallest one, so each size has one form. -/
structure Magnitude where
  mantissa : Nat
  exponent : Int
  fits : mantissa < Nat.pow 2 53 ∧ -1074 ≤ exponent ∧ exponent ≤ 971 ∧
    (Nat.pow 2 52 ≤ mantissa ∨ exponent = -1074)
  deriving DecidableEq

namespace Magnitude

def of? (mantissa : Nat) (exponent : Int) : Option Magnitude :=
  if h : mantissa < Nat.pow 2 53 ∧ -1074 ≤ exponent ∧ exponent ≤ 971 ∧
      (Nat.pow 2 52 ≤ mantissa ∨ exponent = -1074)
  then some ⟨mantissa, exponent, h⟩ else none

def zero : Magnitude := ⟨0, -1074, by decide⟩

def ratio (g : Magnitude) : Nat × Nat :=
  if 0 ≤ g.exponent then (g.mantissa * Nat.pow 2 g.exponent.toNat, 1)
  else (g.mantissa, Nat.pow 2 (-g.exponent).toNat)

end Magnitude

inductive Double where
  | nan
  | infinite (negative : Bool)
  | finite (negative : Bool) (size : Magnitude)
  deriving DecidableEq

namespace Double

def isFinite : Double → Bool
  | .finite _ _ => true
  | _ => false

def negate : Double → Double
  | .nan => .nan
  | .infinite negative => .infinite (!negative)
  | .finite negative size => .finite (!negative) size

/-- Equality of numbers: the two zeros agree, and `nan` agrees with nothing. -/
def agrees : Double → Double → Bool
  | .infinite a, .infinite b => a == b
  | .finite a g, .finite b h =>
    g == h && (a == b || g.mantissa == 0)
  | _, _ => false

/-- The whole number nearest to a quotient, the even one at halfway. -/
def nearestQuotient (num den : Nat) : Nat :=
  let below := num / den
  let rest := num % den
  if 2 * rest < den then below
  else if den < 2 * rest then below + 1
  else if below % 2 = 0 then below
  else below + 1

/-- The quotient `num / (den * 2 ^ e)` as numerator and denominator. -/
def shifted (num den : Nat) (e : Int) : Nat × Nat :=
  if 0 ≤ e then (num, den * Nat.pow 2 e.toNat) else (num * Nat.pow 2 (-e).toNat, den)

/-- The binary exponent at which a positive quotient has a mantissa of 53 bits,
or the smallest exponent of all if it would lie below that one. -/
def scaleOf (num den : Nat) : Int :=
  let guess : Int := (num.log2 : Int) - (den.log2 : Int) - 53
  let (n, d) := shifted num den guess
  max (-1074) (if n / d < Nat.pow 2 53 then guess else guess + 1)

/-- The double nearest to a quotient; beyond the largest double, an infinity. -/
def ofRatio (negative : Bool) (num den : Nat) : Double :=
  if num = 0 then .finite negative .zero
  else
    let e := scaleOf num den
    let (n, d) := shifted num den e
    let m := nearestQuotient n d
    match if m = Nat.pow 2 53 then Magnitude.of? (Nat.pow 2 52) (e + 1) else Magnitude.of? m e with
    | some size => .finite negative size
    | none => .infinite negative

def ofInt (n : Int) : Double := ofRatio (n < 0) n.natAbs 1

/-- The double nearest to `digits * 10 ^ exponent`. Numbers from `10 ^ 310` on
are infinite and numbers below `10 ^ -330` are zero without being computed. -/
def ofDecimal (negative : Bool) (digits : Nat) (exponent : Int) : Double :=
  let top : Int := exponent + (Numeral.ofNat digits).length
  if digits = 0 then .finite negative .zero
  else if 311 ≤ top then .infinite negative
  else if top ≤ -330 then .finite negative .zero
  else if 0 ≤ exponent then ofRatio negative (digits * Nat.pow 10 exponent.toNat) 1
  else ofRatio negative digits (Nat.pow 10 (-exponent).toNat)

def timesSize (g h : Magnitude) : Double :=
  let (a, b) := g.ratio
  let (c, d) := h.ratio
  ofRatio false (a * c) (b * d)

/-- The nearest double to a quotient of sizes, the second not zero. -/
def overSize (g h : Magnitude) : Double :=
  let (a, b) := g.ratio
  let (c, d) := h.ratio
  ofRatio false (a * d) (b * c)

end Double

end NestedBatch

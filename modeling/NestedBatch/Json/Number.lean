import NestedBatch.Double.Notation
import NestedBatch.Json.Basic

/-! The numbers that JSON texts stand for. Integers are exact. Other numbers
are read from as many leading digits as fit 64 bits, scaled by one
multiplication or division of doubles, so the last bit may differ from that of
the nearest double. -/
namespace NestedBatch.Json

def digitLimit : Nat := 18446744073709551615

/-- The integer of a number with neither point nor exponent. A negative zero is none. -/
def integer? (n : Written) : Option Int :=
  if n.fraction.isEmpty && n.exponent.isNone then
    let size := Numeral.value n.whole
    if n.negative then (if size = 0 ∨ Span.long.low < size then none else some (-(size : Int)))
    else if size ≤ digitLimit then some size
    else none
  else none

/-- Gathers digits onto `acc` while they fit; the digits left over are given back. -/
def gather (acc : Nat) : List Char → Nat × List Char
  | [] => (acc, [])
  | c :: rest =>
    let next := acc * 10 + (c.toNat - '0'.toNat)
    if digitLimit < next then (acc, c :: rest) else gather next rest

/-- The gathered digits of a number, and the power of ten that they are taken times. -/
def significand (n : Written) : Nat × Int :=
  let (whole, dropped) := gather 0 n.whole
  let (all, ignored) := gather whole n.fraction
  (all, (dropped.length : Int) - (n.fraction.length - ignored.length : Nat))

def tenTo (k : Nat) : Magnitude :=
  match Double.ofDecimal false 1 k with
  | .finite _ g => g
  | _ => .zero

/-- Divides a size by `10 ^ 308` so many times, or until nothing is left of it. -/
def shrink (g : Magnitude) : Nat → Option Magnitude
  | 0 => some g
  | n + 1 =>
    if g.mantissa = 0 then some g
    else
      match Double.overSize g (tenTo 308) with
      | .finite _ h => shrink h n
      | _ => none

/-- Takes a size times a power of ten from the table of powers up to 308, after
as many divisions as bring the exponent into the table. Nothing is beyond the
largest double. -/
def scale (g : Magnitude) (e : Int) : Option Magnitude :=
  if 308 < e then (if g.mantissa = 0 then some g else none)
  else if 0 ≤ e then
    match Double.timesSize g (tenTo e.toNat) with
    | .finite _ h => some h
    | _ => none
  else
    let turns := ((-e).toNat - 1) / 308
    (shrink g turns).bind fun h =>
      match Double.overSize h (tenTo ((-e).toNat - 308 * turns)) with
      | .finite _ h => some h
      | _ => none

/-- The power of ten that an exponent adds. Digits beyond 32 bits only say
whether the number is too large or vanishes. -/
def exponentOf (n : Written) : Int :=
  match n.exponent with
  | none => 0
  | some (negative, digits) =>
    let size : Int := min (Numeral.value digits) Span.int.low
    if negative then -size else size

/-- The double of a number, if it is not too large for one. -/
def double? (n : Written) : Option Double :=
  match integer? n with
  | some i => some (.ofInt i)
  | none =>
    let (digits, e) := significand n
    match Double.ofInt digits with
    | .finite _ g => (scale g (e + exponentOf n)).map (Double.finite n.negative)
    | _ => none

/-- Doubles in JSON: written out from `0.00001` up to sixteen digits, and whole
numbers with a point. -/
def numberStyle : NumberStyle := ⟨fun e => -5 ≤ e && e ≤ 15, ['0'], .even⟩

def ofDouble : Double → Json
  | .finite negative g => .number (numberStyle.write negative g)
  | _ => .null

end NestedBatch.Json

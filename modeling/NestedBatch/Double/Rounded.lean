import NestedBatch.Double.Basic

/-! Positive quotients written with a chosen number of digits. Halfway goes to the
even digit. -/
namespace NestedBatch.Double

def toBits (bits num den : Nat) : Nat × Nat :=
  if num = 0 then (0, 1)
  else
    let guess : Int := (num.log2 : Int) - (den.log2 : Int) - bits
    let (n, d) := shifted num den guess
    let e := if n / d < Nat.pow 2 bits then guess else guess + 1
    let (n, d) := shifted num den e
    let m := nearestQuotient n d
    if 0 ≤ e then (m * Nat.pow 2 e.toNat, 1) else (m, Nat.pow 2 (-e).toNat)

/-- A number of digits with the last `places` of them behind the point. -/
def split (places n : Nat) : List Char × List Char :=
  let digits := Numeral.padded (places + 1) n
  (digits.take (digits.length - places), digits.drop (digits.length - places))

def fixed (places num den : Nat) : List Char × List Char :=
  split places (nearestQuotient (num * Nat.pow 10 places) den)

def timesTen (num den : Nat) (e : Int) : Nat × Nat :=
  if 0 ≤ e then (num * Nat.pow 10 e.toNat, den) else (num, den * Nat.pow 10 (-e).toNat)

def leadingPower (num den : Nat) : Int :=
  let guess : Int := ((Numeral.ofNat num).length : Int) - (Numeral.ofNat den).length
  let (n, d) := timesTen num den (-guess)
  if d ≤ n then guess else guess - 1

/-- One digit and `places` more, as a whole number, and the power of ten of the first. -/
def leading (places num den : Nat) : Nat × Int :=
  if num = 0 then (0, 0)
  else
    let e := leadingPower num den
    let (n, d) := timesTen num den (places - e)
    let t := nearestQuotient n d
    if t = Nat.pow 10 (places + 1) then (Nat.pow 10 places, e + 1) else (t, e)

end NestedBatch.Double

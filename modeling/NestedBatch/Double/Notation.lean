import NestedBatch.Double.Shortest
import NestedBatch.Double.Written

/-! Writing doubles: the shortest digits, laid out in positional or in
scientific form as a style says. -/
namespace NestedBatch

structure NumberStyle where
  /-- The exponents of the leading digit for which the number is written out in full. -/
  writtenOut : Int → Bool
  /-- The digits after the point of a whole number. -/
  wholeFraction : List Char
  tie : Tie

namespace NumberStyle

/-- The digits with the point after the first `places` of them. -/
def positional (style : NumberStyle) (negative : Bool) (digits : List Char) (places : Int) :
    Written :=
  if places ≤ 0 then
    ⟨negative, ['0'], List.replicate (-places).toNat '0' ++ digits, none⟩
  else
    let count := places.toNat
    if digits.length ≤ count then
      ⟨negative, digits ++ List.replicate (count - digits.length) '0', style.wholeFraction, none⟩
    else ⟨negative, digits.take count, digits.drop count, none⟩

def scientific (negative : Bool) (digits : List Char) (exponent : Int) : Written :=
  ⟨negative, digits.take 1, digits.drop 1, some (exponent < 0, Numeral.ofNat exponent.natAbs)⟩

def write (style : NumberStyle) (negative : Bool) (g : Magnitude) : Written :=
  if g.mantissa = 0 then ⟨negative, ['0'], style.wholeFraction, none⟩
  else
    let d := g.shortest style.tie
    let digits := Numeral.ofNat d.digits
    let places := digits.length + d.exponent
    if style.writtenOut (places - 1) then style.positional negative digits places
    else scientific negative digits (places - 1)

end NumberStyle

namespace Double

/-- Written out in full at every exponent, whole numbers without a point. -/
def plain : NumberStyle := ⟨fun _ => true, [], .larger⟩

def chars : Double → List Char
  | .nan => ['N', 'a', 'N']
  | .infinite false => ['i', 'n', 'f']
  | .infinite true => ['-', 'i', 'n', 'f']
  | .finite negative g => (plain.write negative g).chars

def text (d : Double) : String := String.ofList d.chars

end Double

end NestedBatch

import NestedBatch.Text.Numeral

/-! Numbers as they stand in a text: a sign, digits before and after the point,
and a power of ten. -/
namespace NestedBatch

structure Written where
  negative : Bool
  whole : List Char
  /-- The digits after the point; with none there is no point either. -/
  fraction : List Char
  /-- Whether the exponent is negative, and its digits. -/
  exponent : Option (Bool × List Char)
  deriving DecidableEq

namespace Written

def ofInt (n : Int) : Written := ⟨n < 0, Numeral.ofNat n.natAbs, [], none⟩

def fractionChars (w : Written) : List Char :=
  if w.fraction.isEmpty then [] else '.' :: w.fraction

def exponentChars (w : Written) : List Char :=
  match w.exponent with
  | none => []
  | some (negative, digits) => 'e' :: (if negative then '-' else '+') :: digits

def chars (w : Written) : List Char :=
  (if w.negative then ['-'] else []) ++ w.whole ++ w.fractionChars ++ w.exponentChars

end Written

end NestedBatch

import NestedBatch.Double.Basic

/-! Reading doubles: an optional sign, then `inf`, `infinity` or `nan` in any
case, or decimal digits with an optional point and exponent. The double nearest
to the written number is read. -/
namespace NestedBatch.Double

def spanDigits (s : List Char) : List Char × List Char :=
  (s.takeWhile Char.isDigit, s.dropWhile Char.isDigit)

/-- What follows the digits: nothing, or `e`, an optional sign and digits. -/
def readExponent : List Char → Option Int
  | [] => some 0
  | e :: rest =>
    if e ≠ 'e' ∧ e ≠ 'E' then none
    else
      let (negative, digits) :=
        match rest with
        | '-' :: more => (true, more)
        | '+' :: more => (false, more)
        | more => (false, more)
      if digits.isEmpty || !digits.all Char.isDigit then none
      else
        let size : Int := Numeral.value digits
        some (if negative then -size else size)

/-- A number without its sign. At least one digit stands before or after the point. -/
def readUnsigned (negative : Bool) (s : List Char) : Option Double :=
  let (whole, rest) := spanDigits s
  let (fraction, rest) :=
    match rest with
    | '.' :: more => spanDigits more
    | more => ([], more)
  if whole.isEmpty && fraction.isEmpty then none
  else
    (readExponent rest).map fun e =>
      ofDecimal negative (Numeral.value (whole ++ fraction)) (e - fraction.length)

def named (negative : Bool) (s : List Char) : Option Double :=
  let name := String.ofList (s.map Char.toLower)
  if name = "inf" ∨ name = "infinity" then some (.infinite negative)
  else if name = "nan" then some .nan
  else none

def read (s : List Char) : Option Double :=
  let (negative, rest) :=
    match s with
    | '-' :: more => (true, more)
    | '+' :: more => (false, more)
    | more => (false, more)
  (named negative rest).orElse fun _ => readUnsigned negative rest

end NestedBatch.Double

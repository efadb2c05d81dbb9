import NestedBatch.Text.Numeral

/-! Integers as the shell reads them: decimal, octal behind a zero, or
hexadecimal behind `0x`. -/
namespace NestedBatch.Shell

def isBlank (c : Char) : Bool := c = ' ' || (0x9 ≤ c.toNat && c.toNat ≤ 0xD)

def hexDigit? (c : Char) : Option Nat :=
  if c.isDigit then some (c.toNat - '0'.toNat)
  else if 'a' ≤ c ∧ c ≤ 'f' then some (c.toNat - 'a'.toNat + 10)
  else if 'A' ≤ c ∧ c ≤ 'F' then some (c.toNat - 'A'.toNat + 10)
  else none

/-- The digits in front of a text in some base: their value, and what is left. -/
def leadingDigits (base acc : Nat) : List Char → Nat × List Char
  | [] => (acc, [])
  | c :: rest =>
    match hexDigit? c with
    | some d => if d < base then leadingDigits base (acc * base + d) rest else (acc, c :: rest)
    | none => (acc, c :: rest)

/-- The size of the number in front of a text, and what is left. -/
def leadingSize (s : List Char) : Nat × List Char :=
  match s with
  | '0' :: x :: d :: rest =>
    if (x = 'x' ∨ x = 'X') ∧ (hexDigit? d).isSome then leadingDigits 16 0 (d :: rest)
    else leadingDigits 8 0 (x :: d :: rest)
  | '0' :: rest => leadingDigits 8 0 rest
  | rest => leadingDigits 10 0 rest

/-- The integer in front of a text after blanks and a sign, and what is left. Where
there are no digits, everything is left. -/
def leadingInteger (s : List Char) : Int × List Char :=
  let t := s.dropWhile isBlank
  let digits := if t.head? = some '-' || t.head? = some '+' then t.drop 1 else t
  let (n, left) := leadingSize digits
  if left.length = digits.length then (0, s)
  else (if t.head? = some '-' then -(n : Int) else n, left)

def isWord (n : Int) : Bool := -(Span.long.low : Int) ≤ n && n ≤ Span.long.high

def signedWord (n : Int) : Int × Bool :=
  if n < -(Span.long.low : Int) then (-Span.long.low, false)
  else if (Span.long.high : Int) < n then (Span.long.high, false)
  else (n, true)

/-- The number in decimal in front of a text after blanks and a sign, and what is left. -/
def leadingDecimal? (s : List Char) : Option (Int × List Char) :=
  let t := s.dropWhile isBlank
  let (negative, t) :=
    match t with
    | '-' :: rest => (true, rest)
    | '+' :: rest => (false, rest)
    | rest => (false, rest)
  let digits := t.takeWhile Char.isDigit
  let n : Int := Numeral.value digits
  if digits.isEmpty then none else some (if negative then -n else n, t.drop digits.length)

/-- A number in decimal with nothing but blanks around it, as builtin commands take it. -/
def decimal? (s : List Char) : Option Int :=
  match leadingDecimal? s with
  | some (n, rest) => if rest.all isBlank && isWord n then some n else none
  | none => none

def digits? (s : List Char) : Option Nat :=
  if s.isEmpty || !s.all Char.isDigit then none else some (Numeral.value s)

end NestedBatch.Shell

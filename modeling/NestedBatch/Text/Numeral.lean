/-! Decimal numerals of the integers in a range: how they are written, and how
they are read with the first cause for which a text is refused. -/
namespace NestedBatch

/-- The integers from `-low` to `high`. -/
structure Span where
  low : Nat
  high : Nat

namespace Span

def long : Span := ⟨9223372036854775808, 9223372036854775807⟩

def int : Span := ⟨2147483648, 2147483647⟩

end Span

inductive NumeralFault where
  | empty
  | invalidDigit
  | tooLarge
  | tooSmall
  deriving DecidableEq

def NumeralFault.message : NumeralFault → String
  | .empty => "cannot parse integer from empty string"
  | .invalidDigit => "invalid digit found in string"
  | .tooLarge => "number too large to fit in target type"
  | .tooSmall => "number too small to fit in target type"

namespace Numeral

def digit? (c : Char) : Option Nat :=
  if c.isDigit then some (c.toNat - '0'.toNat) else none

/-- Reads digits onto `acc`, up to `bound`. The first character that is no
digit, or that takes the number over the bound, decides the fault. -/
def magnitude (bound : Nat) (beyond : NumeralFault) (acc : Nat) :
    List Char → Except NumeralFault Nat
  | [] => .ok acc
  | c :: rest =>
    match digit? c with
    | none => .error .invalidDigit
    | some d =>
      if bound < acc * 10 + d then .error beyond
      else magnitude bound beyond (acc * 10 + d) rest

/-- Reads an integer of a range: an optional sign, then digits up to the end. -/
def read (span : Span) : List Char → Except NumeralFault Int
  | [] => .error .empty
  | c :: rest =>
    if c = '-' ∨ c = '+' then
      if rest.isEmpty then .error .invalidDigit
      else if c = '-' then (magnitude span.low .tooSmall 0 rest).map fun n => -(n : Int)
      else (magnitude span.high .tooLarge 0 rest).map fun n => (n : Int)
    else (magnitude span.high .tooLarge 0 (c :: rest)).map fun n => (n : Int)

def ofNat (n : Nat) : List Char := Nat.toDigits 10 n

/-- An integer in decimal, with a minus sign if it is negative. -/
def ofInt : Int → List Char
  | .ofNat n => ofNat n
  | .negSucc n => '-' :: ofNat (n + 1)

/-- A number in at least `width` digits. -/
def padded (width n : Nat) : List Char :=
  let digits := ofNat n
  List.replicate (width - digits.length) '0' ++ digits

def value (digits : List Char) : Nat := Nat.ofDigitChars 10 digits 0

@[simp] theorem value_ofNat (n : Nat) : value (ofNat n) = n :=
  Nat.ofDigitChars_toDigits (by decide) (by decide)

theorem isDigit_of_mem_ofNat {c : Char} {n : Nat} (h : c ∈ ofNat n) : c.isDigit = true :=
  Nat.isDigit_of_mem_toDigits (by decide) (by decide) h

def natText (n : Nat) : String := String.ofList (ofNat n)

def intText (n : Int) : String := String.ofList (ofInt n)

end Numeral

end NestedBatch

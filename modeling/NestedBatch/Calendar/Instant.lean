import NestedBatch.Calendar.Date
import NestedBatch.Text.Numeral

/-! Instants of Coordinated Universal Time and how they are written. -/
namespace NestedBatch

/-- A second counted from the start of 1970 and a part of it in nanoseconds. The
part may reach into a leap second, which is written as the second after: at the
end of a minute as second 60. -/
structure Instant where
  second : Int
  nano : Nat
  fits : -8334601228800 ≤ second ∧ second ≤ 8210266876799 ∧ nano < 2000000000
  deriving DecidableEq

inductive Precision where
  | millis
  | nanos
  /-- The fewest of 0, 3, 6 and 9 digits that lose nothing. -/
  | exact

namespace Instant

def of? (second : Int) (nano : Nat) : Option Instant :=
  if h : -8334601228800 ≤ second ∧ second ≤ 8210266876799 ∧ nano < 2000000000
  then some ⟨second, nano, h⟩ else none

def epoch : Instant := ⟨0, 0, by decide⟩

def date (t : Instant) : Date := .ofNumber (t.second / 86400)

def secondOfDay (t : Instant) : Nat := (t.second % 86400).toNat

/-- A year in four digits; outside 0 to 9999 with its sign and as many as it needs. -/
def yearText (year : Int) : List Char :=
  if 0 ≤ year ∧ year ≤ 9999 then Numeral.padded 4 year.toNat
  else (if year < 0 then '-' else '+') :: Numeral.padded 4 year.natAbs

def dateText (d : Date) : List Char :=
  yearText d.year ++ '-' :: (Numeral.padded 2 d.month ++ '-' :: Numeral.padded 2 d.day)

def fractionText (nano : Nat) : Precision → List Char
  | .millis => '.' :: Numeral.padded 3 (nano / 1000000)
  | .nanos => '.' :: Numeral.padded 9 nano
  | .exact =>
    if nano = 0 then []
    else if nano % 1000000 = 0 then '.' :: Numeral.padded 3 (nano / 1000000)
    else if nano % 1000 = 0 then '.' :: Numeral.padded 6 (nano / 1000)
    else '.' :: Numeral.padded 9 nano

/-- Date, `T`, time of day and `Z`. -/
def chars (t : Instant) (precision : Precision) : List Char :=
  let s := t.secondOfDay
  let leap := 1000000000 ≤ t.nano
  let second := s % 60 + (if leap then 1 else 0)
  let nano := if leap then t.nano - 1000000000 else t.nano
  dateText t.date ++ 'T' :: (Numeral.padded 2 (s / 3600) ++ ':' ::
    (Numeral.padded 2 (s / 60 % 60) ++ ':' ::
      (Numeral.padded 2 second ++ fractionText nano precision ++ ['Z'])))

def text (t : Instant) (precision : Precision) : String := String.ofList (t.chars precision)

/-- Nanoseconds from one instant to another. A leap second between the two, on
one day, counts as a second of its own. -/
def nanosSince (later earlier : Instant) : Int :=
  let a := later.secondOfDay
  let b := earlier.secondOfDay
  let leap : Int :=
    if b < a ∧ 1000000000 ≤ earlier.nano then 1
    else if a < b ∧ 1000000000 ≤ later.nano then -1
    else 0
  (later.second - earlier.second + leap) * 1000000000 + (later.nano : Int) - earlier.nano

/-- Whole milliseconds from one instant to another; the rest is dropped. -/
def millisSince (later earlier : Instant) : Int :=
  (later.nanosSince earlier).tdiv 1000000

/-- The instant some milliseconds later, or the same one at the end of time. -/
def plusMillis (t : Instant) (n : Nat) : Instant :=
  let whole := t.nano % 1000000000 + n * 1000000
  (of? (t.second + (whole / 1000000000 : Nat)) (whole % 1000000000)).getD t

end Instant

end NestedBatch

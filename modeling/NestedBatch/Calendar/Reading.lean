import NestedBatch.Calendar.Instant
import NestedBatch.Text.Blank

/-! Reading dates and times: strict timestamps with a zone, the looser form in
which stored times are read, and plain dates. -/
namespace NestedBatch.Calendar

open Text

/-- Reads at least `least` and at most `most` digits. -/
def number (least most : Nat) (s : List Char) : Option (Nat × List Char) :=
  let digits := (s.take most).takeWhile Char.isDigit
  if digits.length < least then none else some (Numeral.value digits, s.drop digits.length)

def skip (c : Char) : List Char → Option (List Char)
  | [] => none
  | d :: rest => if d = c then some rest else none

def skipSeparator : List Char → Option (List Char)
  | [] => none
  | c :: rest => if c = 't' ∨ c = 'T' ∨ c = ' ' then some rest else none

/-- An optional point with digits. Nine digits count, further ones are passed over. -/
def fraction : List Char → Option (Nat × List Char)
  | '.' :: rest =>
    let digits := rest.takeWhile Char.isDigit
    if digits.isEmpty then none
    else
      let counted := digits.take 9
      some (Numeral.value counted * Nat.pow 10 (9 - counted.length), rest.drop digits.length)
  | s => some (0, s)

/-- A zone: `Z`, or a sign, two digits of hours and two of minutes, in seconds
east. `between` reads what stands between hours and minutes. -/
def zone (between : List Char → Option (List Char)) : List Char → Option (Int × List Char)
  | [] => none
  | c :: rest =>
    if c = 'Z' ∨ c = 'z' then some (0, rest)
    else if c ≠ '+' ∧ c ≠ '-' ∧ c ≠ '\u2212' then none
    else do
      let (hours, rest) ← number 2 2 rest
      let rest ← between rest
      let (minutes, rest) ← number 2 2 rest
      if 59 < minutes then none
      else
        let size : Int := hours * 3600 + minutes * 60
        some (if c = '+' then size else -size, rest)

/-- The instant of a local date and time. Second 60 is a leap second. -/
def instant? (d : Date) (hour minute second nano : Nat) (offset : Int) : Option Instant :=
  if !d.isValid || d.year < -262143 || 262142 < d.year then none
  else if 23 < hour || 59 < minute || 60 < second || 86399 < offset || offset < -86399 then none
  else
    let (second, nano) := if second = 60 then (59, nano + 1000000000) else (second, nano)
    Instant.of? (d.number * 86400 + hour * 3600 + minute * 60 + second - offset) nano

/-- A timestamp: every field at its full width, and a zone with its minutes. -/
def readTimestamp (s : List Char) : Option Instant := do
  let (year, s) ← number 4 4 s
  let s ← skip '-' s
  let (month, s) ← number 2 2 s
  let s ← skip '-' s
  let (day, s) ← number 2 2 s
  let s ← skipSeparator s
  let (hour, s) ← number 2 2 s
  let s ← skip ':' s
  let (minute, s) ← number 2 2 s
  let s ← skip ':' s
  let (second, s) ← number 2 2 s
  let (nano, s) ← fraction s
  let (offset, s) ← zone (skip ':') s
  if s.isEmpty then instant? ⟨year, month, day⟩ hour minute second nano offset else none

/-- A year: with a sign any number of digits, without one at most four. -/
def looseYear (s : List Char) : Option (Int × List Char) :=
  match trimLeft s with
  | '-' :: rest => (number 1 rest.length rest).map fun p => (-(p.1 : Int), p.2)
  | '+' :: rest => (number 1 rest.length rest).map fun p => ((p.1 : Int), p.2)
  | rest => (number 1 4 rest).map fun p => ((p.1 : Int), p.2)

def looseField (s : List Char) : Option (Nat × List Char) := number 1 2 (trimLeft s)

/-- A plain date: year, month and day between dashes, leading zeros not needed. -/
def readDate (s : List Char) : Option Instant := do
  let (year, s) ← looseYear s
  let s ← skip '-' s
  let (month, s) ← looseField s
  let s ← skip '-' s
  let (day, s) ← looseField s
  if s.isEmpty then instant? ⟨year, month, day⟩ 0 0 0 0 0 else none

/-- The zone of a stored time, which may also be the word UTC, in any case. -/
def looseZone (s : List Char) : Option (Int × List Char) :=
  if (s.take 3).map Char.toUpper = ['U', 'T', 'C'] then some (0, s.drop 3)
  else zone (fun t => some (t.dropWhile fun c => c = ':' || isBlank c)) s

def readStored (s : List Char) : Option Instant := do
  let (year, s) ← looseYear s
  let s ← skip '-' (trimLeft s)
  let (month, s) ← looseField s
  let s ← skip '-' (trimLeft s)
  let (day, s) ← looseField s
  let s ← skipSeparator s
  let (hour, s) ← looseField s
  let s ← skip ':' (trimLeft s)
  let (minute, s) ← looseField s
  let s ← skip ':' (trimLeft s)
  let (second, s) ← looseField s
  let (nano, s) ← fraction s
  let (offset, s) ← looseZone (trimLeft s)
  if (trimLeft s).isEmpty then instant? ⟨year, month, day⟩ hour minute second nano offset else none

/-- What a date parameter may hold: a timestamp, or a plain date at midnight. -/
def readInstant (s : String) : Option Instant :=
  (readTimestamp s.toList).orElse fun _ => readDate s.toList

end NestedBatch.Calendar

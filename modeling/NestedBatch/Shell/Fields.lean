import NestedBatch.Shell.Pattern

/-! From the text of a word to the arguments it stands for: splitting at the
separators that a script has chosen. -/
namespace NestedBatch.Shell

/-- How the characters of a stretch of text take part in splitting. -/
inductive Zone where
  /-- They do not. -/
  | fixed
  /-- They part fields where they are separators. -/
  | split
  /-- They are arguments, with the character NUL between them. -/
  | arguments
  deriving DecidableEq

inductive Mark where
  | char (c : Char) (quoted : Bool) (zone : Zone)
  /-- Quotes, which make a field even where there is nothing between them. -/
  | quotes
  /-- The start of a stretch of text that was filled in. -/
  | start (zone : Zone)
  deriving DecidableEq

abbrev Field := Marked

def isBlankSeparator (c : Char) : Bool := c = ' ' || c = '\t' || c = '\n' || c = '\x00'

/-- The fields found so far, newest first, and the one under way. -/
structure Splitting where
  done : List Field
  /-- The characters of the field under way, newest first. -/
  current : Field
  /-- Are there quotes in the field under way? -/
  marked : Bool
  /-- Has a blank just ended a field? -/
  afterBlank : Bool
  afterArguments : Bool
  zone : Zone
  /-- How many fields may still be ended. -/
  left : Option Nat
  /-- Where the field that takes all the rest would end. -/
  endsAt : Option Field

namespace Splitting

def begin (left : Option Nat) : Splitting :=
  ⟨[], [], false, false, false, .fixed, left, none⟩

def push (s : Splitting) (c : Char) (quoted : Bool) : Splitting :=
  { s with current := (c, quoted) :: s.current }

def cut (s : Splitting) : Splitting :=
  { s with done := s.current.reverse :: s.done, current := [], marked := false }

/-- A character of the last field, which takes all the rest: blanks at the end
are left out, and so is a single separator. -/
def pushLast (s : Splitting) (c : Char) (quoted separator blank : Bool) : Splitting :=
  if blank then { s.push c quoted with endsAt := s.endsAt.or (some s.current) }
  else
    let endsAt := if separator && s.afterBlank then s.endsAt else none
    { s.push c quoted with endsAt, afterBlank := false }

def separate (s : Splitting) (c : Char) (quoted blank : Bool) : Splitting :=
  let s := if s.afterArguments || s.zone = .arguments then s else { s with afterBlank := blank }
  if s.current.isEmpty && !s.marked && s.afterBlank then { s with afterBlank := false }
  else
    match s.left with
    | some 0 | some 1 => { s.push c quoted with left := some 0, endsAt := some s.current }
    | some (n + 2) => { s.cut with left := some (n + 1) }
    | none => s.cut

def step (separators : List Char) (s : Splitting) : Mark → Splitting
  | .quotes => { s with marked := true }
  | .start zone =>
    { s with zone, afterArguments := s.zone = .arguments, afterBlank := false }
  | .char c quoted .fixed => s.push c quoted
  | .char c quoted zone =>
    let separator := c = '\x00' || (zone = .split && separators.contains c)
    let blank := separator && isBlankSeparator c
    if s.left = some 0 then s.pushLast c quoted separator blank
    else if separator && s.afterBlank then
      if blank then s else { s with afterBlank := false }
    else if separator then s.separate c quoted blank
    else { s.push c quoted with afterBlank := false }

/-- The fields in the end. The last one counts if there is anything in it, or if
arguments came last. -/
def finish (s : Splitting) : List Field :=
  let last := s.endsAt.getD s.current
  let fields :=
    if last.isEmpty && !s.marked && s.zone ≠ .arguments then s.done else last.reverse :: s.done
  fields.reverse

end Splitting

namespace Mark

def ofText (quoted : Bool) (zone : Zone) (text : List Char) : List Mark :=
  text.map fun c => .char c quoted zone

/-- The fields of a word, or only the first so many, of which the last takes all the rest. -/
def fields (separators : List Char) (limit : Option Nat) (marks : List Mark) : List Field :=
  (marks.foldl (Splitting.step separators) (Splitting.begin limit)).finish

def field (marks : List Mark) : Field :=
  marks.filterMap fun
    | .char c quoted _ => some (c, quoted)
    | _ => none

def text (marks : List Mark) : List Char := (field marks).map (·.1)

end Mark

end NestedBatch.Shell

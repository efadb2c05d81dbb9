import NestedBatch.Shell.Arithmetic
import NestedBatch.Shell.Builtin.Table

/-! What parameters, directories of users and sums are replaced by in words. -/
namespace NestedBatch.Shell

namespace Act

def parameter? (name : String) : Act (Option String) := do
  let s ← get
  if name = "?" then return some (Numeral.natText s.code)
  else if name = "$" then return some (Numeral.natText s.shell)
  else if name = "#" then return some (Numeral.natText s.arguments.length)
  else if name = "!" then return s.lastJob.map Numeral.natText
  else if name = "-" then return some (String.ofList (Builtin.shownOptions s.options))
  else if name = "0" then return some s.name
  else if name.toList.all Char.isDigit then return s.arguments[Numeral.value name.toList - 1]?
  else return s.value? name

/-- All arguments in one text, as they are where no fields are made. -/
def joinedArguments : Act String := do
  let s ← get
  let between :=
    match s.value? "IFS" with
    | none => " "
    | some separators => String.ofList (separators.toList.take 1)
  return between.intercalate s.arguments

end Act

structure Filling where
  /-- Is the word to be split into fields? -/
  full : Bool
  /-- Does the word stand for a parameter, so that even its own text is split? -/
  inside : Bool

def Filling.marks (f : Filling) (quoted : Bool) (text : List Char) : List Mark :=
  if quoted then Mark.ofText true .fixed text
  else if f.full then .start .split :: Mark.ofText false .split text
  else Mark.ofText false .fixed text

def argumentText (arguments : List String) : List Char :=
  ['\x00'].intercalate (arguments.map String.toList)

def argumentMarks (quoted : Bool) (text : List Char) : List Mark :=
  let zone : Zone := if quoted then .arguments else .split
  .start zone :: Mark.ofText quoted zone text

/-- A text without the line breaks at its end, and without NUL. -/
def filledText (s : List Char) : List Char :=
  ((s.filter (· ≠ '\x00')).reverse.dropWhile (· = '\n')).reverse

/-- A name of a user's directory in front of a text, which ends at a slash, or in an
assignment at a colon. -/
def homeMarks (home : Option String) (assigned last : Bool) (text : List Char) :
    List Mark × List Char :=
  let name := (text.drop 1).takeWhile fun c => c ≠ '/' && !(assigned && c = ':')
  let rest := text.drop (name.length + 1)
  let found :=
    if rest.isEmpty && !last then none
    else if name.isEmpty then home
    else if name = "root".toList then some "/root"
    else none
  match found with
  | some place => (Mark.ofText true .fixed place.toList, rest)
  | none => ([], text)

/-- The directories of users filled in at the front of a text, and in an assignment
also behind colons. -/
def tildeMarks (home : Option String) (assigned last : Bool) :
    Nat → Bool → List Char → List Mark
  | 0, _, _ => []
  | _, _, [] => []
  | fuel + 1, front, c :: rest =>
    if front && c = '~' then
      match homeMarks home assigned last (c :: rest) with
      | ([], _) => .char c false .fixed :: tildeMarks home assigned last fuel false rest
      | (marks, rest) => marks ++ tildeMarks home assigned last fuel false rest
    else
      .char c false .fixed :: tildeMarks home assigned last fuel (assigned && c = ':') rest

def sumVariables : Arithmetic.Variables Session where
  get s name := (s.value? name).map String.toList
  set s name value :=
    if (s.vars.get? name).any Variable.fixed then none
    else
      let old := (s.vars.get? name).getD ⟨none, false, false⟩
      let new := { old with value := some (String.ofList value) }
      some { s with vars := s.vars.put name new }

end NestedBatch.Shell

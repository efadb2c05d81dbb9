import NestedBatch.Shell.Condition
import NestedBatch.Shell.Printing
import NestedBatch.Shell.Program.Cat
import NestedBatch.Shell.Program.Entries
import NestedBatch.Shell.Program.Grep
import NestedBatch.Shell.Program.Sort

/-! The programs by their names, apart from those that start other programs. -/
namespace NestedBatch.Shell.Program

def output (program : String) (text : List Char) (code : Nat) : Act Nat := do
  match ← Act.write 1 text with
  | none => return code
  | some fault =>
    say program (faultText "write error" fault)
    return max code 1

def printf (words : List String) : Act Nat := do
  let (pieces, code) := printFormatted .program words
  let mut failed := false
  for piece in pieces do
    match piece with
    | .complaint text => say "printf" text
    | .out text => if (← Act.write 1 text).isSome then failed := true
  return if failed then max code 1 else code

def test (words : List String) : Act Nat := do
  match Condition.holds ["=="] (← get).files words with
  | .ok true => return 0
  | .ok false => return 1
  | .error fault =>
    say "test" fault.message
    return 2

def bracket (words : List String) : Act Nat := do
  if words.getLast? = some "]" then test words.dropLast
  else
    say "[" "missing ']'"
    return 2

def isTimeSpan (w : String) : Bool :=
  let (negative, f, left) := signedFractionOf w.toList
  !negative && f ≠ .nan && left.length < w.length &&
    (left.isEmpty || ["s", "m", "h", "d"].contains (String.ofList left))

def sleep (words : List String) : Act Nat := do
  let words := if words.head? = some "--" then words.drop 1 else words
  if words.isEmpty then
    sayUsage "sleep" "missing operand"
    return 1
  match words.find? fun w => !isTimeSpan w with
  | some w =>
    sayUsage "sleep" ("invalid time interval '" ++ w ++ "'")
    return 1
  | none => return 0

def find? (name : String) : Option (List String → Act Nat) :=
  let all : List (String × (List String → Act Nat)) :=
    [("echo", fun words => output "echo" (echoProgram words) 0), ("printf", printf),
     ("cat", Cat.run), ("grep", Grep.run), ("sort", Sort.run), ("touch", touch), ("test", test),
     ("[", bracket), ("rm", rm), ("mkdir", mkdir), ("rmdir", rmdir), ("true", fun _ => pure 0),
     ("false", fun _ => pure 1), ("sleep", sleep)]
  lookupKey name all

/-! ### Environments -/

/-- What `env` makes of its arguments: the variables, and the words of the command. -/
structure EnvRequest where
  vars : List (String × String)
  command : List String
  /-- What ends the lines that are printed. -/
  mark : Char
  /-- The directory that the command starts in. -/
  directory : Option String

def envNames : OptionNames where
  letters := [('i', false), ('0', false), ('v', false), ('u', true), ('C', true), ('S', true)]
  words := [("ignore-environment", 'i', false), ("null", '0', false), ("unset", 'u', true),
    ("chdir", 'C', true), ("debug", 'v', false)]
  anywhere := false

def putVariable (vars : List (String × String)) (name value : String) :
    List (String × String) :=
  if vars.any fun v => v.1 = name then
    vars.map fun v => if v.1 = name then (name, value) else v
  else vars ++ [(name, value)]

def takeSettings (vars : List (String × String)) :
    List String → List (String × String) × List String
  | [] => (vars, [])
  | w :: rest =>
    let name := w.toList.takeWhile (· ≠ '=')
    if name.length < w.length then
      let value := String.ofList (w.toList.drop (name.length + 1))
      takeSettings (putVariable vars (String.ofList name) value) rest
    else (vars, w :: rest)

def readEnv (vars : List (String × String)) (words : List String) :
    Except String EnvRequest :=
  match envNames.read (words.length + 1) words with
  | .error e => .error e
  | .ok (options, others) =>
    let dash := others.head? = some "-"
    let others := if dash then others.drop 1 else others
    let kept := if dash || given options "i" then [] else vars
    let gone := (options.filter fun o => o.1 = 'u').map (·.2)
    let kept := kept.filter fun v => !gone.contains v.1
    let split := ((argumentOf options 'S').getD "").splitOn " " |>.filter (· ≠ "")
    let (vars, command) := takeSettings kept (split ++ others)
    .ok ⟨vars, command, if given options "0" then '\x00' else '\n', argumentOf options 'C'⟩

end NestedBatch.Shell.Program

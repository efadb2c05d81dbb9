import NestedBatch.Shell.Builtin.Processes
import NestedBatch.Shell.Builtin.Variables
import NestedBatch.Shell.Condition
import NestedBatch.Shell.Format
import NestedBatch.Shell.Mask
import NestedBatch.Shell.Printing

/-! The commands that are part of the shell and run no other commands. Each gives
its exit code, or an error. -/
namespace NestedBatch.Shell.Builtin

def echo (words : List String) : Attempt Nat := do
  Attempt.print (echoBuiltin words)
  return 0

def printf (words : List String) : Attempt Nat := do
  let (pieces, code) := printFormatted .builtin words
  for piece in pieces do
    match piece with
    | .complaint text => Act.complainOf (some "printf") text
    | .out _ => pure ()
  Attempt.print (outputOf pieces)
  return code

def test (words : List String) : Attempt Nat := do
  match Condition.holds [] (← get).files words with
  | .ok true => return 0
  | .ok false => return 1
  | .error fault => throw fault.message

def bracket (words : List String) : Attempt Nat :=
  if (words.getLast?.getD "").startsWith "]" then test words.dropLast else throw "missing ]"

def cd (words : List String) : Attempt Nat := do
  let (_, words) ← Attempt.plainOptions ['L', 'P'] words
  let s ← get
  let wanted := words.headD ((s.value? "HOME").getD "")
  let back := wanted = "-"
  let name := if back then (s.value? "OLDPWD").getD "" else wanted
  let name := if name = "" then "." else name
  match s.files.enter (Text.decode name.toList) with
  | .error _ => throw ("can't cd to " ++ name)
  | .ok files =>
    let old := String.ofList (Text.encode (Files.absolute s.here))
    set { s with here := files.here }
    let new := String.ofList (Text.encode (Files.absolute files.here))
    for (name, value) in [("OLDPWD", old), ("PWD", new)] do
      let _ ← Act.putVariable name fun v => { v with value := some value, exported := true }
    if back then Attempt.printLines [new]
    return 0

def pwd (words : List String) : Attempt Nat := do
  let _ ← Attempt.plainOptions ['L', 'P'] words
  Attempt.printLines [String.ofList (Text.encode (Files.absolute (← get).here))]
  return 0

def umask (words : List String) : Attempt Nat := do
  let (options, rest) ← Attempt.plainOptions ['S'] words
  let mask := (← get).mask
  match rest with
  | [] =>
    Attempt.printLines [if options.isEmpty then maskText mask else (Grants.ofMask mask).text]
  | mode :: _ =>
    if mode.toList.head?.any Char.isDigit then
      let (n, left) := leadingDigits 8 0 mode.toList
      if !left.isEmpty then throw ("Illegal number: " ++ mode)
      modify fun s => { s with mask := n % 512 }
    else
      match (Grants.ofMask mask).apply (mode.length + 1) [] mode.toList with
      | some g => modify fun s => { s with mask := g.mask }
      | none => throw ("Illegal mode: " ++ mode)
  return 0

def times (_ : List String) : Attempt Nat := do
  Attempt.printLines ["0m0.000000s 0m0.000000s", "0m0.000000s 0m0.000000s"]
  return 0

def shownAlias (name : String) (text : List Char) : String :=
  name ++ "=" ++ String.ofList (inQuotes text)

def aliases (words : List String) : Attempt Nat := do
  if words.isEmpty then
    let all := (← get).aliases.entries.mergeSort fun a b =>
      Variables.bucket a.1 ≤ Variables.bucket b.1
    Attempt.printLines (all.map fun a => shownAlias a.1 a.2)
    return 0
  let mut code := 0
  for w in words do
    match splitAssignment w with
    | (name, some text) =>
      modify fun s => { s with aliases := s.aliases.insert name text.toList }
    | (name, none) =>
      match (← get).aliases.get? name with
      | some text => Attempt.printLines [shownAlias name text]
      | none =>
        Attempt.report ("alias: " ++ name ++ " not found")
        code := 1
  return code

def unalias (words : List String) : Attempt Nat := do
  let (options, names) ← Attempt.plainOptions ['a'] words
  if !options.isEmpty then
    modify fun s => { s with aliases := .empty }
    return 0
  let mut code := 0
  for name in names do
    if (← get).aliases.contains name then
      modify fun s => { s with aliases := s.aliases.filter fun a => a.1 ≠ name }
    else
      Attempt.report ("unalias: " ++ name ++ " not found")
      code := 1
  return code

/-- What a name stands for as a command; in full it is a sentence. -/
def description (s : Session) (full : Bool) (name : String) : Option String :=
  let say (short long : String) : Option String := some (if full then name ++ long else short)
  if reservedWords.contains name then say name " is a shell keyword"
  else
    match s.aliases.get? name with
    | some text =>
      say ("alias " ++ shownAlias name text) (" is an alias for " ++ String.ofList text)
    | none =>
      if s.functions.contains name then say name " is a shell function"
      else if isSpecialCommand name then say name " is a special shell builtin"
      else if isBuiltin name then say name " is a shell builtin"
      else if name.toList.contains '/' then
        match s.look name with
        | .ok (.program _) => say name (" is " ++ name)
        | _ => none
      else
        match s.find name with
        | .program path => say path (" is " ++ path)
        | _ => none

def describe (full : Bool) (names : List String) : Attempt Nat := do
  let s ← get
  let mut code := 0
  for name in names do
    match description s full name with
    | some text => Attempt.printLines [text]
    | none =>
      if full then Attempt.printLines [name ++ ": not found"]
      code := 127
  return code

def ulimit (_ : List String) : Attempt Nat := do
  Attempt.printLines ["unlimited"]
  return 0

def find? (name : String) : Option (List String → Attempt Nat) :=
  let all : List (String × (List String → Attempt Nat)) :=
    [(":", fun _ => pure 0), ("true", fun _ => pure 0), ("false", fun _ => pure 1),
     ("hash", fun _ => pure 0), ("jobs", jobs), ("break", leave false),
     ("continue", leave true), ("return", giveBack), ("exit", exit),
     ("export", declare "export" (fun v => { v with exported := true }) Variable.exported),
     ("readonly", declare "readonly" (fun v => { v with fixed := true }) Variable.fixed),
     ("unset", unset), ("set", setOptions), ("shift", shift), ("local", localVariables),
     ("read", read),
     ("echo", echo), ("printf", printf), ("test", test), ("[", bracket), ("kill", kill),
     ("cd", cd), ("chdir", cd), ("pwd", pwd), ("umask", umask), ("times", times),
     ("alias", aliases), ("unalias", unalias), ("trap", trap), ("getopts", getopts),
     ("type", describe true), ("fg", noJob), ("bg", noJob), ("ulimit", ulimit)]
  lookupKey name all

end NestedBatch.Shell.Builtin

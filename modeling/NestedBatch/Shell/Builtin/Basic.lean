import NestedBatch.Shell.Lexis
import NestedBatch.Shell.Session

/-! What the builtin commands have in common: their names, how they find programs, and
how they read their options. -/
namespace NestedBatch.Shell

def regularNames : List String :=
  ["[", "alias", "bg", "cd", "chdir", "command", "echo", "false", "fg", "getopts", "hash", "jobs",
   "kill", "printf", "pwd", "read", "test", "true", "type", "ulimit", "umask", "unalias", "wait"]

def isSpecialCommand (name : String) : Bool := specialNames.contains name

def isBuiltin (name : String) : Bool := isSpecialCommand name || regularNames.contains name

def inQuotes : List Char → List Char
  | s => go (s.length + 1) s
where
  go : Nat → List Char → List Char
    | 0, _ => []
    | fuel + 1, s =>
      let plain := s.takeWhile (· ≠ singleQuote)
      let rest := s.drop plain.length
      let quotes := rest.takeWhile (· = singleQuote)
      let rest := rest.drop quotes.length
      singleQuote :: plain ++ singleQuote ::
        (if quotes.isEmpty then [] else '"' :: quotes ++ ['"']) ++
        (if rest.isEmpty then [] else go fuel rest)

def quotedText (s : String) : String := String.ofList (inQuotes s.toList)

/-! ### Finding programs -/

inductive Lookup where
  | program (path : String)
  | denied
  | absent
  deriving DecidableEq

namespace Session

def defaultPath : String := "/usr/local/sbin:/usr/local/bin:/usr/sbin:/usr/bin:/sbin:/bin"

def look (s : Session) (name : String) : Except IoFault Found :=
  s.files.look (Text.decode name.toList)

def findAlong (s : Session) (path name : String) : Lookup :=
  let full := (path.splitOn ":").map fun d => if d = "" then name else d ++ "/" ++ name
  let isProgram (n : String) : Bool :=
    match s.look n with
    | .ok (.program _) => true
    | _ => false
  match full.find? isProgram with
  | some n => .program n
  | none => if full.any fun n => (s.look n).toOption.isSome then .denied else .absent

def find (s : Session) (name : String) : Lookup :=
  match s.value? "PATH" with
  | some path => s.findAlong path name
  | none => .absent

end Session

namespace Attempt

/-- Writes the output of a builtin command, and notes if it is lost. -/
def print (text : List Char) : Attempt Unit := do
  if (← Act.write 1 text).isSome then modify fun s => { s with lost := true }

def printLines (lines : List String) : Attempt Unit :=
  print (String.join (lines.map (· ++ "\n"))).toList

def report (text : String) : Attempt Unit := do
  let _ ← Act.write 2 (text ++ "\n").toList

def number (w : String) : Attempt Nat :=
  match decimal? w.toList with
  | some n =>
    if 0 ≤ n ∧ n ≤ Span.int.high then return n.toNat else throw ("Illegal number: " ++ w)
  | none => throw ("Illegal number: " ++ w)

def checkName (w : String) : Attempt Unit :=
  if isName w.toList then return else throw (w ++ ": bad variable name")

def assign (name value : String) : Attempt Unit := do
  checkName name
  if ((← get).vars.get? name).any Variable.fixed then throw (name ++ ": is read only")
  let _ ← Act.putVariable name fun v => { v with value := some value }

/-- The options of a word, from its letters. An option may take the rest of the word,
or the next word. -/
def letters (known : List (Char × Bool)) :
    List Char → List String → Attempt (List (Char × String) × List String)
  | [], words => return ([], words)
  | c :: rest, words =>
    match lookupKnown c with
    | none => throw ("Illegal option -" ++ String.ofList [c])
    | some false => do
      let (more, words) ← letters known rest words
      return ((c, "") :: more, words)
    | some true =>
      match rest, words with
      | [], [] => throw ("No arg for -" ++ String.ofList [c] ++ " option")
      | [], w :: words => return ([(c, w)], words)
      | rest, words => return ([(c, String.ofList rest)], words)
where
  lookupKnown (c : Char) : Option Bool := (known.find? fun p => p.1 = c).map (·.2)

def options (known : List (Char × Bool)) :
    Nat → List String → Attempt (List (Char × String) × List String)
  | 0, words => return ([], words)
  | fuel + 1, words => do
    match words with
    | "--" :: rest => return ([], rest)
    | w :: rest =>
      match w.toList with
      | '-' :: c :: more =>
        let (found, rest) ← letters known (c :: more) rest
        let (others, rest) ← options known fuel rest
        return (found ++ others, rest)
      | _ => return ([], words)
    | [] => return ([], [])

def plainOptions (known : List Char) (words : List String) :
    Attempt (List (Char × String) × List String) :=
  options (known.map (·, false)) (words.length + 1) words

end Attempt

end NestedBatch.Shell

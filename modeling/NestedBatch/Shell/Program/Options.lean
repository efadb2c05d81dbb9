import NestedBatch.Shell.Session

/-! The options of programs: letters, which may stand together behind a dash, and
words behind two dashes, which may be shortened. -/
namespace NestedBatch.Shell.Program

/-- The options that a program knows, each with whether it takes an argument. A word
stands for a letter. -/
structure OptionNames where
  letters : List (Char × Bool)
  words : List (String × Char × Bool)
  /-- May options stand behind other words? -/
  anywhere : Bool
  /-- The words that may have an argument, which then says nothing more. -/
  loose : List String := []
  /-- The letter whose argument a run of digits behind a dash is. -/
  digits : Option Char := none

/-- The options of some words and the other words, or a complaint. -/
abbrev ReadOptions := Except String (List (Char × String) × List String)

namespace OptionNames

/-- The letters of a word behind a dash, with what is left of the words after it. -/
def lettersOf (o : OptionNames) : List Char → List String →
    Except String (List (Char × String) × List String)
  | [], words => .ok ([], words)
  | c :: rest, words =>
    match o.digits, c.isDigit, o.letters.find? fun p => p.1 = c with
    | some letter, true, _ =>
      let number := String.ofList (c :: rest.takeWhile Char.isDigit)
      (lettersOf o (rest.dropWhile Char.isDigit) words).map fun p => ((letter, number) :: p.1, p.2)
    | _, _, none => .error ("invalid option -- '" ++ String.ofList [c] ++ "'")
    | _, _, some (_, false) => (lettersOf o rest words).map fun p => ((c, "") :: p.1, p.2)
    | _, _, some (_, true) =>
      match rest, words with
      | [], [] => .error ("option requires an argument -- '" ++ String.ofList [c] ++ "'")
      | [], w :: words => .ok ([(c, w)], words)
      | rest, words => .ok ([(c, String.ofList rest)], words)
  termination_by letters => letters.length
  decreasing_by
    · have := (List.dropWhile_suffix (l := rest) Char.isDigit).length_le
      simp only [List.length_cons]
      omega
    · simp

def wordOf (o : OptionNames) (w : String) (words : List String) :
    Except String (List (Char × String) × List String) :=
  let name := w.toList.takeWhile (· ≠ '=')
  let value := w.toList.drop name.length
  let shown := "'--" ++ String.ofList name ++ "'"
  let exact := o.words.filter fun p => p.1 = String.ofList name
  let found := if exact.isEmpty then o.words.filter fun p => name.isPrefixOf p.1.toList else exact
  match found with
  | [] => .error ("unrecognized option '--" ++ w ++ "'")
  | (full, c, takes) :: others =>
    if others.any fun p => p.2.1 ≠ c then
      let names := found.map fun p => " '--" ++ p.1 ++ "'"
      .error ("option " ++ shown ++ " is ambiguous; possibilities:" ++ String.join names)
    else if takes then
      match value, words with
      | _ :: value, words => .ok ([(c, String.ofList value)], words)
      | [], v :: words => .ok ([(c, v)], words)
      | [], [] => .error ("option '--" ++ full ++ "' requires an argument")
    else if value.isEmpty || o.loose.contains full then .ok ([(c, "")], words)
    else .error ("option '--" ++ full ++ "' doesn't allow an argument")

def read (o : OptionNames) : Nat → List String → ReadOptions
  | 0, words => .ok ([], words)
  | fuel + 1, words =>
    let go (found : List (Char × String)) (words : List String) : ReadOptions :=
      (read o fuel words).map fun p => (found ++ p.1, p.2)
    match words with
    | [] => .ok ([], [])
    | w :: rest =>
      match w.toList with
      | ['-', '-'] => .ok ([], rest)
      | '-' :: '-' :: name =>
        match o.wordOf (String.ofList name) rest with
        | .error e => .error e
        | .ok (found, rest) => go found rest
      | '-' :: c :: more =>
        match o.lettersOf (c :: more) rest with
        | .error e => .error e
        | .ok (found, rest) => go found rest
      | _ =>
        if o.anywhere then (read o fuel rest).map fun p => (p.1, w :: p.2) else .ok ([], words)

end OptionNames

def given (options : List (Char × String)) (letters : String) : Bool :=
  options.any fun o => letters.toList.contains o.1

def argumentsOf (options : List (Char × String)) (letter : Char) : List String :=
  (options.filter fun o => o.1 = letter).map (·.2)

def argumentOf (options : List (Char × String)) (letter : Char) : Option String :=
  (argumentsOf options letter).getLast?

def say (program text : String) : Act Unit := do
  let _ ← Act.write 2 (program ++ ": " ++ text ++ "\n").toList

def sayUsage (program text : String) : Act Unit := do
  say program text
  let _ ← Act.write 2 ("Try '" ++ program ++ " --help' for more information.\n").toList

/-- Runs a program with its options read; if they are wrong, it ends with a code. -/
def withOptions (program : String) (o : OptionNames) (badCode : Nat) (words : List String)
    (run : List (Char × String) → List String → Act Nat) : Act Nat :=
  match o.read (words.length + 1) words with
  | .ok (options, others) => run options others
  | .error text => do
    sayUsage program text
    return badCode

/-- The octets of a file, or of the input for a dash. -/
def contentOf (name : String) : Act (Except IoFault (List Char)) := do
  if name = "-" then Act.readAll 0
  else
    let files := (← get).files
    return (files.read (Text.decode name.toList)).map Text.octetsOf

def faultText (name : String) (fault : IoFault) : String := name ++ ": " ++ fault.reason.1

/-- The lines of a text. A mark at the end starts no further line. -/
def linesOf (mark : Char) : List Char → List (List Char)
  | [] => []
  | c :: rest =>
    if c = mark then [] :: linesOf mark rest
    else
      match linesOf mark rest with
      | [] => [[c]]
      | first :: more => (c :: first) :: more

end NestedBatch.Shell.Program

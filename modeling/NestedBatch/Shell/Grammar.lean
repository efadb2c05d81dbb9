/-! The commands of the shell language. Texts are held as octets. -/
namespace NestedBatch.Shell

inductive Substitute where
  /-- The word stands for a parameter that has no value. -/
  | default
  /-- The word becomes the value of a parameter that has none. -/
  | assign
  /-- It is an error that the parameter has no value. -/
  | demand
  /-- The word stands for a parameter that has a value. -/
  | alternative
  deriving DecidableEq

inductive FileUse where
  | input
  | output
  /-- Like output, also where files are protected. -/
  | force
  | append
  | both
  deriving DecidableEq

mutual

/-- A piece of a word. What stands in quotes is neither split nor matched against file names. -/
inductive WordPart where
  | literal (text : List Char) (quoted : Bool)
  /-- A place where quotes stand, which make an argument even of nothing. -/
  | quotes
  | parameter (name : String) (use : Use) (quoted : Bool)
  /-- The output of a command. -/
  | output (command : Option Command) (quoted : Bool)
  /-- The value of an arithmetic expression. -/
  | sum (expression : List WordPart) (quoted : Bool)

inductive Use where
  | value
  | length
  /-- `emptyToo` says whether an empty value counts as none. -/
  | substitute (kind : Substitute) (emptyToo : Bool) (word : List WordPart)
  /-- The value without the part at its front or end that matches a pattern. -/
  | trim (front longest : Bool) (pattern : List WordPart)
  | bad

inductive Redirect where
  | file (stream : Nat) (use : FileUse) (target : List WordPart)
  | duplicate (stream : Nat) (target : List WordPart)
  /-- The stream reads a text that stands in the script. -/
  | document (stream : Nat) (text : List WordPart)

inductive Command where
  | simple (assignments : List (String × List WordPart)) (words : List (List WordPart))
      (redirects : List Redirect)
  | pipe (stages : List Command)
  | sequence (first second : Command)
  | both (first second : Command)
  | either (first second : Command)
  | negated (command : Command)
  | background (command : Command)
  | choice (test yes : Command) (no : Option Command)
  /-- Repeats the body while the test succeeds, or as long as it fails. -/
  | loop (whileTrue : Bool) (test body : Command)
  | forEach (name : String) (words : List (List WordPart)) (body : Command)
  /-- Runs the body of the first branch with a pattern that matches the subject. -/
  | branch (subject : List WordPart) (branches : List (List (List WordPart) × Option Command))
  | subshell (body : Command) (redirects : List Redirect)
  | redirected (body : Command) (redirects : List Redirect)
  | define (name : String) (body : Command)
  /-- A command with the line of the script where it stands. -/
  | located (line : Nat) (command : Command)

end

abbrev Word := List WordPart

def plainWord? : Word → Option String
  | [.literal text false] => some (String.ofList text)
  | _ => none

def consChar (c : Char) (quoted : Bool) : Word → Word
  | .literal text q :: rest =>
    if q = quoted then .literal (c :: text) q :: rest
    else .literal [c] quoted :: .literal text q :: rest
  | rest => .literal [c] quoted :: rest

inductive Token where
  | word (w : Word)
  /-- A redirection, up to its target: the stream, if it is given, and the operator. -/
  | redirect (stream : Option Nat) (operator : String)
  | newline
  | background
  | and
  | or
  | pipe
  | semicolon
  | endBranch
  | open
  | close
  | end

end NestedBatch.Shell

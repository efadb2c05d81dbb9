import NestedBatch.Shell.Integer

/-! Escapes in texts, and what `echo` writes. -/
namespace NestedBatch.Shell

def isOctal (c : Char) : Bool := '0' ≤ c && c ≤ '7'

inductive Escape where
  | text (s : List Char)
  /-- All output ends here. -/
  | stop
  /-- Hexadecimal digits are missing. -/
  | bad
  deriving DecidableEq

structure Escapes where
  /-- May an octal number start with one more zero? -/
  zero : Bool
  /-- Does `\c` break off all output? -/
  stops : Bool
  /-- Are there hexadecimal numbers, and does an unknown escape hide its character? -/
  wide : Bool
  /-- May a quote be escaped? -/
  quotes : Bool

namespace Escapes

/-- The shell's own escapes in a format, and those in an argument. -/
def ofFormat : Escapes := ⟨false, false, false, false⟩
def ofArgument : Escapes := ⟨true, true, false, false⟩

def ofProgramFormat : Escapes := ⟨false, true, true, true⟩
def ofProgramArgument : Escapes := ⟨true, true, true, true⟩
def ofProgramEcho : Escapes := ⟨true, true, true, false⟩

def letters : List (Char × Char) :=
  [('\\', '\\'), ('a', '\x07'), ('b', '\x08'), ('e', '\x1b'), ('f', '\x0c'), ('n', '\n'),
   ('r', '\r'), ('t', '\t'), ('v', '\x0b')]

/-- The octet of some digits, of which the low eight bits count. -/
def octetOf (base : Nat) (digits : List Char) : Char :=
  Char.ofNat ((leadingDigits base 0 digits).1 % 256)

/-- What follows a backslash, and what is left. A backslash that starts no escape
stands for itself. -/
def read (e : Escapes) (s : List Char) : Escape × List Char :=
  match s with
  | [] => (.text ['\\'], [])
  | c :: rest =>
    if isOctal c then
      let s := if e.zero && c = '0' then rest else s
      let digits := (s.take 3).takeWhile isOctal
      (.text [octetOf 8 digits], s.drop digits.length)
    else
      match lookupLetter c with
      | some d => (.text [d], rest)
      | none =>
        if c = 'c' && e.stops then (.stop, [])
        else if c = 'x' && e.wide then
          let digits := (rest.take 2).takeWhile fun d => (hexDigit? d).isSome
          if digits.isEmpty then (.bad, rest)
          else (.text [octetOf 16 digits], rest.drop digits.length)
        else if c = '"' && e.quotes then (.text ['"'], rest)
        else if e.wide then (.text ['\\', c], rest)
        else (.text ['\\'], s)
where
  lookupLetter (c : Char) : Option Char := (letters.find? fun p => p.1 = c).map (·.2)

/-- Carries out the escapes of a text. The second component tells whether all
output ends there. -/
def apply (e : Escapes) : Nat → List Char → List Char × Bool
  | 0, _ => ([], false)
  | _, [] => ([], false)
  | fuel + 1, c :: rest =>
    let joined (front rest : List Char) : List Char × Bool :=
      let (s, stopped) := apply e fuel rest
      (front ++ s, stopped)
    if c = '\\' then
      match e.read rest with
      | (.text t, rest) => joined t rest
      | (.stop, _) => ([], true)
      | (.bad, rest) => joined ['\\', 'x'] rest
    else joined [c] rest

end Escapes

/-- The words with a blank between them, each with its escapes carried out. -/
def echoWords (e : Escapes) : List String → List Char × Bool
  | [] => ([], false)
  | w :: rest =>
    let (s, stopped) := e.apply (w.length + 1) w.toList
    if stopped || rest.isEmpty then (s, stopped)
    else
      let (more, stopped) := echoWords e rest
      (s ++ ' ' :: more, stopped)

/-- What the shell's own `echo` writes. -/
def echoBuiltin (arguments : List String) : List Char :=
  let (line, arguments) :=
    match arguments with
    | "-n" :: rest => ([], rest)
    | rest => (['\n'], rest)
  let (s, stopped) := echoWords .ofArgument arguments
  if stopped then s else s ++ line

/-- Is the word made of the letters that `echo` takes as options? -/
def isEchoOption (w : String) : Bool :=
  match w.toList with
  | '-' :: c :: rest => (c :: rest).all fun c => c = 'n' || c = 'e' || c = 'E'
  | _ => false

/-- What the program `echo` writes. It carries escapes out only if it is asked to. -/
def echoProgram (arguments : List String) : List Char :=
  let options := (arguments.takeWhile isEchoOption).flatMap String.toList
  let words := arguments.dropWhile isEchoOption
  let line := if options.contains 'n' then [] else ['\n']
  let escapes := (options.filter fun c => c = 'e' || c = 'E').getLast? = some 'e'
  let (s, stopped) :=
    if escapes then echoWords .ofProgramEcho words else ((" ".intercalate words).toList, false)
  if stopped then s else s ++ line

end NestedBatch.Shell

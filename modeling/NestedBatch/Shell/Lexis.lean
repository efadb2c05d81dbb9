import NestedBatch.Shell.Grammar
import NestedBatch.Text.Numeral

/-! What the text of a script is made of: names, reserved words, operators, and the lines
of a text that stands in the script. -/
namespace NestedBatch.Shell

def backquote : Char := Char.ofNat 96

def singleQuote : Char := Char.ofNat 39

def isNameStart (c : Char) : Bool := c.isAlpha || c = '_'

def isNameChar (c : Char) : Bool := c.isAlphanum || c = '_'

def isSpecialName (c : Char) : Bool := "?$#@*!-".toList.contains c || c.isDigit

def isName (s : List Char) : Bool :=
  match s with
  | [] => false
  | c :: rest => isNameStart c && rest.all isNameChar

def endsWord (c : Char) : Bool := " \t\n;&|<>()".toList.contains c

/-- The words that are no names of commands where a command may start. -/
def reservedWords : List String :=
  ["!", "case", "do", "done", "elif", "else", "esac", "fi", "for", "if", "in", "then", "until",
   "while", "\x7b", "\x7d"]

def closingWords : List String :=
  ["do", "done", "elif", "else", "esac", "fi", "then", "\x7d"]

def specialNames : List String :=
  [".", ":", "break", "continue", "eval", "exec", "exit", "export", "local", "readonly", "return",
   "set", "shift", "times", "trap", "unset"]

inductive Surrounding where
  | nothing
  /-- Braces of a parameter. -/
  | braces
  | quotes
  /-- Braces inside quotes; in them quotes may be opened again. -/
  | quotedBraces (inner : Bool)
  /-- The brackets of an arithmetic expression, with others open inside. -/
  | sum (depth : Nat)
  | document
  deriving DecidableEq

def Surrounding.isQuoted : Surrounding → Bool
  | .nothing | .braces => false
  | _ => true

/-- Does a backslash take away the meaning of this character, and vanish? -/
def Surrounding.isEscapable (m : Surrounding) (c : Char) : Bool :=
  match m with
  | .nothing | .braces => true
  | .quotedBraces _ => c = '\\' || c = '$' || c = backquote || c = '"' || c = '\x7d'
  | .document => c = '\\' || c = '$' || c = backquote
  | _ => c = '\\' || c = '$' || c = backquote || c = '"'

def skipBlanks : List Char → List Char
  | ' ' :: rest | '\t' :: rest => skipBlanks rest
  | '\\' :: '\n' :: rest => skipBlanks rest
  | s => s

/-- What comes before the next token is dropped: blanks, and a comment. -/
def skipToToken (s : List Char) : List Char :=
  match skipBlanks s with
  | '#' :: rest => rest.dropWhile (· ≠ '\n')
  | s => s

def redirection : List Char → Option (String × List Char)
  | '>' :: '>' :: rest => some (">>", rest)
  | '>' :: '&' :: rest => some (">&", rest)
  | '>' :: '|' :: rest => some (">|", rest)
  | '>' :: rest => some (">", rest)
  | '<' :: '<' :: '-' :: rest => some ("<<-", rest)
  | '<' :: '<' :: rest => some ("<<", rest)
  | '<' :: '&' :: rest => some ("<&", rest)
  | '<' :: '>' :: rest => some ("<>", rest)
  | '<' :: rest => some ("<", rest)
  | _ => none

def operator? (s : List Char) : Option (Token × List Char) :=
  match s with
  | [] => some (.end, [])
  | '\n' :: rest => some (.newline, rest)
  | '&' :: '&' :: rest => some (.and, rest)
  | '&' :: rest => some (.background, rest)
  | '|' :: '|' :: rest => some (.or, rest)
  | '|' :: rest => some (.pipe, rest)
  | ';' :: ';' :: rest => some (.endBranch, rest)
  | ';' :: rest => some (.semicolon, rest)
  | '(' :: rest => some (.open, rest)
  | ')' :: rest => some (.close, rest)
  | c :: rest =>
    match redirection s with
    | some (o, rest) => some (.redirect none o, rest)
    | none =>
      if c.isDigit then
        (redirection rest).map fun p => (.redirect (some (c.toNat - '0'.toNat)) p.1, p.2)
      else none

/-- The script between backquotes, and what follows them. A backslash takes away
the meaning of some characters. -/
def backquoted (quoted : Bool) : List Char → Option (List Char × List Char)
  | [] => none
  | '\\' :: '\n' :: rest => backquoted quoted rest
  | '\\' :: c :: rest =>
    (backquoted quoted rest).map fun p =>
      if c = '\\' ∨ c = backquote ∨ c = '$' ∨ (quoted ∧ c = '"') then (c :: p.1, p.2)
      else ('\\' :: c :: p.1, p.2)
  | c :: rest =>
    if c = backquote then some ([], rest)
    else (backquoted quoted rest).map fun p => (c :: p.1, p.2)

/-- The word that ends a document: its text, whether any of it is quoted, and what follows. -/
def delimiter : Nat → List Char → Option (List Char × Bool × List Char)
  | 0, _ => none
  | fuel + 1, s =>
    let joined (text : List Char) (quoted : Bool) (rest : List Char) :
        Option (List Char × Bool × List Char) :=
      (delimiter fuel rest).map fun p => (text ++ p.1, quoted || p.2.1, p.2.2)
    match s with
    | [] => some ([], false, [])
    | '\\' :: c :: rest => joined [c] true rest
    | c :: rest =>
      if endsWord c then some ([], false, s)
      else if c = singleQuote ∨ c = '"' then
        let text := rest.takeWhile (· ≠ c)
        if text.length = rest.length then none else joined text true (rest.drop (text.length + 1))
      else joined [c] false rest

/-- The rest of a line, and what follows its end. Quotes may hold line breaks. -/
def lineAndRest (quote : Option Char) : List Char → List Char × List Char
  | [] => ([], [])
  | c :: rest =>
    if c = '\n' ∧ quote.isNone then ([], rest)
    else
      let quote :=
        match quote with
        | some q => if c = q then none else some q
        | none => if c = '"' ∨ c = singleQuote then some c else none
      let (line, after) := lineAndRest quote rest
      (c :: line, after)

/-- The lines of a document, up to the one that ends it, and what follows. In a
document that is not quoted a backslash joins lines. -/
def documentLines (stripTabs quoted : Bool) (mark : List Char) :
    Nat → Bool → List Char → List Char × List Char
  | 0, _, s => ([], s)
  | fuel + 1, joined, s =>
    if s.isEmpty then ([], [])
    else
      let s := if stripTabs && !joined then s.dropWhile (· = '\t') else s
      let line := s.takeWhile (· ≠ '\n')
      let rest := s.drop (line.length + 1)
      if line = mark ∧ !joined then ([], rest)
      else
        let slashes := (line.reverse.takeWhile (· = '\\')).length
        let goesOn := !quoted && slashes % 2 = 1
        let (more, rest) := documentLines stripTabs quoted mark fuel goesOn rest
        let ended := if line.length < s.length then ['\n'] else []
        (line ++ ended ++ more, rest)

def assignment? : Word → Option (String × Word)
  | .literal text false :: rest =>
    let name := text.takeWhile isNameChar
    match text.drop name.length with
    | '=' :: value =>
      if isName name then
        some (String.ofList name, if value.isEmpty then rest else .literal value false :: rest)
      else none
    | _ => none
  | _ => none

/-- The operation on a parameter that a character names, with `emptyToo` for a
colon in front. -/
def substitute? (c : Char) : Option Substitute :=
  if c = '-' then some .default
  else if c = '=' then some .assign
  else if c = '?' then some .demand
  else if c = '+' then some .alternative
  else none

end NestedBatch.Shell

import NestedBatch.Shell.Expression.Reader
import NestedBatch.Shell.Program.Options

/-! The program `grep`, which selects lines by regular expressions. -/
namespace NestedBatch.Shell.Program.Grep

def names : OptionNames where
  letters := ("EFGPivwxclLqsnHhobyarRIzZTU".toList.map (·, false)) ++
    ("efmABCdD".toList.map (·, true))
  words := [("extended-regexp", 'E', false), ("fixed-strings", 'F', false),
    ("basic-regexp", 'G', false), ("regexp", 'e', true), ("file", 'f', true),
    ("ignore-case", 'i', false), ("invert-match", 'v', false), ("word-regexp", 'w', false),
    ("line-regexp", 'x', false), ("count", 'c', false), ("files-with-matches", 'l', false),
    ("files-without-match", 'L', false), ("quiet", 'q', false), ("silent", 'q', false),
    ("no-messages", 's', false), ("line-number", 'n', false), ("with-filename", 'H', false),
    ("no-filename", 'h', false), ("only-matching", 'o', false), ("byte-offset", 'b', false),
    ("text", 'a', false), ("recursive", 'r', false), ("max-count", 'm', true),
    ("after-context", 'A', true), ("before-context", 'B', true), ("context", 'C', true),
    ("null-data", 'z', false), ("null", 'Z', false), ("color", 'k', false),
    ("colour", 'k', false), ("line-buffered", 'u', false)]
  anywhere := true
  loose := ["color", "colour"]
  digits := some 'C'

inductive Display where
  | nothing
  /-- The name of each file with, or without, a selected line. -/
  | name (selected : Bool)
  | count
  | found
  | lines
  deriving DecidableEq

structure Manner where
  search : Expression.Search
  inverted : Bool
  display : Display
  named : Bool
  numbered : Bool
  offsets : Bool
  /-- Are files shown that hold more than text? -/
  asText : Bool
  most : Option Nat
  before : Nat
  after : Nat
  /-- What ends lines, and what ends the name of a file where it stands alone. -/
  mark : Char
  nameEnd : Char

/-! ### Selecting -/

structure Line where
  number : Nat
  offset : Nat
  text : List Char
  selected : Bool

/-- The lines of a file, up to the last one that may be selected; the lines after it
are not selected. -/
def linesFrom (m : Manner) : Nat → Nat → Nat → List (List Char) → List Line
  | _, _, _, [] => []
  | number, offset, count, text :: rest =>
    let selected := m.most.all (count < ·) && m.search.finds text != m.inverted
    ⟨number, offset, text, selected⟩ ::
      linesFrom m (number + 1) (offset + text.length + 1) (if selected then count + 1 else count)
        rest

def isShown (m : Manner) (selected : List Nat) (l : Line) : Bool :=
  selected.any fun n => n ≤ l.number + m.before && l.number ≤ n + m.after

/-! ### Showing -/

def label (m : Manner) (name : String) (mark : Char) (number offset : Nat) : List Char :=
  (if m.named then name.toList ++ [if m.nameEnd = '\x00' then '\x00' else mark] else []) ++
  (if m.numbered then Numeral.ofNat number ++ [mark] else []) ++
  (if m.offsets then Numeral.ofNat offset ++ [mark] else [])

/-- What is shown of a line: all of it, or only what was found in it. -/
def shownLine (m : Manner) (name : String) (l : Line) : List Char :=
  let mark := if l.selected then ':' else '-'
  if m.display ≠ .found then label m name mark l.number l.offset ++ l.text ++ [m.mark]
  else if l.selected = m.inverted then []
  else
    (m.search.all l.text).flatMap fun (place, text) =>
      label m name mark l.number (l.offset + place) ++ text ++ [m.mark]

/-- The lines shown, with a mark between those that do not follow each other. `last` is
the number of the line shown before. -/
def shownLines (m : Manner) (name : String) (last : Option Nat) :
    List Line → List Char
  | [] => []
  | l :: rest =>
    let gap : List Char :=
      if 0 < m.before + m.after && last.any (· + 1 ≠ l.number) then ['-', '-', '\n'] else []
    gap ++ shownLine m name l ++ shownLines m name (some l.number) rest

/-- What is printed of a file, and whether a line was selected. `earlier` says that lines
of other files were shown before. -/
def report (m : Manner) (name : String) (earlier : Bool) (content : List Char) :
    List Char × Bool :=
  let lines := linesFrom m 1 0 0 (linesOf m.mark content)
  let selected := lines.filter Line.selected
  let any := !selected.isEmpty
  let text : List Char :=
    match m.display with
    | .nothing => []
    | .name wanted =>
      if any = wanted then name.toList ++ [m.nameEnd] else []
    | .count =>
      (if m.named then name.toList ++ [if m.nameEnd = '\x00' then '\x00' else ':'] else []) ++
        Numeral.ofNat selected.length ++ ['\n']
    | _ =>
      if any && !m.asText && content.contains '\x00' then
        ("grep: " ++ name ++ ": binary file matches\n").toList
      else
        let numbers := selected.map Line.number
        let around := 0 < m.before + m.after
        let shown := if around then lines.filter (isShown m numbers) else selected
        let gap : List Char := if around && earlier && any then ['-', '-', '\n'] else []
        gap ++ shownLines m name none shown
  (text, any)

/-! ### The program -/

def lineCount (w : String) : Except String Nat :=
  match leadingDecimal? w.toList with
  | some (.ofNat n, []) => .ok n
  | _ => .error (w ++ ": invalid context length argument")

/-- The most lines to be selected, as an option gives it; below zero there is no bound. -/
def mostCount (w : String) : Except String (Option Nat) :=
  match leadingDecimal? w.toList with
  | some (.ofNat n, []) => .ok (some n)
  | some (_, []) => .ok none
  | _ => .error "invalid max count"

/-- The expression for some patterns, of which a line has to match one. -/
def expressionOf (options : List (Char × String)) (patterns : List (List Char)) :
    Except String Expression := do
  let kind := (options.filter fun o => "EFG".toList.contains o.1).getLast?.map (·.1)
  let read (p : List Char) : Except String Expression :=
    if kind = some 'F' then .ok (Expression.ofText p)
    else
      match Expression.read (kind = some 'E' ∨ given options "P") p with
      | .ok e => .ok e
      | .error fault => .error fault.message
  let all ← patterns.mapM read
  match all with
  | [] => return .char fun _ => false
  | first :: rest => return rest.foldl .either first

def patternFiles : List String → Act (Except String (List (List Char)))
  | [] => return .ok []
  | name :: rest => do
    match ← contentOf name with
    | .error fault => return .error (faultText name fault)
    | .ok content => return (← patternFiles rest).map (linesOf '\n' content ++ ·)

def patternLines (w : String) : List (List Char) := (w.splitOn "\n").map String.toList

/-- What the options say, apart from the expression, which is still empty. -/
def mannerOf (options : List (Char × String)) (several : Bool) : Except String Manner := do
  let folded := given options "iy"
  let around ← (argumentsOf options 'C').mapM lineCount
  let before ← (argumentsOf options 'B').mapM lineCount
  let after ← (argumentsOf options 'A').mapM lineCount
  let most ← (argumentsOf options 'm').mapM mostCount
  let naming := (options.filter fun o => o.1 = 'H' || o.1 = 'h').getLast?.map (·.1)
  let listing := (options.filter fun o => o.1 = 'l' || o.1 = 'L').getLast?.map (·.1)
  let display : Display :=
    if given options "q" then .nothing
    else
      match listing with
      | some c => .name (c = 'l')
      | none =>
        if given options "c" then .count else if given options "o" then .found else .lines
  return {
    search := ⟨.empty, folded, given options "w", given options "x"⟩
    inverted := given options "v"
    display
    named := naming = some 'H' || (several && naming.isNone)
    numbered := given options "n"
    offsets := given options "b"
    asText := given options "az"
    most := most.getLast?.join
    before := (before.getLast?.or around.getLast?).getD 0
    after := (after.getLast?.or around.getLast?).getD 0
    mark := if given options "z" then '\x00' else '\n'
    nameEnd := if given options "Z" then '\x00' else '\n' }

structure Tally where
  selected : Bool
  failed : Bool

def searchAll (m : Manner) (silent : Bool) : Tally → List String → Act Tally
  | t, [] => return t
  | t, name :: rest => do
    match ← contentOf name with
    | .error fault =>
      unless silent do
        say "grep" (faultText name fault)
      searchAll m silent { t with failed := true } rest
    | .ok content =>
      let shown := if name = "-" then "(standard input)" else name
      let (text, any) := report m shown t.selected content
      let fault ← Act.write 1 text
      let t : Tally := ⟨t.selected || any, t.failed || fault.isSome⟩
      if any && m.display = .nothing then return { t with failed := false }
      else searchAll m silent t rest

def filesBelow (files : Files) : Nat → String → List String
  | 0, name => [name]
  | fuel + 1, name =>
    match files.look (Text.decode name.toList), files.locate (Text.decode name.toList) with
    | .ok .directory, .ok t =>
      (files.namesBelow t.place).flatMap fun part =>
        let slash := if name.endsWith "/" then "" else "/"
        filesBelow files fuel (name ++ slash ++ String.ofList (Text.encode part))
    | _, _ => [name]

def usage : String := "Usage: grep [OPTION]... PATTERNS [FILE]...\n"

def run (words : List String) : Act Nat := do
  match names.read (words.length + 1) words with
  | .error text =>
    say "grep" text
    let _ ← Act.write 2 (usage ++ "Try 'grep --help' for more information.\n").toList
    return 2
  | .ok (options, others) =>
    let direct := (options.filter fun o => o.1 = 'e').map (·.2)
    let needsPattern := !given options "ef"
    if needsPattern && others.isEmpty then
      let _ ← Act.write 2 (usage ++ "Try 'grep --help' for more information.\n").toList
      return 2
    let texts := if needsPattern then others.take 1 else direct
    let operands := if needsPattern then others.drop 1 else others
    match ← patternFiles ((options.filter fun o => o.1 = 'f').map (·.2)) with
    | .error text =>
      say "grep" text
      return 2
    | .ok more =>
      let patterns := texts.flatMap patternLines ++ more
      let recursive := given options "rR"
      let files ←
        if recursive then do
          let files := (← get).files
          let roots := if operands.isEmpty then ["."] else operands
          let found := roots.flatMap (filesBelow files 4096)
          pure (if operands.isEmpty then found.map fun n => String.ofList (n.toList.drop 2)
            else found)
        else pure (if operands.isEmpty then ["-"] else operands)
      match mannerOf options (1 < operands.length || recursive) with
      | .error text =>
        say "grep" text
        return 2
      | .ok m =>
        let hopeless := m.most = some 0 || (m.inverted && patterns = [[]] && !given options "wx")
        if hopeless && m.display ≠ .name false then return 1
        match expressionOf options patterns with
        | .error text =>
          say "grep" text
          return 2
        | .ok expression =>
          let m := { m with search.expression := expression }
          let t ← searchAll m (given options "s") ⟨false, false⟩ files
          return if t.failed then 2 else if t.selected then 0 else 1

end NestedBatch.Shell.Program.Grep

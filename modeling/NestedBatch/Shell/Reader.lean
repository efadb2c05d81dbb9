import NestedBatch.KeyMap
import NestedBatch.Shell.Lexis

/-! Reading shell scripts, one line of commands at a time: what comes after a line
is looked at only when the line has been carried out. -/
namespace NestedBatch.Shell

structure Input where
  rest : List Char
  /-- A token that was read too early. -/
  pushed : Option Token
  aliases : KeyMap String (List Char)
  /-- Aliases that have been put in, with what is left when their text is read. -/
  opened : List (String × Nat)
  /-- The number of the last line of the script. -/
  lastLine : Nat

abbrev Parse := StateT Input Option

namespace Parse

def rest : Parse (List Char) := return (← get).rest

def setRest (rest : List Char) : Parse Unit := modify fun i => { i with rest }

def push (t : Token) : Parse Unit := modify fun i => { i with pushed := some t }

def require (b : Bool) : Parse Unit := if b then pure () else failure

def line : Parse Nat := return (← get).lastLine - (← get).rest.count '\n'

end Parse

def joinCommands : Option Command → Command → Command
  | none, c => c
  | some first, c => .sequence first c

inductive ListKind where
  /-- Up to the end of the line. -/
  | line
  /-- Up to a closing word or bracket. -/
  | body
  deriving DecidableEq

def Token.isReserved (name : String) : Token → Bool
  | .word w => plainWord? w = some name
  | _ => false

def endsList : Token → Bool
  | .endBranch | .close | .end => true
  | .word w => (plainWord? w).any closingWords.contains
  | _ => false

/-- The assignments, words and redirections of a simple command, newest first, and
its line. -/
structure Draft where
  line : Nat
  assignments : List (String × Word)
  words : List Word
  redirects : List Redirect

mutual

def parts : Nat → Surrounding → Parse Word
  | 0, _ => failure
  | fuel + 1, m => do
    match ← Parse.rest with
    | [] => if m = .nothing ∨ m = .document then return [] else failure
    | '\\' :: '\n' :: rest =>
      Parse.setRest rest
      parts fuel m
    | '\\' :: c :: rest =>
      Parse.setRest rest
      let more ← parts fuel m
      if m.isEscapable c then return consChar c true more
      else return consChar '\\' true (consChar c true more)
    | '$' :: '(' :: '(' :: rest =>
      Parse.setRest rest
      let expression ← parts fuel (.sum 0)
      return .sum expression m.isQuoted :: (← parts fuel m)
    | '$' :: '(' :: rest =>
      Parse.setRest rest
      let c ← list fuel .body true none
      match ← token fuel with
      | .close => return .output c m.isQuoted :: (← parts fuel m)
      | _ => failure
    | '$' :: '\x7b' :: rest =>
      Parse.setRest rest
      let part ← braced fuel m.isQuoted
      return part :: (← parts fuel m)
    | '$' :: c :: rest =>
      if isNameStart c then
        let name := (c :: rest).takeWhile isNameChar
        Parse.setRest ((c :: rest).drop name.length)
        return .parameter (String.ofList name) .value m.isQuoted :: (← parts fuel m)
      else if isSpecialName c then
        Parse.setRest rest
        return .parameter (String.ofList [c]) .value m.isQuoted :: (← parts fuel m)
      else
        Parse.setRest (c :: rest)
        return consChar '$' m.isQuoted (← parts fuel m)
    | c :: rest =>
      let plain (m : Surrounding) : Parse Word := do
        Parse.setRest rest
        return consChar c m.isQuoted (← parts fuel m)
      if c = backquote then
        match backquoted m.isQuoted rest with
        | none => failure
        | some (script, rest) =>
          let i ← get
          set { i with rest := script, pushed := none }
          let command ← list fuel .body true none
          Parse.setRest rest
          modify fun i => { i with pushed := none }
          return .output command m.isQuoted :: (← parts fuel m)
      else
        match m with
        | .nothing | .braces =>
          if c = '\x7d' ∧ m = .braces then
            Parse.setRest rest
            return []
          else if endsWord c ∧ m = .nothing then return []
          else if c = singleQuote then
            let text := rest.takeWhile (· ≠ singleQuote)
            if text.length = rest.length then failure
            else
              Parse.setRest (rest.drop (text.length + 1))
              return .quotes :: .literal text true :: (← parts fuel m)
          else if c = '"' then
            Parse.setRest rest
            let inside ← parts fuel .quotes
            let more ← parts fuel m
            match inside with
            | [.parameter "@" .value true] => return .parameter "@" .value true :: more
            | inside => return .quotes :: (inside ++ more)
          else plain m
        | .quotes =>
          if c = '"' then
            Parse.setRest rest
            return []
          else plain m
        | .quotedBraces inner =>
          if c = '\x7d' ∧ !inner then
            Parse.setRest rest
            return []
          else if c = '"' then
            Parse.setRest rest
            return .quotes :: (← parts fuel (.quotedBraces (!inner)))
          else plain m
        | .sum depth =>
          if c = '(' then plain (.sum (depth + 1))
          else if c = ')' ∧ 0 < depth then plain (.sum (depth - 1))
          else if c = ')' ∧ rest.head? = some ')' then
            Parse.setRest (rest.drop 1)
            return []
          else plain m
        | .document => plain m

def braced : Nat → Bool → Parse WordPart
  | 0, _ => failure
  | fuel + 1, quoted => do
    let s ← Parse.rest
    let inside : Surrounding := if quoted then .quotedBraces false else .braces
    let bad : Parse WordPart := do
      let _ ← parts fuel inside
      return .parameter "" .bad quoted
    let found (name : List Char) (rest : List Char) : Parse WordPart := do
      let name := String.ofList name
      let (emptyToo, rest) :=
        match rest with
        | ':' :: rest => (true, rest)
        | rest => (false, rest)
      match rest with
      | [] => failure
      | c :: rest =>
        Parse.setRest rest
        if c = '\x7d' then return .parameter name .value quoted
        else
          match substitute? c with
          | some kind =>
            return .parameter name (.substitute kind emptyToo (← parts fuel inside)) quoted
          | none =>
            if (c = '%' ∨ c = '#') ∧ !emptyToo then
              let longest := rest.head? = some c
              Parse.setRest (if longest then rest.drop 1 else rest)
              return .parameter name (.trim (c = '#') longest (← parts fuel .braces)) quoted
            else bad
    let measured (name : List Char) (rest : List Char) : Parse WordPart := do
      match rest with
      | '\x7d' :: rest =>
        Parse.setRest rest
        return .parameter (String.ofList name) .length quoted
      | _ => bad
    match s with
    | [] => failure
    | '#' :: rest =>
      match rest with
      | c :: more =>
        if isNameStart c then
          measured (rest.takeWhile isNameChar) (rest.dropWhile isNameChar)
        else if c.isDigit then measured (rest.takeWhile Char.isDigit) (rest.dropWhile Char.isDigit)
        else if c ≠ '\x7d' ∧ more.head? = some '\x7d' then
          if isSpecialName c then measured [c] more else bad
        else found ['#'] rest
      | [] => failure
    | c :: rest =>
      if isNameStart c then found (s.takeWhile isNameChar) (s.dropWhile isNameChar)
      else if c.isDigit then found (s.takeWhile Char.isDigit) (s.dropWhile Char.isDigit)
      else if isSpecialName c then found [c] rest
      else bad

def token : Nat → Parse Token
  | 0 => failure
  | fuel + 1 => do
    let i ← get
    match i.pushed with
    | some t =>
      set { i with pushed := none }
      return t
    | none =>
      let s := skipToToken i.rest
      match operator? s with
      | some (t, rest) =>
        Parse.setRest rest
        return t
      | none =>
        Parse.setRest s
        return .word (← parts fuel .nothing)

def tokenPastLines : Nat → Parse Token
  | 0 => failure
  | fuel + 1 => do
    match ← token fuel with
    | .newline => tokenPastLines fuel
    | t => return t

/-- The next token where a command may start. An alias is replaced by its text. -/
def commandToken : Nat → Parse Token
  | 0 => failure
  | fuel + 1 => do
    let t ← token fuel
    match t with
    | .word w =>
      match plainWord? w with
      | none => return t
      | some name =>
        let i ← get
        let isOpen := i.opened.any fun p => p.1 = name && p.2 < i.rest.length
        match if isOpen || reservedWords.contains name then none else i.aliases.get? name with
        | none => return t
        | some text =>
          set { i with rest := text ++ i.rest, opened := (name, i.rest.length) :: i.opened }
          commandToken fuel
    | t => return t

def expectWord : Nat → String → Parse Unit
  | 0, _ => failure
  | fuel + 1, name => do
    let t ← token fuel
    Parse.require (t.isReserved name)

/-- A list of commands. `mayEnd` says whether it may end here. -/
def list : Nat → ListKind → Bool → Option Command → Parse (Option Command)
  | 0, _, _, _ => failure
  | fuel + 1, kind, mayEnd, before => do
    let t ← if kind = .line then token fuel else tokenPastLines fuel
    match t with
    | .newline => return before
    | .end =>
      Parse.push .end
      return before
    | t =>
      Parse.push t
      if kind = .body ∧ mayEnd ∧ endsList t then return before
      else
        let c ← andOr fuel
        let t ← token fuel
        match t with
        | .background => list fuel kind true (joinCommands before (.background c))
        | .semicolon => list fuel kind true (joinCommands before c)
        | .newline =>
          Parse.push .newline
          list fuel kind true (joinCommands before c)
        | .end =>
          Parse.push .end
          return joinCommands before c
        | t =>
          Parse.require (kind = .body)
          Parse.push t
          return joinCommands before c

def body : Nat → Parse Command
  | 0 => failure
  | fuel + 1 => do
    match ← list fuel .body false none with
    | some c => return c
    | none => failure

/-- Pipelines joined by `&&` and `||`, from the left. -/
def andOr : Nat → Parse Command
  | 0 => failure
  | fuel + 1 => do
    let first ← pipeline fuel
    joins fuel first

def joins : Nat → Command → Parse Command
  | 0, _ => failure
  | fuel + 1, first => do
    match ← token fuel with
    | .and =>
      skipLines fuel
      let second ← pipeline fuel
      joins fuel (.both first second)
    | .or =>
      skipLines fuel
      let second ← pipeline fuel
      joins fuel (.either first second)
    | t =>
      Parse.push t
      return first

/-- Goes on to the next token that does not end a line. -/
def skipLines : Nat → Parse Unit
  | 0 => failure
  | fuel + 1 => do
    let t ← tokenPastLines fuel
    Parse.push t

def pipeline : Nat → Parse Command
  | 0 => failure
  | fuel + 1 => do
    let t ← commandToken fuel
    if t.isReserved "!" then
      let first ← command fuel
      return .negated (← stages fuel [first])
    else
      Parse.push t
      let first ← command fuel
      stages fuel [first]

/-- The further stages of a pipeline; those before are given newest first. -/
def stages : Nat → List Command → Parse Command
  | 0, _ => failure
  | fuel + 1, before => do
    match ← token fuel with
    | .pipe =>
      skipLines fuel
      let next ← command fuel
      stages fuel (next :: before)
    | t =>
      Parse.push t
      match before with
      | [one] => return one
      | before => return .pipe before.reverse

def command : Nat → Parse Command
  | 0 => failure
  | fuel + 1 => do
    let t ← commandToken fuel
    let line ← Parse.line
    match t with
    | .open =>
      let c ← body fuel
      match ← token fuel with
      | .close => return .located line (.subshell c (← redirects fuel))
      | _ => failure
    | .redirect .. =>
      Parse.push t
      simple fuel ⟨line, [], [], []⟩
    | .word w =>
      let reserved := (plainWord? w).getD ""
      if reserved = "if" then
        let test ← body fuel
        expectWord fuel "then"
        let yes ← body fuel
        let no ← otherwise fuel
        redirected fuel line (.choice test yes no)
      else if reserved = "while" ∨ reserved = "until" then
        let test ← body fuel
        expectWord fuel "do"
        let c ← body fuel
        expectWord fuel "done"
        redirected fuel line (.loop (reserved = "while") test c)
      else if reserved = "for" then
        let c ← forLoop fuel
        redirected fuel line (.located line c)
      else if reserved = "case" then
        match ← token fuel with
        | .word subject =>
          skipLines fuel
          expectWord fuel "in"
          let all ← branches fuel []
          redirected fuel line (.located line (.branch subject all))
        | _ => failure
      else if reserved = "\x7b" then
        let c ← body fuel
        expectWord fuel "\x7d"
        redirected fuel line c
      else if reservedWords.contains reserved then failure
      else
        Parse.push t
        simple fuel ⟨line, [], [], []⟩
    | _ => failure

/-- A command that began on a line, with the redirections that follow it. They take the
place of those that a subshell has inside the braces. -/
def redirected : Nat → Nat → Command → Parse Command
  | 0, _, _ => failure
  | fuel + 1, line, c => do
    match ← redirects fuel, c with
    | [], c => return c
    | rs, .located line (.subshell c _) => return .located line (.subshell c rs)
    | rs, c => return .located line (.redirected c rs)

def otherwise : Nat → Parse (Option Command)
  | 0 => failure
  | fuel + 1 => do
    match ← token fuel with
    | .word w =>
      if plainWord? w = some "fi" then return none
      else if plainWord? w = some "else" then
        let c ← body fuel
        expectWord fuel "fi"
        return some c
      else if plainWord? w = some "elif" then
        let test ← body fuel
        expectWord fuel "then"
        let yes ← body fuel
        return some (.choice test yes (← otherwise fuel))
      else failure
    | _ => failure

def forLoop : Nat → Parse Command
  | 0 => failure
  | fuel + 1 => do
    match ← token fuel with
    | .word w =>
      match plainWord? w with
      | none => failure
      | some name =>
        Parse.require (isName name.toList)
        let t ← tokenPastLines fuel
        let words ←
          if t.isReserved "in" then wordsToEnd fuel []
          else do
            match t with
            | .semicolon => pure ()
            | t => Parse.push t
            pure [[.parameter "@" .value true]]
        skipLines fuel
        expectWord fuel "do"
        let c ← body fuel
        expectWord fuel "done"
        return .forEach name words c
    | _ => failure

def wordsToEnd : Nat → List Word → Parse (List Word)
  | 0, _ => failure
  | fuel + 1, before => do
    match ← token fuel with
    | .word w => wordsToEnd fuel (w :: before)
    | .newline | .semicolon => return before.reverse
    | _ => failure

def branches : Nat → List (List Word × Option Command) → Parse (List (List Word × Option Command))
  | 0, _ => failure
  | fuel + 1, before => do
    let t ← tokenPastLines fuel
    if t.isReserved "esac" then return before.reverse
    else
      match t with
      | .open => pure ()
      | t => Parse.push t
      let patterns ← branchPatterns fuel []
      let c ← list fuel .body true none
      match ← tokenPastLines fuel with
      | .endBranch => branches fuel ((patterns, c) :: before)
      | t =>
        Parse.require (t.isReserved "esac")
        return ((patterns, c) :: before).reverse

def branchPatterns : Nat → List Word → Parse (List Word)
  | 0, _ => failure
  | fuel + 1, before => do
    match ← token fuel with
    | .word w =>
      match ← token fuel with
      | .pipe => branchPatterns fuel (w :: before)
      | .close => return (w :: before).reverse
      | _ => failure
    | _ => failure

def simple : Nat → Draft → Parse Command
  | 0, _ => failure
  | fuel + 1, d => do
    match ← token fuel with
    | .word w =>
      match if d.words.isEmpty then assignment? w else none with
      | some a => simple fuel { d with assignments := a :: d.assignments }
      | none => simple fuel { d with words := w :: d.words }
    | .redirect stream o =>
      let r ← target fuel stream o
      simple fuel { d with redirects := r :: d.redirects }
    | .open =>
      match d with
      | ⟨_, [], [w], []⟩ =>
        match plainWord? w, ← token fuel with
        | some name, .close =>
          Parse.require (isName name.toList && !specialNames.contains name)
          skipLines fuel
          return .define name (← command fuel)
        | _, _ => failure
      | _ => failure
    | t =>
      Parse.push t
      return .located d.line (.simple d.assignments.reverse d.words.reverse d.redirects.reverse)

def redirects : Nat → Parse (List Redirect)
  | 0 => failure
  | fuel + 1 => do
    match ← token fuel with
    | .redirect stream o =>
      let r ← target fuel stream o
      return r :: (← redirects fuel)
    | t =>
      Parse.push t
      return []

def target : Nat → Option Nat → String → Parse Redirect
  | 0, _, _ => failure
  | fuel + 1, stream, o => do
    if o = "<<" ∨ o = "<<-" then
      let s := skipBlanks (← Parse.rest)
      match delimiter (s.length + 1) s with
      | none => failure
      | some (mark, quoted, rest) =>
        Parse.require (rest.length < s.length)
        let (line, after) := lineAndRest none rest
        let (text, after) := documentLines (o = "<<-") quoted mark (after.length + 1) false after
        let kept := if line.length < rest.length then line ++ '\n' :: after else line
        let document ←
          if quoted then pure [.literal text true]
          else do
            Parse.setRest text
            parts fuel .document
        Parse.setRest kept
        return .document (stream.getD 0) document
    else
      match ← token fuel with
      | .word w =>
        if o = "<" then return .file (stream.getD 0) .input w
        else if o = "<>" then return .file (stream.getD 0) .both w
        else if o = ">" then return .file (stream.getD 1) .output w
        else if o = ">|" then return .file (stream.getD 1) .force w
        else if o = ">>" then return .file (stream.getD 1) .append w
        else if o = "<&" then return .duplicate (stream.getD 0) w
        else return .duplicate (stream.getD 1) w
      | _ => failure

end

inductive Reading where
  | finished
  /-- It does not follow the rules of the language. -/
  | wrong
  /-- The commands of a line, if there are any, and the rest of the script. -/
  | line (command : Option Command) (rest : List Char)

/-- Reads the first line of commands of a script, whose last line has the given number. -/
def readLine (aliases : KeyMap String (List Char)) (lastLine : Nat) (script : List Char) :
    Reading :=
  match list (4 * script.length + 16) .line false none ⟨script, none, aliases, [], lastLine⟩ with
  | none => .wrong
  | some (none, ⟨_, some .end, _, _, _⟩) => .finished
  | some (c, i) => .line c i.rest

end NestedBatch.Shell

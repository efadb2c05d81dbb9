import NestedBatch.Shell.Builtin.Basic

/-! The builtin commands for variables, arguments and the options of the shell. -/
namespace NestedBatch.Shell.Builtin

/-- A variable as it can be read again, behind the word that declares it. -/
def shown (word name : String) (value : Option String) : String :=
  (if word = "" then "" else word ++ " ") ++ name ++
    match value with
    | some v => "=" ++ quotedText v
    | none => ""

def sortedVariables (s : Session) : Variables := s.vars.mergeSort fun a b => a.1 ≤ b.1

/-- The name and the value of a word with an equals sign. -/
def splitAssignment (w : String) : String × Option String :=
  let name := w.toList.takeWhile (· ≠ '=')
  let rest := w.toList.drop name.length
  (String.ofList name, if rest.isEmpty then none else some (String.ofList (rest.drop 1)))

def declare (word : String) (mark : Variable → Variable) (isMarked : Variable → Bool)
    (words : List String) : Attempt Nat := do
  let (options, names) ← Attempt.plainOptions ['p'] words
  if names.isEmpty || !options.isEmpty then
    let marked := (sortedVariables (← get)).filter fun v => isMarked v.2
    Attempt.printLines (marked.map fun v => shown word v.1 v.2.value)
  else
    for w in names do
      let (name, value) := splitAssignment w
      Attempt.checkName name
      if let some value := value then Attempt.assign name value
      let _ ← Act.putVariable name mark
  return 0

def unset (words : List String) : Attempt Nat := do
  let (options, names) ← Attempt.plainOptions ['f', 'v'] words
  for name in names do
    if options.getLast?.any fun o => o.1 = 'f' then
      modify fun s => { s with functions := s.functions.filter fun f => f.1 ≠ name }
    else
      Attempt.checkName name
      if ((← get).vars.get? name).any Variable.fixed then throw (name ++ ": is read only")
      modify fun s => { s with vars := s.vars.erase name }
      Act.resetOptions name none
  return 0

/-- The options of the shell by name, with the letters that stand for them. -/
def optionNames : List (String × Char) :=
  [("errexit", 'e'), ("noglob", 'f'), ("ignoreeof", 'I'), ("interactive", 'i'), ("monitor", 'm'),
   ("noexec", 'n'), ("stdin", 's'), ("xtrace", 'x'), ("verbose", 'v'), ("vi", 'V'),
   ("emacs", 'E'), ("noclobber", 'C'), ("allexport", 'a'), ("notify", 'b'), ("nounset", 'u'),
   ("privileged", 'p'), ("nolog", 'L'), ("debug", 'D')]

/-- The letters of options in the order in which they are shown. -/
def shownOptions (letters : List Char) : List Char :=
  ((optionNames.map (·.2)).reverse).filter letters.contains

def turn (on : Bool) (letter : Char) (letters : List Char) : List Char :=
  let others := letters.filter (· ≠ letter)
  if on then letter :: others else others

def optionLetters : List Char := (optionNames.map (·.2)).filter fun c => c ≠ 'L' && c ≠ 'D'

/-- Sets or takes back the options of a word, out of the `known` ones. The next word
names an option for `o`. -/
def turnAll (known : List Char) (on : Bool) : List Char → List Char → List String →
    Except String (List Char × List String)
  | [], set, words => .ok (set, words)
  | 'o' :: rest, set, words =>
    match words with
    | [] => turnAll known on rest set []
    | w :: words =>
      match lookupKey w optionNames with
      | some c => turnAll known on rest (turn on c set) words
      | none => .error ("Illegal option " ++ (if on then "-o " else "+o ") ++ w)
  | c :: rest, set, words =>
    if known.contains c then turnAll known on rest (turn on c set) words
    else .error ("Illegal option -" ++ String.ofList [c])

/-- The options in front of some words: the letters set then, the words after them,
and whether the words begin behind a mark. -/
def optionWords (known : List Char) :
    Nat → List Char → List String → Except String (List Char × List String × Bool)
  | 0, set, words => .ok (set, words, false)
  | fuel + 1, set, words =>
    match words with
    | [] => .ok (set, [], false)
    | w :: rest =>
      match w.toList with
      | ['-'] => .ok (turn false 'x' (turn false 'v' set), rest, false)
      | ['-', '-'] => .ok (set, rest, true)
      | '-' :: letters =>
        match turnAll known true letters set rest with
        | .ok (set, rest) => optionWords known fuel set rest
        | .error e => .error e
      | '+' :: letters =>
        match turnAll known false letters set rest with
        | .ok (set, rest) => optionWords known fuel set rest
        | .error e => .error e
      | _ => .ok (set, words, false)

def optionLines (on : Bool) (letters : List Char) : List String :=
  if on then
    "Current option settings" :: optionNames.map fun o =>
      o.1 ++ "".pushn ' ' (16 - o.1.length) ++ (if letters.contains o.2 then "on" else "off")
  else optionNames.map fun o => "set " ++ (if letters.contains o.2 then "-o " else "+o ") ++ o.1

def setOptions (words : List String) : Attempt Nat := do
  let s ← get
  match words with
  | [] =>
    let valued := (sortedVariables s).filter fun v => v.2.value.isSome
    Attempt.printLines (valued.map fun v => shown "" v.1 v.2.value)
  | ["-o"] => Attempt.printLines (optionLines true s.options)
  | ["+o"] => Attempt.printLines (optionLines false s.options)
  | words =>
    match optionWords optionLetters (words.length + 1) s.options words with
    | .error e => throw e
    | .ok (options, rest, marked) =>
      modify fun s => { s with options }
      if marked || !rest.isEmpty then
        modify fun s => { s with arguments := rest, optionAt := (1, none) }
  return 0

def shift (words : List String) : Attempt Nat := do
  let count ← (words.head?.map Attempt.number).getD (pure 1)
  let s ← get
  if s.arguments.length < count then throw "can't shift that many"
  modify fun s => { s with arguments := s.arguments.drop count, optionAt := (1, none) }
  return 0

def localVariables (words : List String) : Attempt Nat := do
  if (← get).depth = 0 then throw "not in a function"
  for w in words do
    let (name, value) := splitAssignment w
    if w ≠ "-" then
      Attempt.checkName name
      Act.keepVariable name
      match value with
      | some value => Attempt.assign name value
      | none => let _ ← Act.putVariable name id
  return 0

/-- A line of a text that is read, and how many characters were taken for it. A backslash
quotes the character after it and joins lines, unless the line is `raw`. The last component
tells whether the line is complete. -/
def lineMarks (raw : Bool) : List Char → List Mark × Nat × Bool
  | [] => ([], 0, false)
  | '\n' :: _ => ([], 1, true)
  | '\x00' :: rest => joined 1 [] (lineMarks raw rest)
  | '\\' :: c :: rest =>
    if raw then joined 1 [.char '\\' false .split] (lineMarks raw (c :: rest))
    else if c = '\n' then joined 2 [.start .split] (lineMarks raw rest)
    else joined 2 [.char c true .fixed, .start .split] (lineMarks raw rest)
  | '\\' :: [] => (if raw then [.char '\\' false .split] else [], 1, false)
  | c :: rest => joined 1 [.char c false .split] (lineMarks raw rest)
where
  joined (count : Nat) (marks : List Mark) (after : List Mark × Nat × Bool) :
      List Mark × Nat × Bool :=
    (marks ++ after.1, count + after.2.1, after.2.2)

/-- So many octets are looked at for a line before all that is left is looked at. -/
def usualLine : Nat := 1024

def takeLine (raw : Bool) : Act (Except IoFault (List Mark × Bool)) := do
  match ← Act.readable 0 (some usualLine) with
  | .error fault => return .error fault
  | .ok input =>
    let (marks, count, complete) := lineMarks raw input
    if complete || input.length < usualLine then
      Act.take 0 count
      return .ok (marks, complete)
    else
      match ← Act.readable 0 none with
      | .error fault => return .error fault
      | .ok input =>
        let (marks, count, complete) := lineMarks raw input
        Act.take 0 count
        return .ok (marks, complete)

def read (words : List String) : Attempt Nat := do
  let (options, names) ← Attempt.options [('r', false), ('p', true)] (words.length + 1) words
  if names.isEmpty then throw "arg count"
  match ← takeLine (options.any fun o => o.1 = 'r') with
  | .error _ =>
    for name in names do
      Attempt.assign name ""
    return 1
  | .ok (marks, complete) =>
    let fields := Mark.fields (← get).separators (some names.length) (.start .split :: marks)
    for (name, i) in names.zipIdx do
      let field := (fields.getD i []).map (·.1)
      Attempt.assign name (String.ofList field)
    return if complete then 0 else 1

/-- What the next option of some arguments is, and how far they have been looked at then. -/
structure NextOption where
  letter : Char
  /-- The value of the variable for the argument of an option; none if it is unset. -/
  argument : Option String
  found : Bool
  spot : Nat × Option Nat
  complaint : Option String

/-- Looks at the next option. `known` holds the letters, with a colon after those
that take an argument; a colon at the front asks for silence. -/
def nextOption (known : List Char) (words : List String) (spot : Nat × Option Nat) : NextOption :=
  let silent := known.head? = some ':'
  let word (n : Nat) : Option (List Char) := words[n - 1]?.map String.toList
  let current : List Char :=
    match spot.2 with
    | some offset => if spot.1 ≤ 1 then [] else ((word (spot.1 - 1)).getD []).drop offset
    | none => []
  let finished (n : Nat) : NextOption := ⟨'?', none, false, (n, none), none⟩
  let start : Nat × List Char × Bool :=
    if !current.isEmpty then (spot.1, current, true)
    else
      match word spot.1 with
      | some ['-', '-'] => (spot.1 + 1, [], false)
      | some ('-' :: c :: rest) => (spot.1 + 1, c :: rest, true)
      | _ => (spot.1, [], false)
  match start with
  | (n, c :: rest, true) =>
    let offset (s : List Char) : Option Nat := some (((word (n - 1)).getD []).length - s.length)
    let following := known.dropWhile (· ≠ c)
    let letter := String.ofList [c]
    if c = ':' ∨ following.isEmpty then
      if silent then ⟨'?', some letter, true, (n, offset rest), none⟩
      else ⟨'?', none, true, (n, offset rest), some ("Illegal option -" ++ letter)⟩
    else if following[1]? = some ':' then
      if !rest.isEmpty then ⟨c, some (String.ofList rest), true, (n, none), none⟩
      else
        match words[n - 1]? with
        | some w => ⟨c, some w, true, (n + 1, none), none⟩
        | none =>
          if silent then ⟨':', some letter, true, (n, none), none⟩
          else ⟨'?', none, true, (n, none), some ("No arg for -" ++ letter ++ " option")⟩
    else ⟨c, some "", true, (n, offset rest), none⟩
  | (n, _, _) => finished n

def getopts (words : List String) : Attempt Nat := do
  match words with
  | known :: name :: rest =>
    let s ← get
    let looked := if rest.isEmpty then s.arguments else rest
    let spot := if looked.length + 1 < s.optionAt.1 then (1, none) else s.optionAt
    let o := nextOption known.toList looked spot
    if let some text := o.complaint then Attempt.report text
    if o.found then
      match o.argument with
      | some value => Attempt.assign "OPTARG" value
      | none => modify fun s => { s with vars := s.vars.erase "OPTARG" }
    Attempt.assign "OPTIND" (Numeral.natText o.spot.1)
    modify fun s => { s with optionAt := o.spot }
    Attempt.assign name (String.ofList [o.letter])
    return if o.found then 0 else 1
  | _ => throw "Usage: getopts optstring var [arg...]"

end NestedBatch.Shell.Builtin

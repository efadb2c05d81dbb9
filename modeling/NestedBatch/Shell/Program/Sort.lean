import NestedBatch.Shell.Format
import NestedBatch.Shell.Program.Options

/-! The program `sort`, which puts lines in order by their fields. -/
namespace NestedBatch.Shell.Program.Sort

inductive Kind where
  | text
  | number
  | general
  | sized
  | month
  | version
  deriving DecidableEq

structure Order where
  kind : Kind
  /-- Has more than one kind been asked for? -/
  mixed : Bool
  /-- Do only blanks, letters and digits count? -/
  dictionary : Bool
  /-- Do only printable characters count? -/
  printable : Bool
  folded : Bool
  reversed : Bool
  deriving DecidableEq

/-- A part of the lines by which they are compared. Fields and characters are
counted from zero; without a last field, the part goes on to the end. -/
structure Key where
  field : Nat
  char : Nat
  last : Option Nat
  /-- How much of the last field belongs to the part; zero stands for all of it. -/
  lastChar : Nat
  skipsBlanks : Bool
  lastSkipsBlanks : Bool
  order : Order
  deriving DecidableEq

def plain : Order := ⟨.text, false, false, false, false, false⟩

def Order.asking (o : Order) (k : Kind) : Order :=
  { o with kind := k, mixed := o.mixed || (o.kind ≠ .text && o.kind ≠ k) }

/-- Do the choices not go together? Only texts and versions can leave characters out. -/
def Order.isMuddled (o : Order) : Bool :=
  o.mixed || ((o.dictionary || o.printable) && o.kind ≠ .text && o.kind ≠ .version)

def wholeLine : Key := ⟨0, 0, none, 0, false, false, plain⟩

/-- The choice that a letter makes, among those of how to compare. -/
def withLetter (o : Order) (c : Char) : Option Order :=
  if c = 'd' then some { o with dictionary := true }
  else if c = 'f' then some { o with folded := true }
  else if c = 'g' then some (o.asking .general)
  else if c = 'h' then some (o.asking .sized)
  else if c = 'i' then some { o with printable := true }
  else if c = 'M' then some (o.asking .month)
  else if c = 'n' then some (o.asking .number)
  else if c = 'r' then some { o with reversed := true }
  else if c = 'V' then some (o.asking .version)
  else none

/-! ### Reading keys -/

/-- The letters behind a position of a key. The marks tell of blanks to be skipped. -/
def keyLetters (start : Bool) : Key → List Char → Key × List Char
  | k, [] => (k, [])
  | k, c :: rest =>
    if c = 'b' then
      let k := if start then { k with skipsBlanks := true } else { k with lastSkipsBlanks := true }
      keyLetters start k rest
    else
      match withLetter k.order c with
      | some order => keyLetters start { k with order } rest
      | none => (k, c :: rest)

/-- A number in front of a text that has at least one digit. -/
def count? (s : List Char) : Option (Nat × List Char) :=
  let digits := s.takeWhile Char.isDigit
  if digits.isEmpty then none else some (Numeral.value digits, s.drop digits.length)

/-- Reads a key, as in `2.1n,3r`. -/
def readKey (w : String) : Except String Key :=
  let bad (text : String) : Except String Key :=
    .error (text ++ ": invalid field specification '" ++ w ++ "'")
  let badStart (place : String) (s : List Char) : Except String Key :=
    .error ("invalid number " ++ place ++ ": invalid count at start of '" ++ String.ofList s ++ "'")
  let ending (k : Key) (s : List Char) : Except String Key :=
    match s with
    | [] => .ok k
    | ',' :: rest =>
      match count? rest with
      | none => badStart "after ','" rest
      | some (0, _) => bad "field number is zero"
      | some (n + 1, rest) =>
        let finish (k : Key) (rest : List Char) : Except String Key :=
          match keyLetters false k rest with
          | (k, []) => .ok k
          | _ => bad "stray character in field spec"
        match rest with
        | '.' :: rest =>
          match count? rest with
          | none => badStart "after '.'" rest
          | some (c, rest) => finish { k with last := some n, lastChar := c } rest
        | rest => finish { k with last := some n } rest
    | _ => bad "stray character in field spec"
  let beginning (k : Key) (s : List Char) : Except String Key :=
    let (k, rest) := keyLetters true k s
    ending k rest
  match count? w.toList with
  | none => badStart "at field start" w.toList
  | some (0, _) => bad "field number is zero"
  | some (n + 1, rest) =>
    match rest with
    | '.' :: rest =>
      match count? rest with
      | none => badStart "after '.'" rest
      | some (0, _) => bad "character offset is zero"
      | some (c + 1, rest) => beginning { wholeLine with field := n, char := c } rest
    | rest => beginning { wholeLine with field := n } rest

/-! ### Parts of lines -/

def isFieldBlank (c : Char) : Bool := c = ' ' || c = '\t' || c = '\n'

def afterFields (separator : Option Char) : Nat → List Char → List Char
  | 0, s => s
  | n + 1, s =>
    match separator with
    | some mark => afterFields separator n ((s.dropWhile (· ≠ mark)).drop 1)
    | none =>
      afterFields separator n ((s.dropWhile isFieldBlank).dropWhile fun c => !isFieldBlank c)

/-- What is left behind the part of a line that a key ends. -/
def afterPart (separator : Option Char) (k : Key) (s : List Char) : List Char :=
  match k.last with
  | none => []
  | some n =>
    if k.lastChar = 0 then
      match separator with
      | some mark => (afterFields separator n s).dropWhile (· ≠ mark)
      | none => afterFields separator (n + 1) s
    else
      let rest := afterFields separator n s
      (if k.lastSkipsBlanks then rest.dropWhile isFieldBlank else rest).drop k.lastChar

def part (separator : Option Char) (k : Key) (s : List Char) : List Char :=
  let front := afterFields separator k.field s
  let front := (if k.skipsBlanks then front.dropWhile isFieldBlank else front).drop k.char
  front.take (front.length - (afterPart separator k s).length)

/-! ### Comparing -/

def compareText : List Char → List Char → Ordering
  | [], [] => .eq
  | [], _ => .lt
  | _, [] => .gt
  | a :: s, b :: t => if a < b then .lt else if b < a then .gt else compareText s t

/-- A decimal number in front of a text: whether it is negative, its digits before and
after the point, and what is left. -/
def decimalIn (s : List Char) : Bool × List Char × List Char × List Char :=
  let s := s.dropWhile isFieldBlank
  let negative := s.head? = some '-'
  let s := if negative then s.drop 1 else s
  let whole := s.takeWhile Char.isDigit
  match s.drop whole.length with
  | '.' :: rest =>
    let places := rest.takeWhile Char.isDigit
    (negative, whole, places, rest.drop places.length)
  | rest => (negative, whole, [], rest)

/-- A decimal number as a whole number of units of its last place, with the places. -/
def unitsOf (s : List Char) : Int × Nat :=
  let (negative, whole, places, _) := decimalIn s
  let n : Int := Numeral.value (whole ++ places)
  (if negative then -n else n, places.length)

def compareNumbers (s t : List Char) : Ordering :=
  let (m, p) := unitsOf s
  let (n, q) := unitsOf t
  compare (m * (Nat.pow 10 q : Nat)) (n * (Nat.pow 10 p : Nat))

/-- The rank of the letter for a power of a thousand behind a number. -/
def sizeOf (s : List Char) : Int :=
  let (negative, whole, places, rest) := decimalIn s
  let isZero := (whole ++ places).all (· = '0')
  let rank : Nat :=
    match rest with
    | c :: _ =>
      if c = 'k' then 1 else ("KMGTPEZYRQ".toList.findIdx? (· = c)).map (· + 1) |>.getD 0
    | [] => 0
  if isZero then 0 else if negative then -(rank : Int) else rank

def compareSized (s t : List Char) : Ordering :=
  let sign (u : List Char) : Int := (unitsOf u).1.sign
  (compare (sign s) (sign t)).then ((compare (sizeOf s) (sizeOf t)).then (compareNumbers s t))

/-- A number with a fraction as a text gives it: the rank of its kind, and its value. -/
def generalOf (s : List Char) : Int × Int × Nat :=
  let (negative, f, left) := signedFractionOf s
  if left.length = s.length then (0, 0, 1)
  else
    match f with
    | .nan => (1, 0, 1)
    | .infinite => if negative then (2, 0, 1) else (4, 0, 1)
    | .quotient num den => (3, if negative then -(num : Int) else num, den)

def compareGeneral (s t : List Char) : Ordering :=
  let (a, m, p) := generalOf s
  let (b, n, q) := generalOf t
  (compare a b).then (compare (m * q) (n * p))

def months : List String :=
  ["JAN", "FEB", "MAR", "APR", "MAY", "JUN", "JUL", "AUG", "SEP", "OCT", "NOV", "DEC"]

def monthOf (s : List Char) : Nat :=
  let name := ((s.dropWhile isFieldBlank).take 3).map Char.toUpper
  ((months.findIdx? fun m => m = String.ofList name).map (· + 1)).getD 0

/-- The weight of a character that is no digit: a tilde comes before the end of the text,
letters come before all others. -/
def versionWeight (c : Char) : Int :=
  if c = '~' then -1 else if c.isAlpha then c.toNat else c.toNat + 256

def compareWords : List Char → List Char → Ordering
  | [], [] => .eq
  | a :: s, [] => (compare (versionWeight a) 0).then (compareWords s [])
  | [], b :: t => (compare 0 (versionWeight b)).then (compareWords [] t)
  | a :: s, b :: t => (compare (versionWeight a) (versionWeight b)).then (compareWords s t)

def compareTurns : Nat → List Char → List Char → Ordering
  | 0, _, _ => .eq
  | fuel + 1, s, t =>
    if s.isEmpty && t.isEmpty then .eq
    else
      let wordOf (u : List Char) : List Char := u.takeWhile fun c => !c.isDigit
      let a := wordOf s
      let b := wordOf t
      let s := s.drop a.length
      let t := t.drop b.length
      let m := s.takeWhile Char.isDigit
      let n := t.takeWhile Char.isDigit
      (compareWords a b).then
        ((compare (Numeral.value m) (Numeral.value n)).then
          (compareTurns fuel (s.drop m.length) (t.drop n.length)))

/-- Drops the endings of a name, such as `.tar.gz`, from a text that starts with one. -/
def afterEndings : Nat → List Char → List Char
  | 0, s => s
  | fuel + 1, s =>
    match s with
    | '.' :: c :: rest =>
      if c.isAlpha || c = '~' then
        afterEndings fuel (rest.dropWhile fun d => d.isAlphanum || d = '~')
      else s
    | s => s

/-- A name without the endings that it has after its first character. -/
def withoutEndings : List Char → List Char
  | [] => []
  | c :: rest =>
    if (afterEndings (rest.length + 1) rest).isEmpty then [c] else c :: withoutEndings rest

/-- The rank of a name by the points in front of it. -/
def pointRank (s : List Char) : Nat :=
  if s = [] then 0 else if s = ['.'] then 1 else if s = ['.', '.'] then 2
  else if s.head? = some '.' then 3 else 4

/-- Compares versions: first without the endings of names, and then with them. -/
def compareVersions (s t : List Char) : Ordering :=
  let turns (s t : List Char) : Ordering := compareTurns (s.length + t.length + 1) s t
  (compare (pointRank s) (pointRank t)).then
    ((turns (withoutEndings s) (withoutEndings t)).then (turns s t))

def Order.seen (o : Order) (s : List Char) : List Char :=
  let s := if o.dictionary then s.filter fun c => isFieldBlank c || c.isAlphanum else s
  let s := if o.printable then s.filter fun c => 32 ≤ c.toNat && c.toNat < 127 else s
  if o.folded then s.map Char.toUpper else s

def Order.compare (o : Order) (s t : List Char) : Ordering :=
  let s := o.seen s
  let t := o.seen t
  let c :=
    match o.kind with
    | .text => compareText s t
    | .number => compareNumbers s t
    | .general => compareGeneral s t
    | .sized => compareSized s t
    | .month => Ord.compare (monthOf s) (monthOf t)
    | .version => compareVersions s t
  if o.reversed then c.swap else c

structure Request where
  keys : List Key
  separator : Option Char
  reversed : Bool
  /-- Do lines with equal parts stay as they come? -/
  stable : Bool
  unique : Bool

def Request.byKeys (r : Request) (s t : List Char) : Ordering :=
  r.keys.foldl (fun c k =>
    c.then (k.order.compare (part r.separator k s) (part r.separator k t))) .eq

def Request.compare (r : Request) (s t : List Char) : Ordering :=
  let whole : Ordering :=
    let c := compareText s t
    if r.reversed then c.swap else c
  if r.keys.isEmpty then whole
  else if r.stable || r.unique then r.byKeys s t
  else (r.byKeys s t).then whole

def Request.distinct (r : Request) : List (List Char) → List (List Char)
  | [] => []
  | s :: rest => s :: go s rest
where
  go (last : List Char) : List (List Char) → List (List Char)
    | [] => []
    | t :: rest => if r.compare last t = .eq then go last rest else t :: go t rest

def Request.merge (r : Request) : List (List (List Char)) → List (List Char)
  | [] => []
  | first :: rest => rest.foldl (fun a b => List.merge a b fun s t => r.compare s t ≠ .gt) first

def Request.disorder (r : Request) : Nat → List (List Char) → Option (Nat × List Char)
  | n, s :: t :: rest =>
    let c := r.compare s t
    if c = .gt || (r.unique && c = .eq) then some (n + 1, t) else r.disorder (n + 1) (t :: rest)
  | _, _ => none

/-! ### The program -/

def names : OptionNames where
  letters := ("bdfgiMnrVhcCmsuz".toList.map (·, false)) ++ [('k', true), ('o', true), ('S', true),
    ('t', true), ('T', true)]
  words := [("ignore-leading-blanks", 'b', false), ("dictionary-order", 'd', false),
    ("ignore-case", 'f', false), ("general-numeric-sort", 'g', false),
    ("ignore-nonprinting", 'i', false), ("month-sort", 'M', false), ("numeric-sort", 'n', false),
    ("reverse", 'r', false), ("version-sort", 'V', false), ("human-numeric-sort", 'h', false),
    ("check", 'c', false), ("merge", 'm', false), ("stable", 's', false), ("unique", 'u', false),
    ("zero-terminated", 'z', false), ("key", 'k', true), ("output", 'o', true),
    ("field-separator", 't', true), ("buffer-size", 'S', true), ("temporary-directory", 'T', true),
    ("parallel", 'p', true), ("batch-size", 'B', true), ("debug", 'D', false), ("sort", 'W', true)]
  anywhere := true
  loose := ["check"]

/-- The letter of a kind that is given as a word, which may be shortened. -/
def kindLetter (w : String) : Except String Char :=
  let all : List (String × Char) :=
    [("general-numeric", 'g'), ("human-numeric", 'h'), ("month", 'M'), ("numeric", 'n'),
     ("version", 'V')]
  match all.filter fun p => w.toList.isPrefixOf p.1.toList with
  | [(_, c)] => .ok c
  | _ => .error ("invalid argument '" ++ w ++ "' for '--sort'")

def separatorOf (w : String) : Except String Char :=
  match w.toList with
  | [c] => .ok c
  | ['\\', '0'] => .ok '\x00'
  | [] => .error "empty tab"
  | _ => .error ("multi-character tab '" ++ w ++ "'")

/-- What the options ask for. Keys that say nothing about the order take it from the
options for all. -/
def requestOf (options : List (Char × String)) : Except String Request := do
  let options ← options.mapM fun o => if o.1 = 'W' then (kindLetter o.2).map (·, "") else pure o
  let order := options.foldl (fun o p => (withLetter o p.1).getD o) plain
  let blanks := given options "b"
  let keys ← (argumentsOf options 'k').mapM readKey
  let inherited (k : Key) : Key :=
    if k.order = plain && !k.skipsBlanks && !k.lastSkipsBlanks then
      { k with order, skipsBlanks := blanks, lastSkipsBlanks := blanks }
    else k
  let separators ← (argumentsOf options 't').mapM separatorOf
  if separators.eraseDups.length > 1 then throw "incompatible tabs"
  if (argumentsOf options 'o').eraseDups.length > 1 then throw "multiple output files specified"
  if given options "c" && given options "C" then throw "options '-cC' are incompatible"
  let keys :=
    if !keys.isEmpty then keys.map inherited
    else if { order with reversed := false } = plain && !blanks then []
    else [{ wholeLine with order, skipsBlanks := blanks }]
  if keys.any fun k => k.order.isMuddled then throw "options are incompatible"
  return ⟨keys, separators.head?, order.reversed, given options "s", given options "u"⟩

/-- The lines of the named files, or the first that cannot be read. -/
def readLines (mark : Char) : List String → Act (Except String (List (List (List Char))))
  | [] => return .ok []
  | name :: rest => do
    match ← contentOf name with
    | .error fault => return .error ("cannot read: " ++ faultText name fault)
    | .ok content =>
      return (← readLines mark rest).map fun more => linesOf mark content :: more

def ended (mark : Char) (lines : List (List Char)) : List Char :=
  lines.flatMap fun l => l ++ [mark]

def writeLines (target : Option String) (text : List Char) : Act Nat := do
  match target with
  | none =>
    match ← Act.write 1 text with
    | none => return 0
    | some fault =>
      say "sort" ("write failed: 'standard output': " ++ fault.reason.1)
      return 2
  | some name =>
    let s ← get
    let files := s.files
    let written : Except IoFault Files := do
      let place ← files.writable (Text.decode name.toList)
      files.writeAt place (Text.bytesOf text)
    match written with
    | .ok files =>
      set (s.withFiles files)
      return 0
    | .error fault =>
      say "sort" ("open failed: " ++ faultText name fault)
      return 2

def run (words : List String) : Act Nat :=
  withOptions "sort" names 2 words fun options files => do
    let files := if files.isEmpty then ["-"] else files
    let mark := if given options "z" then '\x00' else '\n'
    match requestOf options with
    | .error text =>
      say "sort" text
      return 2
    | .ok r =>
      if given options "cC" && (1 < files.length || given options "o") then
        say "sort" "extra operand not allowed with -c"
        return 2
      match ← readLines mark files with
      | .error text =>
        say "sort" text
        return 2
      | .ok found =>
        if given options "cC" then
          match r.disorder 1 found.flatten with
          | none => return 0
          | some (n, line) =>
            unless given options "C" do
              say "sort" (files.headD "-" ++ ":" ++ Numeral.natText n ++ ": disorder: " ++
                String.ofList line)
            return 1
        else
          let lines :=
            if given options "m" then r.merge found
            else found.flatten.mergeSort fun s t => r.compare s t ≠ .gt
          let lines := if r.unique then r.distinct lines else lines
          writeLines (argumentOf options 'o') (ended mark lines)

end NestedBatch.Shell.Program.Sort

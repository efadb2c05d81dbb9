import NestedBatch.Shell.Track

/-! Patterns over characters, as they stand for file names and in selections. -/
namespace NestedBatch.Shell

/-- A class of characters, for one character or for any number of them. -/
structure PatternItem where
  accepts : Char → Bool
  many : Bool

abbrev Pattern := List PatternItem

/-- Characters with, for each, whether it was quoted and so stands for itself. -/
abbrev Marked := List (Char × Bool)

namespace Pattern

def anyChars : PatternItem := ⟨fun _ => true, true⟩

def anyChar : PatternItem := ⟨fun _ => true, false⟩

def literal (c : Char) : PatternItem := ⟨fun d => d = c, false⟩

def itemTrack (i : PatternItem) : Track :=
  if i.many then .repeated (.char i.accepts false) else .char i.accepts false

def track : Pattern → Track
  | [] => .empty
  | i :: rest => .sequence (itemTrack i) (track rest)

def covers (p : Pattern) (s : List Char) : Bool := p.track.covers s

/-- The lengths of the fronts of a text that the pattern matches, the longest first. -/
def fronts (p : Pattern) (s : List Char) : List Nat := p.track.fronts s

/-- The lengths of the ends of a text that the pattern matches, the longest first. -/
def backs (p : Pattern) (s : List Char) : List Nat := fronts p.reverse s.reverse

def namedClass? (name : String) : Option (Char → Bool) :=
  let isPunct (c : Char) : Bool := 0x20 < c.toNat && c.toNat < 0x7F && !c.isAlphanum
  if name = "alpha" then some Char.isAlpha
  else if name = "digit" then some Char.isDigit
  else if name = "alnum" then some Char.isAlphanum
  else if name = "upper" then some Char.isUpper
  else if name = "lower" then some Char.isLower
  else if name = "space" then some fun c => c = ' ' || (0x9 ≤ c.toNat && c.toNat ≤ 0xD)
  else if name = "blank" then some fun c => c = ' ' || c = '\t'
  else if name = "punct" then some isPunct
  else if name = "print" then some fun c => 0x20 ≤ c.toNat && c.toNat < 0x7F
  else if name = "graph" then some fun c => 0x20 < c.toNat && c.toNat < 0x7F
  else if name = "cntrl" then some fun c => c.toNat < 0x20 || c.toNat = 0x7F
  else if name = "xdigit" then
    some fun c => c.isDigit || ('a' ≤ c && c ≤ 'f') || ('A' ≤ c && c ≤ 'F')
  else none

/-- A named class after its opening bracket, as in `:alpha:]`, and what follows it. -/
def class? (s : Marked) : Option ((Char → Bool) × Marked) :=
  match s with
  | (':', false) :: rest =>
    let name := (rest.map (·.1)).takeWhile (· ≠ ':')
    match rest.drop name.length with
    | (':', _) :: (']', _) :: rest => (namedClass? (String.ofList name)).map (·, rest)
    | _ => none
  | _ => none

/-- The members of a class in brackets, up to the closing one. A closing bracket
that comes `first` is a member. -/
def members : Nat → Bool → Marked → Option ((Char → Bool) × Marked)
  | 0, _, _ => none
  | fuel + 1, first, s =>
    let member (accepts : Char → Bool) (rest : Marked) : Option ((Char → Bool) × Marked) :=
      (members fuel false rest).map fun p => (fun d => accepts d || p.1 d, p.2)
    match s with
    | [] => none
    | (c, quoted) :: rest =>
      if c = ']' ∧ !quoted ∧ !first then some (fun _ => false, rest)
      else
        match if c = '[' ∧ !quoted then class? rest else none with
        | some (accepts, rest) => member accepts rest
        | none =>
          match rest with
          | ('-', false) :: (high, q) :: more =>
            if high = ']' ∧ !q then member (fun d => d = c) rest
            else member (fun d => c ≤ d && d ≤ high) more
          | _ => member (fun d => d = c) rest

def bracketed? (s : Marked) : Option (PatternItem × Marked) :=
  match s with
  | ('!', false) :: rest =>
    (members (rest.length + 1) true rest).map fun p => (⟨fun c => !p.1 c, false⟩, p.2)
  | _ => (members (s.length + 1) true s).map fun p => (⟨p.1, false⟩, p.2)

def unescaped : Marked → Marked
  | ('\\', false) :: (c, _) :: rest => (c, true) :: unescaped rest
  | p :: rest => p :: unescaped rest
  | [] => []

/-- The pattern of some characters, and whether it is more than a text. -/
def ofUnescaped : Nat → Marked → Pattern × Bool
  | 0, _ => ([], false)
  | _, [] => ([], false)
  | fuel + 1, (c, quoted) :: rest =>
    let item (i : PatternItem) (active : Bool) (rest : Marked) : Pattern × Bool :=
      let (p, more) := ofUnescaped fuel rest
      (i :: p, active || more)
    if quoted then item (literal c) false rest
    else if c = '*' then item anyChars true rest
    else if c = '?' then item anyChar true rest
    else if c = '[' then
      match bracketed? rest with
      | some (i, rest) => item i true rest
      | none => item (literal c) false rest
    else item (literal c) false rest

def ofMarked (s : Marked) : Pattern × Bool := ofUnescaped (s.length + 1) (unescaped s)

/-- The parts of a text between the characters NUL, which part arguments from each other. -/
def stretches (s : List Char) : List (List Char) :=
  s.foldr (fun c found =>
    if c = '\x00' then [] :: found
    else
      match found with
      | [] => [[c]]
      | first :: more => (c :: first) :: more) [[]]

/-- The shortest or the longest front of a text that is matched is taken away.
Of several arguments it is the first that has to match; one that is matched as a whole
takes the others with it. -/
def dropFront (p : Pattern) (longest : Bool) (s : List Char) : List Char :=
  let first := s.takeWhile (· ≠ '\x00')
  let found := p.fronts first
  if longest && found.head? = some first.length then []
  else
    match if longest then found.head? else found.getLast? with
    | some n => s.drop n
    | none => s

/-- The length of a text up to the shortest end of one of its stretches that is matched.
The stretches come last first, and `stop` is where the first of these ends. -/
def shortestBack (p : Pattern) : Nat → List (List Char) → Option Nat
  | _, [] => none
  | stop, t :: rest =>
    match (p.backs t).getLast? with
    | some n => some (stop - n)
    | none => shortestBack p (stop - t.length - 1) rest

/-- The shortest or the longest end of a text that is matched is taken away. Of
several arguments the last one with such a shortest end is cut, or else the first. -/
def dropEnd (p : Pattern) (longest : Bool) (s : List Char) : List Char :=
  let first := s.takeWhile (· ≠ '\x00')
  let cut :=
    if longest then (p.backs first).head?.map (first.length - ·)
    else shortestBack p s.length (stretches s).reverse
  match cut with
  | some n => s.take n
  | none => s

end Pattern

end NestedBatch.Shell

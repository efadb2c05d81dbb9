/-! Matching a text in one pass. A track is a pattern that notes, at each of its
characters, whether a match has just come by there; one turn takes all matches under way
past the next character of the text. -/
namespace NestedBatch.Shell

/-- A place of a match that looks at the characters around it. -/
inductive Anchor where
  | lineStart
  | lineEnd
  | wordStart
  | wordEnd
  | wordEdge
  | notWordEdge
  deriving DecidableEq

structure Gap where
  before : Option Char
  after : Option Char

namespace Gap

def isWordChar (c : Char) : Bool := c.isAlphanum || c = '_'

def wordBefore (g : Gap) : Bool := g.before.any isWordChar

def wordAfter (g : Gap) : Bool := g.after.any isWordChar

def holds (g : Gap) : Anchor → Bool
  | .lineStart => g.before.isNone
  | .lineEnd => g.after.isNone
  | .wordStart => !g.wordBefore && g.wordAfter
  | .wordEnd => g.wordBefore && !g.wordAfter
  | .wordEdge => g.wordBefore != g.wordAfter
  | .notWordEdge => g.wordBefore == g.wordAfter

end Gap

inductive Track where
  | empty
  | char (accepts : Char → Bool) (reached : Bool)
  | anchor (a : Anchor)
  | sequence (first second : Track)
  | either (a b : Track)
  /-- Any number of times. -/
  | repeated (t : Track)

namespace Track

structure Turn where
  /-- Can a match that is under way end here? -/
  ends : Bool
  /-- Can a match that begins here end here? -/
  skips : Bool
  /-- The track behind the next character. The flag says whether a match begins before it. -/
  next : Bool → Char → Track

def turn (g : Gap) : Track → Turn
  | .empty => ⟨false, true, fun _ _ => .empty⟩
  | .char f reached => ⟨reached, false, fun begins c => .char f (begins && f c)⟩
  | .anchor a => ⟨false, g.holds a, fun _ _ => .anchor a⟩
  | .sequence a b =>
    let x := turn g a
    let y := turn g b
    ⟨y.ends || (x.ends && y.skips), x.skips && y.skips, fun begins c =>
      .sequence (x.next begins c) (y.next (x.ends || (begins && x.skips)) c)⟩
  | .either a b =>
    let x := turn g a
    let y := turn g b
    ⟨x.ends || y.ends, x.skips || y.skips, fun begins c =>
      .either (x.next begins c) (y.next begins c)⟩
  | .repeated t =>
    let x := turn g t
    ⟨x.ends, true, fun begins c => .repeated (x.next (begins || x.ends) c)⟩

def isLive : Track → Bool
  | .char _ reached => reached
  | .sequence a b | .either a b => isLive a || isLive b
  | .repeated t => isLive t
  | .empty | .anchor _ => false

/-- So many tracks one after the other, and one more behind them. -/
def copies (t last : Track) : Nat → Track
  | 0 => last
  | n + 1 => .sequence t (copies t last n)

def upTo (t : Track) : Nat → Track
  | 0 => .empty
  | n + 1 => .either .empty (.sequence t (upTo t n))

/-- The places where matches end that are under way, or that begin here if one does; the
last place comes first. -/
def ends (stops : Gap → Bool) (t : Track) (before : Option Char) (begins : Bool) (place : Nat)
    (found : List Nat) (s : List Char) : List Nat :=
  let gap : Gap := ⟨before, s.head?⟩
  let x := t.turn gap
  let isEnd := stops gap && (x.ends || (begins && x.skips))
  let found := if isEnd then place :: found else found
  match s with
  | [] => found
  | c :: rest =>
    let next := x.next begins c
    if next.isLive then ends stops next (some c) false (place + 1) found rest else found

/-- Does the text hold a match between places where matches may start and stop? -/
def finds (starts stops : Gap → Bool) (t : Track) (before : Option Char) (s : List Char) : Bool :=
  let gap : Gap := ⟨before, s.head?⟩
  let x := t.turn gap
  let begins := starts gap
  if stops gap && (x.ends || (begins && x.skips)) then true
  else
    match s with
    | [] => false
    | c :: rest => finds starts stops (x.next begins c) (some c) rest

/-- The first match from a place on, as its start and end; of those with one start the longest. -/
def first? (starts stops : Gap → Bool) (t : Track) (before : Option Char) (place : Nat)
    (s : List Char) : Option (Nat × Nat) :=
  let gap : Gap := ⟨before, s.head?⟩
  match if starts gap then (t.ends stops before true place [] s).head? else none with
  | some stop => some (place, stop)
  | none =>
    match s with
    | [] => none
    | c :: rest => first? starts stops t (some c) (place + 1) rest

def covers (t : Track) (s : List Char) : Bool :=
  t.finds (fun g => g.before.isNone) (fun g => g.after.isNone) none s

/-- The lengths of all fronts of a text that the track matches, the longest first. -/
def fronts (t : Track) (s : List Char) : List Nat := t.ends (fun _ => true) none true 0 [] s

end Track

end NestedBatch.Shell

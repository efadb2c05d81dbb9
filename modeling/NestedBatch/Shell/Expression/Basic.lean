import NestedBatch.Shell.Track

/-! Regular expressions over octets, and where they match in a line. -/
namespace NestedBatch.Shell

inductive Expression where
  | empty
  | char (accepts : Char → Bool)
  /-- Any character but these. -/
  | except (refuses : Char → Bool)
  | anchor (a : Anchor)
  | sequence (first second : Expression)
  | either (a b : Expression)
  /-- From `least` to `most` times; without `most`, any number of times from `least`. -/
  | times (e : Expression) (least : Nat) (most : Option Nat)
  | group (n : Nat) (e : Expression)
  /-- What a group has matched. -/
  | back (n : Nat)

namespace Expression

/-! ### Matching with references

What groups have matched has to be known where there are references to them, so all
places that a match can reach are followed, each with its groups. -/

/-- How far a match has come, and what its groups have matched, newest first. -/
structure Reached where
  place : Nat
  groups : List (Nat × Nat × Nat)
  deriving DecidableEq

structure Line where
  text : Array Char
  /-- Is the case of letters ignored? -/
  folded : Bool

/-- Does a class of characters accept one, if the case of letters may be ignored? -/
def accepts (folded : Bool) (f : Char → Bool) (c : Char) : Bool :=
  f c || (folded && (f c.toLower || f c.toUpper))

namespace Line

def gap (l : Line) (n : Nat) : Gap := ⟨if n = 0 then none else l.text[n - 1]?, l.text[n]?⟩

/-- Is the text at one place the same as that between two others? -/
def repeats (l : Line) (start stop place : Nat) : Bool :=
  let shown (c : Char) : Char := if l.folded then c.toLower else c
  let part (a b : Nat) : List Char := ((l.text.extract a b).toList).map shown
  part start stop = part place (place + (stop - start))

end Line

def distinct (found : List Reached) : List Reached := found.eraseDups

/-- Repeats a step up to so many times, as long as it reaches anything new. -/
def closure (step : Reached → List Reached) : Nat → List Reached → List Reached → List Reached
  | 0, found, _ => found
  | fuel + 1, found, front =>
    let next := (distinct (front.flatMap step)).filter fun r => !found.contains r
    if next.isEmpty then found else closure step fuel (found ++ next) next

def iterate (step : Reached → List Reached) : Nat → List Reached → List Reached
  | 0, found => found
  | n + 1, found => if found.isEmpty then [] else iterate step n (distinct (found.flatMap step))

def repeatsPlace : Expression → Bool
  | .anchor _ => true
  | .times e _ _ => repeatsPlace e
  | _ => false

/-- All that can be reached by a match from a place. A place that is repeated is looked for
just once. -/
def reach (l : Line) : Expression → Reached → List Reached
  | .empty, r => [r]
  | .char f, r =>
    match l.text[r.place]? with
    | some c => if accepts l.folded f c then [{ r with place := r.place + 1 }] else []
    | none => []
  | .except f, r =>
    match l.text[r.place]? with
    | some c => if accepts l.folded f c then [] else [{ r with place := r.place + 1 }]
    | none => []
  | .anchor a, r => if (l.gap r.place).holds a then [r] else []
  | .sequence a b, r => distinct ((reach l a r).flatMap fun r => reach l b r)
  | .either a b, r => distinct (reach l a r ++ reach l b r)
  | .times e least most, r =>
    if e.repeatsPlace then reach l e r
    else
      let found := iterate (fun r => reach l e r) least [r]
      let further := (most.map (· - least)).getD (l.text.size + 1)
      closure (fun r => reach l e r) further found found
  | .group n e, r =>
    (reach l e r).map fun q =>
      { q with groups := (n, r.place, q.place) :: q.groups.filter (·.1 ≠ n) }
  | .back n, r =>
    match r.groups.find? fun g => g.1 = n with
    | some (_, a, b) =>
      if l.repeats a b r.place then [{ r with place := r.place + (b - a) }] else []
    | none => []

/-! ### Searching -/

def looksBack : Expression → Bool
  | .back _ => true
  | .sequence a b | .either a b => looksBack a || looksBack b
  | .times e _ _ | .group _ e => looksBack e
  | _ => false

def track (folded : Bool) : Expression → Track
  | .empty => .empty
  | .char f => .char (accepts folded f) false
  | .except f => .char (fun c => !accepts folded f c) false
  | .anchor a => .anchor a
  | .sequence a b => .sequence (track folded a) (track folded b)
  | .either a b => .either (track folded a) (track folded b)
  | .times e least most =>
    let t := track folded e
    t.copies ((most.map fun m => t.upTo (m - least)).getD (.repeated t)) least
  | .group _ e => track folded e
  | .back _ => .char (fun _ => false) false

structure Search where
  expression : Expression
  folded : Bool
  /-- Has a match to be a whole word? -/
  words : Bool
  /-- Has a match to be the whole line? -/
  lines : Bool

namespace Search

def starts (s : Search) (g : Gap) : Bool :=
  !(s.lines && g.before.isSome) && !(s.words && g.wordBefore)

def stops (s : Search) (g : Gap) : Bool :=
  !(s.lines && g.after.isSome) && !(s.words && g.wordAfter)

/-- The first match from a place on where the expression looks back. -/
def firstBack? (s : Search) (l : Line) (start : Nat) : Option (Nat × Nat) :=
  (List.range (l.text.size + 1 - start)).findSome? fun n =>
    if s.starts (l.gap (start + n)) then
      let ends := (s.expression.reach l ⟨start + n, []⟩).map Reached.place
      (ends.filter fun stop => s.stops (l.gap stop)).max?.map (start + n, ·)
    else none

def finds (s : Search) (text : List Char) : Bool :=
  if s.expression.looksBack then (s.firstBack? ⟨text.toArray, s.folded⟩ 0).isSome
  else (s.expression.track s.folded).finds s.starts s.stops none text

/-- The first match from a place on, behind which the rest of the text is given. -/
def first? (s : Search) (l : Line) (place : Nat) (rest : List Char) : Option (Nat × Nat) :=
  if s.expression.looksBack then s.firstBack? l place
  else
    (s.expression.track s.folded).first? s.starts s.stops (l.gap place).before place rest

/-- All matches that are not empty, one after the other, with their places. -/
def all (s : Search) (text : List Char) : List (Nat × List Char) :=
  go ⟨text.toArray, s.folded⟩ (text.length + 1) 0 text
where
  go (l : Line) : Nat → Nat → List Char → List (Nat × List Char)
    | 0, _, _ => []
    | fuel + 1, place, rest =>
      match s.first? l place rest with
      | none => []
      | some (a, b) =>
        let there := rest.drop (a - place)
        if a = b then go l fuel (a + 1) (there.drop 1)
        else (a, there.take (b - a)) :: go l fuel b (there.drop (b - a))

end Search

end Expression

end NestedBatch.Shell

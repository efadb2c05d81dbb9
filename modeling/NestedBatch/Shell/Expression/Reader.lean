import NestedBatch.Shell.Expression.Basic
import NestedBatch.Shell.Integer
import NestedBatch.Shell.Pattern

/-! Reading regular expressions, basic and extended: first the tokens, then what they
make up. -/
namespace NestedBatch.Shell

namespace Expression

inductive Token where
  | char (accepts : Char → Bool)
  | except (refuses : Char → Bool)
  | anchor (a : Anchor)
  /-- A repetition; one with bounds in braces is `braced`. -/
  | times (braced : Bool) (least : Nat) (most : Option Nat)
  | open
  | close
  | bar
  | back (n : Nat)

inductive ExpressionFault where
  | openBracket
  | badClass
  | bareClass
  | badRange
  | openGroup
  | closeGroup
  | openInterval
  | badInterval
  | backslash
  | badReference
  deriving DecidableEq

def ExpressionFault.message : ExpressionFault → String
  | .openBracket => "Unmatched [, [^, [:, [., or [="
  | .badClass => "Invalid character class name"
  | .bareClass => "character class syntax is [[:space:]], not [:space:]"
  | .badRange => "Invalid range end"
  | .openGroup => "Unmatched ( or \\("
  | .closeGroup => "Unmatched ) or \\)"
  | .openInterval => "Unmatched \\\x7b"
  | .badInterval => "Invalid content of \\\x7b\\\x7d"
  | .backslash => "Trailing backslash"
  | .badReference => "Invalid back reference"

/-- A member of a class that stands between marks, as in `[.a.]`, after its bracket. -/
def marked? (s : List Char) : Option (Char × List Char × List Char) :=
  match s with
  | m :: rest =>
    if m = ':' ∨ m = '.' ∨ m = '=' then
      let name := go m rest
      if name.length < rest.length then some (m, name, rest.drop (name.length + 2)) else none
    else none
  | [] => none
where
  go (m : Char) : List Char → List Char
    | a :: b :: rest => if a = m ∧ b = ']' then [] else a :: go m (b :: rest)
    | [a] => [a]
    | [] => []

/-- The members of a class, up to the closing bracket. One that comes `first` is a member. -/
def classMembers : Nat → Bool → List Char → Except ExpressionFault ((Char → Bool) × List Char)
  | 0, _, _ => .error .openBracket
  | fuel + 1, first, s =>
    let joined (f : Char → Bool) (rest : List Char) :
        Except ExpressionFault ((Char → Bool) × List Char) :=
      (classMembers fuel false rest).map fun p => (fun c => f c || p.1 c, p.2)
    /- A member that may start a range. -/
    let ranged (low : Char) (rest : List Char) :
        Except ExpressionFault ((Char → Bool) × List Char) :=
      match rest with
      | '-' :: high :: more =>
        if high = ']' then joined (fun c => c = low) rest
        else
          let (high, more) :=
            match if high = '[' then marked? more else none with
            | some (_, [c], more) => (c, more)
            | _ => (high, more)
          if high < low then .error .badRange else joined (fun c => low ≤ c && c ≤ high) more
      | _ => joined (fun c => c = low) rest
    match s with
    | [] => .error .openBracket
    | ']' :: rest => if first then ranged ']' rest else .ok (fun _ => false, rest)
    | '[' :: rest =>
      match marked? rest with
      | some (':', name, rest) =>
        match Pattern.namedClass? (String.ofList name) with
        | some f => joined f rest
        | none => .error .badClass
      | some (_, [c], rest) => ranged c rest
      | some _ => .error .badClass
      | none =>
        match rest with
        | m :: _ => if m = ':' ∨ m = '.' ∨ m = '=' then .error .openBracket else ranged '[' rest
        | [] => .error .openBracket
    | c :: rest => ranged c rest

def bracketed (s : List Char) : Except ExpressionFault (Token × List Char) :=
  match s with
  | '^' :: rest => (classMembers (rest.length + 1) true rest).map fun p => (.except p.1, p.2)
  | _ =>
    let body := s.takeWhile (· ≠ ']')
    if body.head? = some ':' ∧ body.getLast? = some ':' ∧ 1 < body.length ∧ body.length < s.length
    then .error .bareClass
    else (classMembers (s.length + 1) true s).map fun p => (.char p.1, p.2)

/-- The bounds of an interval, after its opening brace, and what follows the closing one. -/
def interval? (extended : Bool) (s : List Char) : Option (Nat × Option Nat × List Char) :=
  let low := s.takeWhile Char.isDigit
  let rest := s.drop low.length
  let closed (rest : List Char) : Option (List Char) :=
    match extended, rest with
    | true, '\x7d' :: rest => some rest
    | false, '\\' :: '\x7d' :: rest => some rest
    | _, _ => none
  match rest with
  | ',' :: rest =>
    let high := rest.takeWhile Char.isDigit
    let most := if high.isEmpty then none else some (Numeral.value high)
    (closed (rest.drop high.length)).map (Numeral.value low, most, ·)
  | rest =>
    if low.isEmpty then none
    else (closed rest).map (Numeral.value low, some (Numeral.value low), ·)

def mostTimes : Nat := 32767

def escaped? (c : Char) : Option Token :=
  let isSpace (c : Char) : Bool := isBlank c
  if c = 'w' then some (.char Gap.isWordChar)
  else if c = 'W' then some (.char fun c => !Gap.isWordChar c)
  else if c = 's' then some (.char isSpace)
  else if c = 'S' then some (.char fun c => !isSpace c)
  else if c = '<' then some (.anchor .wordStart)
  else if c = '>' then some (.anchor .wordEnd)
  else if c = 'b' then some (.anchor .wordEdge)
  else if c = 'B' then some (.anchor .notWordEdge)
  else if c = Char.ofNat 96 then some (.anchor .lineStart)
  else if c = Char.ofNat 39 then some (.anchor .lineEnd)
  else if c.isDigit && c ≠ '0' then some (.back (c.toNat - '0'.toNat))
  else none

/-- The operators that are written with a backslash in basic expressions, and
without one in extended expressions. -/
def operator? (c : Char) : Option Token :=
  if c = '(' then some .open
  else if c = ')' then some .close
  else if c = '|' then some .bar
  else if c = '+' then some (.times false 1 none)
  else if c = '?' then some (.times false 0 (some 1))
  else none

inductive Before where
  | nothing
  /-- Nothing that takes up a character. -/
  | anchors
  | items
  deriving DecidableEq

/-- The tokens of an expression, with so many groups open. In a basic expression only what
takes up a character is repeated. In an extended expression a bracket that closes no
group stands for itself. -/
def tokens (extended : Bool) :
    Nat → Nat → Before → List Char → Except ExpressionFault (List Token)
  | 0, _, _, _ => .ok []
  | fuel + 1, groups, before, s =>
    let joined (t : Token) (rest : List Char) : Except ExpressionFault (List Token) :=
      let groups :=
        match t with
        | .open => groups + 1
        | .close => groups - 1
        | _ => groups
      let before :=
        match t with
        | .open | .bar => .nothing
        | .anchor _ => if before = .items then .items else .anchors
        | _ => .items
      (tokens extended fuel groups before rest).map (t :: ·)
    let literal (c : Char) (rest : List Char) := joined (.char fun d => d = c) rest
    let repeats := extended || before = .items
    let braced (rest : List Char) : Except ExpressionFault (List Token) :=
      match interval? extended rest with
      | some (least, most, after) =>
        if most.any (· < least) ∨ mostTimes < max least (most.getD 0) then .error .badInterval
        else joined (.times true least most) after
      | none =>
        if extended then literal '\x7b' rest
        else if rest.contains '\x7d' then .error .badInterval
        else .error .openInterval
    let operator (t : Token) (c : Char) (rest : List Char) : Except ExpressionFault (List Token) :=
      match t with
      | .close => if extended ∧ groups = 0 then literal c rest else joined t rest
      | .times .. => if repeats then joined t rest else literal c rest
      | t => joined t rest
    match s with
    | [] => .ok []
    | ['\\'] => .error .backslash
    | '\\' :: c :: rest =>
      match escaped? c with
      | some t => joined t rest
      | none =>
        if extended then literal c rest
        else if c = '\x7b' then if repeats then braced rest else literal c rest
        else
          match operator? c with
          | some t => operator t c rest
          | none => literal c rest
    | '.' :: rest => joined (.char fun _ => true) rest
    | '[' :: rest =>
      match bracketed rest with
      | .ok (t, rest) => joined t rest
      | .error e => .error e
    | '*' :: rest => operator (.times false 0 none) '*' rest
    | '^' :: rest =>
      if extended ∨ before = .nothing then joined (.anchor .lineStart) rest else literal '^' rest
    | '$' :: rest =>
      let last := rest.isEmpty || rest.take 2 = ['\\', ')'] || rest.take 2 = ['\\', '|']
      if extended ∨ last then joined (.anchor .lineEnd) rest else literal '$' rest
    | c :: rest =>
      if extended then
        if c = '\x7b' then braced rest
        else
          match operator? c with
          | some t => operator t c rest
          | none => literal c rest
      else literal c rest

def repeated : Expression → List Token → Expression × List Token
  | e, .times _ least most :: rest => repeated (.times e least most) rest
  | e, rest => (e, rest)

/-- What has been read, how many groups were opened up to there, those that have been
closed, and the tokens that are left. -/
structure Parsed where
  expression : Expression
  groups : Nat
  closed : List Nat
  rest : List Token

mutual

/-- Alternatives, up to a closing bracket. A reference in one of them leads to no group
of another. -/
def alternatives : Nat → Nat → List Nat → List Token → Except ExpressionFault Parsed
  | 0, groups, closed, ts => .ok ⟨.empty, groups, closed, ts⟩
  | fuel + 1, groups, closed, ts => do
    let a ← items fuel .empty groups closed ts
    match a.rest with
    | .bar :: rest =>
      let b ← alternatives fuel a.groups closed rest
      let expression := .either a.expression b.expression
      return { b with expression, closed := a.closed ++ b.closed }
    | _ => return a

/-- Items one after the other, up to a bar or a closing bracket. -/
def items : Nat → Expression → Nat → List Nat → List Token → Except ExpressionFault Parsed
  | 0, before, groups, closed, ts => .ok ⟨before, groups, closed, ts⟩
  | fuel + 1, before, groups, closed, ts =>
    let more (e : Expression) (groups : Nat) (closed : List Nat) (rest : List Token) :
        Except ExpressionFault Parsed :=
      let (e, rest) := repeated e rest
      items fuel (.sequence before e) groups closed rest
    match ts with
    | [] | .bar :: _ | .close :: _ => .ok ⟨before, groups, closed, ts⟩
    | .char f :: rest => more (.char f) groups closed rest
    | .except f :: rest => more (.except f) groups closed rest
    | .anchor a :: rest => more (.anchor a) groups closed rest
    | .back n :: rest =>
      if closed.contains n then more (.back n) groups closed rest else .error .badReference
    | .times .. :: _ => more .empty groups closed ts
    | .open :: rest => do
      let inner ← alternatives fuel (groups + 1) closed rest
      match inner.rest with
      | .close :: rest =>
        more (.group (groups + 1) inner.expression) inner.groups
          ((groups + 1) :: inner.closed) rest
      | _ => throw .openGroup

end

/-- Does a repetition of nothing, or of a place, stand right before a closing bracket?
`bare` says that there is nothing yet to be repeated, and `skipped` that this has just
been asked for, other than in braces. -/
def repeatsNothing (bare skipped : Bool) : List Token → Bool
  | [] => false
  | .times braced _ _ :: rest => repeatsNothing (bare && !braced) (bare && !braced) rest
  | .close :: rest => skipped || repeatsNothing false false rest
  | .open :: rest | .bar :: rest | .anchor _ :: rest => repeatsNothing true false rest
  | _ :: rest => repeatsNothing false false rest

/-- Reads an expression. In an extended one, a bracket behind a repetition of nothing
does not close its group. -/
def read (extended : Bool) (s : List Char) : Except ExpressionFault Expression := do
  let ts ← tokens extended (s.length + 1) 0 .nothing s
  if extended && repeatsNothing true false ts then throw .openGroup
  let all ← alternatives (4 * ts.length + 4) 0 [] ts
  if all.rest.isEmpty then return all.expression else throw .closeGroup

def ofText (s : List Char) : Expression :=
  s.foldl (fun e c => .sequence e (.char fun d => d = c)) .empty

end Expression

end NestedBatch.Shell

import NestedBatch.Shell.Integer

/-! Arithmetic expressions over words of 64 bits and the variables of a script. -/
namespace NestedBatch.Shell.Arithmetic

/-- What is wrong with an expression, or with the values in it. -/
inductive Fault where
  /-- Something else should stand where reading has come to. -/
  | expecting (what : String)
  | divisionByZero
  | badNumber (text : String)
  | fixed (name : String)
  deriving DecidableEq

def Fault.message (text : String) : Fault → String
  | .expecting what => "arithmetic expression: expecting " ++ what ++ ": \"" ++ text ++ "\""
  | .divisionByZero => "arithmetic expression: division by zero: \"" ++ text ++ "\""
  | .badNumber text => "Illegal number: " ++ text
  | .fixed name => name ++ ": is read only"

inductive Operator where
  | multiply | divide | remainder | add | subtract | shiftLeft | shiftRight
  | less | lessEqual | greater | greaterEqual | equal | unequal | bitAnd | bitXor | bitOr
  deriving DecidableEq

def Operator.level : Operator → Nat
  | .multiply | .divide | .remainder => 0
  | .add | .subtract => 1
  | .shiftLeft | .shiftRight => 2
  | .less | .lessEqual | .greater | .greaterEqual => 3
  | .equal | .unequal => 4
  | .bitAnd => 5
  | .bitXor => 6
  | .bitOr => 7

def levels : Nat := 8

inductive Token where
  | number (n : Int64)
  | variable (name : String)
  | operator (o : Operator)
  /-- An assignment, with the operator that it applies first. -/
  | assign (o : Option Operator)
  | and | or | not | complement | question | colon | open | close
  /-- A character that no token starts with. -/
  | unknown
  deriving DecidableEq

inductive Expression where
  | number (n : Int64)
  | variable (name : String)
  | negative (e : Expression)
  | not (e : Expression)
  | complement (e : Expression)
  | binary (o : Operator) (a b : Expression)
  | and (a b : Expression)
  | or (a b : Expression)
  | choice (test yes no : Expression)
  | assign (name : String) (o : Option Operator) (e : Expression)

/-! ### Reading -/

def isNameStart (c : Char) : Bool := c.isAlpha || c = '_'

def isNameChar (c : Char) : Bool := c.isAlphanum || c = '_'

def operators : List (String × Token) :=
  [("<<=", .assign (some .shiftLeft)), (">>=", .assign (some .shiftRight)),
   ("*=", .assign (some .multiply)), ("/=", .assign (some .divide)),
   ("%=", .assign (some .remainder)), ("+=", .assign (some .add)),
   ("-=", .assign (some .subtract)), ("&=", .assign (some .bitAnd)),
   ("^=", .assign (some .bitXor)), ("|=", .assign (some .bitOr)),
   ("<<", .operator .shiftLeft), (">>", .operator .shiftRight), ("<=", .operator .lessEqual),
   (">=", .operator .greaterEqual), ("==", .operator .equal), ("!=", .operator .unequal),
   ("&&", .and), ("||", .or), ("=", .assign none), ("<", .operator .less),
   (">", .operator .greater), ("*", .operator .multiply), ("/", .operator .divide),
   ("%", .operator .remainder), ("+", .operator .add), ("-", .operator .subtract),
   ("&", .operator .bitAnd), ("^", .operator .bitXor), ("|", .operator .bitOr), ("!", .not),
   ("~", .complement), ("?", .question), (":", .colon), ("(", .open), (")", .close)]

/-- The tokens of an expression, up to a character that starts none. -/
def tokens : Nat → List Char → List Token
  | 0, _ => []
  | fuel + 1, s =>
    match s with
    | [] => []
    | c :: rest =>
      if c = ' ' ∨ c = '\t' ∨ c = '\n' then tokens fuel rest
      else if c.isDigit then
        let (n, left) := leadingSize s
        .number (.ofInt (signedWord n).1) :: tokens fuel left
      else if isNameStart c then
        .variable (String.ofList (s.takeWhile isNameChar)) ::
          tokens fuel (s.dropWhile isNameChar)
      else
        match operators.find? fun o => o.1.toList.isPrefixOf s with
        | some (text, t) => t :: tokens fuel (s.drop text.length)
        | none => [.unknown]

abbrev Read := Except Fault (Expression × List Token)

def Read.onto (r : Read) (f : Expression → Expression) : Read := r.map fun p => (f p.1, p.2)

mutual

/-- A number, a variable or an expression in brackets, with the signs in front. -/
def primary : Nat → List Token → Read
  | 0, _ => .error (.expecting "primary")
  | fuel + 1, ts =>
    match ts with
    | .number n :: rest => .ok (.number n, rest)
    | .variable name :: rest => .ok (.variable name, rest)
    | .operator .add :: rest => primary fuel rest
    | .operator .subtract :: rest => (primary fuel rest).onto .negative
    | .not :: rest => (primary fuel rest).onto .not
    | .complement :: rest => (primary fuel rest).onto .complement
    | .open :: rest =>
      match assignment fuel rest with
      | .ok (e, .close :: rest) => .ok (e, rest)
      | .ok _ => .error (.expecting "')'")
      | .error e => .error e
    | _ => .error (.expecting "primary")

/-- Goes on with operators of levels below `limit`, from the left. -/
def binary : Nat → Nat → Expression → List Token → Read
  | 0, _, _, _ => .error (.expecting "primary")
  | fuel + 1, limit, a, ts =>
    match ts with
    | .operator o :: rest =>
      if o.level < limit then do
        let (b, rest) ← primary fuel rest
        let (b, rest) ← binary fuel o.level b rest
        binary fuel limit (.binary o a b) rest
      else .ok (a, ts)
    | ts => .ok (a, ts)

def conjunction : Nat → List Token → Read
  | 0, _ => .error (.expecting "primary")
  | fuel + 1, ts => do
    let (a, rest) ← primary fuel ts
    let (a, rest) ← binary fuel levels a rest
    match rest with
    | .and :: rest => (conjunction fuel rest).onto (.and a)
    | rest => return (a, rest)

def disjunction : Nat → List Token → Read
  | 0, _ => .error (.expecting "primary")
  | fuel + 1, ts => do
    let (a, rest) ← conjunction fuel ts
    match rest with
    | .or :: rest => (disjunction fuel rest).onto (.or a)
    | rest => return (a, rest)

def choice : Nat → List Token → Read
  | 0, _ => .error (.expecting "primary")
  | fuel + 1, ts => do
    let (test, rest) ← disjunction fuel ts
    match rest with
    | .question :: rest =>
      match ← assignment fuel rest with
      | (yes, .colon :: rest) => (choice fuel rest).onto (.choice test yes)
      | _ => throw (.expecting "':'")
    | rest => return (test, rest)

def assignment : Nat → List Token → Read
  | 0, _ => .error (.expecting "primary")
  | fuel + 1, ts =>
    match ts with
    | .variable name :: .assign o :: rest => (assignment fuel rest).onto (.assign name o)
    | ts => choice fuel ts

end

def read (s : List Char) : Except Fault Expression := do
  let ts := tokens (s.length + 1) s
  match ← assignment (8 * ts.length + 16) ts with
  | (e, []) => return e
  | _ => throw (.expecting "EOF")

/-! ### Values -/

structure Variables (σ : Type) where
  get : σ → String → Option (List Char)
  set : σ → String → List Char → Option σ

def ofBool (b : Bool) : Int64 := if b then 1 else 0

/-- The value of an operation; nothing is divided by zero. -/
def Operator.apply (o : Operator) (a b : Int64) : Except Fault Int64 :=
  match o with
  | .multiply => .ok (a * b)
  | .divide => if b = 0 then .error .divisionByZero else .ok (a / b)
  | .remainder => if b = 0 then .error .divisionByZero else .ok (a % b)
  | .add => .ok (a + b)
  | .subtract => .ok (a - b)
  | .shiftLeft => .ok (a <<< b)
  | .shiftRight => .ok (a >>> b)
  | .less => .ok (ofBool (a < b))
  | .lessEqual => .ok (ofBool (a ≤ b))
  | .greater => .ok (ofBool (b < a))
  | .greaterEqual => .ok (ofBool (b ≤ a))
  | .equal => .ok (ofBool (a = b))
  | .unequal => .ok (ofBool (a ≠ b))
  | .bitAnd => .ok (a &&& b)
  | .bitXor => .ok (a ^^^ b)
  | .bitOr => .ok (a ||| b)

section Values

variable {σ : Type}

/-- The value of a variable. One that has none, or an empty one, counts as zero. -/
def Variables.number (v : Variables σ) (s : σ) (name : String) : Except Fault Int64 :=
  let text := (v.get s name).getD []
  let (n, rest) := leadingInteger text
  if rest.all isBlank && isWord n then .ok (.ofInt n)
  else .error (.badNumber (String.ofList text))

def Expression.value (v : Variables σ) : Expression → σ → Except Fault (Int64 × σ)
  | .number n, s => .ok (n, s)
  | .variable name, s => (v.number s name).map (·, s)
  | .negative e, s => (e.value v s).map fun p => (-p.1, p.2)
  | .not e, s => (e.value v s).map fun p => (ofBool (p.1 = 0), p.2)
  | .complement e, s => (e.value v s).map fun p => (~~~p.1, p.2)
  | .binary o a b, s => do
    let (a, s) ← a.value v s
    let (b, s) ← b.value v s
    let n ← o.apply a b
    return (n, s)
  | .and a b, s => do
    let (a, s) ← a.value v s
    if a = 0 then return (0, s)
    else
      let (b, s) ← b.value v s
      return (ofBool (b ≠ 0), s)
  | .or a b, s => do
    let (a, s) ← a.value v s
    if a ≠ 0 then return (1, s)
    else
      let (b, s) ← b.value v s
      return (ofBool (b ≠ 0), s)
  | .choice test yes no, s => do
    let (n, s) ← test.value v s
    if n ≠ 0 then yes.value v s else no.value v s
  | .assign name o e, s => do
    let (n, s) ← e.value v s
    let n ←
      match o with
      | none => pure n
      | some o => do o.apply (← v.number s name) n
    match v.set s name (Numeral.ofInt n.toInt) with
    | some s => return (n, s)
    | none => throw (.fixed name)

end Values

end NestedBatch.Shell.Arithmetic

import NestedBatch.Files.Basic
import NestedBatch.Shell.Integer
import NestedBatch.Text.Octets

/-! The conditions that `test` decides. A word that could be an operator is one
only if there are operands for it. -/
namespace NestedBatch.Shell

inductive ConditionFault where
  | missingArgument (operator : String)
  | missingBracket
  | unexpected (word : String)
  | badNumber (word : String)
  deriving DecidableEq

def ConditionFault.message : ConditionFault → String
  | .missingArgument operator => operator ++ ": argument expected"
  | .missingBracket => "closing paren expected"
  | .unexpected word => word ++ ": unexpected operator"
  | .badNumber word => "Illegal number: " ++ word

namespace Condition

inductive Role where
  | unary
  | binary
  | not
  | and
  | or
  | open
  | close
  deriving DecidableEq

def unaryNames : List String :=
  ["-r", "-w", "-x", "-e", "-f", "-d", "-c", "-b", "-p", "-u", "-g", "-k", "-s", "-t", "-z", "-n",
   "-h", "-O", "-G", "-L", "-S"]

def binaryNames : List String :=
  ["=", "!=", "<", ">", "-eq", "-ne", "-ge", "-gt", "-le", "-lt", "-nt", "-ot", "-ef"]

/-- The part that a word could play. `more` names further operators with two operands. -/
def role? (more : List String) (w : String) : Option Role :=
  if unaryNames.contains w then some .unary
  else if binaryNames.contains w ∨ more.contains w then some .binary
  else if w = "!" then some .not
  else if w = "-a" then some .and
  else if w = "-o" then some .or
  else if w = "(" then some .open
  else if w = ")" then some .close
  else none

inductive Token where
  | end
  | operand
  | role (r : Role)
  deriving DecidableEq

def token (more : List String) : List String → Token
  | [] => .end
  | w :: rest =>
    match role? more w with
    | none => .operand
    | some .unary =>
      let isOperand : Bool :=
        match rest with
        | [] => true
        | [_] => false
        | next :: _ => role? more next = some .binary
      if isOperand then .operand else .role .unary
    | some .open => if rest.isEmpty then .operand else .role .open
    | some r => .role r

def unary (files : Files) (operator operand : String) : Bool :=
  let found := (files.look (Text.decode operand.toList)).toOption
  if operator = "-n" then operand ≠ ""
  else if operator = "-z" then operand = ""
  else if ["-e", "-r", "-w", "-O", "-G"].contains operator then found.isSome
  else if operator = "-d" then found = some .directory
  else if operator = "-c" then found = some .sink ∨ found = some .full
  else
    match found with
    | some .directory => operator = "-x" ∨ operator = "-s"
    | some (.program _) => operator = "-x" ∨ operator = "-s" ∨ operator = "-f"
    | some (.file content) => operator = "-f" ∨ (operator = "-s" ∧ !content.isEmpty)
    | _ => false

def number (w : String) : Except ConditionFault Int :=
  match decimal? w.toList with
  | some n => .ok n
  | none => .error (.badNumber w)

def binary (files : Files) (a operator b : String) : Except ConditionFault Bool :=
  let compare (test : Int → Int → Bool) : Except ConditionFault Bool := do
    let m ← number a
    let n ← number b
    return test m n
  let place? (w : String) : Option (List String) :=
    match files.locate (Text.decode w.toList) with
    | .ok t => if (files.found? t.place).isSome then some t.place else none
    | .error _ => none
  if operator = "=" ∨ operator = "==" then .ok (a = b)
  else if operator = "!=" then .ok (a ≠ b)
  else if operator = "<" then .ok (a < b)
  else if operator = ">" then .ok (b < a)
  else if operator = "-eq" then compare fun m n => m = n
  else if operator = "-ne" then compare fun m n => m ≠ n
  else if operator = "-lt" then compare fun m n => m < n
  else if operator = "-le" then compare fun m n => m ≤ n
  else if operator = "-gt" then compare fun m n => n < m
  else if operator = "-ge" then compare fun m n => n ≤ m
  else if operator = "-ef" then .ok ((place? a).isSome && place? a = place? b)
  else .ok false

mutual

/-- Conditions joined by `-o`. Each of these functions gives, with the truth, the
words from the last one on that was taken. -/
def either (more : List String) (files : Files) :
    Nat → Token → List String → Except ConditionFault (Bool × List String)
  | 0, _, words => .ok (false, words)
  | fuel + 1, t, words => do
    let (a, words) ← both more files fuel t words
    if token more (words.drop 1) = .role .or then
      let words := words.drop 2
      let (b, words) ← either more files fuel (token more words) words
      return (a || b, words)
    else return (a, words)

/-- Conditions joined by `-a`. -/
def both (more : List String) (files : Files) :
    Nat → Token → List String → Except ConditionFault (Bool × List String)
  | 0, _, words => .ok (false, words)
  | fuel + 1, t, words => do
    let (a, words) ← negated more files fuel t words
    if token more (words.drop 1) = .role .and then
      let words := words.drop 2
      let (b, words) ← both more files fuel (token more words) words
      return (a && b, words)
    else return (a, words)

def negated (more : List String) (files : Files) :
    Nat → Token → List String → Except ConditionFault (Bool × List String)
  | 0, _, words => .ok (false, words)
  | fuel + 1, t, words => do
    if t = .role .not then
      let next := token more (words.drop 1)
      let (a, words) ← negated more files fuel next (if next = .end then words else words.drop 1)
      return (!a, words)
    else primary more files fuel t words

def primary (more : List String) (files : Files) :
    Nat → Token → List String → Except ConditionFault (Bool × List String)
  | 0, _, words => .ok (false, words)
  | fuel + 1, t, words => do
    match t, words with
    | .end, _ | _, [] => return (false, words)
    | .role .open, _ :: rest =>
      if token more rest = .role .close then return (false, rest)
      else
        let (a, words) ← either more files fuel (token more rest) rest
        let rest := words.drop 1
        if token more rest = .role .close then return (a, rest) else throw .missingBracket
    | .role .unary, operator :: rest =>
      match rest with
      | [] => throw (.missingArgument operator)
      | operand :: _ =>
        if operator = "-t" then let _ ← number operand
        return (unary files operator operand, rest)
    | _, w :: rest =>
      if token more rest = .role .binary then
        match rest with
        | operator :: b :: more => return (← binary files w operator b, b :: more)
        | _ => throw (.missingArgument ((rest.head?).getD ""))
      else return (w ≠ "", words)

end

/-- A condition whose first word is known to be of a kind. -/
def whole (more : List String) (files : Files) (t : Token) (words : List String) :
    Except ConditionFault Bool := do
  let (a, left) ← either more files (4 * words.length + 8) t words
  match left with
  | w :: _ :: _ => throw (.unexpected w)
  | _ => return a

/-- Decides a condition. With three or four words the places of the operators are fixed. -/
def holds (more : List String) (files : Files) (words : List String) :
    Except ConditionFault Bool :=
  let plain (words : List String) := whole more files (token more words) words
  let three (words : List String) : Except ConditionFault Bool :=
    match words with
    | [a, operator, b] =>
      if role? more operator = some .binary then whole more files .operand words
      else if a = "(" ∧ b = ")" then plain [operator]
      else if a = "!" then (plain [operator, b]).map not
      else plain words
    | _ => plain words
  match words with
  | [] => .ok false
  | [_, _, _] => three words
  | [a, b, c, d] =>
    if a = "(" ∧ d = ")" then plain [b, c]
    else if a = "!" then (three [b, c, d]).map not
    else plain words
  | _ => plain words

end Condition

end NestedBatch.Shell

import NestedBatch.Parameter.Set

/-! Values that a step keeps in its context, and the parameters made from them. -/
namespace NestedBatch

inductive ContextValue where
  | string (s : String)
  | long (n : Int64)
  | double (d : Double)
  | date (t : Instant)
  | bool (b : Bool)
  | parameters (p : Parameters)
  deriving DecidableEq

namespace ContextValue

def typeName : ContextValue → String
  | .string _ => "string"
  | .long _ => "long"
  | .double _ => "double"
  | .date _ => "date"
  | .bool _ => "bool"
  | .parameters _ => "parameters"

def text : ContextValue → String
  | .string s => s
  | .long n => longText n
  | .double d => d.text
  | .date t => t.text .millis
  | .bool b => if b then "true" else "false"
  | .parameters p => "\x7b" ++ p.text ++ "\x7d"

/-- Equality of values. Doubles are compared as numbers. -/
def agrees : ContextValue → ContextValue → Bool
  | .string a, .string b => a = b
  | .long a, .long b => a = b
  | .double a, .double b => a.agrees b
  | .date a, .date b => a = b
  | .bool a, .bool b => a = b
  | .parameters a, .parameters b => a.agree b
  | _, _ => false

def longOf? (raw : String) : Option Int64 :=
  (readLong raw.toList).toOption.filter fun n => longText n = raw

def doubleOf? (raw : String) : Option Double :=
  (Double.read raw.toList).filter fun d => d.isFinite && d.text = raw

/-- The value that a text stands for. It is a number only if the text is just
how that number is written. -/
def infer (raw : String) : ContextValue :=
  match longOf? raw with
  | some n => .long n
  | none =>
    match doubleOf? raw with
    | some d => .double d
    | none =>
      if raw = "true" then .bool true
      else if raw = "false" then .bool false
      else .string raw

/-- The parameter value of the same type; a value without such a type becomes its text. -/
def plainParameter : ContextValue → ParameterValue
  | .string s => .string s
  | .long n => .long n
  | .double d => .double d
  | .date t => .date t
  | other => .string other.text

/-- The parameter value of a wanted type. Any value can become a string, a long
a double, and a string is read. -/
def typedParameter (name : String) (type : ParameterType) (v : ContextValue) :
    Except ParameterFault ParameterValue :=
  match type, v with
  | .string, v => .ok (.string v.text)
  | .long, .long n => .ok (.long n)
  | .double, .double d => .ok (.double d)
  | .double, .long n => .ok (.double (.ofInt n.toInt))
  | .date, .date t => .ok (.date t)
  | type, .string s => type.read name s
  | type, v => .error (.notConvertible v.text name type)

def toParameter (name : String) (type : Option ParameterType) (v : ContextValue) :
    Except ParameterFault ParameterValue :=
  match type with
  | none => .ok v.plainParameter
  | some type => v.typedParameter name type

end ContextValue

end NestedBatch

import NestedBatch.Calendar.Reading
import NestedBatch.Double.Notation
import NestedBatch.Double.Reading
import NestedBatch.Text.Blank

/-! Values of job parameters, their types, and their text. -/
namespace NestedBatch

inductive ParameterValue where
  | string (s : String)
  | long (n : Int64)
  | double (d : Double)
  | date (t : Instant)
  deriving DecidableEq

inductive ParameterType where
  | string
  | long
  | double
  | date
  deriving DecidableEq

namespace ParameterType

def name : ParameterType → String
  | .string => "string"
  | .long => "long"
  | .double => "double"
  | .date => "date"

def title : ParameterType → String
  | .string => "String"
  | .long => "Long"
  | .double => "Double"
  | .date => "Date"

def ofSuffix? (suffix : String) : Option ParameterType :=
  if suffix = "string" then some .string
  else if suffix = "long" ∨ suffix = "int" then some .long
  else if suffix = "double" then some .double
  else if suffix = "date" then some .date
  else none

end ParameterType

inductive ParameterFault where
  | notValid (raw name : String) (type : ParameterType)
  | notConvertible (shown name : String) (type : ParameterType)
  | noAssignment (given : String)
  | noName (given : String)
  /-- Any other fault that is found in parameters, with its text. -/
  | other (text : String)
  deriving DecidableEq

def ParameterFault.message : ParameterFault → String
  | .notValid raw name type =>
    "value '" ++ raw ++ "' for parameter '" ++ name ++ "' is not a valid " ++ type.name
  | .notConvertible shown name type =>
    "context value '" ++ shown ++ "' for '" ++ name ++ "' cannot be used as a " ++ type.title ++
      " parameter"
  | .noAssignment given => "expected name=value, got '" ++ given ++ "'"
  | .noName given => "missing parameter name in '" ++ given ++ "'"
  | .other text => text

def longText (n : Int64) : String := Numeral.intText n.toInt

namespace ParameterValue

def type : ParameterValue → ParameterType
  | .string _ => .string
  | .long _ => .long
  | .double _ => .double
  | .date _ => .date

/-- The text of a value; dates are cut to milliseconds. -/
def text : ParameterValue → String
  | .string s => s
  | .long n => longText n
  | .double d => d.text
  | .date t => t.text .millis

/-- Equality of values. Doubles are compared as numbers. -/
def agrees : ParameterValue → ParameterValue → Bool
  | .string a, .string b => a = b
  | .long a, .long b => a = b
  | .double a, .double b => a.agrees b
  | .date a, .date b => a = b
  | _, _ => false

end ParameterValue

def readLong (s : List Char) : Except NumeralFault Int64 :=
  (Numeral.read .long s).map Int64.ofInt

namespace ParameterType

/-- Reads a value of a type. Strings are taken as they are; blanks around any
other value do not count, and a double has to be finite. -/
def read (type : ParameterType) (name raw : String) : Except ParameterFault ParameterValue :=
  let found : Option ParameterValue :=
    match type with
    | .string => some (.string raw)
    | .long => (readLong (Text.trimBlanks raw.toList)).toOption.map .long
    | .double =>
      ((Double.read (Text.trimBlanks raw.toList)).filter Double.isFinite).map .double
    | .date => (Calendar.readInstant (Text.trim raw)).map .date
  match found with
  | some value => .ok value
  | none => .error (.notValid raw name type)

end ParameterType

end NestedBatch

import NestedBatch.Hash.Sha256
import NestedBatch.KeyMap
import NestedBatch.Parameter.Value

/-! Sets of named job parameters and the key that tells job instances apart. -/
namespace NestedBatch

structure Parameter where
  value : ParameterValue
  /-- Does the parameter take part in the identity of a job instance? -/
  identifying : Bool
  deriving DecidableEq

def Parameter.agrees (p q : Parameter) : Bool :=
  p.value.agrees q.value && p.identifying = q.identifying

abbrev Parameters := KeyMap String Parameter

namespace Parameters

def agree (p q : Parameters) : Bool :=
  p.size = q.size &&
    (p.entries.zip q.entries).all fun e => e.1.1 = e.2.1 && e.1.2.agrees e.2.2

def identifying (p : Parameters) : Parameters := p.filter fun e => e.2.identifying

/-- Puts a backslash before every character that separates the parts of a key. -/
def escape (s : List Char) : List Char :=
  s.flatMap fun c => if c = '\\' ∨ c = '=' ∨ c = ':' ∨ c = ';' then ['\\', c] else [c]

/-- One parameter in the text of a key: `name=type:value;`. -/
def canonicalEntry (e : String × Parameter) : List Char :=
  escape e.1.toList ++ '=' :: (e.2.value.type.name.toList ++ ':' ::
    (escape e.2.value.text.toList ++ [';']))

def canonical (p : Parameters) : List Char :=
  p.identifying.entries.flatMap canonicalEntry

def jobKey (p : Parameters) : String := Sha256.hexOfText (String.ofList p.canonical)

def text (p : Parameters) : String :=
  ",".intercalate (p.entries.map fun e => e.1 ++ "=" ++ e.2.value.text)

def value? (p : Parameters) (name : String) : Option ParameterValue :=
  (p.get? name).map Parameter.value

def string? (p : Parameters) (name : String) : Option String :=
  match p.value? name with
  | some (.string s) => some s
  | _ => none

def long? (p : Parameters) (name : String) : Option Int64 :=
  match p.value? name with
  | some (.long n) => some n
  | _ => none

def double? (p : Parameters) (name : String) : Option Double :=
  match p.value? name with
  | some (.double d) => some d
  | _ => none

def date? (p : Parameters) (name : String) : Option Instant :=
  match p.value? name with
  | some (.date t) => some t
  | _ => none

/-- The parameters of both sets; those of the second set count where names meet. -/
def override (base changes : Parameters) : Parameters :=
  changes.entries.foldl (fun m e => m.insert e.1 e.2) base

end Parameters

end NestedBatch

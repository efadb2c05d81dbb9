import NestedBatch.Double.Written

/-! JSON values. -/
namespace NestedBatch

/-- A JSON value. What can be passed over but not held is kept as broken: a
string whose escapes pair up to no text, an object with such a name, and a value
that is nested too deeply. -/
inductive Json where
  | null
  | bool (b : Bool)
  | number (n : Written)
  | string (s : String)
  | broken
  | array (items : List Json)
  | object (fields : List (String × Json))
  deriving Inhabited

namespace Json

def ofNat (n : Nat) : Json := .number (.ofInt n)

def ofInt (n : Int) : Json := .number (.ofInt n)

def ofOption {α : Type} (f : α → Json) : Option α → Json
  | none => .null
  | some a => f a

end Json

end NestedBatch

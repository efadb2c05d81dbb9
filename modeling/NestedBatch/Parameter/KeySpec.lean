import NestedBatch.Parameter.Value
import NestedBatch.Text.Cut

/-! Names with an optional type, such as `count(long)`. -/
namespace NestedBatch

structure KeySpec where
  name : String
  type : Option ParameterType
  deriving DecidableEq

namespace KeySpec

/-- The type named between the last opening bracket and a closing bracket at the end. -/
def suffixType? (afterBracket : List Char) : Option ParameterType :=
  if afterBracket.getLast? = some ')' then
    ParameterType.ofSuffix? (String.ofList afterBracket.dropLast)
  else none

/-- Splits off a type suffix. What is no known suffix stays part of the name. -/
def ofText (s : String) : KeySpec :=
  match Text.cutLast '(' s.toList with
  | some (name, rest) =>
    match suffixType? rest with
    | some type => ⟨String.ofList name, some type⟩
    | none => ⟨s, none⟩
  | none => ⟨s, none⟩

end KeySpec

end NestedBatch

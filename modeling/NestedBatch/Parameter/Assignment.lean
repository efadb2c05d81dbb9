import NestedBatch.Parameter.KeySpec
import NestedBatch.Parameter.Set

/-! Parameters given as text: `name=value`, with an optional type after the name
and a leading dash for a parameter that does not identify the instance. -/
namespace NestedBatch.Parameter

/-- Reads one assignment. The name ends at the first equals sign. -/
def ofAssignment (given : String) : Except ParameterFault (String × Parameter) :=
  match Text.cutFirst '=' given.toList with
  | none => .error (.noAssignment given)
  | some (front, raw) =>
    let (front, identifying) :=
      match front with
      | '-' :: rest => (rest, false)
      | rest => (rest, true)
    let spec := KeySpec.ofText (String.ofList (Text.trimBlanks front))
    if spec.name = "" then .error (.noName given)
    else
      ((spec.type.getD .string).read spec.name (String.ofList raw)).map fun value =>
        (spec.name, ⟨value, identifying⟩)

/-- Reads a list of assignments; of two with one name the later one counts. -/
def setOfAssignments (given : List String) : Except ParameterFault Parameters :=
  (given.mapM ofAssignment).map KeyMap.ofList

end NestedBatch.Parameter

import NestedBatch.Parameter.Assignment
import NestedBatch.Proofs.Calendar.Timestamp
import NestedBatch.Proofs.Double.Reread

/-! A parameter is read back from its assignment: the name with the type of the value in
brackets, an equals sign, and the text of the value. -/
namespace NestedBatch

open Text

namespace KeySpec

/-- A name with a type in brackets. -/
def typed (name : List Char) (type : ParameterType) : List Char :=
  name ++ '(' :: (type.name.toList ++ [')'])

end KeySpec

theorem readLong_longText (n : Int64) : readLong (trimBlanks (longText n).toList) = .ok n := by
  have low := n.le_toInt
  have high := n.toInt_lt
  have bounds : (Span.long.low : Int) = 9223372036854775808 ∧
    (Span.long.high : Int) = 9223372036854775807 := ⟨rfl, rfl⟩
  have read : Numeral.read .long (Numeral.ofInt n.toInt) = .ok n.toInt :=
    Numeral.read_ofInt (by omega) (by omega)
  rw [readLong, longText, Numeral.intText, String.toList_ofList,
    trimBlanks_visible (isBlank_ofInt n.toInt), read, Except.map, Int64.ofInt_toInt]

namespace ParameterValue

end ParameterValue

namespace Parameter

section Front

variable {given : String} {front raw : List Char}

/-- What becomes of an assignment once its name and its type are told apart. -/
def ofSpec (given : String) (identifying : Bool) (raw : List Char) (spec : KeySpec) :
    Except ParameterFault (String × Parameter) :=
  if spec.name = "" then .error (.noName given)
  else
    ((spec.type.getD .string).read spec.name (String.ofList raw)).map fun value =>
      (spec.name, ⟨value, identifying⟩)

theorem ofAssignment_dashed (cut : cutFirst '=' given.toList = some ('-' :: front, raw)) :
    ofAssignment given
      = ofSpec given false raw (KeySpec.ofText (String.ofList (trimBlanks front))) := by
  simp only [ofAssignment, cut, ofSpec]

theorem ofAssignment_undashed (cut : cutFirst '=' given.toList = some (front, raw))
    (undashed : front.head? ≠ some '-') :
    ofAssignment given
      = ofSpec given true raw (KeySpec.ofText (String.ofList (trimBlanks front))) := by
  cases front with
  | nil => simp only [ofAssignment, cut, ofSpec]
  | cons c rest =>
    have other : c ≠ '-' := by
      intro same
      exact undashed (same ▸ rfl)
    simp [ofAssignment, cut, ofSpec, other]

end Front

variable {name : String} {p : Parameter}

end Parameter

end NestedBatch

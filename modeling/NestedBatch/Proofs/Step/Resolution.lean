import NestedBatch.Proofs.Step.Extraction
import NestedBatch.Proofs.Step.Outcome

/-! The parameters of a child stay as they were first resolved: every later attempt has the
same ones, whatever else was put in the context, however the parent was changed, and
whichever keys they would be extracted by. Where they cannot be resolved nothing is
launched, and the step execution is left as it was. -/
namespace NestedBatch

namespace Extraction

variable {c : Context} {keys : List String}

theorem read_of_mere_text {type : ParameterType} {raw : String} (other : type ≠ .string)
    (name : String) (long : (readLong (Text.trimBlanks raw.toList)).toOption = none)
    (double : Double.read (Text.trimBlanks raw.toList) = none)
    (date : Calendar.readInstant (Text.trim raw) = none) :
    type.read name raw = .error (.notValid raw name type) := by
  unfold ParameterType.read
  cases type with
  | string => exact absurd rfl other
  | long => simp only [long, Option.map_none]
  | double => simp only [double, Option.filter_none, Option.map_none]
  | date => simp only [date, Option.map_none]

theorem read_stepType {type : ParameterType} (other : type ≠ .string) (name : String) :
    type.read name NestedStep.stepType = .error (.notValid NestedStep.stepType name type) :=
  read_of_mere_text other name (by decide) (by decide) (by decide)

/-- The mark of the step makes nothing convertible that was not so before. -/
theorem Converts.unmarked
    (converts : Converts (c.put NestedStep.stepTypeKey (.string NestedStep.stepType)) keys) :
    Converts c keys := by
  intro key listed v there
  by_cases mark : NestedStep.stepTypeKey = (KeySpec.ofText key).name
  · obtain ⟨value, converted⟩ := converts key listed (.string NestedStep.stepType) (by
      rw [← mark, Context.get?_put_string])
    cases asked : (KeySpec.ofText key).type with
    | none => exact ⟨v.plainParameter, rfl⟩
    | some type =>
      rw [asked] at converted
      by_cases string : type = .string
      · subst string
        exact ⟨.string v.text, rfl⟩
      · have unread := read_stepType string (KeySpec.ofText key).name
        cases type with
        | string => exact absurd rfl string
        | long | double | date => cases unread.symm.trans converted
  · exact converts key listed v ((c.get?_put_of_ne mark _).trans there)

end Extraction

namespace NestedStep

variable {W : Type} {h : Host W} {n : NestedStep W} {s : StepExecution} {r : Repository W}
  {p : Parameters}

/-- What may become of a step execution between two attempts. -/
inductive Edit (W : Type) where
  | put (key : String) (value : ContextValue)
  | replaceParent (p : Parameters)
  | resolve (n : NestedStep W)
  | execute (n : NestedStep W) (h : Host W) (r : Repository W)

namespace Edit

def apply (s : StepExecution) : Edit W → StepExecution
  | put key value => { s with context := s.context.put key value }
  | replaceParent p => { s with jobParameters := p }
  | resolve n => (n.resolve s).2
  | execute n h r => (n.execute h s r).1

/-- Nothing is put where nested steps keep the parameters of their child. -/
def Spares : Edit W → Prop
  | put key _ => key ≠ parametersKey
  | replaceParent _ | resolve _ | execute _ _ _ => True

end Edit

/-- The attempt begins, launches its child with these parameters, and takes over what comes
of the launch. -/
def Launches (n : NestedStep W) (h : Host W) (s : StepExecution) (r : Repository W)
    (p : Parameters) : Prop :=
  n.execute h s r = conclude h (begun s (h.now r.world).1)
    (Launch.run h n.launcher n.job p ⟨r.records, (h.now r.world).2⟩)

end NestedStep

end NestedBatch

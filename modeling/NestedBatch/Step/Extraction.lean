import NestedBatch.BatchError
import NestedBatch.Parameter.KeySpec

/-! Making the parameters of a child job from the context of a step. -/
namespace NestedBatch

structure Extraction where
  /-- The context keys that are handed over, each with an optional type. -/
  keys : List String
  /-- Does the child also get the parameters of its parent? -/
  inheritAll : Bool

namespace Extraction

def nothing : Extraction := ⟨[], false⟩

/-- Adds the entry that a key names; a key that the context lacks adds nothing. -/
def addEntry (context : Context) (p : Parameters) (key : String) :
    Except ParameterFault Parameters :=
  let spec := KeySpec.ofText key
  match context.get? spec.name with
  | none => .ok p
  | some v => (v.toParameter spec.name spec.type).map fun value => p.insert spec.name ⟨value, true⟩

def addEntries (context : Context) : Parameters → List String → Except ParameterFault Parameters
  | p, [] => .ok p
  | p, key :: rest =>
    match addEntry context p key with
    | .error e => .error e
    | .ok p => addEntries context p rest

def parameters (x : Extraction) (s : StepExecution) : Except ParameterFault Parameters :=
  addEntries s.context (if x.inheritAll then s.jobParameters else .empty) x.keys

/-- The parameters of the child, or the error of a step for which there are none. -/
def derive (x : Extraction) (s : StepExecution) : Except BatchError Parameters :=
  (x.parameters s).mapError .invalidParameters

end Extraction

end NestedBatch

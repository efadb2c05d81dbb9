import NestedBatch.Proofs.Context.Inference
import NestedBatch.Proofs.Execution.Reread
import NestedBatch.Proofs.Parameter.Spacing
import NestedBatch.Step.Extraction

/-! Doubles come in by texts, by integers and by what is there already. None of these ways
makes one that is not finite, so that contexts and parameters have finite doubles only. -/
namespace NestedBatch

theorem Double.isFinite_ofInt (n : Int64) : (Double.ofInt n.toInt).isFinite = true := by
  have low := n.le_toInt
  have high := n.toInt_lt
  have fits : n.toInt.natAbs ≤ Json.digitLimit := by
    simp only [Json.digitLimit]
    omega
  obtain ⟨g, rounded, _⟩ := Json.ofInt_near fits
  rw [rounded]
  rfl

theorem ParameterType.isFinite_of_read {type : ParameterType} {name raw : String}
    {v : ParameterValue} (read : type.read name raw = .ok v) : v.IsFinite := by
  unfold ParameterType.read at read
  dsimp only at read
  split at read
  · rename_i found
    cases read
    cases type with
    | string =>
      cases found
      trivial
    | long | date =>
      obtain ⟨_, _, rfl⟩ := Option.map_eq_some_iff.1 found
      trivial
    | double =>
      obtain ⟨d, kept, rfl⟩ := Option.map_eq_some_iff.1 found
      exact (Option.filter_eq_some_iff.1 kept).2
  · cases read

namespace Parameters

variable {p : Parameters}

theorem allFinite_empty : AllFinite .empty := List.forall_mem_nil _

theorem AllFinite.insert (finite : p.AllFinite) {value : ParameterValue} (own : value.IsFinite)
    (name : String) (identifying : Bool) : AllFinite (p.insert name ⟨value, identifying⟩) := by
  intro e there
  rcases mem_insertSorted there with rfl | old
  · exact own
  · exact finite e old

end Parameters

namespace Parameter

theorem mem_of_mapM_ofAssignment {given : List String} {named : List (String × Parameter)}
    (accepted : given.mapM ofAssignment = .ok named) {e : String × Parameter} (there : e ∈ named) :
    ∃ text ∈ given, ofAssignment text = .ok e := by
  induction given generalizing named with
  | nil =>
    cases accepted
    cases there
  | cons text rest ih =>
    cases first : ofAssignment text with
    | error fault =>
      rw [List.mapM_cons, first] at accepted
      cases accepted
    | ok head =>
      cases later : rest.mapM ofAssignment with
      | error fault =>
        rw [List.mapM_cons, first, later] at accepted
        cases accepted
      | ok tail =>
        rw [List.mapM_cons, first, later] at accepted
        cases accepted
        rcases List.mem_cons.1 there with rfl | inTail
        · exact ⟨text, List.mem_cons_self, first⟩
        · obtain ⟨text', listed, read⟩ := ih later inTail
          exact ⟨text', List.mem_cons_of_mem text listed, read⟩

theorem allFinite_of_setOfAssignments {given : List String} {p : Parameters}
    (accepted : setOfAssignments given = .ok p) : p.AllFinite := by
  cases all : given.mapM ofAssignment with
  | error fault =>
    rw [setOfAssignments, all] at accepted
    cases accepted
  | ok named =>
    rw [setOfAssignments, all] at accepted
    cases accepted
    intro e there
    obtain ⟨text, _, read⟩ := mem_of_mapM_ofAssignment all (KeyMap.mem_ofList there)
    obtain ⟨_, _, value⟩ := read_of_ofAssignment read
    exact ParameterType.isFinite_of_read value

end Parameter

namespace ContextValue

theorem allFinite_infer (raw : String) : (infer raw).AllFinite := by
  rcases infer_cases raw with ⟨n, _, eq⟩ | ⟨d, _, read, eq⟩ | ⟨_, eq⟩ | ⟨_, eq⟩ | eq <;> rw [eq]
  case inr.inl => exact (of_doubleOf? read).1
  all_goals trivial

variable {v : ContextValue} {value : ParameterValue}

theorem AllFinite.plainParameter (finite : v.AllFinite) : v.plainParameter.IsFinite := by
  cases v with
  | double d => exact finite
  | _ => trivial

/-- What a value is converted to is finite: an integer is near a double, and a text is
checked when it is read. -/
theorem AllFinite.typedParameter (finite : v.AllFinite) {name : String} {type : ParameterType}
    (converted : v.typedParameter name type = .ok value) : value.IsFinite := by
  unfold ContextValue.typedParameter at converted
  split at converted
  case h_3 => cases converted; exact finite
  case h_4 => cases converted; exact Double.isFinite_ofInt _
  case h_6 => exact ParameterType.isFinite_of_read converted
  all_goals cases converted <;> trivial

theorem AllFinite.toParameter (finite : v.AllFinite) {name : String}
    {type : Option ParameterType} (converted : v.toParameter name type = .ok value) :
    value.IsFinite := by
  cases type with
  | none =>
    cases converted
    exact finite.plainParameter
  | some type => exact finite.typedParameter converted

end ContextValue

namespace Context

variable {c : Context}

theorem allFinite_empty : AllFinite .empty := List.forall_mem_nil _

theorem AllFinite.get? (finite : c.AllFinite) {key : String} {v : ContextValue}
    (there : c.get? key = some v) : v.AllFinite :=
  finite (key, v) (mem_of_lookupKey there)

theorem AllFinite.put (finite : c.AllFinite) {v : ContextValue} (own : v.AllFinite)
    (key : String) : (c.put key v).AllFinite := by
  intro e there
  rcases mem_entries_put there with rfl | old
  · exact own
  · exact finite e old

theorem AllFinite.parameters? (finite : c.AllFinite) {key : String} {p : Parameters}
    (there : c.parameters? key = some p) : p.AllFinite := by
  unfold Context.parameters? at there
  split at there
  · rename_i found
    cases there
    exact finite.get? found
  · cases there

end Context

namespace Extraction

variable {c : Context} {p q : Parameters}

theorem allFinite_addEntry (finite : c.AllFinite) (base : p.AllFinite) {key : String}
    (added : addEntry c p key = .ok q) : q.AllFinite := by
  simp only [addEntry] at added
  split at added
  · cases added
    exact base
  · rename_i v there
    cases converted : v.toParameter (KeySpec.ofText key).name (KeySpec.ofText key).type with
    | error fault =>
      rw [converted] at added
      cases added
    | ok value =>
      rw [converted] at added
      cases added
      exact base.insert ((finite.get? there).toParameter converted) _ _

theorem allFinite_addEntries (finite : c.AllFinite) (base : p.AllFinite) {keys : List String}
    (added : addEntries c p keys = .ok q) : q.AllFinite := by
  induction keys generalizing p with
  | nil =>
    cases added
    exact base
  | cons key rest ih =>
    simp only [addEntries] at added
    split at added
    · cases added
    · rename_i p' first
      exact ih (allFinite_addEntry finite base first) added

/-- Finite doubles in the context and among the parameters of the parent make finite ones
among the parameters of the child. -/
theorem allFinite_parameters {x : Extraction} {s : StepExecution} (finite : s.AllFinite)
    (extracted : x.parameters s = .ok q) : q.AllFinite := by
  refine allFinite_addEntries finite.context ?_ extracted
  split
  · exact finite.jobParameters
  · exact Parameters.allFinite_empty

end Extraction

end NestedBatch

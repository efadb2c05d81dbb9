import NestedBatch.Proofs.Context.Finite
import NestedBatch.Proofs.Launch.Start
import NestedBatch.Proofs.Records.Reread

/-! Records with finite doubles only. Such are all records that are read, whatever the text
says, and a change that brings in finite doubles leaves no others. -/
namespace NestedBatch

open Json

section Reading

theorem asMap_entries {α : Type} {read : Json → Option α} {v : Json} {m : KeyMap String α}
    (found : asMap read v = some m) {e : String × α} (there : e ∈ m.entries) :
    ∃ v, read v = some e.2 := by
  unfold asMap at found
  split at found
  · obtain ⟨l, all, rfl⟩ := Option.map_eq_some_iff.1 found
    obtain ⟨f, _, back⟩ := mem_of_mapM all (KeyMap.mem_ofList there)
    obtain ⟨value, same, rfl⟩ := Option.map_eq_some_iff.1 back
    exact ⟨f.2, same⟩
  · cases found

theorem asList_items {α : Type} {read : Json → Option α} {v : Json} {l : List α}
    (found : asList read v = some l) {a : α} (there : a ∈ l) : ∃ v, read v = some a := by
  unfold asList at found
  split at found
  · obtain ⟨item, _, same⟩ := mem_of_mapM found there
    exact ⟨item, same⟩
  · cases found

theorem isFinite_asDouble {v : Json} {d : Double} (read : asDouble v = some d) :
    d.isFinite = true := by
  unfold asDouble at read
  split at read
  · exact isFinite_double? read
  · cases read

/-- A field that was read is its default or was read from something. -/
theorem Json.Record.withDefault_cases {α : Type} {r : Json.Record} {name : String} {default a : α}
    {read : Json → Option α} (found : r.withDefault name default read = some a) :
    a = default ∨ ∃ v, read v = some a := by
  unfold Json.Record.withDefault at found
  split at found
  · exact .inl (Option.some.inj found).symm
  · exact .inr ⟨_, found⟩

/-- Only under its own tag a double is read. -/
theorem ParameterValue.asDouble_of_tagged {tag : String} {v : Json} {d : Double}
    (read : ofTagged? tag v = some (.double d)) : asDouble v = some d := by
  unfold ofTagged? at read
  split_ifs at read <;> simp_all

theorem ParameterValue.isFinite_ofJson? {held : Bool} {v : Json} {value : ParameterValue}
    (read : ofJson? held v = some value) : value.IsFinite := by
  obtain ⟨t, _, tagged⟩ := Option.bind_eq_some_iff.1 read
  cases value with
  | double d => exact isFinite_asDouble (asDouble_of_tagged tagged)
  | _ => trivial

theorem Parameter.field_of_read {held : Bool} {v : Json} {p : Parameter}
    (read : ofJson? held v = some p) :
    ∃ r : Record, r.required "value" (ParameterValue.ofJson? held) = some p.value := by
  repeat obtain ⟨_, _, read⟩ := of_bind read
  cases read
  exact ⟨_, by assumption⟩

theorem Parameter.isFinite_ofJson? {held : Bool} {v : Json} {p : Parameter}
    (read : ofJson? held v = some p) : p.value.IsFinite := by
  obtain ⟨_, value⟩ := field_of_read read
  obtain ⟨_, _, value⟩ := Option.bind_eq_some_iff.1 value
  exact ParameterValue.isFinite_ofJson? value

theorem Parameters.allFinite_ofJson? {held : Bool} {v : Json} {p : Parameters}
    (read : ofJson? held v = some p) : p.AllFinite := by
  intro e there
  obtain ⟨_, here⟩ := asMap_entries read there
  exact Parameter.isFinite_ofJson? here

theorem ContextValue.allFinite_ofJson? {v : Json} {value : ContextValue}
    (read : ofJson? v = some value) : value.AllFinite := by
  obtain ⟨t, _, tagged⟩ := Option.bind_eq_some_iff.1 read
  cases value with
  | double d =>
    have number : asDouble t.value = some d := by
      unfold ofTagged? at tagged
      dsimp only at tagged
      split_ifs at tagged <;> simp_all
    exact isFinite_asDouble number
  | parameters p =>
    have inner : Parameters.ofJson? t.held t.value = some p := by
      unfold ofTagged? at tagged
      dsimp only at tagged
      split_ifs at tagged <;> simp_all
    exact Parameters.allFinite_ofJson? inner
  | _ => trivial

theorem Context.allFinite_ofJson? {v : Json} {c : Context} (read : ofJson? v = some c) :
    c.AllFinite := by
  obtain ⟨r, _, read⟩ := of_bind read
  obtain ⟨entries, found, read⟩ := of_bind read
  cases read
  obtain ⟨_, _, here⟩ := Option.bind_eq_some_iff.1 found
  intro e there
  obtain ⟨_, value⟩ := asMap_entries here there
  exact ContextValue.allFinite_ofJson? value

theorem Context.allFinite_of_withDefault {r : Record} {name : String} {c : Context}
    (read : r.withDefault name .empty ofJson? = some c) : c.AllFinite := by
  rcases Record.withDefault_cases read with rfl | ⟨_, read⟩
  · exact allFinite_empty
  · exact allFinite_ofJson? read

/-- The parameters and the context of a step execution come from the fields of these names. -/
theorem StepExecution.fields_of_read {v : Json} {s : StepExecution}
    (read : ofJson? v = some s) : ∃ r : Record,
      r.required "job_parameters" (Parameters.ofJson? false) = some s.jobParameters ∧
        r.withDefault "execution_context" .empty Context.ofJson? = some s.context := by
  repeat obtain ⟨_, _, read⟩ := of_bind read
  cases read
  exact ⟨_, by assumption, by assumption⟩

theorem StepExecution.allFinite_ofJson? {v : Json} {s : StepExecution}
    (read : ofJson? v = some s) : s.AllFinite := by
  obtain ⟨_, parameters, context⟩ := fields_of_read read
  obtain ⟨_, _, parameters⟩ := Option.bind_eq_some_iff.1 parameters
  exact ⟨Parameters.allFinite_ofJson? parameters, Context.allFinite_of_withDefault context⟩

/-- The parameters, the context and the steps of a job execution come from the fields of
these names. -/
theorem JobExecution.fields_of_read {v : Json} {e : JobExecution}
    (read : ofJson? v = some e) : ∃ r : Record,
      r.required "job_parameters" (Parameters.ofJson? false) = some e.jobParameters ∧
        r.withDefault "execution_context" .empty Context.ofJson? = some e.context ∧
        r.withDefault "step_executions" [] (asList StepExecution.ofJson?) = some e.steps := by
  repeat obtain ⟨_, _, read⟩ := of_bind read
  cases read
  exact ⟨_, by assumption, by assumption, by assumption⟩

theorem JobExecution.allFinite_ofJson? {v : Json} {e : JobExecution}
    (read : ofJson? v = some e) : e.AllFinite := by
  obtain ⟨_, parameters, context, steps⟩ := fields_of_read read
  obtain ⟨_, _, parameters⟩ := Option.bind_eq_some_iff.1 parameters
  refine ⟨Parameters.allFinite_ofJson? parameters, Context.allFinite_of_withDefault context, ?_⟩
  rcases Record.withDefault_cases steps with none | ⟨_, steps⟩
  · rw [none]
    exact List.forall_mem_nil _
  · intro s there
    obtain ⟨_, step⟩ := asList_items steps there
    exact StepExecution.allFinite_ofJson? step

/-- The executions of records come from the fields of these names. -/
theorem Records.fields_of_read {v : Json} {r : Records} (read : ofJson? v = some r) :
    ∃ fields : Record,
      fields.required "job_executions" (asList JobExecution.ofJson?) = some r.executions ∧
        fields.required "step_executions" (asList StepExecution.ofJson?) = some r.steps := by
  repeat obtain ⟨_, _, read⟩ := of_bind read
  cases read
  exact ⟨_, by assumption, by assumption⟩

/-- Whatever a text says, the records that are read from it have finite doubles only. -/
theorem Records.allFinite_ofText? {text : String} {r : Records} (read : ofText? text = some r) :
    r.AllFinite := by
  obtain ⟨v, _, read⟩ := Option.bind_eq_some_iff.1 read
  obtain ⟨_, executions, steps⟩ := fields_of_read read
  obtain ⟨_, _, executions⟩ := Option.bind_eq_some_iff.1 executions
  obtain ⟨_, _, steps⟩ := Option.bind_eq_some_iff.1 steps
  constructor
  · intro e there
    obtain ⟨_, execution⟩ := asList_items executions there
    exact JobExecution.allFinite_ofJson? execution
  · intro s there
    obtain ⟨_, step⟩ := asList_items steps there
    exact StepExecution.allFinite_ofJson? step

end Reading

namespace Records

variable {r : Records}

theorem allFinite_empty : AllFinite .empty := ⟨List.forall_mem_nil _, List.forall_mem_nil _⟩

theorem AllFinite.lastStep? (finite : r.AllFinite) {owner : Nat} {name : String}
    {s : StepExecution} (found : r.lastStep? owner name = some s) : s.AllFinite :=
  finite.steps s (List.mem_filter.1 (mem_of_newest found)).1

theorem AllFinite.findOrMakeInstance (finite : r.AllFinite) {job : String} {p : Parameters}
    {i : JobInstance} {made : Records} (found : r.findOrMakeInstance job p = .ok (i, made)) :
    made.AllFinite := by
  rcases findOrMakeInstance_ok found with ⟨_, rfl, _⟩ | ⟨_, _, rfl⟩
  · exact finite
  · exact ⟨finite.executions, finite.steps⟩

theorem allFinite_create (id : Nat) (i : JobInstance) {p : Parameters} (own : p.AllFinite)
    (now : Instant) : (JobExecution.create id i p now).AllFinite :=
  ⟨own, Context.allFinite_empty, List.forall_mem_nil _⟩

theorem AllFinite.newExecution (finite : r.AllFinite) (i : JobInstance) {p : Parameters}
    (own : p.AllFinite) (now : Instant) : (r.newExecution i p now).2.AllFinite := by
  refine ⟨List.forall_mem_append.2 ⟨finite.executions, ?_⟩, finite.steps⟩
  exact List.forall_mem_singleton.2 (allFinite_create _ i own now)

theorem AllFinite.putExecution (finite : r.AllFinite) {e : JobExecution} (own : e.AllFinite) :
    (r.putExecution e).AllFinite := by
  refine ⟨fun x there => ?_, finite.steps⟩
  rcases mem_replaceFirst there with ⟨rfl, _⟩ | old
  · exact ⟨own.jobParameters, own.context, List.forall_mem_nil _⟩
  · exact finite.executions x old

theorem AllFinite.appendStep (finite : r.AllFinite) {s : StepExecution} (own : s.AllFinite) :
    (r.appendStep s).2.AllFinite :=
  ⟨finite.executions, List.forall_mem_append.2
    ⟨finite.steps, List.forall_mem_singleton.2 ⟨own.jobParameters, own.context⟩⟩⟩

theorem AllFinite.putStep (finite : r.AllFinite) {s : StepExecution} (own : s.AllFinite) :
    (r.putStep s).AllFinite := by
  refine ⟨finite.executions, fun x there => ?_⟩
  rcases mem_replaceFirst there with ⟨rfl, _⟩ | old
  · exact own
  · exact finite.steps x old

end Records

end NestedBatch

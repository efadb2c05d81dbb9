import NestedBatch.Proofs.Context.Put
import NestedBatch.Proofs.Execution.Reread

/-! What is recorded of executions is read back as it was, except for the flag of
a context that tells of unsaved changes, if the numbers fit and the doubles and times are
such as are read back. -/
namespace NestedBatch

open Json

/-- Is the double read back from its text? -/
def Double.ReadsBack (d : Double) : Prop :=
  (Json.read (ofDouble d).compactText).bind asDouble = some d

theorem Double.reread_of_readsBack {d : Double} (back : d.ReadsBack) : d.reread = some d := by
  unfold ReadsBack at back
  rwa [read_compactText (sound_ofDouble d _), Option.bind_some] at back

theorem KeyMap.reread_of_each {α : Type} {f : α → Option α} {m : KeyMap String α}
    (each : ∀ e ∈ m.entries, f e.2 = some e.2) : m.reread f = some m := by
  have entries : (m.entries.mapM fun e => (f e.2).map (e.1, ·)) = some m.entries := by
    refine mapM_some_iff.2 (List.forall₂_same.2 fun e listed => ?_)
    rw [each e listed, Option.map_some]
  rw [reread, entries, Option.map_some, ofList_entries]

section Values

def ParameterValue.Storable : ParameterValue → Prop
  | .double d => d.ReadsBack
  | .date t => t.InPlace
  | _ => True

def Parameters.Storable (p : Parameters) : Prop := ∀ e ∈ p.entries, e.2.value.Storable

def ContextValue.Storable : ContextValue → Prop
  | .double d => d.ReadsBack
  | .date t => t.InPlace
  | .parameters p => p.Storable
  | _ => True

def Context.Storable (c : Context) : Prop := ∀ e ∈ c.entries.entries, e.2.Storable

theorem Parameters.Storable.insert {p : Parameters} (storable : p.Storable) {name : String}
    {q : Parameter} (value : q.value.Storable) : Storable (KeyMap.insert p name q) := by
  intro e listed
  rcases mem_insertSorted listed with rfl | old
  · exact value
  · exact storable e old

theorem Context.Storable.put {c : Context} (storable : c.Storable) {key : String}
    {v : ContextValue} (value : v.Storable) : (c.put key v).Storable := by
  intro e listed
  rcases mem_entries_put listed with rfl | old
  · exact value
  · exact storable e old

theorem ParameterValue.reread_of_storable {v : ParameterValue} (storable : v.Storable) :
    v.reread = some v := by
  cases v with
  | double d => exact congrArg (Option.map double) (Double.reread_of_readsBack storable)
  | date t => exact congrArg (some ∘ date) (Instant.settled_of_inPlace storable)
  | string _ | long _ => rfl

theorem Parameters.reread_of_storable {p : Parameters} (storable : p.Storable) :
    p.reread = some p := by
  refine KeyMap.reread_of_each fun e listed => ?_
  rw [Parameter.reread, ParameterValue.reread_of_storable (storable e listed), Option.map_some]

theorem ContextValue.reread_of_storable {v : ContextValue} (storable : v.Storable) :
    v.reread = some v := by
  cases v with
  | double d => exact congrArg (Option.map double) (Double.reread_of_readsBack storable)
  | date t => exact congrArg (some ∘ date) (Instant.settled_of_inPlace storable)
  | parameters p => exact congrArg (Option.map parameters) (Parameters.reread_of_storable storable)
  | string _ | long _ | bool _ => rfl

/-- A context is read back without its flag. -/
theorem Context.reread_of_storable {c : Context} (storable : c.Storable) :
    c.reread = some c.clearDirty := by
  rw [reread, KeyMap.reread_of_each fun e listed =>
    ContextValue.reread_of_storable (storable e listed), Option.map_some]
  rfl

end Values

def StepExecution.clean (s : StepExecution) : StepExecution :=
  { s with context := s.context.clearDirty }

def JobExecution.clean (e : JobExecution) : JobExecution :=
  { e with context := e.context.clearDirty, steps := e.steps.map StepExecution.clean }

/-- Do the numbers of a step execution fit, and are its doubles and times read back? -/
structure StepExecution.Storable (s : StepExecution) : Prop where
  id : IsWord s.id
  jobExecutionId : IsWord s.jobExecutionId
  jobInstanceId : IsWord s.jobInstanceId
  jobParameters : s.jobParameters.Storable
  context : s.context.Storable
  failures : ∀ f ∈ s.failures, f.occurredAt.InPlace
  startTime : ∀ t ∈ s.startTime, t.InPlace
  endTime : ∀ t ∈ s.endTime, t.InPlace
  lastUpdated : s.lastUpdated.InPlace

/-- Do the numbers of a job execution fit, and are its doubles and times read back? -/
structure JobExecution.Storable (e : JobExecution) : Prop where
  id : IsWord e.id
  jobInstanceId : IsWord e.jobInstanceId
  jobParameters : e.jobParameters.Storable
  createTime : e.createTime.InPlace
  startTime : ∀ t ∈ e.startTime, t.InPlace
  endTime : ∀ t ∈ e.endTime, t.InPlace
  lastUpdated : e.lastUpdated.InPlace
  context : e.context.Storable
  steps : ∀ s ∈ e.steps, s.Storable
  failures : ∀ f ∈ e.failures, f.occurredAt.InPlace

theorem StepExecution.Storable.clean {s : StepExecution} (storable : s.Storable) :
    s.clean.Storable := { storable with }

theorem JobExecution.Storable.clean {e : JobExecution} (storable : e.Storable) :
    e.clean.Storable := by
  refine { storable with steps := fun s hs => ?_ }
  obtain ⟨x, hx, rfl⟩ := List.mem_map.1 hs
  exact (storable.steps x hx).clean

section Times

theorem map_settled {time : Option Instant} (placed : ∀ t ∈ time, t.InPlace) :
    time.map Instant.settled = time := by
  cases time with
  | none => rfl
  | some t => exact congrArg some (Instant.settled_of_inPlace (placed t rfl))

theorem map_settled_failures {failures : List FailureCause}
    (placed : ∀ f ∈ failures, f.occurredAt.InPlace) :
    failures.map FailureCause.settled = failures := by
  have each : ∀ f ∈ failures, f.settled = id f := by
    intro f listed
    rw [FailureCause.settled, Instant.settled_of_inPlace (placed f listed), id]
  rw [List.map_congr_left each, List.map_id]

theorem StepExecution.settled_of_storable {s : StepExecution} (storable : s.Storable) :
    s.settled = s := by
  simp only [settled, map_settled_failures storable.failures, map_settled storable.startTime,
    map_settled storable.endTime, Instant.settled_of_inPlace storable.lastUpdated]

theorem JobExecution.settled_of_storable {e : JobExecution} (storable : e.Storable) :
    e.settled = e := by
  simp only [settled, map_settled_failures storable.failures, map_settled storable.startTime,
    map_settled storable.endTime, Instant.settled_of_inPlace storable.createTime,
    Instant.settled_of_inPlace storable.lastUpdated]

end Times

theorem StepExecution.reread_of_storable {s : StepExecution} (storable : s.Storable) :
    s.reread = some s.clean := by
  refine reread_eq_some.2 ⟨⟨storable.id, storable.jobExecutionId, storable.jobInstanceId⟩,
    s.jobParameters, s.context.clearDirty, ?_, ?_, ?_⟩
  · exact Parameters.reread_of_storable storable.jobParameters
  · exact Context.reread_of_storable storable.context
  · rw [settled_of_storable storable]
    rfl

theorem JobExecution.reread_of_storable {e : JobExecution} (storable : e.Storable) :
    e.reread = some e.clean := by
  refine reread_eq_some.2 ⟨storable.id, storable.jobInstanceId, e.jobParameters,
    e.context.clearDirty, e.steps.map StepExecution.clean, ?_, ?_, ?_, ?_⟩
  · exact Parameters.reread_of_storable storable.jobParameters
  · exact Context.reread_of_storable storable.context
  · refine mapM_some_iff.2 (List.forall₂_map_right_iff.2 (List.forall₂_same.2 fun s listed => ?_))
    exact StepExecution.reread_of_storable (storable.steps s listed)
  · rw [settled_of_storable storable]
    rfl

end NestedBatch

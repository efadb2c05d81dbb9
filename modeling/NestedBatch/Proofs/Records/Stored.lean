import NestedBatch.Proofs.Execution.Stored
import NestedBatch.Proofs.Records.Placement
import NestedBatch.Proofs.Records.Reread

/-! The stored text of records is read back as the records that were saved,
except for the flags of contexts that tell of unsaved changes. -/
namespace NestedBatch.Records

open Json

def clean (r : Records) : Records :=
  { r with
    executions := r.executions.map JobExecution.clean
    steps := r.steps.map StepExecution.clean }

/-- Do all numbers in the records fit, and are all doubles and times read back? -/
structure Storable (r : Records) : Prop where
  nextId : IsWord r.nextId
  instances : ∀ i ∈ r.instances, IsWord i.id
  executions : ∀ e ∈ r.executions, e.Storable
  steps : ∀ s ∈ r.steps, s.Storable

/-- Reading the stored text gives the records back. -/
theorem ofText?_text_of_storable {r : Records} (storable : r.Storable) :
    ofText? r.text = some r.clean := by
  have same : List.Forall₂ (fun i j => JobInstance.reread i = some j) r.instances r.instances :=
    List.forall₂_same.2 fun i listed => JobInstance.reread_of_word (storable.instances i listed)
  rw [ofText?_text]
  refine reread_eq_some.2 ⟨storable.nextId, rfl, mapM_some_iff.2 same, ?_, ?_⟩
  · refine mapM_some_iff.2 (List.forall₂_map_right_iff.2 (List.forall₂_same.2 fun e listed => ?_))
    exact JobExecution.reread_of_storable (storable.executions e listed)
  · refine mapM_some_iff.2 (List.forall₂_map_right_iff.2 (List.forall₂_same.2 fun s listed => ?_))
    exact StepExecution.reread_of_storable (storable.steps s listed)

/-- The flags of contexts are not in the text. -/
theorem text_clean (r : Records) : r.clean.text = r.text := by
  have steps : ∀ l : List StepExecution,
      (l.map StepExecution.clean).map StepExecution.toJson = l.map StepExecution.toJson := by
    intro l
    rw [List.map_map]
    rfl
  have executions : (r.executions.map JobExecution.clean).map JobExecution.toJson
      = r.executions.map JobExecution.toJson := by
    rw [List.map_map]
    refine List.map_congr_left fun e _ => ?_
    simp only [Function.comp_apply, JobExecution.toJson, JobExecution.clean, steps]
    rfl
  simp only [text, toJson, clean, steps, executions]

section Changes

variable {r r' : Records}

theorem storable_empty : empty.Storable where
  nextId := Nat.two_pow_pos 64
  instances := by simp [empty]
  executions := by simp [empty]
  steps := by simp [empty]

theorem Storable.clean (storable : r.Storable) : r.clean.Storable := by
  refine { storable with executions := fun e he => ?_, steps := fun s hs => ?_ }
  · obtain ⟨x, hx, rfl⟩ := List.mem_map.1 he
    exact (storable.executions x hx).clean
  · obtain ⟨x, hx, rfl⟩ := List.mem_map.1 hs
    exact (storable.steps x hx).clean

theorem Storable.findOrMakeInstance (storable : r.Storable) {job : String} {p : Parameters}
    {i : JobInstance} (found : r.findOrMakeInstance job p = .ok (i, r'))
    (word : IsWord r'.nextId) : r'.Storable ∧ IsWord i.id := by
  rcases findOrMakeInstance_ok found with ⟨there, rfl, _⟩ | ⟨_, rfl, rfl⟩
  · exact ⟨storable, storable.instances i (List.mem_of_find?_eq_some there)⟩
  · refine ⟨{ storable with nextId := word, instances := fun j hj => ?_ }, word⟩
    rcases List.mem_append.1 hj with old | new
    · exact storable.instances j old
    · rw [List.mem_singleton.1 new]
      exact word

theorem Storable.newExecution (storable : r.Storable) {i : JobInstance} (instanceId : IsWord i.id)
    {p : Parameters} (parameters : p.Storable) {now : Instant} (placed : now.InPlace)
    (word : IsWord (r.nextId + 1)) : (r.newExecution i p now).2.Storable := by
  refine { storable with nextId := word, executions := fun e he => ?_ }
  rcases List.mem_append.1 he with old | new
  · exact storable.executions e old
  · rw [List.mem_singleton.1 new]
    have context : Context.empty.Storable := List.forall_mem_nil _
    have unset : ∀ t ∈ (none : Option Instant), t.InPlace := by simp
    exact {
      id := word
      jobInstanceId := instanceId
      jobParameters := parameters
      createTime := placed
      startTime := unset
      endTime := unset
      lastUpdated := placed
      context := context
      steps := List.forall_mem_nil _
      failures := List.forall_mem_nil _ }

theorem Storable.putExecution (storable : r.Storable) {e : JobExecution}
    (brought : { e with steps := [] }.Storable) : (r.putExecution e).Storable := by
  refine { storable with executions := fun x hx => ?_ }
  rcases mem_replaceFirst hx with ⟨rfl, _⟩ | old
  · exact brought
  · exact storable.executions x old

theorem Storable.appendStep (storable : r.Storable) {s : StepExecution} (brought : s.Storable)
    (word : IsWord (r.nextId + 1)) : (r.appendStep s).2.Storable := by
  refine { storable with nextId := word, steps := fun t ht => ?_ }
  rcases List.mem_append.1 ht with old | new
  · exact storable.steps t old
  · rw [List.mem_singleton.1 new]
    exact { brought with id := word }

theorem Storable.putStep (storable : r.Storable) {s : StepExecution} (brought : s.Storable) :
    (r.putStep s).Storable := by
  refine { storable with steps := fun t ht => ?_ }
  rcases mem_replaceFirst ht with ⟨rfl, _⟩ | old
  · exact brought
  · exact storable.steps t old

end Changes

end NestedBatch.Records

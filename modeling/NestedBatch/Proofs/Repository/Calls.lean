import NestedBatch.Proofs.Records.Placement
import NestedBatch.Repository
import Mathlib.Logic.Relation

/-! What one call on the repository can do to the records, whatever the time and
whether or not saving succeeds, and which records can be reached by calls. -/
namespace NestedBatch

variable {W : Type}

namespace Repository

/-- How a call that got as far as saving can answer. -/
def Saved {α : Type} (a : α) (answer : Except BatchError α) : Prop :=
  answer = .ok a ∨ ∃ fault, answer = .error (.io fault)

theorem flush_cases (h : Host W) (r : Repository W) :
    ∃ answer w, flush h r = (answer, ⟨r.records, w⟩) ∧ Saved () answer := by
  cases saved : h.save r.records r.world with
  | mk fault w =>
    cases fault with
    | none => exact ⟨.ok (), w, by simp only [flush, saved], Or.inl rfl⟩
    | some fault =>
      exact ⟨.error (.io fault), w, by simp only [flush, saved], Or.inr ⟨fault, rfl⟩⟩

theorem createExecution_refused (h : Host W) {job : String} {p : Parameters} {r : Repository W}
    {e : BatchError} (refused : r.records.findOrMakeInstance job p = .error e) :
    r.createExecution h job p = (.error e, r) := by
  simp only [createExecution, refused]

theorem createExecution_admitted (h : Host W) {job : String} {p : Parameters} {r : Repository W}
    {i : JobInstance} {made : Records}
    (admitted : r.records.findOrMakeInstance job p = .ok (i, made)) :
    ∃ answer w, r.createExecution h job p
        = (answer, ⟨(made.newExecution i p (h.now r.world).1).2, w⟩) ∧
      Saved (made.newExecution i p (h.now r.world).1).1 answer := by
  obtain ⟨saved, w, flushed, outcome⟩ :=
    flush_cases h ⟨(made.newExecution i p (h.now r.world).1).2, (h.now r.world).2⟩
  refine ⟨saved.map fun _ => (made.newExecution i p (h.now r.world).1).1, w, ?_, ?_⟩
  · simp only [createExecution, admitted, flushed]
  · rcases outcome with rfl | ⟨fault, rfl⟩
    · exact Or.inl rfl
    · exact Or.inr ⟨fault, rfl⟩

theorem updateExecution_absent (h : Host W) {e : JobExecution} {r : Repository W}
    (absent : r.records.hasExecution e.id = false) :
    updateExecution h e r = (.error (.noSuchExecution e.id), e, r) := by
  simp only [updateExecution, absent, Bool.false_eq_true, if_false]

theorem updateExecution_present (h : Host W) {e : JobExecution} {r : Repository W}
    (present : r.records.hasExecution e.id = true) :
    ∃ answer w, updateExecution h e r
        = (answer, { e with lastUpdated := (h.now r.world).1 },
          ⟨r.records.putExecution { e with lastUpdated := (h.now r.world).1 }, w⟩) ∧
      Saved () answer := by
  obtain ⟨saved, w, flushed, outcome⟩ :=
    flush_cases h ⟨r.records.putExecution { e with lastUpdated := (h.now r.world).1 },
      (h.now r.world).2⟩
  exact ⟨saved, w, by simp only [updateExecution, present, if_true, flushed], outcome⟩

/-- However an update ends, the records are as if the execution had been put
back, and the caller holds it as it was but for the time of the update. -/
theorem updateExecution_effect (h : Host W) (e : JobExecution) (r : Repository W) :
    ∃ now, (updateExecution h e r).2.1 = { e with lastUpdated := now } ∧
      (updateExecution h e r).2.2.records
        = r.records.putExecution { e with lastUpdated := now } := by
  cases present : r.records.hasExecution e.id with
  | false =>
    rw [updateExecution_absent h present]
    exact ⟨e.lastUpdated, rfl, (Records.putExecution_absent present).symm⟩
  | true =>
    obtain ⟨answer, w, eq, _⟩ := updateExecution_present h present
    rw [eq]
    exact ⟨_, rfl, rfl⟩

theorem addStep_absent (h : Host W) {s : StepExecution} {r : Repository W}
    (absent : r.records.hasExecution s.jobExecutionId = false) :
    addStep h s r = (.error (.noSuchExecution s.jobExecutionId), s, r) := by
  simp only [addStep, absent, Bool.false_eq_true, if_false]

theorem addStep_present (h : Host W) {s : StepExecution} {r : Repository W}
    (present : r.records.hasExecution s.jobExecutionId = true) :
    ∃ answer t w, addStep h s r = (answer, t, ⟨(r.records.appendStep t).2, w⟩) ∧
      t = { s with id := r.records.nextId + 1, lastUpdated := (h.now r.world).1 } ∧
      Saved () answer := by
  obtain ⟨saved, w, flushed, outcome⟩ :=
    flush_cases h ⟨(r.records.appendStep { s with lastUpdated := (h.now r.world).1 }).2,
      (h.now r.world).2⟩
  refine ⟨saved, (r.records.appendStep { s with lastUpdated := (h.now r.world).1 }).1, w, ?_, rfl,
    outcome⟩
  simp only [addStep, present, if_true, flushed]
  rfl

theorem addStep_records (h : Host W) (s : StepExecution) (r : Repository W) :
    (addStep h s r).2.2.records = r.records ∨
      ∃ now, r.records.hasExecution s.jobExecutionId = true ∧
        (addStep h s r).2.2.records
          = (r.records.appendStep { s with lastUpdated := now }).2 := by
  cases present : r.records.hasExecution s.jobExecutionId with
  | false =>
    rw [addStep_absent h present]
    exact Or.inl rfl
  | true =>
    obtain ⟨answer, t, w, eq, rfl, _⟩ := addStep_present h present
    rw [eq]
    exact Or.inr ⟨_, rfl, rfl⟩

theorem addStep_frame (h : Host W) (s : StepExecution) (r : Repository W) :
    (addStep h s r).2.2.records.executions = r.records.executions ∧
      (addStep h s r).2.2.records.instances = r.records.instances ∧
      r.records.nextId ≤ (addStep h s r).2.2.records.nextId := by
  rcases addStep_records h s r with same | ⟨now, _, appended⟩
  · rw [same]
    exact ⟨rfl, rfl, Nat.le_refl _⟩
  · rw [appended]
    exact ⟨rfl, rfl, Nat.le_succ _⟩

theorem updateStep_absent (h : Host W) {s : StepExecution} {r : Repository W}
    (absent : r.records.hasStep s.id = false) :
    updateStep h s r = (.error (.noSuchStep s.id),
      { s with lastUpdated := (h.now r.world).1, context := s.context.clearDirty },
      ⟨r.records, (h.now r.world).2⟩) := by
  simp only [updateStep, absent, Bool.false_eq_true, if_false]

theorem updateStep_present (h : Host W) {s : StepExecution} {r : Repository W}
    (present : r.records.hasStep s.id = true) :
    ∃ answer t w, updateStep h s r = (answer, t, ⟨r.records.putStep t, w⟩) ∧
      t = { s with lastUpdated := (h.now r.world).1, context := s.context.clearDirty } ∧
      Saved () answer := by
  obtain ⟨saved, w, flushed, outcome⟩ :=
    flush_cases h ⟨r.records.putStep
      { s with lastUpdated := (h.now r.world).1, context := s.context.clearDirty },
      (h.now r.world).2⟩
  exact ⟨saved, _, w, by simp only [updateStep, present, if_true, flushed], rfl, outcome⟩

theorem updateStep_records (h : Host W) (s : StepExecution) (r : Repository W) :
    (updateStep h s r).2.2.records = r.records ∨
      ∃ now, (updateStep h s r).2.2.records
        = r.records.putStep { s with lastUpdated := now, context := s.context.clearDirty } := by
  cases present : r.records.hasStep s.id with
  | false =>
    rw [updateStep_absent h present]
    exact Or.inl rfl
  | true =>
    obtain ⟨answer, t, w, eq, rfl, _⟩ := updateStep_present h present
    rw [eq]
    exact Or.inr ⟨_, rfl⟩

theorem updateStep_frame (h : Host W) (s : StepExecution) (r : Repository W) :
    (updateStep h s r).2.2.records.executions = r.records.executions ∧
      (updateStep h s r).2.2.records.instances = r.records.instances ∧
      r.records.nextId ≤ (updateStep h s r).2.2.records.nextId := by
  rcases updateStep_records h s r with same | ⟨now, put⟩
  · rw [same]
    exact ⟨rfl, rfl, Nat.le_refl _⟩
  · rw [put]
    exact ⟨rfl, rfl, Nat.le_refl _⟩

end Repository

namespace Records

open Repository

/-- One call on a repository, with any caller's values, at any time, and with
any outcome of saving. -/
inductive Call : Records → Records → Prop where
  | create {W : Type} (h : Host W) (job : String) (p : Parameters) (r : Repository W) :
      Call r.records (r.createExecution h job p).2.records
  | update {W : Type} (h : Host W) (e : JobExecution) (r : Repository W) :
      Call r.records (updateExecution h e r).2.2.records
  | addStep {W : Type} (h : Host W) (s : StepExecution) (r : Repository W) :
      Call r.records (Repository.addStep h s r).2.2.records
  | updateStep {W : Type} (h : Host W) (s : StepExecution) (r : Repository W) :
      Call r.records (Repository.updateStep h s r).2.2.records

def Calls : Records → Records → Prop := Relation.ReflTransGen Call

def Reachable (r : Records) : Prop := Calls empty r

variable {r r' : Records}

/-- All that a call can do to the records. -/
theorem Call.cases (call : Call r r') :
    r' = r ∨
      (∃ job p i made now, r.findOrMakeInstance job p = .ok (i, made) ∧
        r' = (made.newExecution i p now).2) ∨
      (∃ e, r' = r.putExecution e) ∨
      (∃ s, r.hasExecution s.jobExecutionId = true ∧ r' = (r.appendStep s).2) ∨
      (∃ s, r' = r.putStep s) := by
  cases call with
  | create h job p r =>
    cases found : r.records.findOrMakeInstance job p with
    | error e =>
      rw [createExecution_refused h found]
      exact Or.inl rfl
    | ok made =>
      obtain ⟨answer, w, eq, _⟩ := createExecution_admitted h found
      rw [eq]
      exact Or.inr (Or.inl ⟨job, p, made.1, made.2, _, found, rfl⟩)
  | update h e r =>
    obtain ⟨now, _, records⟩ := updateExecution_effect h e r
    exact Or.inr (Or.inr (Or.inl ⟨_, records⟩))
  | addStep h s r =>
    rcases addStep_records h s r with same | ⟨now, owner, appended⟩
    · exact Or.inl same
    · exact Or.inr (Or.inr (Or.inr (Or.inl ⟨{ s with lastUpdated := now }, owner, appended⟩)))
  | updateStep h s r =>
    rcases updateStep_records h s r with same | ⟨now, put⟩
    · exact Or.inl same
    · exact Or.inr (Or.inr (Or.inr (Or.inr ⟨_, put⟩)))

theorem Call.numbered (call : Call r r') (numbered : r.Numbered) : r'.Numbered := by
  rcases call.cases with rfl | ⟨job, p, i, made, now, found, rfl⟩ | ⟨e, rfl⟩ | ⟨s, _, rfl⟩ |
    ⟨s, rfl⟩
  · exact numbered
  · have frame := findOrMakeInstance_frame found
    exact (numbered.mono frame.1 frame.2).newExecution i p now
  · exact numbered.putExecution e
  · exact numbered.mono rfl (Nat.le_succ _)
  · exact numbered.mono rfl (Nat.le_refl _)

/-- Ids are handed out upwards, at most two a call. -/
theorem Call.nextId (call : Call r r') : r.nextId ≤ r'.nextId ∧ r'.nextId ≤ r.nextId + 2 := by
  rcases call.cases with rfl | ⟨job, p, i, made, now, found, rfl⟩ | ⟨e, rfl⟩ | ⟨s, _, rfl⟩ |
    ⟨s, rfl⟩
  · omega
  · rcases findOrMakeInstance_ok found with ⟨_, rfl, _⟩ | ⟨_, _, rfl⟩ <;>
      simp only [newExecution] <;> omega
  · simp only [putExecution]
    omega
  · simp only [appendStep]
    omega
  · simp only [putStep]
    omega

theorem Calls.numbered (calls : Calls r r') (numbered : r.Numbered) : r'.Numbered := by
  induction calls with
  | refl => exact numbered
  | tail _ call ih => exact call.numbered ih

theorem Reachable.numbered (reachable : r.Reachable) : r.Numbered :=
  Calls.numbered reachable numbered_empty

/-- An id that is taken stays taken. -/
theorem Call.hasExecution (call : Call r r') {id : Nat} (there : r.hasExecution id = true) :
    r'.hasExecution id = true := by
  obtain ⟨e, he, same⟩ := hasExecution_iff.1 there
  have listed : id ∈ r.executions.map JobExecution.id := List.mem_map.2 ⟨e, he, same⟩
  have kept : id ∈ r'.executions.map JobExecution.id := by
    rcases call.cases with rfl | ⟨job, p, i, made, now, found, rfl⟩ | ⟨e, rfl⟩ | ⟨s, _, rfl⟩ |
      ⟨s, rfl⟩
    · exact listed
    · have frame := findOrMakeInstance_frame found
      simp only [newExecution, frame.1, List.map_append, List.mem_append]
      exact Or.inl listed
    · rw [ids_putExecution]
      exact listed
    · exact listed
    · exact listed
  obtain ⟨x, hx, same⟩ := List.mem_map.1 kept
  exact hasExecution_iff.2 ⟨x, hx, same⟩

theorem Calls.hasExecution (calls : Calls r r') {id : Nat} (there : r.hasExecution id = true) :
    r'.hasExecution id = true := by
  induction calls with
  | refl => exact there
  | tail _ call ih => exact call.hasExecution ih

theorem findOrMakeInstance_instance? {job job' key : String} {p : Parameters} {i j : JobInstance}
    {made : Records} (found : r.findOrMakeInstance job' p = .ok (j, made))
    (there : r.instance? job key = some i) : made.instance? job key = some i := by
  rcases findOrMakeInstance_ok found with ⟨_, rfl, _⟩ | ⟨_, _, rfl⟩
  · exact there
  · simp only [Records.instance?] at there ⊢
    rw [List.find?_append, there, Option.some_or]

/-- An instance, once there, is the one that its job and key name for ever. -/
theorem Call.instance? (call : Call r r') {job key : String} {i : JobInstance}
    (there : r.instance? job key = some i) : r'.instance? job key = some i := by
  rcases call.cases with rfl | ⟨job', p, j, made, now, found, rfl⟩ | ⟨e, rfl⟩ | ⟨s, _, rfl⟩ |
    ⟨s, rfl⟩
  · exact there
  · have kept := findOrMakeInstance_instance? found there
    exact kept
  · exact there
  · exact there
  · exact there

theorem Calls.instance? (calls : Calls r r') {job key : String} {i : JobInstance}
    (there : r.instance? job key = some i) : r'.instance? job key = some i := by
  induction calls with
  | refl => exact there
  | tail _ call ih => exact call.instance? ih

end Records

end NestedBatch

import NestedBatch.Proofs.Repository.Clean

/-! The operations of a repository as data, with their answers, and what each of
them leaves as it is. -/
namespace NestedBatch

variable {W : Type}

inductive Operation where
  | create (job : String) (p : Parameters)
  | update (e : JobExecution)
  | addStep (s : StepExecution)
  | updateStep (s : StepExecution)
  | last (job : String) (p : Parameters)
  | has (job : String) (p : Parameters)
  | lastStep (instanceId : Nat) (step : String)
  | all

/-- The answer to an operation. One that changes a record gives the caller's copy back. -/
inductive Answer where
  | created (result : Except BatchError JobExecution)
  | updated (result : Except BatchError Unit) (e : JobExecution)
  | stepped (result : Except BatchError Unit) (s : StepExecution)
  | last (found : Option JobExecution)
  | has (there : Bool)
  | lastStep (found : Option StepExecution)
  | all (executions : List JobExecution)

namespace Answer

def clean : Answer → Answer
  | created result => created (result.map JobExecution.clean)
  | updated result e => updated result e.clean
  | stepped result s => stepped result s.clean
  | last found => last (found.map JobExecution.clean)
  | has there => has there
  | lastStep found => lastStep (found.map StepExecution.clean)
  | all executions => all (executions.map JobExecution.clean)

def savedBy {α : Type} : Except BatchError α → Option Bool
  | .ok _ => some true
  | .error (.io _) => some false
  | .error _ => none

def saved? : Answer → Option Bool
  | created result => savedBy result
  | updated result _ | stepped result _ => savedBy result
  | last _ | has _ | lastStep _ | all _ => none

theorem savedBy_map {α β : Type} (f : α → β) (result : Except BatchError α) :
    savedBy (result.map f) = savedBy result := by
  cases result with
  | ok a => rfl
  | error e => cases e <;> rfl

@[simp] theorem saved?_clean (a : Answer) : a.clean.saved? = a.saved? := by
  cases a with
  | created result => exact savedBy_map JobExecution.clean result
  | _ => rfl

end Answer

namespace Operation

def clean : Operation → Operation
  | update e => update e.clean
  | addStep s => addStep s.clean
  | updateStep s => updateStep s.clean
  | o => o

/-- Can what the operation brings in be stored? The steps that an execution
carries are not taken over. -/
def Storable : Operation → Prop
  | create _ p => p.Storable
  | update e => { e with steps := [] }.Storable
  | addStep s | updateStep s => s.Storable
  | last _ _ | has _ _ | lastStep _ _ | all => True

def run (h : Host W) (o : Operation) (r : Repository W) : Answer × Repository W :=
  match o with
  | create job p =>
    let done := r.createExecution h job p
    (.created done.1, done.2)
  | update e =>
    let done := r.updateExecution h e
    (.updated done.1 done.2.1, done.2.2)
  | addStep s =>
    let done := r.addStep h s
    (.stepped done.1 done.2.1, done.2.2)
  | updateStep s =>
    let done := r.updateStep h s
    (.stepped done.1 done.2.1, done.2.2)
  | last job p => (.last (r.records.lastExecution? job p), r)
  | has job p => (.has (r.records.hasInstance job p), r)
  | lastStep instanceId step => (.lastStep (r.records.lastStep? instanceId step), r)
  | all => (.all r.records.allExecutions, r)

/-- An operation does not see the flags of contexts. -/
theorem run_clean {h : Host W} (textual : h.Textual) (o : Operation) (r : Repository W) :
    o.clean.run h r.clean = ((o.run h r).1.clean, (o.run h r).2.clean) := by
  cases o with
  | create job p =>
    simp only [clean, run, Repository.createExecution_clean textual, Answer.clean]
  | update e => simp only [clean, run, Repository.updateExecution_clean textual, Answer.clean]
  | addStep s => simp only [clean, run, Repository.addStep_clean textual, Answer.clean]
  | updateStep s => simp only [clean, run, Repository.updateStep_clean textual, Answer.clean]
  | last job p =>
    exact congrArg (fun found => (Answer.last found, r.clean))
      (r.records.lastExecution?_clean job p)
  | has job p => rfl
  | lastStep instanceId step =>
    exact congrArg (fun found => (Answer.lastStep found, r.clean))
      (r.records.lastStep?_clean instanceId step)
  | all =>
    exact congrArg (fun found => (Answer.all found, r.clean)) r.records.allExecutions_clean

/-- What differs in flags only is answered alike, and leaves the same but for flags. -/
theorem run_alike {h : Host W} (textual : h.Textual) {o o' : Operation} {r r' : Repository W}
    (same : o.clean = o'.clean) (alike : r.clean = r'.clean) :
    (o.run h r).1.clean = (o'.run h r').1.clean ∧ (o.run h r).2.clean = (o'.run h r').2.clean := by
  have both : ((o.run h r).1.clean, (o.run h r).2.clean)
      = ((o'.run h r').1.clean, (o'.run h r').2.clean) := by
    rw [← run_clean textual o r, ← run_clean textual o' r', same, alike]
  exact Prod.mk.inj both

theorem nextId_run (h : Host W) (o : Operation) (r : Repository W) :
    r.records.nextId ≤ (o.run h r).2.records.nextId ∧
      (o.run h r).2.records.nextId ≤ r.records.nextId + 2 := by
  cases o with
  | create job p => exact (Records.Call.create h job p r).nextId
  | update e => exact (Records.Call.update h e r).nextId
  | addStep s => exact (Records.Call.addStep h s r).nextId
  | updateStep s => exact (Records.Call.updateStep h s r).nextId
  | last _ _ | has _ _ | lastStep _ _ | all => exact ⟨Nat.le_refl _, Nat.le_add_right _ 2⟩

/-- As long as ids fit and the clock shows no leap second within a minute, what can be
stored is changed into what can be stored. -/
theorem storable_run {h : Host W} (clock : ∀ w, (h.now w).1.InPlace) {o : Operation}
    {r : Repository W} (storable : r.records.Storable) (brought : o.Storable)
    (word : Json.IsWord (o.run h r).2.records.nextId) : (o.run h r).2.records.Storable := by
  cases o with
  | create job p =>
    simp only [run] at word ⊢
    cases found : r.records.findOrMakeInstance job p with
    | error e =>
      rw [Repository.createExecution_refused h found]
      exact storable
    | ok made =>
      obtain ⟨answer, w, eq, _⟩ := Repository.createExecution_admitted h found
      rw [eq] at word ⊢
      have prepared := storable.findOrMakeInstance found (Nat.lt_of_succ_lt word)
      exact prepared.1.newExecution prepared.2 brought (clock r.world) word
  | update e =>
    have own : { e with steps := [] }.Storable := brought
    simp only [run]
    cases present : r.records.hasExecution e.id with
    | false =>
      rw [Repository.updateExecution_absent h present]
      exact storable
    | true =>
      obtain ⟨answer, w, eq, _⟩ := Repository.updateExecution_present h present
      rw [eq]
      exact storable.putExecution { own with lastUpdated := clock r.world }
  | addStep s =>
    have own : s.Storable := brought
    simp only [run] at word ⊢
    cases present : r.records.hasExecution s.jobExecutionId with
    | false =>
      rw [Repository.addStep_absent h present]
      exact storable
    | true =>
      obtain ⟨answer, t, w, eq, rfl, _⟩ := Repository.addStep_present h present
      rw [eq] at word ⊢
      exact storable.appendStep { own with id := word, lastUpdated := clock r.world } word
  | updateStep s =>
    have own : s.Storable := brought
    simp only [run]
    cases present : r.records.hasStep s.id with
    | false =>
      rw [Repository.updateStep_absent h present]
      exact storable
    | true =>
      obtain ⟨answer, t, w, eq, rfl, _⟩ := Repository.updateStep_present h present
      rw [eq]
      exact storable.putStep { own with lastUpdated := clock r.world }
  | last _ _ | has _ _ | lastStep _ _ | all => exact storable

end Operation

end NestedBatch

import Mathlib.Data.List.Induction
import NestedBatch.Proofs.Repository.History

/-! What records refer to. Everything is made for what is there, a step execution for an
execution and an execution for an instance. A call that puts a record back takes over what
the caller's copy refers to. So the records stay linked as they were made as long as every
copy that is put back still refers to the same, and no longer. -/
namespace NestedBatch

variable {W : Type} {r : Records} {past : History}

/-- The instance and the job that the execution of an id belongs to. -/
def JobExecution.link (e : JobExecution) : Nat × Nat × String := (e.id, e.jobInstanceId, e.jobName)

/-- The execution that the step execution of an id belongs to. -/
def StepExecution.link (s : StepExecution) : Nat × Nat := (s.id, s.jobExecutionId)

namespace History

/-- Everything was made for what had been made. -/
structure Founded (past : History) : Prop where
  instances : ∀ x ∈ past.executions, ∃ i ∈ past.instances,
    i.id = x.jobInstanceId ∧ i.jobName = x.jobName
  owners : ∀ t ∈ past.steps, ∃ x ∈ past.executions, x.id = t.jobExecutionId

theorem founded_nothing : nothing.Founded := ⟨List.forall_mem_nil _, List.forall_mem_nil _⟩

/-- What is made later may also refer to what had been made before. -/
theorem Founded.followed {later : History} (founded : past.Founded)
    (instances : ∀ x ∈ later.executions, ∃ i ∈ past.instances ++ later.instances,
      i.id = x.jobInstanceId ∧ i.jobName = x.jobName)
    (owners : ∀ t ∈ later.steps, ∃ x ∈ past.executions ++ later.executions,
      x.id = t.jobExecutionId) : (past.followed later).Founded := by
  constructor
  · intro x hx
    rcases List.mem_append.1 hx with old | new
    · obtain ⟨i, hi, own⟩ := founded.instances x old
      exact ⟨i, List.mem_append_left _ hi, own⟩
    · exact instances x new
  · intro t ht
    rcases List.mem_append.1 ht with old | new
    · obtain ⟨x, hx, own⟩ := founded.owners t old
      exact ⟨x, List.mem_append_left _ hx, own⟩
    · exact owners t new

end History

namespace Records

/-- What was made is there as it was linked when it was made: every execution under its
instance and the name of its job, every step execution under its execution, and shown
with that one only. -/
structure Linked (r : Records) (past : History) : Prop where
  executions : r.executions.map JobExecution.link = past.executions.map JobExecution.link
  steps : r.steps.map StepExecution.link = past.steps.map StepExecution.link
  instances : ∀ e ∈ r.executions, ∃ i ∈ r.instances, i.id = e.jobInstanceId ∧ i.jobName = e.jobName
  owners : ∀ s ∈ r.steps, ∃ e ∈ r.executions, e.id = s.jobExecutionId
  once : ∀ s ∈ r.steps, ∃! e, e ∈ r.allExecutions ∧ s ∈ e.steps

theorem mem_withSteps {e : JobExecution} {s : StepExecution} :
    s ∈ (r.withSteps e).steps ↔ s ∈ r.steps ∧ s.jobExecutionId = e.id := by
  simp [withSteps]

theorem shown_once (numbered : r.Numbered) {s : StepExecution} {e : JobExecution}
    (there : s ∈ r.steps) (member : e ∈ r.executions) (owner : e.id = s.jobExecutionId) :
    ∃! x, x ∈ r.allExecutions ∧ s ∈ x.steps := by
  refine ⟨r.withSteps e, ⟨List.mem_map_of_mem member, mem_withSteps.2 ⟨there, owner.symm⟩⟩, ?_⟩
  rintro x ⟨listed, shown⟩
  obtain ⟨y, hy, rfl⟩ := List.mem_map.1 listed
  have same : y.id = e.id := (mem_withSteps.1 shown).2.symm.trans owner.symm
  rw [numbered.eq_of_id hy member same]

theorem linked_iff (founded : past.Founded) (kept : r.Keeps past) (numbered : r.Numbered) :
    r.Linked past ↔
      r.executions.map JobExecution.link = past.executions.map JobExecution.link ∧
        r.steps.map StepExecution.link = past.steps.map StepExecution.link := by
  refine ⟨fun linked => ⟨linked.executions, linked.steps⟩, fun ⟨executions, steps⟩ => ?_⟩
  have owners : ∀ s ∈ r.steps, ∃ e ∈ r.executions, e.id = s.jobExecutionId := by
    intro s hs
    obtain ⟨t, ht, same⟩ := List.mem_map.1 (steps ▸ List.mem_map_of_mem hs)
    obtain ⟨x, hx, own⟩ := founded.owners t ht
    obtain ⟨e, he, id⟩ := List.mem_map.1 (kept.executions ▸ List.mem_map_of_mem hx)
    exact ⟨e, he, id.trans (own.trans (congrArg Prod.snd same))⟩
  refine ⟨executions, steps, fun e he => ?_, owners, fun s hs => ?_⟩
  · obtain ⟨x, hx, same⟩ := List.mem_map.1 (executions ▸ List.mem_map_of_mem he)
    obtain ⟨i, hi, id, name⟩ := founded.instances x hx
    have own : (x.jobInstanceId, x.jobName) = (e.jobInstanceId, e.jobName) := congrArg Prod.snd same
    exact ⟨i, kept.instances ▸ hi, id.trans (congrArg Prod.fst own),
      name.trans (congrArg Prod.snd own)⟩
  · obtain ⟨e, he, id⟩ := owners s hs
    exact shown_once numbered hs he id

section Lists

variable {α β : Type} {l : List α}

/-- Under keys that do not repeat, a replacement is not seen in a column exactly if it
agrees there with what it replaces. -/
theorem map_replaceFirst_iff (column : α → β) (key : α → Nat) (new : α)
    (distinct : (l.map key).Pairwise (· < ·)) :
    (replaceFirst (fun a => key a = key new) new l).map column = l.map column ↔
      ∀ a ∈ l, key a = key new → column a = column new := by
  refine ⟨fun same => ?_, fun agrees =>
    map_replaceFirst column fun a ha found => agrees a ha (of_decide_eq_true found)⟩
  induction l with
  | nil => exact List.forall_mem_nil _
  | cons a rest ih =>
    obtain ⟨above, tail⟩ := List.pairwise_cons.1 (by simpa only [List.map_cons] using distinct)
    by_cases found : key a = key new
    · simp only [replaceFirst, found, decide_true, if_true, List.map_cons, List.cons.injEq,
        and_true] at same
      intro b hb shared
      rcases List.mem_cons.1 hb with rfl | later
      · exact same.symm
      -- Behind the place that was found all keys are larger.
      · have := above (key b) (List.mem_map_of_mem later)
        omega
    · simp only [replaceFirst, found, decide_false, Bool.false_eq_true, if_false, List.map_cons,
        List.cons.injEq, true_and] at same
      intro b hb shared
      rcases List.mem_cons.1 hb with rfl | later
      · exact absurd shared found
      · exact ih tail same b later shared

end Lists

end Records

namespace Operation

variable {h : Host W} {o : Operation}

/-- Does the copy that is put back refer to what the record in its place refers to? -/
def Faithful (o : Operation) (r : Records) : Prop :=
  match o with
  | update e => ∀ x ∈ r.executions, x.id = e.id → x.link = e.link
  | updateStep s => ∀ t ∈ r.steps, t.id = s.id → t.link = s.link
  | _ => True

/-- One operation keeps the links exactly if it is faithful. -/
theorem links_run_iff {r : Repository W} (numbered : r.records.Numbered)
    (steps : r.records.StepsNumbered)
    (linked : r.records.executions.map JobExecution.link = past.executions.map JobExecution.link ∧
      r.records.steps.map StepExecution.link = past.steps.map StepExecution.link) :
    ((o.run h r).2.records.executions.map JobExecution.link
        = (past.followed (o.makes h r)).executions.map JobExecution.link ∧
      (o.run h r).2.records.steps.map StepExecution.link
        = (past.followed (o.makes h r)).steps.map StepExecution.link) ↔ o.Faithful r.records := by
  cases o with
  | create job p =>
    refine iff_of_true ?_ trivial
    simp only [run, makes]
    cases found : r.records.findOrMakeInstance job p with
    | error fault =>
      rw [Repository.createExecution_refused h found]
      simpa [History.followed, History.nothing] using linked
    | ok admitted =>
      obtain ⟨i, made⟩ := admitted
      obtain ⟨answer, w, created, _⟩ := Repository.createExecution_admitted h found
      rw [created]
      rcases Records.findOrMakeInstance_ok found with ⟨_, rfl, _⟩ | ⟨_, _, rfl⟩ <;>
        simp [Records.newExecution, History.followed, linked]
  | update e =>
    obtain ⟨now, _, put⟩ := Repository.updateExecution_effect h e r
    simp only [run, makes, put, History.followed, History.nothing, List.append_nil, ← linked.1,
      ← linked.2, Records.putExecution, and_true, Faithful]
    exact Records.map_replaceFirst_iff JobExecution.link JobExecution.id
      { e with lastUpdated := now, steps := [] } numbered.increasing
  | addStep s =>
    refine iff_of_true ?_ trivial
    simp only [run, makes]
    cases present : r.records.hasExecution s.jobExecutionId with
    | false =>
      rw [Repository.addStep_absent h present]
      simpa [History.followed, History.nothing] using linked
    | true =>
      obtain ⟨answer, t, w, added, rfl, _⟩ := Repository.addStep_present h present
      rw [added]
      simp [Records.appendStep, History.followed, linked]
  | updateStep s =>
    simp only [run, makes, History.followed, History.nothing, List.append_nil, ← linked.1,
      ← linked.2, Faithful]
    cases present : r.records.hasStep s.id with
    | false =>
      rw [Repository.updateStep_absent h present]
      -- Nothing is put back, and there is nothing that the copy could be unfaithful to.
      refine iff_of_true ⟨rfl, rfl⟩ fun t ht same => ?_
      have there : r.records.hasStep s.id = true :=
        Records.hasStep_iff.2 (same ▸ List.mem_map_of_mem ht)
      exact absurd (present.symm.trans there) (by decide)
    | true =>
      obtain ⟨answer, t, w, updated, rfl, _⟩ := Repository.updateStep_present h present
      rw [updated]
      simp only [Records.putStep, true_and]
      exact Records.map_replaceFirst_iff StepExecution.link StepExecution.id
        { s with lastUpdated := (h.now r.world).1, context := s.context.clearDirty }
        steps.increasing
  | last _ _ | has _ _ | lastStep _ _ | all =>
    refine iff_of_true ?_ trivial
    simpa [run, makes, History.followed, History.nothing] using linked

theorem founded_run {r : Repository W} (founded : past.Founded) (kept : r.records.Keeps past) :
    (past.followed (o.makes h r)).Founded := by
  cases o with
  | create job p =>
    simp only [makes]
    cases found : r.records.findOrMakeInstance job p with
    | error fault => exact founded.followed (List.forall_mem_nil _) (List.forall_mem_nil _)
    | ok admitted =>
      obtain ⟨i, made⟩ := admitted
      refine founded.followed ?_ (List.forall_mem_nil _)
      intro x hx
      rw [List.mem_singleton.1 hx]
      refine ⟨i, ?_, rfl, rfl⟩
      rcases Records.findOrMakeInstance_ok found with ⟨there, _, _⟩ | ⟨absent, _, _⟩
      · exact List.mem_append_left _ (kept.instances ▸ (Records.instance?_some there).1)
      · simp [Records.hasInstance, absent]
  | addStep s =>
    simp only [makes]
    cases present : r.records.hasExecution s.jobExecutionId with
    | false => exact founded.followed (List.forall_mem_nil _) (List.forall_mem_nil _)
    | true =>
      refine founded.followed (List.forall_mem_nil _) ?_
      intro t ht
      rw [List.mem_singleton.1 ht]
      obtain ⟨e, he, id⟩ := Records.hasExecution_iff.1 present
      obtain ⟨x, hx, same⟩ := List.mem_map.1 (kept.executions ▸ List.mem_map_of_mem he)
      exact ⟨x, List.mem_append_left _ hx, same.trans id⟩
  | update _ | updateStep _ | last _ _ | has _ _ | lastStep _ _ | all =>
    exact founded.followed (List.forall_mem_nil _) (List.forall_mem_nil _)

end Operation

namespace Session

variable {h : Host W} {w : W}

theorem after_concat (done : List Operation) (o : Operation) (s : Session W) :
    s.after h (done ++ [o]) = (o.run h (perform h done s).2.repository).2.records := by
  simp only [after, perform_append]
  rfl

theorem history_concat (done : List Operation) (o : Operation) (s : Session W) :
    history h (done ++ [o]) s
      = (history h done s).followed (o.makes h (perform h done s).2.repository) := by
  induction done generalizing s with
  | nil => simp [history, perform, History.followed, History.nothing]
  | cons first rest ih =>
    have later := ih (s.call h first).2
    simp only [List.cons_append, history, later, History.followed, List.append_assoc]
    rfl

theorem reachable_after (done : List Operation) : ((fresh w).after h done).Reachable :=
  calls_perform done (fresh w)

theorem founded_history (done : List Operation) : (history h done (fresh w)).Founded := by
  induction done using List.reverseRecOn with
  | nil => exact History.founded_nothing
  | append_singleton done o ih =>
    rw [history_concat]
    exact Operation.founded_run ih (keeps_perform done w)

theorem linked_after_iff (done : List Operation) :
    ((fresh w).after h done).Linked (history h done (fresh w)) ↔
      ((fresh w).after h done).executions.map JobExecution.link
          = (history h done (fresh w)).executions.map JobExecution.link ∧
        ((fresh w).after h done).steps.map StepExecution.link
          = (history h done (fresh w)).steps.map StepExecution.link :=
  Records.linked_iff (founded_history done) (keeps_perform done w) (reachable_after done).numbered

/-- From records that are linked one operation leads to such exactly if it is faithful. -/
theorem linked_concat_iff {done : List Operation} {o : Operation}
    (linked : ((fresh w).after h done).Linked (history h done (fresh w))) :
    ((fresh w).after h (done ++ [o])).Linked (history h (done ++ [o]) (fresh w)) ↔
      o.Faithful ((fresh w).after h done) := by
  have reachable := reachable_after (h := h) (w := w) done
  rw [linked_after_iff, history_concat, after_concat]
  exact Operation.links_run_iff reachable.numbered reachable.issued.2
    ((linked_after_iff done).1 linked)

/-- The records are linked as they were made, all the time, exactly if every copy of a
record that is put back refers to what the record in its place refers to. -/
theorem linked_iff_faithful (h : Host W) (w : W) (os : List Operation) :
    (∀ done, done <+: os → ((fresh w).after h done).Linked (history h done (fresh w))) ↔
      ∀ done o, done ++ [o] <+: os → o.Faithful ((fresh w).after h done) := by
  constructor
  · intro linked done o begins
    have before := linked done ((List.prefix_append done [o]).trans begins)
    exact (linked_concat_iff before).1 (linked (done ++ [o]) begins)
  · intro faithful done begins
    induction done using List.reverseRecOn with
    | nil => exact (linked_after_iff []).2 ⟨rfl, rfl⟩
    | append_singleton done o ih =>
      have before := ih ((List.prefix_append done [o]).trans begins)
      exact (linked_concat_iff before).2 (faithful done o begins)

/-- The only execution, as a caller holds it. -/
def loading : JobExecution := .create 2 ⟨1, "load", ""⟩ .empty .epoch

/-- A step execution is put back under an execution that there is not. -/
def misfiled : List Operation :=
  let s := loading.newStep "copy" .epoch
  [.create "load" .empty, .addStep s, .updateStep { s with id := 3, jobExecutionId := 999 }]

/-- The first of two executions is put back under the id of the second one. -/
def mistaken : List Operation :=
  [.create "load" .empty, .create "clear" .empty, .update { loading with id := 4 }]

/-- After the one the step execution is stored and not shown, after the other the
execution of one job is stored as one of another job. -/
theorem links_overwritten :
    ¬ ((fresh ()).after .still misfiled).Linked (history .still misfiled (fresh ())) ∧
      ((fresh ()).after .still misfiled).allExecutions.flatMap JobExecution.steps = [] ∧
      ¬ ((fresh ()).after .still mistaken).Linked (history .still mistaken (fresh ())) ∧
      ((fresh ()).after .still mistaken).executions.map JobExecution.jobName
        = ["load", "load"] := by
  refine ⟨fun linked => ?_, by decide +kernel, fun linked => ?_, by decide +kernel⟩
  · have unlike : ((fresh ()).after .still misfiled).steps.map StepExecution.link
        ≠ (history .still misfiled (fresh ())).steps.map StepExecution.link := by decide +kernel
    exact unlike linked.steps
  · have unlike : ((fresh ()).after .still mistaken).executions.map JobExecution.link
        ≠ (history .still mistaken (fresh ())).executions.map JobExecution.link := by
      decide +kernel
    exact unlike linked.executions

end Session

end NestedBatch

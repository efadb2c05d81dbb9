import NestedBatch.Proofs.Launch.Admission
import NestedBatch.Proofs.Repository.Reopening

/-! What operations have made. Every id that was handed out is the id of one record for
good, whatever is put back in its place, and records stand in the order in which they
were made. So the newest of some records is the one that was made last. -/
namespace NestedBatch

variable {W : Type} {r r' r'' : Records}

/-- What operations have made, each record as it was then, oldest first. -/
structure History where
  instances : List JobInstance
  executions : List JobExecution
  steps : List StepExecution

namespace History

def nothing : History := ⟨[], [], []⟩

def followed (past later : History) : History :=
  ⟨past.instances ++ later.instances, past.executions ++ later.executions,
    past.steps ++ later.steps⟩

def ids (past : History) : List Nat :=
  past.instances.map JobInstance.id ++ past.executions.map JobExecution.id
    ++ past.steps.map StepExecution.id

theorem ids_followed (past later : History) :
    (past.followed later).ids.Perm (past.ids ++ later.ids) := by
  refine List.perm_iff_count.2 fun id => ?_
  simp only [ids, followed, List.map_append, List.count_append]
  omega

end History

namespace Records

/-- The ids of all records. -/
def ids (r : Records) : List Nat :=
  r.instances.map JobInstance.id ++ r.executions.map JobExecution.id
    ++ r.steps.map StepExecution.id

theorem ids_putStep (s : StepExecution) :
    (r.putStep s).steps.map StepExecution.id = r.steps.map StepExecution.id :=
  map_replaceFirst StepExecution.id fun _ _ found => of_decide_eq_true found

/-- What was made stands behind what was there, under the ids that the count has gone
through. Nothing is taken away, and no id is changed. -/
structure Adds (r r' : Records) (new : History) : Prop where
  count : r.nextId ≤ r'.nextId
  taken : new.ids.Perm (List.range' (r.nextId + 1) (r'.nextId - r.nextId))
  instances : r'.instances = r.instances ++ new.instances
  executions : r'.executions.map JobExecution.id
    = r.executions.map JobExecution.id ++ new.executions.map JobExecution.id
  steps : r'.steps.map StepExecution.id
    = r.steps.map StepExecution.id ++ new.steps.map StepExecution.id

theorem Adds.nothing (count : r'.nextId = r.nextId) (instances : r'.instances = r.instances)
    (executions : r'.executions.map JobExecution.id = r.executions.map JobExecution.id)
    (steps : r'.steps.map StepExecution.id = r.steps.map StepExecution.id) :
    Adds r r' .nothing := by
  refine ⟨Nat.le_of_eq count.symm, ?_, ?_, ?_, ?_⟩
  · rw [count, Nat.sub_self]
    exact .refl []
  · exact instances.trans (List.append_nil _).symm
  · exact executions.trans (List.append_nil _).symm
  · exact steps.trans (List.append_nil _).symm

theorem Adds.trans {past later : History} (first : Adds r r' past) (second : Adds r' r'' later) :
    Adds r r'' (past.followed later) := by
  have count := first.count
  have count' := second.count
  refine ⟨Nat.le_trans count count', ?_, ?_, ?_, ?_⟩
  -- The later ids begin where the past ones end.
  · have through : r''.nextId - r.nextId
        = (r'.nextId - r.nextId) + (r''.nextId - r'.nextId) := by omega
    have next : r'.nextId + 1 = r.nextId + 1 + (r'.nextId - r.nextId) := by omega
    refine (History.ids_followed past later).trans ?_
    rw [through, ← List.range'_append_1, ← next]
    exact first.taken.append second.taken
  · rw [second.instances, first.instances, List.append_assoc]
    rfl
  · rw [second.executions, first.executions, List.append_assoc, ← List.map_append]
    rfl
  · rw [second.steps, first.steps, List.append_assoc, ← List.map_append]
    rfl

end Records

namespace Operation

/-- What an operation makes, whether or not it can be saved. A creation that is not
refused makes an execution, and the instance of it where there is none yet; a step
execution is made for an owner that is there. -/
def makes (h : Host W) (o : Operation) (r : Repository W) : History :=
  match o with
  | create job p =>
    match r.records.findOrMakeInstance job p with
    | .error _ => .nothing
    | .ok (i, made) =>
      ⟨if r.records.hasInstance job p then [] else [i],
        [(made.newExecution i p (h.now r.world).1).1], []⟩
  | addStep s =>
    if r.records.hasExecution s.jobExecutionId then
      ⟨[], [], [(r.records.appendStep { s with lastUpdated := (h.now r.world).1 }).1]⟩
    else .nothing
  | _ => .nothing

theorem makes_told {h : Host W} {o : Operation} {r : Repository W} {e : JobExecution}
    (told : (o.run h r).1 = .created (.ok e)) : (o.makes h r).executions = [e] := by
  cases o with
  | create job p =>
    simp only [run, Answer.created.injEq] at told
    simp only [makes]
    cases found : r.records.findOrMakeInstance job p with
    | error fault =>
      rw [Repository.createExecution_refused h found] at told
      cases told
    | ok admitted =>
      obtain ⟨answer, w, created, saved⟩ := Repository.createExecution_admitted h found
      rw [created] at told
      rcases saved with rfl | ⟨fault, rfl⟩
      · cases told
        rfl
      · cases told
  | _ => cases told

theorem adds_run (h : Host W) (o : Operation) (r : Repository W) :
    Records.Adds r.records (o.run h r).2.records (o.makes h r) := by
  have one : ∀ n : Nat, n + 1 - n = 1 := by omega
  have two : ∀ n : Nat, n + 1 + 1 - n = 2 := by omega
  cases o with
  | create job p =>
    simp only [run, makes]
    cases found : r.records.findOrMakeInstance job p with
    | error fault =>
      rw [Repository.createExecution_refused h found]
      exact .nothing rfl rfl rfl rfl
    | ok admitted =>
      obtain ⟨i, made⟩ := admitted
      obtain ⟨answer, w, created, _⟩ := Repository.createExecution_admitted h found
      rw [created]
      -- One id is taken, or two where the instance is made as well.
      rcases Records.findOrMakeInstance_ok found with ⟨there, rfl, _⟩ | ⟨absent, rfl, rfl⟩
      · constructor <;> simp [Records.newExecution, Records.hasInstance, there, History.ids, one,
          JobExecution.create]
      · constructor <;> simp [Records.newExecution, Records.hasInstance, absent, History.ids, two,
          JobExecution.create, List.range'_succ, Nat.add_assoc]
  | update e =>
    obtain ⟨now, _, put⟩ := Repository.updateExecution_effect h e r
    simp only [run, makes, put]
    exact .nothing rfl rfl (Records.ids_putExecution _) rfl
  | addStep s =>
    simp only [run, makes]
    cases present : r.records.hasExecution s.jobExecutionId with
    | false =>
      rw [Repository.addStep_absent h present]
      exact .nothing rfl rfl rfl rfl
    | true =>
      obtain ⟨answer, t, w, added, rfl, _⟩ := Repository.addStep_present h present
      rw [added]
      constructor <;> simp [Records.appendStep, History.ids, one]
  | updateStep s =>
    simp only [run, makes]
    rcases Repository.updateStep_records h s r with same | ⟨now, put⟩
    · rw [same]
      exact .nothing rfl rfl rfl rfl
    · rw [put]
      exact .nothing rfl rfl rfl (Records.ids_putStep _)
  | last _ _ | has _ _ | lastStep _ _ | all => exact .nothing rfl rfl rfl rfl

theorem calls_run (h : Host W) (o : Operation) (r : Repository W) :
    Records.Calls r.records (o.run h r).2.records := by
  cases o with
  | create job p => exact .single (.create h job p r)
  | update e => exact .single (.update h e r)
  | addStep s => exact .single (.addStep h s r)
  | updateStep s => exact .single (.updateStep h s r)
  | last _ _ | has _ _ | lastStep _ _ | all => exact .refl

end Operation

namespace Session

/-- What operations make one after the other. -/
def history (h : Host W) : List Operation → Session W → History
  | [], _ => .nothing
  | o :: rest, s => (o.makes h s.repository).followed (history h rest (s.call h o).2)

abbrev after (h : Host W) (os : List Operation) (s : Session W) : Records :=
  (perform h os s).2.repository.records

variable {h : Host W}

theorem adds_perform (os : List Operation) (s : Session W) :
    Records.Adds s.repository.records (s.after h os) (history h os s) := by
  induction os generalizing s with
  | nil => exact .nothing rfl rfl rfl rfl
  | cons o rest ih => exact (o.adds_run h s.repository).trans (ih (s.call h o).2)

theorem calls_perform (os : List Operation) (s : Session W) :
    Records.Calls s.repository.records (s.after h os) := by
  induction os generalizing s with
  | nil => exact .refl
  | cons o rest ih => exact (o.calls_run h s.repository).trans (ih (s.call h o).2)

theorem perform_append (os more : List Operation) (s : Session W) :
    (perform h (os ++ more) s).2 = (perform h more (perform h os s).2).2 := by
  induction os generalizing s with
  | nil => rfl
  | cons o rest ih => exact ih (s.call h o).2

theorem history_told {os : List Operation} {s : Session W} {e : JobExecution}
    (told : .created (.ok e) ∈ (perform h os s).1) : e ∈ (history h os s).executions := by
  induction os generalizing s with
  | nil => cases told
  | cons o rest ih =>
    rcases List.mem_cons.1 told with first | later
    · have made := o.makes_told first.symm
      exact List.mem_append_left _ (made ▸ List.mem_cons_self)
    · exact List.mem_append_right _ (ih later)

end Session

namespace Records

/-- What is left of what was made: records of other content perhaps, but each under its
own id, and in order. -/
structure Keeps (r : Records) (past : History) : Prop where
  distinct : r.ids.Nodup
  issued : ∀ id ∈ r.ids, 1 ≤ id ∧ id ≤ r.nextId
  increasing : (r.executions.map JobExecution.id).Pairwise (· < ·)
  stepsIncreasing : (r.steps.map StepExecution.id).Pairwise (· < ·)
  named : r.instances.Pairwise fun i j => ¬ (i.jobName = j.jobName ∧ i.jobKey = j.jobKey)
  instances : r.instances = past.instances
  executions : r.executions.map JobExecution.id = past.executions.map JobExecution.id
  steps : r.steps.map StepExecution.id = past.steps.map StepExecution.id
  all : r.allExecutions.map JobExecution.id = past.executions.map JobExecution.id
  /-- The last of an instance is the one that was made last. -/
  last : ∀ job p, r.lastExecution? job p = (r.recorded job p).getLast?.map r.withSteps
  lastStep : ∀ i step, r.lastStep? i step
    = (r.steps.filter fun s => s.jobInstanceId = i && s.stepName = step).getLast?

theorem Adds.ids {past : History} (added : Adds .empty r past) :
    r.ids.Perm (List.range' 1 r.nextId) := by
  have made : r.ids = past.ids := by
    simp only [Records.ids, added.instances, added.executions, added.steps]
    rfl
  rw [made]
  exact added.taken

theorem WellNamed.pairwise (names : r.WellNamed) (distinct : r.instances.Nodup) :
    r.instances.Pairwise fun i j => ¬ (i.jobName = j.jobName ∧ i.jobKey = j.jobKey) :=
  distinct.imp_of_mem fun hi hj differ named =>
    differ (names.named _ hi _ hj named.1 named.2)

theorem recorded_increasing (numbered : r.Numbered) (job : String) (p : Parameters) :
    ((r.recorded job p).map JobExecution.id).Pairwise (· < ·) := by
  cases there : r.instance? job p.jobKey with
  | none =>
    rw [recorded_none there]
    exact .nil
  | some i =>
    rw [recorded_some there]
    exact numbered.increasing.sublist (List.filter_sublist.map _)

theorem Reachable.keeps {past : History} (reachable : r.Reachable) (added : Adds .empty r past) :
    r.Keeps past := by
  obtain ⟨names, steps⟩ := reachable.issued
  have distinct : r.ids.Nodup := added.ids.nodup_iff.2 List.nodup_range'
  constructor
  · exact distinct
  · intro id taken
    have range := List.mem_range'_1.1 (added.ids.mem_iff.1 taken)
    omega
  · exact reachable.numbered.increasing
  · exact steps.increasing
  · have own : (r.instances.map JobInstance.id).Nodup := (distinct.of_append_left).of_append_left
    exact names.pairwise own.of_map
  · exact added.instances
  · exact added.executions
  · exact added.steps
  · rw [allExecutions, List.map_map]
    exact added.executions
  · intro job p
    rw [lastExecution?_eq, newest_eq_getLast? (recorded_increasing reachable.numbered job p)]
  · intro i step
    exact newest_eq_getLast? (steps.increasing.sublist (List.filter_sublist.map _))

end Records

namespace Session

variable {h : Host W}

theorem keeps_perform (os : List Operation) (w : W) :
    ((fresh w).after h os).Keeps (history h os (fresh w)) :=
  Records.Reachable.keeps (calls_perform os (fresh w)) (adds_perform os (fresh w))

/-- Nothing is lost, and no id is given twice. Whatever callers put back, and whether or
not it can be saved, each record that was made is there, once and under its own id, and
those of a kind stand in the order in which they were made. So it is also at any later
time, where they are followed by what was made since. No bound is put on the count of
ids, which is a natural number here and does not run over. -/
theorem nothing_lost (h : Host W) (w : W) (os more : List Operation) :
    ((fresh w).after h os).Keeps (history h os (fresh w)) ∧
      (∀ e, .created (.ok e) ∈ (perform h os (fresh w)).1 →
        e ∈ (history h os (fresh w)).executions) ∧
      ∃ later : History,
        ((fresh w).after h (os ++ more)).Keeps ((history h os (fresh w)).followed later) := by
  refine ⟨keeps_perform os w, fun e => history_told, history h more (perform h os (fresh w)).2, ?_⟩
  have records : (fresh w).after h (os ++ more) = (perform h os (fresh w)).2.after h more := by
    simp only [after, perform_append]
  rw [records]
  have calls := calls_perform (h := h) more (perform h os (fresh w)).2
  have added := adds_perform (h := h) more (perform h os (fresh w)).2
  exact Records.Reachable.keeps ((calls_perform os (fresh w)).trans calls)
    ((adds_perform os (fresh w)).trans added)

end Session

end NestedBatch

import NestedBatch.Proofs.Records.Attempts
import NestedBatch.Proofs.Repository.Reopening
import NestedBatch.Proofs.Runner.Closing

/-! What a step run adds to the attempts at a site. A run whose writes succeed is
refused without a trace, or adds the step that it answers with, at the site of its
job, its parameters and its step. -/
namespace NestedBatch

variable {W : Type} {a : Site}

namespace Records

variable {r r' r'' : Records} {job : String} {p : Parameters}

/-- Calls that add no attempt at the site and change none. -/
structure Leaves (a : Site) (r r' : Records) : Prop where
  calls : Calls r r'
  filed : r.Tidy → ∀ s ∈ r'.steps, s.jobInstanceId ≤ r'.nextId
  attempts : r.Tidy → r'.attempts a = r.attempts a

theorem Leaves.tidy (leaves : Leaves a r r') (tidy : r.Tidy) : r'.Tidy :=
  tidy.calls leaves.calls (leaves.filed tidy)

theorem Leaves.refl (r : Records) : Leaves a r r := ⟨.refl, Tidy.filed, fun _ => rfl⟩

theorem Leaves.trans (first : Leaves a r r') (second : Leaves a r' r'') : Leaves a r r'' where
  calls := Relation.ReflTransGen.trans first.calls second.calls
  filed tidy := second.filed (first.tidy tidy)
  attempts tidy := (second.attempts (first.tidy tidy)).trans (first.attempts tidy)

theorem leaves_withNewest {i : JobInstance} {made : Records} {x : JobExecution}
    (found : r.findOrMakeInstance job p = .ok (i, made)) (calls : Calls r (made.withNewest x)) :
    Leaves a r (made.withNewest x) where
  calls := calls
  filed tidy s hs := by
    have same : made.steps = r.steps := by
      rcases findOrMakeInstance_ok found with ⟨_, rfl, _⟩ | ⟨_, _, rfl⟩ <;> rfl
    have count := (findOrMakeInstance_frame found).2
    have bound := tidy.filed s (same ▸ hs)
    exact Nat.le_succ_of_le (Nat.le_trans bound count)
  attempts tidy := (attempts_made tidy found : made.attempts a = r.attempts a)

theorem leaves_update (h : Host W) (e : JobExecution) (r : Repository W) :
    Leaves a r.records (Repository.updateExecution h e r).2.2.records := by
  have call : Calls r.records _ := .single (.update h e r)
  obtain ⟨now, _, put⟩ := Repository.updateExecution_effect h e r
  rw [put] at call ⊢
  exact ⟨call, Tidy.filed, fun _ => rfl⟩

end Records

open Records (Leaves Tidy)

/-- The job makes no attempt at the site while it runs. -/
def Job.Spares (a : Site) (job : Job W) : Prop :=
  ∀ e r, Leaves a r.records (job.body e r).2.2.records

namespace Launch

variable {job : Job W}

theorem leaves_start (h : Host W) (job : Job W) (p : Parameters) (r : Repository W) :
    Leaves a r.records (start h job p r).2.records := by
  have calls := start_calls h job p r
  suffices leaves : r.records.Numbered → Leaves a r.records (start h job p r).2.records from
    ⟨calls, fun tidy => (leaves tidy.numbered).filed tidy,
      fun tidy => (leaves tidy.numbered).attempts tidy⟩
  intro numbered
  rcases start_cases h job p numbered with ⟨e, _, refused⟩ | ⟨i, made, x, found, started⟩
  · rw [refused]
    exact .refl r.records
  · rw [started.records] at calls ⊢
    exact Records.leaves_withNewest found calls

theorem leaves_finish (h : Host W) (e : JobExecution) (fault : Option String)
    (r : Repository W) : Leaves a r.records (finish h e fault r).2.records := by
  have leaves := Records.leaves_update (a := a) h (closed h e fault r.world).1
    ⟨r.records, (closed h e fault r.world).2⟩
  cases fault <;> exact leaves

theorem leaves_perform (spares : job.Spares a) (launcher : Launcher) (e : JobExecution)
    (r : Repository W) : Leaves a r.records (perform launcher job e r).2.2.records := by
  have body := spares e r
  by_cases runs : launcher = .closedTask
  · subst runs
    exact .refl r.records
  · rw [perform_eq runs]
    exact body

theorem leaves_run (h : Host W) (launcher : Launcher) (spares : job.Spares a) (p : Parameters)
    (r : Repository W) : Leaves a r.records (run h launcher job p r).2.records := by
  have starts := leaves_start (a := a) h job p r
  simp only [run]
  generalize start h job p r = started at starts ⊢
  obtain ⟨_ | e, r'⟩ := started
  · exact starts
  · exact (starts.trans (leaves_perform spares launcher e r')).trans (leaves_finish h _ _ _)

end Launch

/-- What is asked of a step that runs between attempts, or makes one: it leaves the
place of its execution alone and makes no other attempt at the site. -/
structure Step.Spares (a : Site) (step : Step W) : Prop where
  id : ∀ s r, (step.execute s r).1.id = s.id
  jobInstanceId : ∀ s r, (step.execute s r).1.jobInstanceId = s.jobInstanceId
  stepName : ∀ s r, (step.execute s r).1.stepName = s.stepName
  leaves : ∀ s r, Leaves a r.records (step.execute s r).2.records

namespace Runner

open Interleaving

variable {h : Host W} {step : Step W} {job : String} {p : Parameters} {seed : Context}
  {r r' r₁ r₂ : Repository W} {parent : JobExecution} {s t : StepExecution}

theorem openParent_cases (h : Host W) (job : String) (p : Parameters)
    (numbered : r.records.Numbered) :
    (∃ e, openParent h job p r = (.error e, r)) ∨
      ∃ i made x, r.records.findOrMakeInstance job p = .ok (i, made) ∧
        Launch.Started i made x (openParent h job p r) := by
  cases found : r.records.findOrMakeInstance job p with
  | error e => exact Or.inl ⟨e, Launch.opened_refused h found⟩
  | ok admitted =>
    obtain ⟨x, started⟩ := Launch.opened_admitted h numbered found
    exact Or.inr ⟨admitted.1, admitted.2, x, rfl, started⟩

/-- A step run in which every write succeeded: its parent was opened, its step was
registered, and what the step left was recorded before the parent was closed. -/
structure Recorded (h : Host W) (step : Step W) (job : String) (p : Parameters) (seed : Context)
    (r : Repository W) (parent : JobExecution) (r₁ : Repository W) (s : StepExecution)
    (r₂ : Repository W) (t : StepExecution) (r' : Repository W) : Prop where
  opened : openParent h job p r = (.ok parent, r₁)
  registered : Repository.addStep h (recalled h step.name parent seed r₁)
    ⟨r₁.records, (h.now r₁.world).2⟩ = (.ok (), s, r₂)
  added : r₂.records = (r₁.records.appendStep s).2
  began : ∃ now, s = { recalled h step.name parent seed r₁ with
    id := r₁.records.nextId + 1, lastUpdated := now }
  left : ∃ now, t = { (step.execute s r₂).1 with
    lastUpdated := now, context := (step.execute s r₂).1.context.clearDirty }
  recorded : ∃ w, Repository.updateStep h (step.execute s r₂).1 (step.execute s r₂).2
    = (.ok (), t, ⟨(step.execute s r₂).2.records.putStep t, w⟩)
  closed : ∃ e v x, Repository.updateExecution h e ⟨(step.execute s r₂).2.records.putStep t, v⟩
    = (.ok (), x, r')
  answered : run h step job p seed r = (.ok t, r')

/-- What the step left can be recorded and the parent closed, unless a write has a fault. -/
theorem recordStep_cases (u : StepExecution) (present : r.records.hasStep u.id = true)
    (there : r.records.hasExecution parent.id = true) :
    (∃ fault x r', recordStep h parent u r = (.error (.io fault), x, r')) ∨
      ∃ t now w e v x r', recordStep h parent u r = (.ok t, x, r') ∧
        t = { u with lastUpdated := now, context := u.context.clearDirty } ∧
        Repository.updateStep h u r = (.ok (), t, ⟨r.records.putStep t, w⟩) ∧
        Repository.updateExecution h e ⟨r.records.putStep t, v⟩ = (.ok (), x, r') := by
  obtain ⟨answer, t, w, recorded, left, saved⟩ := Repository.updateStep_present h present
  simp only [recordStep, recorded]
  rcases saved with rfl | ⟨fault, rfl⟩
  · have kept : (r.records.putStep t).hasExecution parent.id = true := there
    obtain ⟨answer, w', closed, saved⟩ := Repository.updateExecution_present h
      (e := absorb parent t (h.now w).1) (r := ⟨r.records.putStep t, (h.now w).2⟩) kept
    simp only [closed]
    rcases saved with rfl | ⟨fault, rfl⟩
    · exact Or.inr ⟨t, _, w, _, _, _, _, rfl, left, rfl, closed⟩
    · exact Or.inl ⟨fault, _, _, rfl⟩
  · exact Or.inl ⟨fault, _, _, rfl⟩

/-- A run that answers with no fault of a write is refused without a trace, or all
its writes succeeded. -/
theorem run_cases (spares : step.Spares a) (numbered : r.records.Numbered)
    (unfaulted : ∀ fault, (run h step job p seed r).1 ≠ .error (.io fault)) :
    (∃ e, openParent h job p r = (.error e, r) ∧ run h step job p seed r = (.error e, r)) ∨
      ∃ parent r₁ s r₂ t r', Recorded h step job p seed r parent r₁ s r₂ t r' := by
  have ran := run_eq (h := h) step job p seed r
  rcases opened : openParent h job p r with ⟨answer, r₁⟩
  simp only [opened] at ran
  cases answer with
  | error e =>
    rcases openParent_cases h job p numbered with ⟨e', refused⟩ | ⟨i, made, x, _, started⟩
    · cases opened.symm.trans refused
      exact Or.inl ⟨e, rfl, ran⟩
    · rcases started.answer with impossible | ⟨fault, unsaved⟩
      · cases (congrArg Prod.fst opened).symm.trans impossible
      · cases (congrArg Prod.fst opened).symm.trans unsaved
        exact absurd (congrArg Prod.fst ran) (unfaulted fault)
  | ok parent =>
    have there := (Launch.opened_ok opened).2
    obtain ⟨answer, s, w, registered, began, saved⟩ := Repository.addStep_present h
      (s := recalled h step.name parent seed r₁) (r := ⟨r₁.records, (h.now r₁.world).2⟩) there
    simp only [registered] at ran
    rcases saved with rfl | ⟨fault, rfl⟩
    · generalize added : (r₁.records.appendStep s).2 = records at registered ran
      -- The parent and the step are still there when the step is over, so that only a
      -- fault of a write is left to be answered.
      have leaves := spares.leaves s ⟨records, w⟩
      have stored : records.hasStep s.id = true := by
        simp [Records.hasStep, ← added, Records.appendStep, began]
      have present : (step.execute s ⟨records, w⟩).2.records.hasStep
          (step.execute s ⟨records, w⟩).1.id = true := by
        rw [spares.id]
        exact leaves.calls.hasStep stored
      have kept : (step.execute s ⟨records, w⟩).2.records.hasExecution parent.id = true :=
        leaves.calls.hasExecution (added ▸ there)
      rcases recordStep_cases (h := h) (step.execute s ⟨records, w⟩).1 present kept with
        ⟨fault, x, r', unsaved⟩ | ⟨t, now, v, e, v', x, r', ends, left, recorded, closed⟩
      · simp only [unsaved, concludeParent] at ran
        exact absurd (congrArg Prod.fst ran) (unfaulted fault)
      · simp only [ends, concludeParent] at ran
        exact Or.inr ⟨parent, r₁, s, ⟨records, w⟩, t, r', opened, registered, added.symm,
          ⟨_, began⟩, ⟨now, left⟩, ⟨v, recorded⟩, ⟨e, v', x, closed⟩, ran⟩
    · exact absurd (congrArg Prod.fst ran) (unfaulted fault)

namespace Recorded

variable (recorded : Recorded h step job p seed r parent r₁ s r₂ t r') (tidy : r.records.Tidy)

include recorded tidy

theorem opens : Leaves a r.records r₁.records ∧
    ∃ i, r₁.records.instance? job p.jobKey = some i ∧ s.jobInstanceId = i.id ∧
      s.stepName = step.name := by
  obtain ⟨now, began⟩ := recorded.began
  have calls := Launch.opened_calls h job p r
  rcases openParent_cases h job p tidy.numbered with ⟨e, refused⟩ | ⟨i, made, x, found, started⟩
  · cases recorded.opened.symm.trans refused
  · have records := started.records
    have same : parent = x := by
      rcases started.answer with ok | ⟨fault, unsaved⟩
      · rw [recorded.opened] at ok
        cases ok
        rfl
      · rw [recorded.opened] at unsaved
        cases unsaved
    rw [recorded.opened] at records
    rw [← openParent_eq, recorded.opened] at calls
    dsimp only at calls records
    rw [records] at calls ⊢
    refine ⟨Records.leaves_withNewest found calls, i, (Records.instance?_made found).2, ?_, ?_⟩
    · rw [began]
      exact (congrArg JobExecution.jobInstanceId same).trans started.jobInstanceId
    · rw [began]
      rfl

theorem older : ∀ b ∈ r.records.attempts a, b.id ≠ s.id := by
  obtain ⟨opens, _⟩ := recorded.opens (a := a) tidy
  obtain ⟨now, began⟩ := recorded.began
  intro b hb
  rw [← opens.attempts tidy] at hb
  have stored := (List.mem_filter.1 hb).1
  have bound := (opens.tidy tidy).steps.bounded b.id (List.mem_map_of_mem stored)
  have next : s.id = r₁.records.nextId + 1 := by rw [began]
  omega

theorem registers : Records.Calls r₁.records r₂.records ∧ r₂.records.Tidy ∧
    r₂.records.attempts a
      = r.records.attempts a ++ if ⟨job, p.jobKey, step.name⟩ = a then [s] else [] := by
  obtain ⟨opens, i, there, belongs, name⟩ := recorded.opens (a := a) tidy
  have tidy₁ := opens.tidy tidy
  have call : Records.Calls r₁.records r₂.records := by
    have added := Records.Call.addStep h (recalled h step.name parent seed r₁)
      ⟨r₁.records, (h.now r₁.world).2⟩
    rw [recorded.registered] at added
    exact .single added
  obtain ⟨now, began⟩ := recorded.began
  have own : (r₁.records.appendStep s).1 = s := by rw [began]; rfl
  refine ⟨call, tidy₁.calls call ?_, ?_⟩
  · rw [recorded.added]
    intro u hu
    rcases List.mem_append.1 hu with old | new
    · exact Nat.le_succ_of_le (tidy₁.filed u old)
    · rw [List.mem_singleton.1 new]
      exact Nat.le_succ_of_le (belongs ▸ tidy₁.names.known i (Records.instance?_some there).1)
  · rw [recorded.added, Records.attempts_appendStep, opens.attempts tidy, own]
    simp only [Records.isAt_iff tidy₁.names there belongs, name]

/-- The run adds the step that it answers with, if its site is the one looked at. -/
theorem attempts (spares : step.Spares a) :
    Records.Calls r.records r'.records ∧
      Records.Calls (step.execute s r₂).2.records r'.records ∧ r'.records.Tidy ∧
      r'.records.attempts a
        = r.records.attempts a ++ if ⟨job, p.jobKey, step.name⟩ = a then [t] else [] := by
  obtain ⟨opens, i, there, belongs, name⟩ := recorded.opens (a := a) tidy
  obtain ⟨registers, tidy₂, attempts₂⟩ := recorded.registers (a := a) tidy
  have executes := spares.leaves s r₂
  have left : t.id = s.id ∧ t.jobInstanceId = i.id ∧ t.stepName = step.name := by
    obtain ⟨now, rfl⟩ := recorded.left
    exact ⟨spares.id s r₂, (spares.jobInstanceId s r₂).trans belongs,
      (spares.stepName s r₂).trans name⟩
  obtain ⟨w, put⟩ := recorded.recorded
  obtain ⟨e, v, x, closed⟩ := recorded.closed
  have puts := Records.Call.updateStep h (step.execute s r₂).1 (step.execute s r₂).2
  have closes := Records.leaves_update (a := a) h e ⟨(step.execute s r₂).2.records.putStep t, v⟩
  rw [put] at puts
  rw [closed] at closes
  have tidy₃ := executes.tidy tidy₂
  have attempts₃ := (executes.attempts tidy₂).trans attempts₂
  have there₃ := Records.Calls.instance? (.trans registers executes.calls) there
  -- The step may have done anything; from here on only the records that it left count.
  generalize (step.execute s r₂).2.records = r₃ at executes puts closes tidy₃ attempts₃ there₃ ⊢
  have tidy₄ : (r₃.putStep t).Tidy := by
    refine tidy₃.calls (.single puts) fun u hu => ?_
    rcases Records.mem_replaceFirst hu with ⟨rfl, _⟩ | old
    · rw [left.2.1]
      exact tidy₃.names.known i (Records.instance?_some there₃).1
    · exact tidy₃.filed u old
  have attempts₄ := Records.attempts_recorded tidy₃ there₃ left.2.1 (left.2.2 ▸ attempts₃) left.1
    (left.1 ▸ recorded.older tidy)
  rw [left.2.2] at attempts₄
  refine ⟨?_, .trans (.single puts) closes.calls, closes.tidy tidy₄,
    (closes.attempts tidy₄).trans attempts₄⟩
  exact .trans opens.calls
    (.trans registers (.trans executes.calls (.trans (.single puts) closes.calls)))

end Recorded

end Runner

end NestedBatch

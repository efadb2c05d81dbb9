import NestedBatch.Job.Command
import NestedBatch.Proofs.Interleaving.Sequential
import NestedBatch.Proofs.Launch.Closing
import NestedBatch.Proofs.Records.Finite

/-! What a run hands to the store. Where a run starts from finite doubles only, records with
another double are never handed over to be saved: a host that does anything else with such
records makes no difference to the run. -/
namespace NestedBatch

variable {W : Type} {h h' : Host W} {r : Repository W}

/-- The hosts do the same, but for records with a double that is not finite. -/
structure Host.AgreesOnFinite (h' h : Host W) : Prop where
  now : h'.now = h.now
  save : ∀ records, records.AllFinite → h'.save records = h.save records

/-- What is answered is so, if it is no error. -/
def Answers {α : Type} (good : α → Prop) : Except BatchError α → Prop
  | .ok a => good a
  | .error _ => True

/-- Two hosts make the same of a call, and nothing but finite doubles comes of it. -/
structure AlikeFinite {α : Type} (good : α → Prop) (x' x : Except BatchError α × Repository W) :
    Prop where
  same : x' = x
  answer : Answers good x.1
  records : x.2.records.AllFinite

namespace Repository

theorem flush_congr (agree : h'.AgreesOnFinite h) {records : Records}
    (finite : records.AllFinite) (w : W) : flush h' ⟨records, w⟩ = flush h ⟨records, w⟩ := by
  simp only [flush, agree.save records finite]

theorem createExecution_congr (agree : h'.AgreesOnFinite h) (finite : r.records.AllFinite)
    {p : Parameters} (own : p.AllFinite) (job : String) :
    r.createExecution h' job p = r.createExecution h job p := by
  simp only [createExecution, agree.now]
  split
  · rfl
  · rename_i i made found
    have made' := (finite.findOrMakeInstance found).newExecution i own (h.now r.world).1
    simp only [flush_congr agree made']

theorem updateExecution_congr (agree : h'.AgreesOnFinite h) (finite : r.records.AllFinite)
    {e : JobExecution} (own : e.AllFinite) :
    updateExecution h' e r = updateExecution h e r := by
  have put : (r.records.putExecution { e with lastUpdated := (h.now r.world).1 }).AllFinite :=
    finite.putExecution { own with }
  simp only [updateExecution, agree.now, flush_congr agree put]

theorem addStep_congr (agree : h'.AgreesOnFinite h) (finite : r.records.AllFinite)
    {s : StepExecution} (own : s.AllFinite) : addStep h' s r = addStep h s r := by
  have appended :
      (r.records.appendStep { s with lastUpdated := (h.now r.world).1 }).2.AllFinite :=
    finite.appendStep { own with }
  simp only [addStep, agree.now, flush_congr agree appended]

theorem updateStep_congr (agree : h'.AgreesOnFinite h) (finite : r.records.AllFinite)
    {s : StepExecution} (own : s.AllFinite) : updateStep h' s r = updateStep h s r := by
  have put : (r.records.putStep { s with
      lastUpdated := (h.now r.world).1, context := s.context.clearDirty }).AllFinite :=
    finite.putStep ⟨own.jobParameters, own.context⟩
  simp only [updateStep, agree.now, flush_congr agree put]

/-- What is left of a call, and what the caller gets of it, is finite. -/
theorem allFinite_createExecution (h : Host W) (finite : r.records.AllFinite) {p : Parameters}
    (own : p.AllFinite) (job : String) :
    Answers JobExecution.AllFinite (r.createExecution h job p).1 ∧
      (r.createExecution h job p).2.records.AllFinite := by
  cases found : r.records.findOrMakeInstance job p with
  | error e =>
    rw [createExecution_refused h found]
    exact ⟨trivial, finite⟩
  | ok made =>
    obtain ⟨answer, w, eq, saved⟩ := createExecution_admitted h found
    rw [eq]
    refine ⟨?_, (finite.findOrMakeInstance found).newExecution _ own _⟩
    rcases saved with rfl | ⟨fault, rfl⟩
    · exact Records.allFinite_create _ _ own _
    · trivial

theorem allFinite_updateExecution (h : Host W) (finite : r.records.AllFinite) {e : JobExecution}
    (own : e.AllFinite) :
    (updateExecution h e r).2.1.AllFinite ∧ (updateExecution h e r).2.2.records.AllFinite := by
  obtain ⟨now, given, put⟩ := updateExecution_effect h e r
  rw [given, put]
  exact ⟨{ own with }, finite.putExecution { own with }⟩

theorem allFinite_addStep (h : Host W) (finite : r.records.AllFinite) {s : StepExecution}
    (own : s.AllFinite) :
    (addStep h s r).2.1.AllFinite ∧ (addStep h s r).2.2.records.AllFinite := by
  cases present : r.records.hasExecution s.jobExecutionId with
  | false =>
    rw [addStep_absent h present]
    exact ⟨own, finite⟩
  | true =>
    obtain ⟨answer, t, w, eq, rfl, _⟩ := addStep_present h present
    rw [eq]
    exact ⟨{ own with }, finite.appendStep { own with }⟩

theorem allFinite_updateStep (h : Host W) (finite : r.records.AllFinite) {s : StepExecution}
    (own : s.AllFinite) :
    (updateStep h s r).2.1.AllFinite ∧ (updateStep h s r).2.2.records.AllFinite := by
  cases present : r.records.hasStep s.id with
  | false =>
    rw [updateStep_absent h present]
    exact ⟨⟨own.jobParameters, own.context⟩, finite⟩
  | true =>
    obtain ⟨answer, t, w, eq, rfl, _⟩ := updateStep_present h present
    rw [eq]
    have cleared : StepExecution.AllFinite { s with
        lastUpdated := (h.now r.world).1, context := s.context.clearDirty } :=
      ⟨own.jobParameters, own.context⟩
    exact ⟨cleared, finite.putStep cleared⟩

end Repository

/-- The body of the job brings in no double that is not finite. -/
def Job.KeepsFinite (job : Job W) : Prop :=
  ∀ e r, e.AllFinite → r.records.AllFinite →
    (job.body e r).2.1.AllFinite ∧ (job.body e r).2.2.records.AllFinite

theorem CommandJob.keepsFinite (c : CommandJob) (spawn : Spawner W) :
    (c.toJob spawn).KeepsFinite := by
  intro e r own finite
  simp only [toJob, perform]
  split
  · exact ⟨own, finite⟩
  · exact ⟨{ own with }, finite⟩

namespace Launch

open Repository

variable {job : Job W} {p : Parameters} {e : JobExecution}

theorem alike_recordBegun (agree : h'.AgreesOnFinite h) (finite : r.records.AllFinite)
    (own : e.AllFinite) :
    AlikeFinite JobExecution.AllFinite (recordBegun h' e r) (recordBegun h e r) := by
  have begins : (begun e (h.now r.world).1).AllFinite := { own with }
  have same := updateExecution_congr (r := ⟨r.records, (h.now r.world).2⟩) agree finite begins
  have kept := allFinite_updateExecution (r := ⟨r.records, (h.now r.world).2⟩) h finite begins
  simp only [recordBegun, agree.now, same]
  generalize updateExecution h _ _ = call at kept ⊢
  obtain ⟨_ | _, e', r'⟩ := call
  · exact ⟨rfl, trivial, kept.2⟩
  · exact ⟨rfl, kept.1, kept.2⟩

theorem alike_opened (agree : h'.AgreesOnFinite h) (finite : r.records.AllFinite)
    (own : p.AllFinite) (name : String) :
    AlikeFinite JobExecution.AllFinite (opened h' name p r) (opened h name p r) := by
  have made := allFinite_createExecution h finite own name
  simp only [opened, createExecution_congr agree finite own name]
  generalize r.createExecution h name p = call at made ⊢
  obtain ⟨_ | e, r'⟩ := call
  · exact ⟨rfl, trivial, made.2⟩
  · exact alike_recordBegun agree made.2 made.1

theorem alike_start (agree : h'.AgreesOnFinite h) (finite : r.records.AllFinite)
    (own : p.AllFinite) (job : Job W) :
    AlikeFinite JobExecution.AllFinite (start h' job p r) (start h job p r) := by
  rw [start_eq, start_eq]
  split
  · exact ⟨rfl, trivial, finite⟩
  · exact alike_opened agree finite own job.name

theorem allFinite_perform (keeps : job.KeepsFinite) (launcher : Launcher)
    (finite : r.records.AllFinite) (own : e.AllFinite) :
    (perform launcher job e r).2.1.AllFinite ∧
      (perform launcher job e r).2.2.records.AllFinite := by
  have body := keeps e r own finite
  cases launcher with
  | sameThread => exact body
  | task =>
    simp only [perform]
    split
    · rename_i ended
      rw [ended] at body
      exact ⟨own, body.2⟩
    · rename_i ended
      rw [ended] at body
      exact body
  | closedTask => exact ⟨own, finite⟩

theorem allFinite_closed (h : Host W) (own : e.AllFinite) (fault : Option String) (w : W) :
    (closed h e fault w).1.AllFinite := by
  obtain ⟨occurred, now, closes⟩ := closed_eq h e fault w
  have judges : (judged e fault occurred).AllFinite := by
    cases fault with
    | none => exact { own with }
    | some message => exact { own with }
  rw [closes]
  exact { judges with }

theorem alike_finish (agree : h'.AgreesOnFinite h) (finite : r.records.AllFinite)
    (own : e.AllFinite) (fault : Option String) :
    AlikeFinite JobExecution.AllFinite (finish h' e fault r) (finish h e fault r) := by
  have closes : closed h' e fault r.world = closed h e fault r.world := by
    simp only [closed, agree.now]
  have own' := allFinite_closed h own fault r.world
  simp only [finish, closes]
  generalize closed h e fault r.world = x at own' ⊢
  have same := updateExecution_congr (r := ⟨r.records, x.2⟩) agree finite own'
  have kept := allFinite_updateExecution (r := ⟨r.records, x.2⟩) h finite own'
  rw [same]
  generalize updateExecution h x.1 _ = call at kept ⊢
  obtain ⟨_ | _, e', r'⟩ := call <;> cases fault
  case ok.none => exact ⟨rfl, kept.1, kept.2⟩
  all_goals exact ⟨rfl, trivial, kept.2⟩

theorem alike_run (agree : h'.AgreesOnFinite h) (keeps : job.KeepsFinite) (launcher : Launcher)
    (finite : r.records.AllFinite) (own : p.AllFinite) :
    AlikeFinite JobExecution.AllFinite (run h' launcher job p r) (run h launcher job p r) := by
  obtain ⟨same, started, left⟩ := alike_start agree finite own job
  simp only [run, same]
  generalize start h job p r = call at started left ⊢
  obtain ⟨_ | e, r'⟩ := call
  · exact ⟨rfl, trivial, left⟩
  · obtain ⟨own', left'⟩ := allFinite_perform keeps launcher left started
    exact alike_finish agree left' own' _

end Launch

namespace NestedStep

variable {n : NestedStep W} {s : StepExecution}

/-- The step makes finite parameters, and runs a job that keeps to finite doubles. -/
structure KeepsFinite (n : NestedStep W) : Prop where
  derive : ∀ s p, s.AllFinite → n.derive s = .ok p → p.AllFinite
  job : n.job.KeepsFinite

/-- The parameters that an attempt gets are finite, and so is the context that keeps them. -/
theorem allFinite_resolve (derives : ∀ p, n.derive s = .ok p → p.AllFinite) (own : s.AllFinite) :
    Answers Parameters.AllFinite (n.resolve s).1 ∧ (n.resolve s).2.AllFinite := by
  simp only [resolve]
  split
  · rename_i p kept
    exact ⟨own.context.parameters? kept, own⟩
  · split
    · exact ⟨trivial, own⟩
    · rename_i p derived
      have finite := derives p derived
      exact ⟨finite, own.jobParameters, own.context.put (v := .parameters p) finite _⟩

theorem alike_launchChild (agree : h'.AgreesOnFinite h) (keeps : n.KeepsFinite)
    (finite : r.records.AllFinite) (own : s.AllFinite) :
    n.launchChild h' s r = n.launchChild h s r ∧ (n.launchChild h s r).2.1.AllFinite ∧
      (n.launchChild h s r).2.2.records.AllFinite := by
  have resolved := n.allFinite_resolve (keeps.derive s · own) own
  simp only [launchChild]
  generalize n.resolve s = x at resolved ⊢
  obtain ⟨_ | p, s'⟩ := x
  · exact ⟨rfl, resolved.2, finite⟩
  · have launched := Launch.alike_run agree keeps.job n.launcher finite resolved.1
    simp only [launched.same]
    exact ⟨trivial, resolved.2, launched.records⟩

theorem allFinite_fold (h : Host W) (child : Except BatchError JobExecution) (own : s.AllFinite)
    (w : W) : (fold h child s w).1.AllFinite := by
  cases child with
  | ok child => exact { own with }
  | error fault => exact { own with }

/-- An attempt of the step comes to the same, and to finite doubles only. -/
theorem alike_execute (agree : h'.AgreesOnFinite h) (keeps : n.KeepsFinite)
    (finite : r.records.AllFinite) (own : s.AllFinite) :
    n.execute h' s r = n.execute h s r ∧ (n.execute h s r).1.AllFinite ∧
      (n.execute h s r).2.records.AllFinite := by
  have begins : StepExecution.AllFinite { s with
      status := .started
      startTime := some (h.now r.world).1
      context := s.context.put stepTypeKey (.string stepType) } :=
    ⟨own.jobParameters, own.context.put (v := .string stepType) trivial stepTypeKey⟩
  obtain ⟨same, kept, left⟩ := alike_launchChild (r := ⟨r.records, (h.now r.world).2⟩) agree
    keeps finite begins
  simp only [execute, agree.now, same]
  generalize n.launchChild h _ _ = x at kept left ⊢
  obtain ⟨child, s', r'⟩ := x
  have folds : fold h' child s' r'.world = fold h child s' r'.world := by
    simp only [fold, agree.now]
  have own' := allFinite_fold h child kept r'.world
  rw [folds]
  exact ⟨rfl, { own' with }, left⟩

end NestedStep

namespace Runner

open Interleaving (concludeParent recalled recordStep)
open Repository

variable {step step' : Step W} {job : String} {p : Parameters} {seed : Context}
  {parent : JobExecution} {s : StepExecution}

/-- Two forms of a step do the same where all doubles are finite, and bring in no others. -/
structure StepsAlike (step' step : Step W) : Prop where
  name : step'.name = step.name
  execute : ∀ s r, s.AllFinite → r.records.AllFinite →
    step'.execute s r = step.execute s r ∧ (step.execute s r).1.AllFinite ∧
      (step.execute s r).2.records.AllFinite

theorem allFinite_absorb (own : parent.AllFinite) (brought : s.AllFinite)
    (now : Instant) : (absorb parent s now).AllFinite :=
  ⟨own.jobParameters, own.context, List.forall_mem_append.2
    ⟨own.steps, List.forall_mem_singleton.2 brought⟩⟩

theorem allFinite_recalled (h : Host W) (finite : r.records.AllFinite) (own : parent.AllFinite)
    (seeded : seed.AllFinite) (name : String) : (recalled h name parent seed r).AllFinite := by
  refine ⟨own.jobParameters, ?_⟩
  simp only [recalled]
  cases last : r.records.lastStep? parent.jobInstanceId name with
  | none => exact seeded
  | some s =>
    simp only [initialContext]
    split
    · exact seeded
    · exact (finite.lastStep? last).context

/-- Two hosts make the same of a step under its parent, and only finite doubles come of it. -/
structure AlikeRecorded (x' x : Except BatchError StepExecution × JobExecution × Repository W) :
    Prop where
  same : x' = x
  answer : Answers StepExecution.AllFinite x.1
  parent : x.2.1.AllFinite
  records : x.2.2.records.AllFinite

theorem alike_recordStep (agree : h'.AgreesOnFinite h) (finite : r.records.AllFinite)
    (own : parent.AllFinite) (brought : s.AllFinite) :
    AlikeRecorded (recordStep h' parent s r) (recordStep h parent s r) := by
  have kept := allFinite_updateStep h finite brought
  simp only [recordStep, updateStep_congr agree finite brought, agree.now]
  generalize updateStep h s r = call at kept ⊢
  obtain ⟨_ | _, s', r₁⟩ := call
  · exact ⟨rfl, trivial, own, kept.2⟩
  · have absorbed := allFinite_absorb own kept.1 (h.now r₁.world).1
    have same := updateExecution_congr (r := ⟨r₁.records, (h.now r₁.world).2⟩) agree kept.2 absorbed
    have left := allFinite_updateExecution (r := ⟨r₁.records, (h.now r₁.world).2⟩) h kept.2 absorbed
    simp only [same]
    generalize updateExecution h _ _ = call at left ⊢
    obtain ⟨_ | _, parent', r₂⟩ := call
    · exact ⟨rfl, trivial, left.1, left.2⟩
    · exact ⟨rfl, kept.1, left.1, left.2⟩

theorem alike_closeFailed (agree : h'.AgreesOnFinite h) (finite : r.records.AllFinite)
    (own : parent.AllFinite) (fault : BatchError) :
    closeFailed h' parent fault r = closeFailed h parent fault r ∧
      (closeFailed h parent fault r).records.AllFinite := by
  have closes : (failedParent parent fault (h.now r.world).1
      (h.now (h.now r.world).2).1).AllFinite := { own with }
  have same := updateExecution_congr (r := ⟨r.records, (h.now (h.now r.world).2).2⟩) agree finite
    closes
  have kept := allFinite_updateExecution (r := ⟨r.records, (h.now (h.now r.world).2).2⟩) h finite
    closes
  simp only [closeFailed, agree.now, same]
  exact ⟨trivial, kept.2⟩

theorem alike_concludeParent (agree : h'.AgreesOnFinite h)
    {x' x : Except BatchError StepExecution × JobExecution × Repository W}
    (alike : AlikeRecorded x' x) :
    AlikeFinite StepExecution.AllFinite (concludeParent h' x') (concludeParent h x) := by
  obtain ⟨rfl, answer, own, finite⟩ := alike
  obtain ⟨fault | s, parent, r⟩ := x'
  · obtain ⟨same, left⟩ := alike_closeFailed agree finite own fault
    exact ⟨by simp only [concludeParent, same], trivial, left⟩
  · exact ⟨rfl, answer, finite⟩

/-- A step run comes to the same on both hosts, and to finite doubles only. -/
theorem alike_run (agree : h'.AgreesOnFinite h) (alike : StepsAlike step' step)
    (finite : r.records.AllFinite) (own : p.AllFinite) (seeded : seed.AllFinite) :
    AlikeFinite StepExecution.AllFinite (run h' step' job p seed r) (run h step job p seed r) := by
  obtain ⟨same, started, left⟩ : AlikeFinite JobExecution.AllFinite (openParent h' job p r)
      (openParent h job p r) := Launch.alike_opened agree finite own job
  rw [Interleaving.run_eq, Interleaving.run_eq, same]
  generalize openParent h job p r = call at started left ⊢
  obtain ⟨fault | parent, r₁⟩ := call
  · exact ⟨rfl, trivial, left⟩
  · refine alike_concludeParent agree ?_
    have again : recalled h' step'.name parent seed r₁ = recalled h step.name parent seed r₁ := by
      simp only [recalled, agree.now, alike.name]
    have begins : (recalled h step.name parent seed r₁).AllFinite :=
      allFinite_recalled h left started seeded step.name
    have same' := addStep_congr (r := ⟨r₁.records, (h.now r₁.world).2⟩) agree left begins
    have added := allFinite_addStep (r := ⟨r₁.records, (h.now r₁.world).2⟩) h left begins
    rw [again, agree.now, same']
    generalize addStep h _ _ = call at added ⊢
    obtain ⟨_ | _, s, r₂⟩ := call
    · exact ⟨rfl, trivial, started, added.2⟩
    · obtain ⟨executes, kept, left'⟩ := alike.execute s r₂ added.1 added.2
      dsimp only
      rw [executes]
      exact alike_recordStep agree left' started kept

end Runner

/-- A nested step on the one host and on the other. -/
theorem NestedStep.stepsAlike {n : NestedStep W} (agree : h'.AgreesOnFinite h)
    (keeps : n.KeepsFinite) : Runner.StepsAlike (n.toStep h') (n.toStep h) :=
  ⟨rfl, fun _ _ own finite => n.alike_execute agree keeps finite own⟩

end NestedBatch

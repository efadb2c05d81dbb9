import NestedBatch.Proofs.Runner.Attempts

/-! How a step run ends where no write has a fault: with the outcome of its step, and a
parent that has taken it over. -/
namespace NestedBatch

/-- On the good worlds every write succeeds, and none of them is lost by it. -/
structure Host.Writes {W : Type} (h : Host W) (good : W → Prop) : Prop where
  now : ∀ w, good w → good (h.now w).2
  save : ∀ records w, good w → (h.save records w).1 = none ∧ good (h.save records w).2

namespace Repository

variable {W : Type} {h : Host W} {good : W → Prop} {r : Repository W}

theorem flush_writes (writes : h.Writes good) (fine : good r.world) :
    ∃ w, flush h r = (.ok (), ⟨r.records, w⟩) ∧ good w := by
  obtain ⟨saved, left⟩ := writes.save r.records r.world fine
  refine ⟨(h.save r.records r.world).2, ?_, left⟩
  rcases save : h.save r.records r.world with ⟨fault, w⟩
  rw [save] at saved
  cases saved
  simp only [flush, save]

theorem createExecution_writes (writes : h.Writes good) (fine : good r.world) {job : String}
    {p : Parameters} {i : JobInstance} {made : Records}
    (found : r.records.findOrMakeInstance job p = .ok (i, made)) :
    ∃ e r', r.createExecution h job p = (.ok e, r') ∧ r'.records.hasExecution e.id = true ∧
      good r'.world := by
  obtain ⟨w, flushed, left⟩ := flush_writes writes
    (r := ⟨(made.newExecution i p (h.now r.world).1).2, (h.now r.world).2⟩) (writes.now _ fine)
  refine ⟨_, ⟨_, w⟩, ?_, made.hasExecution_withNewest (made.newExecution i p (h.now r.world).1).1, left⟩
  simp only [createExecution, found, flushed]
  rfl

theorem updateExecution_writes (writes : h.Writes good) (fine : good r.world) {e : JobExecution}
    (present : r.records.hasExecution e.id = true) :
    ∃ x r', updateExecution h e r = (.ok (), x, r') ∧ good r'.world := by
  obtain ⟨w, flushed, left⟩ := flush_writes writes
    (r := ⟨r.records.putExecution { e with lastUpdated := (h.now r.world).1 },
      (h.now r.world).2⟩) (writes.now _ fine)
  have updated : updateExecution h e r = (.ok (), { e with lastUpdated := (h.now r.world).1 },
      ⟨r.records.putExecution { e with lastUpdated := (h.now r.world).1 }, w⟩) := by
    simp only [updateExecution, present, if_true, flushed]
  exact ⟨_, _, updated, left⟩

theorem addStep_writes (writes : h.Writes good) (fine : good r.world) {s : StepExecution}
    (present : r.records.hasExecution s.jobExecutionId = true) :
    ∃ t r', addStep h s r = (.ok (), t, r') ∧ good r'.world := by
  obtain ⟨w, flushed, left⟩ := flush_writes writes
    (r := ⟨(r.records.appendStep { s with lastUpdated := (h.now r.world).1 }).2,
      (h.now r.world).2⟩) (writes.now _ fine)
  have added : addStep h s r = (.ok (),
      (r.records.appendStep { s with lastUpdated := (h.now r.world).1 }).1,
      ⟨(r.records.appendStep { s with lastUpdated := (h.now r.world).1 }).2, w⟩) := by
    simp only [addStep, present, if_true, flushed]
  exact ⟨_, _, added, left⟩

end Repository

end NestedBatch

namespace NestedBatch.Runner

open Interleaving

variable {W : Type} {h : Host W} {step : Step W} {job : String} {p : Parameters} {seed : Context}
  {r r₁ : Repository W} {parent : JobExecution}

/-- What the step is handed, where a run gets as far as that. -/
def handed? (h : Host W) (step job : String) (p : Parameters) (seed : Context)
    (r : Repository W) : Option (StepExecution × Repository W) :=
  match openParent h job p r with
  | (.error _, _) => none
  | (.ok parent, r) =>
    match Repository.addStep h (recalled h step parent seed r) ⟨r.records, (h.now r.world).2⟩ with
    | (.error _, _, _) => none
    | (.ok _, s, r) => some (s, r)

/-- Where every write succeeds, the step of a parent that is not refused is handed over. -/
theorem handed?_of_writes {good : W → Prop} (writes : h.Writes good) (fine : good r.world)
    {i : JobInstance} {made : Records}
    (found : r.records.findOrMakeInstance job p = .ok (i, made)) (name : String)
    (seed : Context) : ∃ s r', handed? h name job p seed r = some (s, r') := by
  obtain ⟨e, r₁, created, present, fine⟩ := Repository.createExecution_writes writes fine found
  obtain ⟨x, r₂, recorded, fine⟩ := Repository.updateExecution_writes writes
    (e := begun e (h.now r₁.world).1) (r := ⟨r₁.records, (h.now r₁.world).2⟩)
    (writes.now _ fine) present
  have opened : openParent h job p r = (.ok x, r₂) := by
    simp only [openParent_eq, Launch.opened, created, Launch.recordBegun, recorded]
    rfl
  obtain ⟨s, r', added, _⟩ := Repository.addStep_writes writes
    (s := recalled h name x seed r₂) (r := ⟨r₂.records, (h.now r₂.world).2⟩)
    (writes.now _ fine) (Launch.opened_ok opened).2
  exact ⟨s, r', by simp only [handed?, opened, added]⟩

/-- A parent that was made is opened, unless a write has a fault. -/
theorem opened_of_created (created : r.createExecution h job p = (.ok parent, r₁)) :
    (∃ fault, (openParent h job p r).1 = .error (.io fault)) ∨
      ∃ begun r₂, openParent h job p r = (.ok begun, r₂) ∧ begun.id = parent.id := by
  rw [openParent_eq]
  simp only [Launch.opened, created]
  cases found : r.records.findOrMakeInstance job p with
  | error fault => cases created.symm.trans (Repository.createExecution_refused h found)
  | ok admitted =>
    obtain ⟨answer, w, made, saved⟩ := Repository.createExecution_admitted h found
    cases created.symm.trans made
    rcases saved with done | ⟨fault, unsaved⟩
    · cases done
      obtain ⟨now, updated, answer, w', recorded, saved⟩ := Launch.recordBegun_present h
        (r := ⟨(admitted.2.newExecution admitted.1 p (h.now r.world).1).2, w⟩)
        (admitted.2.hasExecution_withNewest
          (admitted.2.newExecution admitted.1 p (h.now r.world).1).1)
      rw [recorded]
      rcases saved with rfl | ⟨fault, rfl⟩
      · exact Or.inr ⟨_, _, rfl, rfl⟩
      · exact Or.inl ⟨fault, rfl⟩
    · cases unsaved

/-- A run depends on its step only where something is handed to it. -/
theorem run_congr (step : Step W)
    {execute : StepExecution → Repository W → StepExecution × Repository W}
    (same : ∀ s r', handed? h step.name job p seed r = some (s, r') →
      execute s r' = step.execute s r') :
    run h { step with execute } job p seed r = run h step job p seed r := by
  rw [run_eq, run_eq]
  simp only [handed?] at same
  rcases opened : openParent h job p r with ⟨_ | parent, r₁⟩
  · rfl
  · rw [opened] at same
    dsimp only at same ⊢
    rcases added : Repository.addStep h (recalled h step.name parent seed r₁)
      ⟨r₁.records, (h.now r₁.world).2⟩ with ⟨_ | _, s, r₂⟩
    · rfl
    · rw [added] at same
      simp only [same s r₂ rfl]

/-- What was handed over is executed, and the run ends with what is left of it. -/
theorem run_of_handed (step : Step W) {s : StepExecution} {r' : Repository W}
    (handed : handed? h step.name job p seed r = some (s, r')) :
    ∃ parent, run h step job p seed r = concludeParent h
      (recordStep h parent (step.execute s r').1 (step.execute s r').2) := by
  have ran := run_eq (h := h) step job p seed r
  simp only [handed?] at handed
  rcases opened : openParent h job p r with ⟨_ | parent, r₁⟩
  · rw [opened] at handed
    cases handed
  · rw [opened] at handed ran
    dsimp only at handed ran
    rcases added : Repository.addStep h (recalled h step.name parent seed r₁)
      ⟨r₁.records, (h.now r₁.world).2⟩ with ⟨_ | _, s', r₂⟩
    · rw [added] at handed
      cases handed
    · rw [added] at handed ran
      cases handed
      exact ⟨parent, ran⟩

/-- How a run ends: with the outcome of its step, which its parent has taken over, and
with the records as they were last saved. -/
structure Concluded (h : Host W) (parent : JobExecution) (left : StepExecution)
    (ended : Except BatchError StepExecution × Repository W) : Prop where
  answer : ∃ t, ended.1 = .ok t ∧ t.status = left.status ∧ t.exitStatus = left.exitStatus
  stored : ∃ x, ended.2.records.execution? parent.id = some x ∧
    x.status = Status.started.upgradeTo left.status ∧ x.exitStatus = left.exitStatus
  saved : ∃ w, h.save ended.2.records w = (none, ended.2.world)

theorem saved_of_update {e : JobExecution} {x : JobExecution} {r r' : Repository W}
    (updated : Repository.updateExecution h e r = (.ok (), x, r')) :
    ∃ w, h.save r'.records w = (none, r'.world) := by
  simp only [Repository.updateExecution] at updated
  split at updated
  · simp only [Repository.flush] at updated
    split at updated
    · cases updated
    · rename_i w saved
      cases updated
      exact ⟨_, saved⟩
  · cases updated

/-- What a step left is recorded, and its parent tells it, unless a write has a fault. -/
theorem concluded_of_left (left : StepExecution) (new : Launch.IsNew parent)
    (present : r.records.hasStep left.id = true)
    (there : r.records.hasExecution parent.id = true) :
    (∃ fault, (concludeParent h (recordStep h parent left r)).1 = .error (.io fault)) ∨
      Concluded h parent left (concludeParent h (recordStep h parent left r)) := by
  have tells := conclude_recordStep (h := h) left new there
  rcases recordStep_cases (h := h) left present there with
    ⟨fault, x, r', unsaved⟩ | ⟨t, now, v, e, v', x, r', ends, rfl, _, closed⟩
  · simp only [unsaved, concludeParent]
    exact Or.inl ⟨fault, rfl⟩
  · simp only [ends, concludeParent] at tells ⊢
    obtain ⟨x, stored, _, _, _, status, exitStatus, _⟩ := tells
    refine Or.inr ⟨⟨_, rfl, rfl, rfl⟩, ⟨x, stored, status, exitStatus⟩, ?_⟩
    exact saved_of_update closed

/-- A run whose parent was opened hands over its step, and takes over what comes of it. -/
theorem concluded_of_opened (step : Step W)
    (calls : ∀ s r, Records.Calls r.records (step.execute s r).2.records)
    (id : ∀ s r, (step.execute s r).1.id = s.id) (opened : openParent h job p r = (.ok parent, r₁))
    (unfaulted : ∀ fault, (run h step job p seed r).1 ≠ .error (.io fault)) :
    ∃ s r₂, handed? h step.name job p seed r = some (s, r₂) ∧
      Concluded h parent (step.execute s r₂).1 (run h step job p seed r) := by
  obtain ⟨new, there⟩ := Launch.opened_ok opened
  obtain ⟨answer, s, w, added, began, saved⟩ := Repository.addStep_present h
    (s := recalled h step.name parent seed r₁) (r := ⟨r₁.records, (h.now r₁.world).2⟩) there
  have ran := run_eq (h := h) step job p seed r
  simp only [opened, added] at ran
  rcases saved with rfl | ⟨fault, rfl⟩
  · refine ⟨s, ⟨(r₁.records.appendStep s).2, w⟩, by simp only [handed?, opened, added], ?_⟩
    have stored : (r₁.records.appendStep s).2.hasStep s.id = true := by
      simp [Records.hasStep, Records.appendStep, began]
    have executes := calls s ⟨(r₁.records.appendStep s).2, w⟩
    rw [ran] at unfaulted ⊢
    refine (concluded_of_left _ new ?_ ?_).resolve_left ?_
    · rw [id]
      exact executes.hasStep stored
    · exact executes.hasExecution there
    · rintro ⟨fault, unsaved⟩
      exact unfaulted fault unsaved
  · exact absurd (congrArg Prod.fst ran) (unfaulted fault)

end NestedBatch.Runner

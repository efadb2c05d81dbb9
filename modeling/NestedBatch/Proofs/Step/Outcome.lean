import NestedBatch.Proofs.Step.Nested

/-! What one attempt of a nested step makes of its step execution. A child that came to
its end hands up its outcome, and whatever kept it from that is told as a failure.
Everything else stays as it was. -/
namespace NestedBatch

variable {W : Type} {h : Host W}

/-- A text that was put in a context is found there, whatever was there before. -/
theorem Context.get?_put_string (c : Context) (key text : String) :
    (c.put key (.string text)).get? key = some (.string text) := by
  rcases c.put_cases key (.string text) with ⟨kept, held, there, same⟩ | ⟨filed, _⟩
  · rw [kept, there]
    cases held <;> simp [ContextValue.agrees] at same
    rw [same]
  · rw [filed, get?, KeyMap.get?_insert, if_pos rfl]

namespace Launch

theorem isRunning_settled (s : Status) : (settled s).isRunning = false := by
  cases s <;> rfl

theorem status_closed_none (h : Host W) (e : JobExecution) (w : W) :
    (closed h e none w).1.status = settled e.status := by
  simp only [closed]
  split <;> rfl

theorem isRunning_of_finish {e child : JobExecution} {fault : Option String} {r : Repository W}
    (answered : (finish h e fault r).1 = .ok child) : child.status.isRunning = false := by
  cases fault with
  | some message => cases answered
  | none =>
    obtain ⟨now, copy, _⟩ := Repository.updateExecution_effect h (closed h e none r.world).1
      ⟨r.records, (closed h e none r.world).2⟩
    simp only [finish] at answered
    cases saved : (Repository.updateExecution h (closed h e none r.world).1
        ⟨r.records, (closed h e none r.world).2⟩).1 with
    | error e =>
      rw [saved] at answered
      cases answered
    | ok done =>
      rw [saved] at answered
      cases answered
      rw [copy]
      dsimp only
      rw [status_closed_none]
      exact isRunning_settled e.status

/-- No launcher answers with a child that is still under way. -/
theorem isRunning_of_run {launcher : Launcher} {job : Job W} {p : Parameters} {r : Repository W}
    {child : JobExecution} (answered : (run h launcher job p r).1 = .ok child) :
    child.status.isRunning = false := by
  simp only [run] at answered
  split at answered
  · cases answered
  · exact isRunning_of_finish answered

end Launch

/-- The outcome of a child that has ended: its status, and an exit status of its own
only if it completed. -/
theorem JobExecution.stepOutcome_of_ended {child : JobExecution}
    (ended : child.status.isRunning = false) :
    child.stepOutcome = (child.status,
      if child.status = .completed ∧ child.exitStatus.isCustom = true then child.exitStatus
      else .ofStatus child.status) := by
  simp only [stepOutcome]
  cases status : child.status with
  | starting | started | stopping =>
    rw [status] at ended
    cases ended
  | completed =>
    simp only [true_and]
    split <;> rfl
  | failed | stopped | abandoned | unknown => rfl

namespace NestedStep

/-- The step execution after an attempt that was answered so for its child. -/
structure Folded (answer : Except BatchError JobExecution) (s after : StepExecution) : Prop where
  startTime : after.startTime.isSome = true
  endTime : after.endTime.isSome = true
  ended : after.status.isRunning = false
  outcome : ∀ child, answer = .ok child → after.status = child.status ∧
    after.exitStatus = (if child.status = .completed ∧ child.exitStatus.isCustom = true
      then child.exitStatus else .ofStatus child.status) ∧
    after.failures = s.failures
  failure : ∀ e, answer = .error e → after.status = .failed ∧
    after.exitStatus = ⟨"FAILED", e.message⟩ ∧
    ∃ now, after.failures = s.failures ++ [⟨e.kind, e.message, now⟩]

/-- What no attempt touches of its step execution. -/
structure Untouched (s after : StepExecution) : Prop where
  id : after.id = s.id
  stepName : after.stepName = s.stepName
  jobExecutionId : after.jobExecutionId = s.jobExecutionId
  jobInstanceId : after.jobInstanceId = s.jobInstanceId
  jobName : after.jobName = s.jobName
  jobParameters : after.jobParameters = s.jobParameters
  context : ∀ key, key ≠ stepTypeKey → key ≠ parametersKey →
    after.context.get? key = s.context.get? key

theorem isRunning_of_launchChild {n : NestedStep W} {s : StepExecution} {r : Repository W}
    {child : JobExecution} (answered : (n.launchChild h s r).1 = .ok child) :
    child.status.isRunning = false := by
  simp only [launchChild] at answered
  split at answered
  · cases answered
  · exact Launch.isRunning_of_run answered

theorem get?_resolve (n : NestedStep W) (s : StepExecution) {key : String}
    (other : key ≠ parametersKey) : (n.resolve s).2.context.get? key = s.context.get? key := by
  simp only [resolve]
  split
  · rfl
  · split
    · rfl
    · exact Context.get?_put_of_ne _ (Ne.symm other) _

/-- The child of an attempt, launched or not, with the step execution and the repository
as they are then. -/
def launched (n : NestedStep W) (h : Host W) (s : StepExecution) (r : Repository W) :
    Except BatchError JobExecution × StepExecution × Repository W :=
  n.launchChild h (begun s (h.now r.world).1) ⟨r.records, (h.now r.world).2⟩

/-- What an attempt makes of the outcome of its child: it is folded into the step
execution, and the attempt has come to its end. -/
def conclude (h : Host W) (t : StepExecution)
    (child : Except BatchError JobExecution × Repository W) : StepExecution × Repository W :=
  let (t, w) := fold h child.1 t child.2.world
  let (now, w) := h.now w
  ({ t with endTime := some now, lastUpdated := now }, ⟨child.2.records, w⟩)

theorem execute_of_launched (n : NestedStep W) (h : Host W) (s : StepExecution)
    (r : Repository W) :
    n.execute h s r = conclude h (n.launched h s r).2.1
      ((n.launched h s r).1, (n.launched h s r).2.2) := rfl

variable {n : NestedStep W} {s t : StepExecution} {r : Repository W} {q : Parameters}

theorem launched_of_resolved (resolved : n.resolve (begun s (h.now r.world).1) = (.ok q, t)) :
    n.launched h s r = ((Launch.run h n.launcher n.job q ⟨r.records, (h.now r.world).2⟩).1, t,
      (Launch.run h n.launcher n.job q ⟨r.records, (h.now r.world).2⟩).2) := by
  simp only [launched, launchChild, resolved]

theorem launched_of_unresolved {e : BatchError}
    (failed : n.resolve (begun s (h.now r.world).1) = (.error e, t)) :
    n.launched h s r = (.error e, t, ⟨r.records, (h.now r.world).2⟩) := by
  simp only [launched, launchChild, failed]

/-- The answer for the child is that of its launch, which leaves the repository as it is
then, or the error for which there was none. -/
theorem launched_answer (n : NestedStep W) (h : Host W) (s : StepExecution)
    (r : Repository W) :
    ((n.launched h s r).1, (n.launched h s r).2.2)
      = match (n.resolve (begun s (h.now r.world).1)).1 with
        | .ok q => Launch.run h n.launcher n.job q ⟨r.records, (h.now r.world).2⟩
        | .error e => (.error e, ⟨r.records, (h.now r.world).2⟩) := by
  rcases resolved : n.resolve (begun s (h.now r.world).1) with ⟨e | q, t⟩
  · rw [launched_of_unresolved resolved]
  · rw [launched_of_resolved resolved]

theorem folded_fold (h : Host W) {answer : Except BatchError JobExecution}
    {s before : StepExecution} (failures : s.failures = before.failures)
    (started : s.startTime.isSome = true)
    (ended : ∀ child, answer = .ok child → child.status.isRunning = false) (w : W)
    (now : Instant) :
    Folded answer before
      { (fold h answer s w).1 with endTime := some now, lastUpdated := now } := by
  cases answer with
  | ok child =>
    have idle := ended child rfl
    simp only [fold, JobExecution.stepOutcome_of_ended idle]
    constructor
    · exact started
    · rfl
    · exact idle
    · intro other same
      cases same
      exact ⟨rfl, rfl, failures⟩
    · intro e other
      cases other
  | error e =>
    constructor
    · exact started
    · rfl
    · rfl
    · intro child other
      cases other
    · intro other same
      cases same
      exact ⟨rfl, rfl, _, congrArg (· ++ [_]) failures⟩

theorem folded_execute (n : NestedStep W) (h : Host W) (s : StepExecution) (r : Repository W) :
    Folded (n.launched h s r).1 s (n.execute h s r).1 := by
  obtain ⟨context, resolved⟩ := n.resolve_frame (begun s (h.now r.world).1)
  have left : (n.launched h s r).2.1 = { begun s (h.now r.world).1 with context } :=
    (n.launchChild_step h _ _).trans resolved
  have failures : (n.launched h s r).2.1.failures = s.failures := by rw [left]; rfl
  have started : (n.launched h s r).2.1.startTime.isSome = true := by rw [left]; rfl
  exact folded_fold h failures started (fun child => isRunning_of_launchChild) _ _

theorem untouched_execute (n : NestedStep W) (h : Host W) (s : StepExecution)
    (r : Repository W) : Untouched s (n.execute h s r).1 := by
  obtain ⟨_, _, _, _, _, left⟩ := n.execute_frame h s r
  rw [left]
  constructor
  case context =>
    intro key noType noParameters
    exact (n.get?_resolve _ noParameters).trans
      (Context.get?_put_of_ne _ (Ne.symm noType) _)
  all_goals rfl

/-- One attempt takes over the whole outcome of its child, or tells why there is none,
and touches nothing else: of its step execution only the two marks in the context, of
the repository nothing that the launch did not, but for looking at the clock. What it takes
over is what the launch answered, or the error of parameters that could not be resolved. -/
theorem attempt_folds_child (n : NestedStep W) (h : Host W) (s : StepExecution)
    (r : Repository W) :
    Folded (n.launched h s r).1 s (n.execute h s r).1 ∧ Untouched s (n.execute h s r).1 ∧
      ((n.execute h s r).1.context.get? stepTypeKey = some (.string stepType) ∧
        kept? (n.execute h s r).1
          = (n.resolve (begun s (h.now r.world).1)).1.toOption) ∧
      ((n.launched h s r).1, (n.launched h s r).2.2)
        = (match (n.resolve (begun s (h.now r.world).1)).1 with
          | .ok q => Launch.run h n.launcher n.job q ⟨r.records, (h.now r.world).2⟩
          | .error e => (.error e, ⟨r.records, (h.now r.world).2⟩)) ∧
      ∃ ticks, (n.execute h s r).2 = ⟨(n.launched h s r).2.2.records,
        (fun w => (h.now w).2)^[ticks] (n.launched h s r).2.2.world⟩ := by
  refine ⟨n.folded_execute h s r, n.untouched_execute h s r, ⟨?_, ?_⟩,
    n.launched_answer h s r, ?_⟩
  · obtain ⟨_, _, _, _, _, left⟩ := n.execute_frame h s r
    have differ : stepTypeKey ≠ parametersKey := by decide
    rw [left]
    exact (n.get?_resolve _ differ).trans (Context.get?_put_string _ _ _)
  · obtain ⟨_, _, _, _, _, left⟩ := n.execute_frame h s r
    rw [left, ← n.kept?_resolve]
    rfl
  · have executed : (n.execute h s r).2 = ⟨(n.launched h s r).2.2.records,
        (h.now (fold h (n.launched h s r).1 (n.launched h s r).2.1
          (n.launched h s r).2.2.world).2).2⟩ := rfl
    rw [executed]
    cases (n.launched h s r).1 with
    | ok child => exact ⟨1, rfl⟩
    | error e => exact ⟨2, rfl⟩

end NestedStep

end NestedBatch

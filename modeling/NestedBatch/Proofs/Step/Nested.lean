import NestedBatch.Proofs.Context.Put
import NestedBatch.Proofs.Runner.Attempts

/-! One attempt of a nested step. The parameters of the child are the ones that the
context keeps, or extracted ones, which the context keeps from then on. -/
namespace NestedBatch

variable {W : Type} {a : Site}

/-- Parameters can be put where there are none, also over a value of another kind. -/
theorem Context.parameters?_put {c : Context} {key : String} (absent : c.parameters? key = none)
    (p : Parameters) : (c.put key (.parameters p)).parameters? key = some p := by
  rcases c.put_cases key (.parameters p) with ⟨_, held, there, same⟩ | ⟨filed, _⟩
  · cases held with
    | parameters q => simp [parameters?, there] at absent
    | _ => simp [ContextValue.agrees] at same
  · simp only [filed, parameters?, get?, KeyMap.get?_insert, if_true]

namespace Launch

/-- Whether or not a launch is refused, there is an instance for it afterwards. -/
theorem instance?_start (h : Host W) (job : Job W) (p : Parameters) {r : Repository W}
    (numbered : r.records.Numbered) :
    ∃ i, (start h job p r).2.records.instance? job.name p.jobKey = some i := by
  cases checked : preflight job (r.records.lastExecution? job.name p) with
  | error e =>
    simp only [start, checked]
    cases there : r.records.instance? job.name p.jobKey with
    | some i => exact ⟨i, rfl⟩
    | none => simp [Records.lastExecution?, there, preflight] at checked
  | ok _ =>
    cases found : r.records.findOrMakeInstance job.name p with
    | error e =>
      obtain ⟨i, _, there, _⟩ := Records.findOrMakeInstance_error found
      simp only [start_eq, checked, opened_refused h found]
      exact ⟨i, there⟩
    | ok admitted =>
      obtain ⟨x, started⟩ := start_admitted h numbered checked found
      rw [started.records]
      exact ⟨admitted.1, (Records.instance?_made found).2⟩

/-- An execution that a launch has begun is recorded with the parameters of the launch, as
one of the instance that these name. -/
theorem begun_start {h : Host W} {job : Job W} {p : Parameters} {r r' : Repository W}
    {e : JobExecution} {i : JobInstance} (numbered : r.records.Numbered)
    (begins : start h job p r = (.ok e, r'))
    (there : r'.records.instance? job.name p.jobKey = some i) :
    e ∈ r'.records.executions ∧ e.jobParameters = p ∧ e.jobInstanceId = i.id := by
  obtain ⟨j, made, found, started, _, parameters⟩ := started_of_ok numbered begins
  have records : r'.records = made.withNewest e := started.records
  have named : r'.records.instance? job.name p.jobKey = some j :=
    records ▸ (Records.instance?_made found).2
  obtain rfl : j = i := Option.some.inj (named.symm.trans there)
  refine ⟨?_, parameters, started.jobInstanceId⟩
  rw [records]
  exact List.mem_append_right _ (List.mem_singleton_self e)

/-- What a launch goes on to do leaves the instance that there was when it began. -/
theorem instance?_run (h : Host W) (launcher : Launcher) {job : Job W} (spares : job.Spares a)
    {p : Parameters} {r : Repository W} {i : JobInstance}
    (there : (start h job p r).2.records.instance? job.name p.jobKey = some i) :
    (run h launcher job p r).2.records.instance? job.name p.jobKey = some i := by
  simp only [run]
  generalize start h job p r = started at there ⊢
  obtain ⟨_ | e, r'⟩ := started
  · exact there
  · have performs := leaves_perform spares launcher e r'
    exact (performs.trans (leaves_finish h _ _ _)).calls.instance? there

end Launch

namespace NestedStep

variable {h : Host W} {n : NestedStep W} {s : StepExecution} {r : Repository W} {q : Parameters}

/-- The step execution as its parameters are resolved from it. -/
def begun (s : StepExecution) (now : Instant) : StepExecution :=
  { s with
    status := .started
    startTime := some now
    context := s.context.put stepTypeKey (.string stepType) }

/-- The parameters that the context of a step execution keeps for the child. -/
def kept? (s : StepExecution) : Option Parameters := s.context.parameters? parametersKey

theorem kept?_begun (s : StepExecution) (now : Instant) : kept? (begun s now) = kept? s := by
  have differ : stepTypeKey ≠ parametersKey := by decide
  simp only [kept?, begun, Context.parameters?, Context.get?_put_of_ne _ differ]

theorem resolve_of_kept (n : NestedStep W) (there : kept? s = some q) :
    n.resolve s = (.ok q, s) := by
  simp only [resolve, show s.context.parameters? parametersKey = some q from there]

theorem resolve_of_none (n : NestedStep W) (absent : kept? s = none) :
    (n.resolve s).1.toOption = (n.derive s).toOption := by
  simp only [resolve, show s.context.parameters? parametersKey = none from absent]
  cases n.derive s <;> rfl

theorem resolve_of_derived (absent : kept? s = none) (derived : n.derive s = .ok q) :
    (n.resolve s).1 = .ok q := by
  unfold kept? at absent
  simp only [resolve, absent, derived]

/-- Whatever parameters an attempt gets are kept for the next one. -/
theorem kept?_resolve (n : NestedStep W) (s : StepExecution) :
    kept? (n.resolve s).2 = (n.resolve s).1.toOption := by
  cases there : kept? s with
  | some q =>
    rw [n.resolve_of_kept there]
    exact there
  | none =>
    have absent : s.context.parameters? parametersKey = none := there
    simp only [resolve, absent]
    cases n.derive s with
    | error fault => exact there
    | ok p => exact Context.parameters?_put absent p

theorem launchChild_step (n : NestedStep W) (h : Host W) (s : StepExecution) (r : Repository W) :
    (n.launchChild h s r).2.1 = (n.resolve s).2 := by
  simp only [launchChild]
  rcases n.resolve s with ⟨_ | p, s'⟩ <;> rfl

/-- A child is launched with the parameters that were resolved, and only then. -/
theorem launchChild_repository (n : NestedStep W) (h : Host W) (s : StepExecution)
    (r : Repository W) :
    (n.launchChild h s r).2.2 = match (n.resolve s).1.toOption with
      | some q => (Launch.run h n.launcher n.job q r).2
      | none => r := by
  simp only [launchChild]
  rcases n.resolve s with ⟨_ | p, s'⟩ <;> rfl

theorem fold_frame (h : Host W) (child : Except BatchError JobExecution) (s : StepExecution)
    (w : W) :
    ∃ status exitStatus failures,
      (fold h child s w).1 = { s with status, exitStatus, failures } := by
  cases child <;> exact ⟨_, _, _, rfl⟩

theorem resolve_frame (n : NestedStep W) (s : StepExecution) :
    ∃ context, (n.resolve s).2 = { s with context } := by
  simp only [resolve]
  split
  · exact ⟨s.context, rfl⟩
  · split <;> exact ⟨_, rfl⟩

/-- What an attempt leaves of its step execution: all but its outcome stays, with the
context in which the parameters were resolved. -/
theorem execute_frame (n : NestedStep W) (h : Host W) (s : StepExecution) (r : Repository W) :
    ∃ status exitStatus failures endTime lastUpdated,
      (n.execute h s r).1 = { begun s (h.now r.world).1 with
        context := (n.resolve (begun s (h.now r.world).1)).2.context
        status, exitStatus, failures, endTime, lastUpdated } := by
  let launched := n.launchChild h (begun s (h.now r.world).1) ⟨r.records, (h.now r.world).2⟩
  let folded := fold h launched.1 launched.2.1 launched.2.2.world
  obtain ⟨context, resolved⟩ := n.resolve_frame (begun s (h.now r.world).1)
  obtain ⟨status, exitStatus, failures, outcome⟩ :=
    fold_frame h launched.1 launched.2.1 launched.2.2.world
  have step : launched.2.1 = { begun s (h.now r.world).1 with context } :=
    (n.launchChild_step h _ _).trans resolved
  have executed : (n.execute h s r).1 = { folded.1 with
      endTime := some (h.now folded.2).1, lastUpdated := (h.now folded.2).1 } := rfl
  refine ⟨status, exitStatus, failures, some (h.now folded.2).1, (h.now folded.2).1, ?_⟩
  rw [executed, show folded.1 = _ from outcome, step, resolved]

theorem execute_records (n : NestedStep W) (h : Host W) (s : StepExecution) (r : Repository W) :
    (n.execute h s r).2.records
      = match (n.resolve (begun s (h.now r.world).1)).1.toOption with
        | some q => (Launch.run h n.launcher n.job q ⟨r.records, (h.now r.world).2⟩).2.records
        | none => r.records := by
  have records : (n.execute h s r).2.records
      = (n.launchChild h (begun s (h.now r.world).1)
          ⟨r.records, (h.now r.world).2⟩).2.2.records := rfl
  rw [records, launchChild_repository]
  split <;> rfl

theorem leaves_execute (n : NestedStep W) (spares : n.job.Spares a) (h : Host W)
    (s : StepExecution) (r : Repository W) :
    Records.Leaves a r.records (n.execute h s r).2.records := by
  rw [execute_records]
  split
  · exact Launch.leaves_run h n.launcher spares _ ⟨r.records, (h.now r.world).2⟩
  · exact .refl r.records

theorem spares_toStep (n : NestedStep W) (spares : n.job.Spares a) (h : Host W) :
    (n.toStep h).Spares a := by
  refine ⟨fun s r => ?_, fun s r => ?_, fun s r => ?_, n.leaves_execute spares h⟩ <;>
    obtain ⟨_, _, _, _, _, left⟩ := n.execute_frame h s r <;>
    simp only [toStep, left, begun]

end NestedStep

end NestedBatch

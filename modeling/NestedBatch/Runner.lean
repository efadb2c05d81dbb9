import NestedBatch.Step.Basic

/-! Running one step as the only step of a parent job. The step gets the context
of its last attempt if that one did not complete, and its outcome is recorded. -/
namespace NestedBatch.Runner

variable {W : Type}

def initialContext (previous : Option StepExecution) (seed : Context) : Context :=
  match previous with
  | some s => if s.status = .completed then seed else s.context
  | none => seed

def absorb (parent : JobExecution) (s : StepExecution) (now : Instant) : JobExecution :=
  { parent.upgradeStatus s.status with
    exitStatus := s.exitStatus
    failures := parent.failures ++ s.failures
    endTime := some now
    steps := parent.steps ++ [s] }

/-- Runs the step under a started parent. Where a record cannot be written, the
parent is given back as far as it had come. -/
def runStep (h : Host W) (step : Step W) (parent : JobExecution) (seed : Context)
    (r : Repository W) : Except BatchError StepExecution × JobExecution × Repository W :=
  let (now, w) := h.now r.world
  let s := parent.newStep step.name now
  let previous := r.records.lastStep? parent.jobInstanceId step.name
  let s := { s with context := initialContext previous seed }
  match Repository.addStep h s ⟨r.records, w⟩ with
  | (.error e, _, r) => (.error e, parent, r)
  | (.ok _, s, r) =>
    let (s, r) := step.execute s r
    match Repository.updateStep h s r with
    | (.error e, _, r) => (.error e, parent, r)
    | (.ok _, s, r) =>
      let (now, w) := h.now r.world
      let parent := absorb parent s now
      match Repository.updateExecution h parent ⟨r.records, w⟩ with
      | (.error e, parent, r) => (.error e, parent, r)
      | (.ok _, parent, r) => (.ok s, parent, r)

def failedParent (parent : JobExecution) (e : BatchError) (recorded ended : Instant) :
    JobExecution :=
  { (parent.upgradeStatus .failed).addFailure (e.cause recorded) with
    exitStatus := .failedWith e.message
    endTime := some ended }

/-- Closes the parent as failed. Whether that can be saved makes no difference. -/
def closeFailed (h : Host W) (parent : JobExecution) (e : BatchError) (r : Repository W) :
    Repository W :=
  let (recorded, w) := h.now r.world
  let (ended, w) := h.now w
  let (_, _, r) :=
    Repository.updateExecution h (failedParent parent e recorded ended) ⟨r.records, w⟩
  r

def openParent (h : Host W) (job : String) (parameters : Parameters) (r : Repository W) :
    Except BatchError JobExecution × Repository W :=
  match r.createExecution h job parameters with
  | (.error e, r) => (.error e, r)
  | (.ok parent, r) =>
    let (now, w) := h.now r.world
    let parent := { parent with status := .started, startTime := some now }
    let (saved, parent, r) := Repository.updateExecution h parent ⟨r.records, w⟩
    (saved.map fun _ => parent, r)

def run (h : Host W) (step : Step W) (job : String) (parameters : Parameters) (seed : Context)
    (r : Repository W) : Except BatchError StepExecution × Repository W :=
  match openParent h job parameters r with
  | (.error e, r) => (.error e, r)
  | (.ok parent, r) =>
    match runStep h step parent seed r with
    | (.ok s, _, r) => (.ok s, r)
    | (.error e, parent, r) => (.error e, closeFailed h parent e r)

end NestedBatch.Runner

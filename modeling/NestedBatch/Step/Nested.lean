import NestedBatch.Launch
import NestedBatch.Step.Basic
import NestedBatch.Step.Extraction
import NestedBatch.Step.Outcome

/-! A step that runs a whole job. The parameters of the child are made once and
kept in the context of the step, so that a later attempt launches the child with
the same parameters and so restarts the same instance. -/
namespace NestedBatch

structure NestedStep (W : Type) where
  name : String
  job : Job W
  launcher : Launcher
  /-- Makes the parameters of the child where none are kept, or fails with any error. -/
  derive : StepExecution → Except BatchError Parameters

namespace NestedStep

variable {W : Type}

def parametersKey : String := "jobstep.JobStep.JOB_PARAMETERS"

/-- The context key that tells what kind of step wrote the context. -/
def stepTypeKey : String := "jobstep.Step.STEP_TYPE"

def stepType : String := "jobstep.JobStep"

/-- The parameters for this attempt: those kept in the context, or new ones, which are then kept. -/
def resolve (n : NestedStep W) (s : StepExecution) :
    Except BatchError Parameters × StepExecution :=
  match s.context.parameters? parametersKey with
  | some kept => (.ok kept, s)
  | none =>
    match n.derive s with
    | .error e => (.error e, s)
    | .ok p => (.ok p, { s with context := s.context.put parametersKey (.parameters p) })

def launchChild (n : NestedStep W) (h : Host W) (s : StepExecution) (r : Repository W) :
    Except BatchError JobExecution × StepExecution × Repository W :=
  match n.resolve s with
  | (.error e, s) => (.error e, s, r)
  | (.ok p, s) =>
    let (child, r) := Launch.run h n.launcher n.job p r
    (child, s, r)

/-- Takes over the outcome of a child, or records why there is none. -/
def fold (h : Host W) (child : Except BatchError JobExecution) (s : StepExecution) (w : W) :
    StepExecution × W :=
  match child with
  | .ok child =>
    let (status, exitStatus) := child.stepOutcome
    ({ s with status, exitStatus }, w)
  | .error e =>
    let (now, w) := h.now w
    ({ s.addFailure (e.cause now) with status := .failed, exitStatus := .failedWith e.message }, w)

/-- Launches the child and takes over its outcome. A refused launch or a faulty
child leaves the step failed, with the error among its failures. -/
def execute (n : NestedStep W) (h : Host W) (s : StepExecution) (r : Repository W) :
    StepExecution × Repository W :=
  let (now, w) := h.now r.world
  let s :=
    { s with
      status := .started
      startTime := some now
      context := s.context.put stepTypeKey (.string stepType) }
  let (child, s, r) := n.launchChild h s ⟨r.records, w⟩
  let (s, w) := fold h child s r.world
  let (now, w) := h.now w
  ({ s with endTime := some now, lastUpdated := now }, ⟨r.records, w⟩)

def toStep (n : NestedStep W) (h : Host W) : Step W := ⟨n.name, n.execute h⟩

/-- What is given for a nested step that is to be built. -/
structure Plan (W : Type) where
  name : Option String
  job : Option (Job W)
  launcher : Option Launcher
  extraction : Option Extraction

namespace Plan

def missing (p : Plan W) : List StepPart :=
  (if p.job.isNone then [.job] else []) ++ (if p.launcher.isNone then [.launcher] else [])

def validate (p : Plan W) : Except BatchError Unit :=
  if p.missing.isEmpty then .ok () else .error (.missingParts (.missing p.missing))

/-- Builds the step. Its name is that of the job if none is given. -/
def build (p : Plan W) : Except BatchError (NestedStep W) :=
  match p.job, p.launcher with
  | some job, some launcher =>
    .ok ⟨p.name.getD job.name, job, launcher, (p.extraction.getD .nothing).derive⟩
  | _, _ => .error (.missingParts (.missing p.missing))

end Plan

end NestedStep

end NestedBatch

import NestedBatch.Job.Basic

/-! Launching a job: its execution is made and started, the job runs, and the
execution is closed and recorded. -/
namespace NestedBatch

inductive Launcher where
  | sameThread
  /-- As a task of its own, which is waited for. -/
  | task
  /-- As a task on a runtime that is shut down; the task is cancelled. -/
  | closedTask
  deriving DecidableEq

namespace Launch

variable {W : Type}

/-- May the job be launched, as far as the newest execution tells? -/
def preflight (job : Job W) (last : Option JobExecution) : Except BatchError Unit :=
  match last with
  | none => .ok ()
  | some e =>
    if e.isRunning then .error (.alreadyRunning job.name)
    else if !job.restartable then .error (.notRestartable (.launchedBefore job.name))
    else .ok ()

def start (h : Host W) (job : Job W) (parameters : Parameters) (r : Repository W) :
    Except BatchError JobExecution × Repository W :=
  match preflight job (r.records.lastExecution? job.name parameters) with
  | .error e => (.error e, r)
  | .ok _ =>
    match r.createExecution h job.name parameters with
    | (.error e, r) => (.error e, r)
    | (.ok e, r) =>
      let (now, w) := h.now r.world
      let e := { e with status := .started, startTime := some now }
      let (saved, e, r) := Repository.updateExecution h e ⟨r.records, w⟩
      (saved.map fun _ => e, r)

/-- Runs the body, and tells the fault if there was one. A task that breaks off
takes its changes to the execution with it: what is left is the execution as it
was handed over. -/
def perform (launcher : Launcher) (job : Job W) (e : JobExecution) (r : Repository W) :
    Option String × JobExecution × Repository W :=
  match launcher with
  | .sameThread =>
    let (ending, e, r) := job.body e r
    (ending.fault?, e, r)
  | .task =>
    match job.body e r with
    | (.panicked payload, _, r) => ((Ending.panicked payload).fault?, e, r)
    | (ending, e, r) => (ending.fault?, e, r)
  | .closedTask => (some "child job task was cancelled", e, r)

/-- The status of a job that came to its end without a fault. -/
def settled : Status → Status
  | .starting | .started => .completed
  | .stopping => .stopped
  | other => other

def concluded (e : JobExecution) : JobExecution :=
  let status := settled e.status
  { e with
    status
    exitStatus := if e.exitStatus.isRunning then .ofStatus status else e.exitStatus }

def faulted (e : JobExecution) (message : String) (now : Instant) : JobExecution :=
  let failed := ExitStatus.failedWith message
  { (e.upgradeStatus .failed).addFailure ⟨.childExecution, message, now⟩ with
    exitStatus := if e.exitStatus.isRunning then failed else e.exitStatus.and failed }

def closed (h : Host W) (e : JobExecution) (fault : Option String) (w : W) : JobExecution × W :=
  let (e, w) :=
    match fault with
    | none => (concluded e, w)
    | some message =>
      let (now, w) := h.now w
      (faulted e message now, w)
  match e.endTime with
  | some _ => (e, w)
  | none =>
    let (now, w) := h.now w
    ({ e with endTime := some now }, w)

/-- Closes the execution and records it. A fault of the job counts before one of the records. -/
def finish (h : Host W) (e : JobExecution) (fault : Option String) (r : Repository W) :
    Except BatchError JobExecution × Repository W :=
  let (e, w) := closed h e fault r.world
  let (saved, e, r) := Repository.updateExecution h e ⟨r.records, w⟩
  match fault with
  | some message => (.error (.jobFault message), r)
  | none => (saved.map fun _ => e, r)

def run (h : Host W) (launcher : Launcher) (job : Job W) (parameters : Parameters)
    (r : Repository W) : Except BatchError JobExecution × Repository W :=
  match start h job parameters r with
  | (.error e, r) => (.error e, r)
  | (.ok e, r) =>
    let (fault, e, r) := perform launcher job e r
    finish h e fault r

end Launch

end NestedBatch

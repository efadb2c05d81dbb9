import NestedBatch.Records.Basic

/-! The repository: the records in memory, together with what surrounds them.
Every change is made in memory first and then saved; if saving fails, the change
stays and the fault is the answer. -/
namespace NestedBatch

/-- What a repository needs from its surroundings: the time, and a place where
the records are saved. -/
structure Host (W : Type) where
  now : W → Instant × W
  save : Records → W → Option IoFault × W

structure Repository (W : Type) where
  records : Records
  world : W

namespace Repository

variable {W : Type}

def flush (h : Host W) (r : Repository W) : Except BatchError Unit × Repository W :=
  match h.save r.records r.world with
  | (some fault, w) => (.error (.io fault), ⟨r.records, w⟩)
  | (none, w) => (.ok (), ⟨r.records, w⟩)

/-- A new execution of the instance that job and identifying parameters name. -/
def createExecution (h : Host W) (job : String) (parameters : Parameters) (r : Repository W) :
    Except BatchError JobExecution × Repository W :=
  match r.records.findOrMakeInstance job parameters with
  | .error e => (.error e, r)
  | .ok (i, records) =>
    let (now, w) := h.now r.world
    let (e, records) := records.newExecution i parameters now
    let (saved, r) := flush h ⟨records, w⟩
    (saved.map fun _ => e, r)

/-- Records the present state of an execution. The caller's copy gets the time of it. -/
def updateExecution (h : Host W) (e : JobExecution) (r : Repository W) :
    Except BatchError Unit × JobExecution × Repository W :=
  if r.records.hasExecution e.id then
    let (now, w) := h.now r.world
    let e := { e with lastUpdated := now }
    let (saved, r) := flush h ⟨r.records.putExecution e, w⟩
    (saved, e, r)
  else (.error (.noSuchExecution e.id), e, r)

def addStep (h : Host W) (s : StepExecution) (r : Repository W) :
    Except BatchError Unit × StepExecution × Repository W :=
  if r.records.hasExecution s.jobExecutionId then
    let (now, w) := h.now r.world
    let (s, records) := r.records.appendStep { s with lastUpdated := now }
    let (saved, r) := flush h ⟨records, w⟩
    (saved, s, r)
  else (.error (.noSuchExecution s.jobExecutionId), s, r)

/-- Records the present state of a step execution. The caller's copy gets the
time of it and counts as saved, also if there is no such step. -/
def updateStep (h : Host W) (s : StepExecution) (r : Repository W) :
    Except BatchError Unit × StepExecution × Repository W :=
  let (now, w) := h.now r.world
  let s := { s with lastUpdated := now, context := s.context.clearDirty }
  if r.records.hasStep s.id then
    let (saved, r) := flush h ⟨r.records.putStep s, w⟩
    (saved, s, r)
  else (.error (.noSuchStep s.id), s, ⟨r.records, w⟩)

end Repository

end NestedBatch

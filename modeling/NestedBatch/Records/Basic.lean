import NestedBatch.BatchError

/-! The records of job instances, job executions and step executions, and the
changes that can be made to them. -/
namespace NestedBatch

structure Records where
  /-- The id that was handed out last; instances and executions share the count. -/
  nextId : Nat
  instances : List JobInstance
  executions : List JobExecution
  steps : List StepExecution
  deriving DecidableEq

namespace Records

def empty : Records := ⟨0, [], [], []⟩

instance : Inhabited Records := ⟨empty⟩

def newest {α : Type} (id : α → Nat) : List α → Option α
  | [] => none
  | a :: rest =>
    match newest id rest with
    | none => some a
    | some b => if id a ≤ id b then some b else some a

def replaceFirst {α : Type} (test : α → Bool) (new : α) : List α → List α
  | [] => []
  | a :: rest => if test a then new :: rest else a :: replaceFirst test new rest

def instance? (r : Records) (job key : String) : Option JobInstance :=
  r.instances.find? fun i => i.jobName = job && i.jobKey = key

def executionsOf (r : Records) (instanceId : Nat) : List JobExecution :=
  r.executions.filter fun e => e.jobInstanceId = instanceId

def withSteps (r : Records) (e : JobExecution) : JobExecution :=
  { e with steps := r.steps.filter fun s => s.jobExecutionId = e.id }

def hasInstance (r : Records) (job : String) (parameters : Parameters) : Bool :=
  (r.instance? job parameters.jobKey).isSome

def lastExecution? (r : Records) (job : String) (parameters : Parameters) : Option JobExecution :=
  (r.instance? job parameters.jobKey).bind fun i =>
    (newest JobExecution.id (r.executionsOf i.id)).map r.withSteps

def lastStep? (r : Records) (instanceId : Nat) (step : String) : Option StepExecution :=
  newest StepExecution.id
    (r.steps.filter fun s => s.jobInstanceId = instanceId && s.stepName = step)

def allExecutions (r : Records) : List JobExecution := r.executions.map r.withSteps

/-- The reason for which an execution of the instance stands in the way of another. -/
def obstacle? (job : String) (parameters : Parameters) (e : JobExecution) : Option BatchError :=
  if e.isRunning then some (.alreadyRunning job)
  else if (e.status = .completed ∨ e.status = .abandoned) ∧ !parameters.identifying.isEmpty then
    some (.alreadyComplete job parameters.text)
  else none

/-- Finds or makes the instance for a new execution, unless one of its
executions stands in the way. -/
def findOrMakeInstance (r : Records) (job : String) (parameters : Parameters) :
    Except BatchError (JobInstance × Records) :=
  let key := parameters.jobKey
  match r.instance? job key with
  | some i =>
    match (r.executionsOf i.id).findSome? (obstacle? job parameters) with
    | some e => .error e
    | none => .ok (i, r)
  | none =>
    let i : JobInstance := ⟨r.nextId + 1, job, key⟩
    .ok (i, { r with nextId := r.nextId + 1, instances := r.instances ++ [i] })

def newExecution (r : Records) (i : JobInstance) (parameters : Parameters) (now : Instant) :
    JobExecution × Records :=
  let e := JobExecution.create (r.nextId + 1) i parameters now
  (e, { r with nextId := r.nextId + 1, executions := r.executions ++ [e] })

def hasExecution (r : Records) (id : Nat) : Bool := r.executions.any fun e => e.id = id

def hasStep (r : Records) (id : Nat) : Bool := r.steps.any fun s => s.id = id

/-- Puts an execution in the place of the one with its id. Its steps are kept apart. -/
def putExecution (r : Records) (e : JobExecution) : Records :=
  { r with
    executions := replaceFirst (fun x => x.id = e.id) { e with steps := [] } r.executions }

def appendStep (r : Records) (s : StepExecution) : StepExecution × Records :=
  let s := { s with id := r.nextId + 1 }
  (s, { r with nextId := r.nextId + 1, steps := r.steps ++ [s] })

/-- Puts a step execution in the place of the one with its id. -/
def putStep (r : Records) (s : StepExecution) : Records :=
  { r with steps := replaceFirst (fun x => x.id = s.id) s r.steps }

end Records

end NestedBatch

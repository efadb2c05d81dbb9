import NestedBatch.Job.Basic
import NestedBatch.Machine.Basic
import NestedBatch.Step.Basic

/-! Jobs and steps that carry out a list of actions. -/
namespace NestedBatch

/-- What a scripted job does to its execution, or how it ends. -/
inductive JobAction where
  | setStatus (s : Status)
  | upgrade (s : Status)
  | setExit (e : ExitStatus)
  | markEnd
  | clearEnd
  | setId (id : Nat)
  | put (key : String) (value : ContextValue)
  | fail (kind : FailureKind) (message : String)
  /-- Record the execution; if that is refused, the job raises the error. -/
  | record
  /-- Replace the store file by a directory. -/
  | breakStore
  /-- Raise a fault: its root and the texts put around it, from the inside out. -/
  | raise (chain : List String)
  | panic (payload : Option String)

inductive StepAction where
  | setStatus (s : Status)
  | setExit (e : ExitStatus)
  | markEnd
  | setId (id : Nat)
  | setJobExecution (id : Nat)
  | put (key : String) (value : ContextValue)
  | setContext (c : Context)
  | fail (kind : FailureKind) (message : String)
  | breakStore

namespace Machine

def breakStore (store : String) (m : Machine) : Machine :=
  let files := (m.files.removeFile store).toOption.getD m.files
  { m with files := (files.makeDirectory store).toOption.getD files }

def fixStore (store : String) (m : Machine) : Machine :=
  { m with files := (m.files.removeDirectory store).toOption.getD m.files }

end Machine

def storeName : String := "store.json"

namespace JobAction

def change (a : JobAction) (e : JobExecution) (m : Machine) : JobExecution × Machine :=
  match a with
  | .setStatus s => ({ e with status := s }, m)
  | .upgrade s => (e.upgradeStatus s, m)
  | .setExit x => ({ e with exitStatus := x }, m)
  | .markEnd =>
    let (now, m) := m.now
    ({ e with endTime := some now }, m)
  | .clearEnd => ({ e with endTime := none }, m)
  | .setId id => ({ e with id }, m)
  | .put key value => ({ e with context := e.context.put key value }, m)
  | .fail kind message =>
    let (now, m) := m.now
    (e.addFailure ⟨kind, message, now⟩, m)
  | .breakStore => (e, m.breakStore storeName)
  | .record | .raise _ | .panic _ => (e, m)

def perform (h : Host Machine) :
    List JobAction → JobExecution → Repository Machine → Ending × JobExecution × Repository Machine
  | [], e, r => (.done, e, r)
  | a :: rest, e, r =>
    match a with
    | .raise chain => (.raised (": ".intercalate chain.reverse), e, r)
    | .panic payload => (.panicked payload, e, r)
    | .record =>
      match Repository.updateExecution h e r with
      | (.error error, e, r) => (.raised error.chain, e, r)
      | (.ok _, e, r) => perform h rest e r
    | a =>
      let (e, m) := a.change e r.world
      perform h rest e ⟨r.records, m⟩

end JobAction

/-- A job that carries out the first list of actions on its first run, the
second on its second, and the last one on every further run. -/
structure ScriptedJob where
  /-- Tells this job from others in the list of runs. -/
  key : String
  name : String
  restartable : Bool
  attempts : List (List JobAction)

namespace ScriptedJob

def runs (j : ScriptedJob) (m : Machine) : Nat :=
  (m.performances.filter fun p => p.script = j.key).length

def body (j : ScriptedJob) (h : Host Machine) (e : JobExecution) (r : Repository Machine) :
    Ending × JobExecution × Repository Machine :=
  let n := j.runs r.world
  let seen : Performance := ⟨j.key, j.name, n, e.id, e.status, e.jobParameters⟩
  let m := { r.world with performances := r.world.performances ++ [seen] }
  JobAction.perform h (j.attempts.getD (min n (j.attempts.length - 1)) []) e ⟨r.records, m⟩

def toJob (j : ScriptedJob) (h : Host Machine) : Job Machine := ⟨j.name, j.restartable, j.body h⟩

end ScriptedJob

namespace StepAction

def apply (a : StepAction) (s : StepExecution) (m : Machine) : StepExecution × Machine :=
  match a with
  | .setStatus status => ({ s with status }, m)
  | .setExit x => ({ s with exitStatus := x }, m)
  | .markEnd =>
    let (now, m) := m.now
    ({ s with endTime := some now }, m)
  | .setId id => ({ s with id }, m)
  | .setJobExecution id => ({ s with jobExecutionId := id }, m)
  | .put key value => ({ s with context := s.context.put key value }, m)
  | .setContext c => ({ s with context := c }, m)
  | .fail kind message =>
    let (now, m) := m.now
    (s.addFailure ⟨kind, message, now⟩, m)
  | .breakStore => (s, m.breakStore storeName)

def perform (actions : List StepAction) (s : StepExecution) (m : Machine) :
    StepExecution × Machine :=
  actions.foldl (fun p a => a.apply p.1 p.2) (s, m)

def toStep (name : String) (actions : List StepAction) : Step Machine where
  name := name
  execute s r :=
    let (s, m) := perform actions s r.world
    (s, ⟨r.records, m⟩)

end StepAction

end NestedBatch

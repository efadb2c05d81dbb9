import NestedBatch.Shell.Task

/-! Traps, the end of a process, the jobs beside it, and pipelines. -/
namespace NestedBatch.Shell.Performer

/-- Carries out the trap of the next signal, and then those that are left. -/
def stepTraps (p : Performer) : Act Unit := do
  let s ← get
  match ← Act.nextTrap with
  | none => return
  | some action =>
    modify fun t => { t with trapped := some s.code, flow := .going }
    p.runText false action.toList
    modify fun t =>
      { t with
        trapped := s.trapped
        code := if t.flow = .going then s.code else t.code
        flow := if t.flow = .going then s.flow else t.flow }
    p.runTraps

def runJobs (p : Performer) : List Nat → Act Unit
  | [] => return
  | number :: rest => do
    let s ← get
    match (s.jobs.find? fun j => j.number = number).bind Job.waiting with
    | none => p.runJobs rest
    | some (command, process) =>
      let body : Act Unit := do
        p.run false command
        p.close
      let ((), inner) := body.run ⟨process, s.system, [], false⟩
      set { s.endJob number inner.outcome with system := inner.system }
      Act.deliver
      p.runJobs rest

def runAllJobs (p : Performer) : Act Unit := do p.runJobs ((← get).jobs.map Job.number)

/-- The last trap of a process, and then the jobs that still wait. -/
def stepClose (p : Performer) : Act Unit := do
  let s ← get
  let isKilled : Bool :=
    match s.flow with
    | .killed _ => true
    | _ => false
  match s.traps.get? 0 with
  | some action =>
    unless isKilled || action = "" do
      set { s with
        flow := .going
        within := none
        trapped := some s.code
        traps := s.traps.filter fun t => t.1 ≠ 0 }
      p.runText false action.toList
      modify fun t =>
        if t.flow = .going || t.flow = .returning then { t with code := s.code } else t
  | none => pure ()
  p.runAllJobs

def waitFor (p : Performer) : List String → Attempt Nat
  | [] => do
    p.runAllJobs
    modify fun s => { s with jobs := s.jobs.map fun (j : Job) => { j with awaited := true } }
    return 0
  | words => do
    let mut code := 0
    for w in words do
      let number ← Builtin.process w
      p.runJobs [number]
      match (← get).jobs.find? fun j => j.number = number with
      | none => code := 127
      | some j =>
        Act.reportSignal j.outcome
        modify fun s => s.changeJob number fun j => { j with awaited := true }
        code := codeOf j.outcome
    return code

/-- Runs a command as a stage of a pipeline: a process whose streams lead to pipes. -/
def runStage (p : Performer) (tested : Bool) (input output : Option Nat) (command : Command) :
    Act ProcessOutcome :=
  Act.inProcess do
    if let some channel := input then Act.connect 0 channel
    if let some channel := output then Act.connect 1 channel
    p.run tested command
    p.close

/-- Runs the stages of a pipeline one after the other, each as a process that reads
what the one before has written. -/
def runStages (p : Performer) (tested : Bool) : Option Nat → List Command → Act ProcessOutcome
  | _, [] => return .exited 0
  | input, [last] => p.runStage tested input none last
  | input, first :: rest => do
    let channel ← Act.addChannel (.pipe .empty)
    let _ ← p.runStage tested input (some channel) first
    p.runStages tested (some channel) rest

end NestedBatch.Shell.Performer

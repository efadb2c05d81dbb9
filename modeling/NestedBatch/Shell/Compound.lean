import NestedBatch.Shell.Jobs
import NestedBatch.Shell.Words

/-! Compound commands: choices, loops, branches and processes that are split off. -/
namespace NestedBatch.Shell.Performer

/-- The most rounds of a loop: far more than any batch command needs. -/
def mostRounds : Nat := 300000

/-- Runs a body while a test succeeds, or as long as it fails, up to so many times.
`code` is that of the last round. -/
def runLoop (p : Performer) (tested whileTrue : Bool) (test body : Command) : Nat → Nat → Act Unit
  | 0, _ => Act.giveUp
  | rounds + 1, code => do
    p.run true test
    match ← Act.round with
    | .over => return
    | .stop => Act.setCode code
    | .again => p.runLoop tested whileTrue test body rounds code
    | .on =>
      if ((← get).code = 0) ≠ whileTrue then Act.setCode code
      else
        p.run tested body
        match ← Act.round with
        | .over | .stop => return
        | .again | .on => p.runLoop tested whileTrue test body rounds (← get).code

/-- Runs a body once for each of some values of a variable. -/
def runEach (p : Performer) (tested : Bool) (name : String) (body : Command) (code : Nat) :
    List String → Act Unit
  | [] => Act.setCode code
  | value :: rest => do
    Act.assign name value
    p.run tested body
    match ← Act.round with
    | .over | .stop => return
    | .again | .on => p.runEach tested name body (← get).code rest

def isCovered (p : Performer) (subject : List Char) : List Word → Act Bool
  | [] => return false
  | w :: rest => do
    let (pattern, _) := Pattern.ofMarked (Mark.field (← p.fillWord false false w))
    if !(← get).isGoing then return false
    else if pattern.covers subject then return true
    else p.isCovered subject rest

def runBranch (p : Performer) (tested : Bool) (subject : List Char) :
    List (List Word × Option Command) → Act Unit
  | [] => do
    if (← get).isGoing then Act.setCode 0
  | (patterns, body) :: rest => do
    let isFound ← p.isCovered subject patterns
    if !(← get).isGoing then return
    else if isFound then
      match body with
      | some body => p.run tested body
      | none => Act.setCode 0
    else p.runBranch tested subject rest

/-- Runs a command whose word stands in a loop, so that `break` and `continue` find it. -/
def inLoop (body : Act Unit) : Act Unit := do
  let s ← get
  set { s with loops := s.loops + 1 }
  body
  modify fun t => { t with loops := s.loops }

def startJob (command : Command) : Act Unit := do
  let s ← get
  let (number, system) := s.system.newProcess
  let (nothing, system) := system.add .void
  let process := { s.child number with streams := s.streams.insert 0 nothing }
  let t := s.addJob number command process.toProcess
  set { t with system, lastJob := some number, code := 0 }

/-- Ends a script that is to end at failures, if a command has failed. -/
def check (tested : Bool) : Act Unit := do
  let s ← get
  if s.has 'e' && !tested && s.code ≠ 0 && !s.isOver then Act.setFlow .ended

end NestedBatch.Shell.Performer

import NestedBatch.Shell.Builtin.Basic
import NestedBatch.Shell.Signal

/-! The builtin commands for loops, functions, processes and signals. -/
namespace NestedBatch.Shell.Builtin

def leave (again : Bool) (words : List String) : Attempt Nat := do
  let count ← (words.head?.map Attempt.number).getD (pure 1)
  if count = 0 then throw ("Illegal number: " ++ words.headD "")
  let s ← get
  let loops := min count s.loops
  if 0 < loops then Act.setFlow (.leaving loops again)
  return 0

def giveBack (words : List String) : Attempt Nat := do
  let code ←
    match words with
    | w :: _ => Attempt.number w
    | [] => pure (← get).code
  Act.setFlow .returning
  return code

def exit (words : List String) : Attempt Nat := do
  let s ← get
  let code ←
    match words with
    | w :: _ => Attempt.number w
    | [] => pure (s.trapped.getD s.code)
  Act.setFlow .ended
  return code

/-- The process that a word of `kill` or `wait` names. -/
def process (w : String) : Attempt Nat := do
  match w.toList with
  | '%' :: rest =>
    let jobs := (← get).jobs
    let found :=
      match digits? rest with
      | some n => if n = 0 then none else jobs.find? fun (j : Job) => j.slot = n
      | none => if rest = [] || rest = ['%'] || rest = ['+'] then jobs.getLast? else none
    match found with
    | some j => return j.number
    | none => throw ("No such job: " ++ w)
  | _ => Attempt.number w

/-- Sends a signal to a process, and tells whether there is such a process. -/
def send (signal target : Nat) : Act Bool := do
  let s ← get
  if target = s.number then
    if Signal.isHarmless signal then return true
    match s.traps.get? signal with
    | some "" => if signal = Signal.kill then Act.setFlow (.killed signal)
    | some _ =>
      if signal = Signal.kill then Act.setFlow (.killed signal)
      else set { s with system.signals := s.system.signals ++ [(target, signal)] }
    | none => Act.setFlow (.killed signal)
    return true
  else
    match s.jobs.find? fun j => j.number = target with
    | some j =>
      let ignored :=
        (j.waiting.any fun p => p.2.traps.get? signal = some "") && signal ≠ Signal.kill
      if j.waiting.isSome && !Signal.isHarmless signal && !ignored then
        set (s.endJob target (.killed signal))
      return true
    | none =>
      if target < s.number ∧ s.shell ≤ target ∨ target = s.parent then
        unless Signal.isHarmless signal do
          set { s with system.signals := s.system.signals ++ [(target, signal)] }
        return true
      else return false

def killUsage : String :=
  "Usage: kill [-s sigspec | -signum | -sigspec] [pid | job]... or\nkill -l [exitstatus]"

def kill (words : List String) : Attempt Nat := do
  let front := (words.headD "").toList
  let direct :=
    match front with
    | '-' :: rest => Signal.number? 1 (String.ofList rest)
    | _ => none
  let (options, targets) ←
    if direct.isSome then pure ([], words.drop 1)
    else Attempt.options [('l', false), ('s', true)] (words.length + 1) words
  if options.any fun o => o.1 = 'l' then
    match targets with
    | [] => Attempt.printLines ("0" :: Signal.names.drop 1)
    | w :: _ =>
      let n ← Attempt.number w
      Attempt.printLines [Signal.name (if 128 < n then n - 128 else n)]
    return 0
  let mut signal := direct.getD Signal.terminate
  for (_, name) in options do
    match Signal.number? 1 name with
    | some n => signal := n
    | none => throw ("invalid signal number or name: " ++ name)
  if targets.isEmpty then throw killUsage
  let mut code := 0
  for w in targets do
    let target ← process w
    unless ← send signal target do
      Act.complainOf (some "kill") "No such process\n"
      code := 1
  return code

def trap (words : List String) : Attempt Nat := do
  let (_, words) ← Attempt.plainOptions [] words
  match words with
  | [] =>
    let traps := (← get).traps.entries
    Attempt.printLines (traps.map fun t => "trap -- " ++ quotedText t.2 ++ " " ++ Signal.name t.1)
    return 0
  | first :: rest =>
    let action := if rest.isEmpty || (digits? first.toList).isSome then none else some first
    let action := if action = some "-" then none else action
    let signals := if rest.isEmpty || (digits? first.toList).isSome then words else rest
    for w in signals do
      match Signal.number? 0 w with
      | none =>
        Attempt.report ("trap: " ++ w ++ ": bad trap")
        return 1
      | some n =>
        modify fun s =>
          match action with
          | some action => { s with traps := s.traps.insert n action }
          | none => { s with traps := s.traps.filter fun t => t.1 ≠ n }
    return 0

def jobState (j : Job) : String :=
  if j.waiting.isSome then "Running"
  else
    match j.outcome with
    | .exited 0 => "Done"
    | .exited n => "Done(" ++ Numeral.natText n ++ ")"
    | .killed n => (Signal.report? n).getD "Interrupt"

/-- A line about a job. The job begun last is marked, and so is the one before it. -/
def jobLine (rank : Nat) (j : Job) : String :=
  let mark := if rank = 0 then "+" else if rank = 1 then "-" else " "
  let line := "[" ++ Numeral.natText j.slot ++ "] " ++ mark ++ " " ++ jobState j
  line.pushn ' ' (max 1 (33 - line.length))

/-- Tells of jobs, the one begun last first. Those that are done are then forgotten. -/
def jobs (words : List String) : Attempt Nat := do
  let (_, words) ← Attempt.plainOptions ['l', 'p'] words
  let numbers ← words.mapM process
  let isAsked (j : Job) : Bool := numbers.isEmpty || numbers.contains j.number
  for j in (← get).jobs.reverse do
    if isAsked j then
      let s ← get
      let rank := (s.jobs.reverse.findIdx? fun k => k.number = j.number).getD 0
      Attempt.printLines [jobLine rank j]
      unless j.waiting.isSome do
        modify fun t => { t with jobs := t.jobs.filter fun k => k.number ≠ j.number }
  return 0

def noJob (_ : List String) : Attempt Nat := throw "No current job"

end NestedBatch.Shell.Builtin

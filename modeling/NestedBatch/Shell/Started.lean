import NestedBatch.Shell.Call
import NestedBatch.Shell.Jobs
import NestedBatch.Shell.Program.Table
import NestedBatch.Shell.Reader
import NestedBatch.Shell.Redirection

/-! Programs that run others: a shell with its script, and a command in an environment
of its own. -/
namespace NestedBatch.Shell.Performer

/-- Changes the environment and runs a command in it, or shows it. -/
def runEnv (p : Performer) (words : List String) (environment : List (String × String)) :
    Act ProcessOutcome := do
  match Program.readEnv environment words with
  | .error text =>
    Program.sayUsage "env" text
    return .exited 125
  | .ok r =>
    let lines := r.vars.map fun v => (v.1 ++ "=" ++ v.2).toList ++ [r.mark]
    match r.command with
    | [] => return .exited (if (← Program.output "env" lines.flatten 0) = 0 then 0 else 125)
    | name :: arguments =>
      let s ← get
      let directory := r.directory.getD "."
      match s.files.enter (Text.decode directory.toList) with
      | .error fault =>
        Program.say "env" ("cannot change directory to '" ++ directory ++ "': " ++ fault.reason.1)
        return .exited 125
      | .ok files =>
        set { s with here := files.here }
        let path := (lookupKey "PATH" r.vars).getD "/bin:/usr/bin"
        let outcome ←
          match programOf { s with here := files.here } (some path) name with
          | .ok program => p.runProgram program name arguments r.vars
          | .error (code, reason) => do
            let denied := reason = "Permission denied"
            let reason := if reason = "not found" then IoFault.notFound.reason.1 else reason
            Program.say "env" ("'" ++ name ++ "': " ++ reason)
            pure (.exited (if denied then 126 else code))
        modify fun t => { t with here := s.here }
        return outcome

def runScript (p : Performer) : ScriptSource → Act Unit
  | .text script => p.runText false script.toList
  | .input => do
    match ← Act.readAll 0 with
    | .ok text => p.runText false text
    | .error _ => return
  | .file name => do
    match (← get).look name with
    | .ok (.file content) => p.runText false (Text.octetsOf content)
    | .ok _ => return
    | .error fault =>
      modify fun s => { s with line := 0, name := "sh" }
      Act.complain (openFault false name fault)
      modify fun t => { t with code := 2, flow := .ended }

def runShell (p : Performer) (name : String) (arguments : List String)
    (environment : List (String × String)) : Act ProcessOutcome := do
  let s ← get
  let (number, system) := s.system.newProcess
  let begun (options : List Char) (name : String) (arguments : List String) : Session :=
    { s with system }.newShell number environment name arguments options
  let body : Act Unit :=
    match shellCall name arguments with
    | .error text => do
      modify fun s => { s with line := 0, code := 2, flow := .ended }
      Act.complain text
    | .ok (options, source, name, arguments) => do
      set (begun options name arguments)
      p.runScript source
      p.close
  let ((), inner) := body.run (begun [] name [])
  set { s with system := inner.system }
  Act.deliver
  return inner.outcome

/-- Runs a program as a process of its own. Time passes while one sleeps. -/
def stepProgram (p : Performer) (program name : String) (arguments : List String)
    (environment : List (String × String)) : Act ProcessOutcome := do
  if program = "sh" then p.runShell name arguments environment
  else if program = "env" then p.runEnv arguments environment
  else
    if program = "sleep" then p.runAllJobs
    match Program.find? program with
    | some f => return .exited (← f arguments)
    | none => return .exited 127

/-- Reads a line of a text, and runs it before the next is read. -/
def stepLines (p : Performer) (tested : Bool) (text : List Char) (last code : Nat) :
    Act Unit := do
  match readLine (← get).aliases last text with
  | .finished => Act.setCode code
  | .wrong => Act.fail "Syntax error"
  | .line none rest => p.runLines tested rest last code
  | .line (some command) rest =>
    p.run tested command
    let s ← get
    if s.isGoing then p.runLines tested rest last s.code

end NestedBatch.Shell.Performer

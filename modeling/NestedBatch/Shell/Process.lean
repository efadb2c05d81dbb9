import NestedBatch.Shell.Builtin.Table

/-! How processes begin and end, and the signals between them. -/
namespace NestedBatch.Shell

namespace Session

/-- A process that is split off with another number. Only ignored signals stay so. -/
def child (s : Session) (number : Nat) : Session :=
  { s with
    number
    parent := s.number
    jobs := []
    lost := false
    lastJob := s.lastJob
    trapped := none
    traps := s.traps.filter fun t => t.2 = "" }

def firstVariables (environment : List (String × String)) (here : String) (parent : Nat) :
    Variables :=
  let own (value : String) : Variable := ⟨some value, false, false⟩
  let made : Variables :=
    [("IFS", own " \t\n"), ("PATH", own defaultPath), ("PS1", own "# "), ("PS2", own "> "),
     ("PS4", own "+ "), ("OPTIND", own "1")]
  let found := environment.filter fun v => isName v.1.toList
  let all := found.foldl (fun vs v => Variables.put vs v.1 ⟨some v.2, true, false⟩) made
  let all := (all.put "IFS" (own " \t\n")).put "OPTIND" (own "1")
  let all := all.put "PPID" (own (Numeral.natText parent))
  all.put "PWD" ⟨some here, true, false⟩

def newShell (s : Session) (number : Nat) (environment : List (String × String)) (name : String)
    (arguments : List String) (options : List Char) : Session where
  number := number
  shell := number
  parent := s.number
  vars :=
    firstVariables environment (String.ofList (Text.encode (Files.absolute s.here))) s.number
  functions := .empty
  aliases := .empty
  name := name
  arguments := arguments
  options := options
  streams := s.streams
  here := s.here
  mask := s.mask
  code := 0
  substituted := 0
  flow := .going
  traps := .empty
  trapped := none
  lastJob := none
  frames := []
  loops := 0
  depth := 0
  optionAt := (1, none)
  line := 1
  within := none
  system := s.system
  jobs := []
  lost := false

def outcome (s : Session) : ProcessOutcome :=
  match s.flow with
  | .killed n => .killed n
  | _ => .exited (s.code % 256)

end Session

/-- The exit code by which a shell knows how a process has ended. -/
def codeOf : ProcessOutcome → Nat
  | .exited n => n
  | .killed n => 128 + n

namespace Act

/-- Takes in the signals that other processes have sent: one without a trap ends the process. -/
def deliver : Act Unit := do
  let s ← get
  let mine := s.system.signals.filter fun p => p.1 = s.number
  match mine.find? fun p => (s.traps.get? p.2).isNone || p.2 = Signal.kill with
  | some (_, n) => unless s.isOver do setFlow (.killed n)
  | none => return

/-- Carries out a part of a script as a process of its own. -/
def inProcess (body : Act Unit) : Act ProcessOutcome := do
  modify fun s => s.freeSlot.2
  let s ← get
  let (number, system) := s.system.newProcess
  let ((), inner) := body.run ({ s with system }.child number)
  set { s with system := inner.system }
  deliver
  return inner.outcome

def reportSignal : ProcessOutcome → Act Unit
  | .killed n => do
    if let some text := Signal.report? n then
      let _ ← write 2 (text ++ "\n").toList
  | .exited _ => return

def settle (outcome : ProcessOutcome) : Act Unit := do
  reportSignal outcome
  setCode (codeOf outcome)

/-- The next signal with a trap, which is taken off the list. -/
def nextTrap : Act (Option String) := do
  let s ← get
  match s.system.signals.find? fun p => p.1 = s.number with
  | none => return none
  | some p =>
    set { s with system.signals := s.system.signals.erase p }
    return s.traps.get? p.2

inductive Round where
  | on
  | again
  | stop
  | over

/-- How a loop goes on, given how the commands in it have ended. -/
def round : Act Round := do
  match (← get).flow with
  | .going => return .on
  | .leaving n again =>
    if n ≤ 1 then
      setFlow .going
      return if again then .again else .stop
    else
      setFlow (.leaving (n - 1) again)
      return .stop
  | _ => return .over

end Act

end NestedBatch.Shell

import NestedBatch.Job.Command
import NestedBatch.Shell.Fields
import NestedBatch.Shell.Integer
import NestedBatch.Shell.System

/-! What a running script has at hand, and the small steps by which it changes.
A process that is split off starts with a copy of all but the shared system. -/
namespace NestedBatch.Shell

structure Variable where
  value : Option String
  /-- Is the variable handed on to programs? -/
  exported : Bool
  /-- Is it an error to change the value? -/
  fixed : Bool

abbrev Variables := List (String × Variable)

namespace Variables

def get? (vs : Variables) (name : String) : Option Variable := lookupKey name vs

/-- Replaces a variable at its place, or puts a new one at the end. -/
def put (vs : Variables) (name : String) (v : Variable) : Variables :=
  if vs.any fun p => p.1 = name then vs.map fun p => if p.1 = name then (name, v) else p
  else vs ++ [(name, v)]

def erase (vs : Variables) (name : String) : Variables := vs.filter fun p => p.1 ≠ name

/-- The place of a name in the table in whose order variables are handed on. -/
def bucket (name : String) : Nat :=
  let codes := name.toList.map Char.toNat
  (16 * codes.head?.getD 0 + codes.foldr Nat.add 0) % 39

def environment (vs : Variables) : List (String × String) :=
  let exported := vs.filterMap fun p =>
    if p.2.exported then p.2.value.map (p.1, ·) else none
  exported.mergeSort fun a b => bucket a.1 ≤ bucket b.1

end Variables

inductive Flow where
  | going
  /-- So many loops are left, or the last of them is begun again. -/
  | leaving (loops : Nat) (again : Bool)
  | returning
  /-- An error ends the script, unless it is caught. -/
  | failed
  | ended
  | killed (signal : Nat)
  deriving DecidableEq

structure Process where
  number : Nat
  /-- The process of the shell that this one was split off from. -/
  shell : Nat
  parent : Nat
  vars : Variables
  functions : KeyMap String Command
  aliases : KeyMap String (List Char)
  /-- The name of the script, and its arguments. -/
  name : String
  arguments : List String
  /-- The letters of the options that are set. -/
  options : List Char
  /-- The channels that the open streams lead to. -/
  streams : KeyMap Nat Nat
  here : List String
  /-- The permissions that new files do not get. -/
  mask : Nat
  /-- The exit code of the last command. -/
  code : Nat
  /-- The exit code of the last command whose output was filled in. -/
  substituted : Nat
  flow : Flow
  /-- What is done on a signal; the number zero stands for the end of the script. -/
  traps : KeyMap Nat String
  /-- The exit code from before the trap that is being carried out. -/
  trapped : Option Nat
  lastJob : Option Nat
  /-- The variables to be put back when a command is done, innermost first. -/
  frames : List (List (String × Option Variable))
  loops : Nat
  /-- How many functions are being carried out, one inside the other. -/
  depth : Nat
  /-- The next argument to be looked at for options, and how far it has been. -/
  optionAt : Nat × Option Nat
  line : Nat
  /-- The command or file whose text is being run, if it is not the script itself. -/
  within : Option String

/-- A command that runs beside the script. It is carried out when the script waits. -/
structure Job where
  number : Nat
  /-- Its place among the jobs, by which a script may name it. -/
  slot : Nat
  /-- The command that waits to be run, and the process for it. -/
  waiting : Option (Command × Process)
  outcome : ProcessOutcome
  /-- Has the script waited for its end? -/
  awaited : Bool

structure Session extends Process where
  system : System
  jobs : List Job
  /-- Has some output of the builtin command under way been lost? -/
  lost : Bool

abbrev Act := StateM Session

abbrev Attempt := ExceptT String Act

namespace Session

def files (s : Session) : Files := { s.system.machine.files with here := s.here }

/-- Takes over files; the place that the machine starts from stays. -/
def withFiles (s : Session) (files : Files) : Session :=
  let files := { files with here := s.system.machine.files.here }
  { s with system := { s.system with machine := { s.system.machine with files } } }

/-- Makes room for a new process among the jobs: the first place that is free, or whose
job is done and awaited. -/
def freeSlot (s : Session) : Nat × Session :=
  let isTaken (slot : Nat) : Bool :=
    s.jobs.any fun j => j.slot = slot && (j.waiting.isSome || !j.awaited)
  let slots := (List.range (s.jobs.length + 1)).map (· + 1)
  let slot := (slots.find? fun n => !isTaken n).getD 1
  (slot, { s with jobs := s.jobs.filter (·.slot ≠ slot) })

def addJob (s : Session) (number : Nat) (command : Command) (process : Process) : Session :=
  let (slot, s) := s.freeSlot
  { s with jobs := s.jobs ++ [⟨number, slot, some (command, process), .exited 0, false⟩] }

def changeJob (s : Session) (number : Nat) (f : Job → Job) : Session :=
  { s with jobs := s.jobs.map fun j => if j.number = number then f j else j }

def endJob (s : Session) (number : Nat) (outcome : ProcessOutcome) : Session :=
  s.changeJob number fun j => { j with waiting := none, outcome }

def has (s : Session) (option : Char) : Bool := s.options.contains option

def isGoing (s : Session) : Bool := s.flow = .going

def isOver (s : Session) : Bool :=
  match s.flow with
  | .failed | .ended | .killed _ => true
  | _ => false

/-- The most functions that may be carried out one inside the other. -/
def deepest : Nat := 1000

def timeSignal : Nat := 24

def value? (s : Session) (name : String) : Option String :=
  (s.vars.get? name).bind Variable.value

def separators (s : Session) : List Char :=
  ((s.value? "IFS").getD " \t\n").toList

end Session

namespace Act

def write (stream : Nat) (text : List Char) : Act (Option IoFault) := do
  let s ← get
  if text.isEmpty then return none
  match (s.streams.get? stream).map fun n => s.system.write n text with
  | none => return some .badStream
  | some (.error fault) => return some fault
  | some (.ok system) =>
    set { s with system }
    return none

/-- Writes a complaint, in front of which the script, the line and a command are named. -/
def complainOf (command : Option String) (text : String) : Act Unit := do
  let s ← get
  let parts := [s.name, Numeral.natText s.line] ++ command.toList ++ [text]
  let _ ← write 2 (": ".intercalate parts ++ "\n").toList

def complain (text : String) : Act Unit := do complainOf (← get).within text

def runWithin (name : String) (body : Act Unit) : Act Unit := do
  let s ← get
  set { s with within := some name }
  body
  modify fun t => { t with within := s.within }

def setCode (code : Nat) : Act Unit := modify fun s => { s with code }

def setFlow (flow : Flow) : Act Unit := modify fun s => { s with flow }

def fail (text : String) : Act Unit := do
  complain text
  modify fun s => { s with code := 2, flow := .failed }

def giveUp : Act Unit := setFlow (.killed Session.timeSignal)

/-- What is left to be read on a stream, or only so many octets of it. -/
def readable (stream : Nat) (most : Option Nat) : Act (Except IoFault (List Char)) := do
  let s ← get
  match s.streams.get? stream with
  | none => return .error .badStream
  | some n => return s.system.readable n most

def take (stream count : Nat) : Act Unit :=
  modify fun s =>
    match s.streams.get? stream with
    | none => s
    | some n => { s with system := s.system.take n count }

def readAll (stream : Nat) : Act (Except IoFault (List Char)) := do
  match ← readable stream none with
  | .error fault => return .error fault
  | .ok text =>
    take stream text.length
    return .ok text

def addChannel (c : Channel) : Act Nat := do
  let s ← get
  let (n, system) := s.system.add c
  set { s with system }
  return n

def connect (stream channel : Nat) : Act Unit :=
  modify fun s => { s with streams := s.streams.insert stream channel }

def disconnect (stream : Nat) : Act Unit :=
  modify fun s => { s with streams := s.streams.filter fun p => p.1 ≠ stream }

def contentOf (channel : Nat) : Act (List Char) := do
  match (← get).system.channels[channel]? with
  | some (.pipe p) => return p.content
  | _ => return []

/-! ### Variables -/

/-- Where options are looked for again when the variable for it is set. -/
def resetOptions (name : String) (value : Option String) : Act Unit := do
  if name = "OPTIND" then
    let n := ((value.bind fun v => decimal? v.toList).getD 1).toNat
    modify fun s => { s with optionAt := (max n 1, none) }

def putVariable (name : String) (change : Variable → Variable) : Act Bool := do
  let s ← get
  let old := (s.vars.get? name).getD ⟨none, false, false⟩
  let new := change old
  if old.fixed && new.value ≠ old.value then return false
  let new := if s.has 'a' && new.value.isSome then { new with exported := true } else new
  set { s with vars := s.vars.put name new }
  if new.value ≠ old.value then resetOptions name new.value
  return true

/-- Gives a variable a value; it is an error to change one that is fixed. -/
def assign (name value : String) : Act Unit := do
  let s ← get
  if (s.vars.get? name).any Variable.fixed then fail (name ++ ": is read only")
  else
    let _ ← putVariable name fun v => { v with value := some value }

/-- Notes a variable, so that it is put back when the command is done. -/
def keepVariable (name : String) : Act Unit :=
  modify fun s =>
    match s.frames with
    | [] => s
    | frame :: rest =>
      if frame.any fun p => p.1 = name then s
      else { s with frames := ((name, s.vars.get? name) :: frame) :: rest }

def openFrame : Act Unit := modify fun s => { s with frames := [] :: s.frames }

def closeFrame : Act Unit := do
  let s ← get
  match s.frames with
  | [] => return
  | frame :: rest =>
    let vars := frame.foldl (fun vs (name, old) =>
      match old with
      | some v => vs.put name v
      | none => vs.erase name) s.vars
    set { s with vars, frames := rest }
    for (name, old) in frame do
      resetOptions name (old.bind Variable.value)

end Act

end NestedBatch.Shell

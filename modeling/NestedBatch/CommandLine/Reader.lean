import NestedBatch.CommandLine.Basic
import NestedBatch.Text.Cut

/-! Reading the arguments of the command line. They are read from the left, and
the first that is wrong decides. The value of an option is looked at only when
the next option or flag is met, or at the end. -/
namespace NestedBatch.CommandLine

inductive CommandName where
  | run
  | status
  | demo
  deriving DecidableEq

def CommandName.ofText? (s : String) : Option CommandName :=
  if s = "run" then some .run
  else if s = "status" then some .status
  else if s = "demo" then some .demo
  else none

inductive OptionName where
  | config
  | parameter
  | context
  | store
  | launcher
  deriving DecidableEq

def CommandName.option? (c : CommandName) (name : String) : Option OptionName :=
  match c with
  | .run =>
    if name = "config" then some .config
    else if name = "param" then some .parameter
    else if name = "context" then some .context
    else if name = "store" then some .store
    else if name = "launcher" then some .launcher
    else none
  | .status => if name = "store" then some .store else none
  | .demo => none

structure Gathered where
  verbose : Bool
  config : Option String
  parameters : List String
  context : List String
  store : Option String
  launcher : Option Launcher
  /-- An option that still has to be looked at, with its value if that was met. -/
  waiting : Option (OptionName × Option String)

namespace Gathered

def start : Gathered := ⟨false, none, [], [], none, none, none⟩

/-- A file name that may be given once, and may not be empty. -/
def once (old : Option String) (v : String) : Except UsageFault (Option String) :=
  if old.isSome then .error .repeated
  else if v = "" then .error .badValue
  else .ok (some v)

def launcherOf (old : Option Launcher) (v : String) : Except UsageFault (Option Launcher) :=
  if old.isSome then .error .repeated
  else if v = "sync" then .ok (some .sameThread)
  else if v = "task" then .ok (some .task)
  else .error .badValue

def accept (g : Gathered) (option : OptionName) (v : String) : Except UsageFault Gathered :=
  match option with
  | .config => (once g.config v).map fun config => { g with config }
  | .store => (once g.store v).map fun store => { g with store }
  | .launcher => (launcherOf g.launcher v).map fun launcher => { g with launcher }
  | .parameter => .ok { g with parameters := g.parameters ++ [v] }
  | .context => .ok { g with context := g.context ++ [v] }

def settle (g : Gathered) : Except UsageFault Gathered :=
  match g.waiting with
  | none => .ok g
  | some (_, none) => .error .badValue
  | some (option, some v) => { g with waiting := none }.accept option v

def raise (g : Gathered) : Except UsageFault Gathered :=
  g.settle.bind fun g => if g.verbose then .error .repeated else .ok { g with verbose := true }

def flags (hasVersion : Bool) (g : Gathered) : List Char → Except UsageFault Gathered
  | [] => .ok g
  | c :: rest =>
    if c = 'v' then g.raise.bind fun g => flags hasVersion g rest
    else if c = 'h' then g.settle.bind fun _ => .error .help
    else if c = 'V' ∧ hasVersion then g.settle.bind fun _ => .error .version
    else .error .unknownArgument

def flag (hasVersion : Bool) (g : Gathered) (name : String) (valued : Bool) :
    Except UsageFault Gathered :=
  if name = "verbose" ∨ name = "help" ∨ (name = "version" ∧ hasVersion) then
    if valued then .error .unwantedValue
    else if name = "verbose" then g.raise
    else g.settle.bind fun _ => .error (if name = "help" then .help else .version)
  else .error .unknownArgument

end Gathered

def longOption? (arg : String) : Option (String × Option String) :=
  match arg.toList with
  | '-' :: '-' :: c :: rest =>
    match Text.cutFirst '=' (c :: rest) with
    | some (name, v) => some (String.ofList name, some (String.ofList v))
    | none => some (String.ofList (c :: rest), none)
  | _ => none

def letters? (arg : String) : Option (List Char) :=
  match arg.toList with
  | '-' :: c :: rest => if c = '-' then none else some (c :: rest)
  | _ => none

def argument (c : CommandName) (g : Gathered) (arg : String) : Except UsageFault Gathered :=
  match longOption? arg with
  | some (name, v) =>
    match c.option? name with
    | some option =>
      match v with
      | some v => g.settle.bind fun g => g.accept option v
      | none => g.settle.map fun g => { g with waiting := some (option, none) }
    | none => g.flag false name v.isSome
  | none =>
    match letters? arg with
    | some letters => g.flags false letters
    | none =>
      match g.waiting with
      | some (option, none) => .ok { g with waiting := some (option, some arg) }
      | _ => .error .unknownArgument

/-- The arguments of a command. After two dashes alone nothing may follow. -/
def arguments (c : CommandName) : Gathered → List String → Except UsageFault Gathered
  | g, [] => g.settle
  | g, arg :: rest =>
    if arg = "--" then (if rest.isEmpty then g.settle else .error .unknownArgument)
    else
      match argument c g arg with
      | .error e => .error e
      | .ok g => arguments c g rest

def defaultConfig : String := "jobstep.toml"

def requestOf (c : CommandName) (g : Gathered) : Except UsageFault Request :=
  match c with
  | .run =>
    .ok (.run ⟨g.config.getD defaultConfig, g.parameters, g.context, g.store, g.launcher⟩)
  | .status =>
    match g.store with
    | some store => .ok (.status store)
    | none => .error .missingOption
  | .demo => .ok .demo

/-- What `help` is asked about: a command, or itself, and nothing more. -/
def helpTopics : List String → UsageFault
  | [] => .help
  | [topic] =>
    if (CommandName.ofText? topic).isSome || topic = "help" then .help else .unknownCommand
  | _ => .unknownCommand

/-- Reads the arguments up to the command, and then those of the command. -/
def readFrom (g : Gathered) : List String → Except UsageFault CommandLine
  | [] => .error (if g.verbose then .noCommand else .nothingGiven)
  | arg :: rest =>
    match CommandName.ofText? arg with
    | some c => do
      let inner ← arguments c .start rest
      let request ← requestOf c inner
      .ok ⟨request, g.verbose || inner.verbose⟩
    | none =>
      if arg = "help" then .error (helpTopics rest)
      else if arg = "--" then
        match rest with
        | [] => .error (if g.verbose then .noCommand else .nothingGiven)
        | next :: _ =>
          .error (if (CommandName.ofText? next).isSome || next = "help" then .unknownArgument
            else .unknownCommand)
      else
        let found :=
          match longOption? arg with
          | some (name, v) => g.flag true name v.isSome
          | none =>
            match letters? arg with
            | some letters => g.flags true letters
            | none => .error .unknownCommand
        match found with
        | .error e => .error e
        | .ok g => readFrom g rest

def read (args : List String) : Except UsageFault CommandLine := readFrom .start args

end NestedBatch.CommandLine

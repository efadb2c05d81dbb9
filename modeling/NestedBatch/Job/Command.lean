import NestedBatch.Job.Basic

/-! Jobs that run an external command. -/
namespace NestedBatch

structure Invocation where
  program : String
  arguments : List String
  settings : List (String × String)

inductive ProcessOutcome where
  | exited (code : Nat)
  | killed (signal : Nat)
  deriving DecidableEq

abbrev Spawner (W : Type) := Invocation → W → Except IoFault ProcessOutcome × W

structure CommandJob where
  name : String
  program : String
  arguments : List String
  restartable : Bool
  /-- The codes, other than zero, that count as success, with the exit code reported for them. -/
  exitCodes : KeyMap Int String

namespace CommandJob

/-- The variable that a parameter is handed over in. Only ASCII letters and
digits are kept, in upper case. -/
def variableName (parameter : String) : String :=
  "JOBSTEP_PARAM_" ++ String.ofList
    (parameter.toList.map fun c => if c.isAlphanum then c.toUpper else '_')

/-- One variable for each parameter. Where two have one name, the later one counts. -/
def settings (p : Parameters) : List (String × String) :=
  (KeyMap.ofList (p.entries.map fun e => (variableName e.1, e.2.value.text))).entries

def report (exitCodes : KeyMap Int String) : ProcessOutcome → Status × ExitStatus
  | .exited code =>
    if code = 0 then (.completed, .completed)
    else
      match exitCodes.get? code with
      | some custom => (.completed, .ofCode custom)
      | none =>
        (.failed, .failedWith ("command exited with status " ++ Numeral.natText code))
  | .killed _ => (.stopped, ⟨ExitStatus.stopped.code, "command terminated by signal"⟩)

def perform {W : Type} (c : CommandJob) (spawn : Spawner W) (e : JobExecution)
    (r : Repository W) : Ending × JobExecution × Repository W :=
  match spawn ⟨c.program, c.arguments, settings e.jobParameters⟩ r.world with
  | (.error fault, w) =>
    (.raised ("failed to run '" ++ c.program ++ "': " ++ fault.message), e, ⟨r.records, w⟩)
  | (.ok outcome, w) =>
    let (status, exitStatus) := report c.exitCodes outcome
    (.done, { e with status, exitStatus }, ⟨r.records, w⟩)

def toJob {W : Type} (c : CommandJob) (spawn : Spawner W) : Job W :=
  ⟨c.name, c.restartable, c.perform spawn⟩

end CommandJob

end NestedBatch

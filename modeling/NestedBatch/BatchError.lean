import NestedBatch.Execution.Basic
import NestedBatch.Files.Fault

/-! The errors of launching, of records and of wiring, with their texts. -/
namespace NestedBatch

inductive StepPart where
  | job
  | launcher
  deriving DecidableEq

def StepPart.name : StepPart → String
  | .job => "job"
  | .launcher => "job launcher"

/-- What is wrong with how a step is wired up. -/
inductive WiringFault where
  | missing (parts : List StepPart)
  /-- Any other fault, with its text. -/
  | other (text : String)
  deriving DecidableEq

def WiringFault.message : WiringFault → String
  | .missing parts =>
    " and ".intercalate (parts.map StepPart.name) ++ " must be provided for a job step"
  | .other text => text

/-- Why a job cannot be launched once more. -/
structure RestartFault where
  job : String
  reason : String
  deriving DecidableEq

/-- The job is launched once only. -/
def RestartFault.launchedBefore (job : String) : RestartFault :=
  ⟨job, "job instance already exists and is not restartable"⟩

inductive BatchError where
  | missingParts (fault : WiringFault)
  | alreadyRunning (job : String)
  | alreadyComplete (job parameters : String)
  | notRestartable (fault : RestartFault)
  | invalidParameters (fault : ParameterFault)
  /-- A fault that the job itself raised; its text is kept as it is. -/
  | jobFault (message : String)
  | noSuchExecution (id : Nat)
  | noSuchStep (id : Nat)
  | io (fault : IoFault)
  /-- A text that holds no records. What is wrong with it is not told. -/
  | json
  deriving DecidableEq

namespace BatchError

/-- What stands for the fault of a text that is no JSON of the wanted form. -/
def jsonFault : String := "<json>"

def message : BatchError → String
  | .missingParts fault => "Configuration error: " ++ fault.message
  | .alreadyRunning job => "A job execution for job '" ++ job ++ "' is already running"
  | .alreadyComplete job parameters =>
    "A job instance already exists and is complete for job '" ++ job ++ "' with parameters [" ++
      parameters ++ "]"
  | .notRestartable fault => "Job '" ++ fault.job ++ "' cannot be restarted: " ++ fault.reason
  | .invalidParameters fault => "Invalid job parameters: " ++ fault.message
  | .jobFault message => message
  | .noSuchExecution id => "No job execution with id " ++ Numeral.natText id
  | .noSuchStep id => "No step execution with id " ++ Numeral.natText id
  | .io fault => "IO error: " ++ fault.message
  | .json => "JSON error: " ++ jsonFault

def chain (e : BatchError) : String :=
  match e with
  | .io fault => e.message ++ ": " ++ fault.message
  | .json => e.message ++ ": " ++ jsonFault
  | _ => e.message

def kind : BatchError → FailureKind
  | .missingParts _ => .configuration
  | .alreadyRunning _ | .alreadyComplete _ _ | .notRestartable _ => .launchRejected
  | .invalidParameters _ => .invalidParameters
  | .jobFault _ => .childExecution
  | .noSuchExecution _ | .noSuchStep _ | .io _ | .json => .repository

def cause (e : BatchError) (now : Instant) : FailureCause := ⟨e.kind, e.message, now⟩

end BatchError

end NestedBatch

import NestedBatch.Context.Basic
import NestedBatch.ExitStatus

/-! Executions of jobs and of their steps, and what is recorded of a failure. -/
namespace NestedBatch

inductive FailureKind where
  /-- A step is wired up wrongly. -/
  | configuration
  /-- The launcher refused to start the child. -/
  | launchRejected
  /-- No parameters could be made for the child. -/
  | invalidParameters
  /-- The child raised an error while it ran. -/
  | childExecution
  /-- Execution records could not be read or written. -/
  | repository
  deriving DecidableEq

namespace FailureKind

def all : List FailureKind :=
  [.configuration, .launchRejected, .invalidParameters, .childExecution, .repository]

def name : FailureKind → String
  | .configuration => "Configuration"
  | .launchRejected => "LaunchRejected"
  | .invalidParameters => "InvalidParameters"
  | .childExecution => "ChildExecution"
  | .repository => "Repository"

def ofName? (name : String) : Option FailureKind := all.find? fun k => k.name = name

end FailureKind

structure FailureCause where
  kind : FailureKind
  message : String
  occurredAt : Instant
  deriving DecidableEq

structure JobInstance where
  id : Nat
  jobName : String
  jobKey : String
  deriving DecidableEq

structure StepExecution where
  /-- Zero until the repository gives an id. -/
  id : Nat
  stepName : String
  jobExecutionId : Nat
  jobInstanceId : Nat
  jobName : String
  jobParameters : Parameters
  status : Status
  exitStatus : ExitStatus
  context : Context
  failures : List FailureCause
  startTime : Option Instant
  endTime : Option Instant
  lastUpdated : Instant
  deriving DecidableEq

structure JobExecution where
  id : Nat
  jobInstanceId : Nat
  jobName : String
  jobParameters : Parameters
  status : Status
  exitStatus : ExitStatus
  createTime : Instant
  startTime : Option Instant
  endTime : Option Instant
  lastUpdated : Instant
  context : Context
  /-- Attached when an execution is looked up; the records keep steps apart. -/
  steps : List StepExecution
  failures : List FailureCause
  deriving DecidableEq

namespace JobExecution

def create (id : Nat) (of : JobInstance) (parameters : Parameters) (now : Instant) :
    JobExecution where
  id := id
  jobInstanceId := of.id
  jobName := of.jobName
  jobParameters := parameters
  status := .starting
  exitStatus := .unknown
  createTime := now
  startTime := none
  endTime := none
  lastUpdated := now
  context := .empty
  steps := []
  failures := []

/-- Is the execution under way: a running status and no end recorded? -/
def isRunning (e : JobExecution) : Bool := e.status.isRunning && e.endTime.isNone

def upgradeStatus (e : JobExecution) (s : Status) : JobExecution :=
  { e with status := e.status.upgradeTo s }

def addFailure (e : JobExecution) (f : FailureCause) : JobExecution :=
  { e with failures := e.failures ++ [f] }

def newStep (e : JobExecution) (name : String) (now : Instant) : StepExecution where
  id := 0
  stepName := name
  jobExecutionId := e.id
  jobInstanceId := e.jobInstanceId
  jobName := e.jobName
  jobParameters := e.jobParameters
  status := .starting
  exitStatus := .executing
  context := .empty
  failures := []
  startTime := none
  endTime := none
  lastUpdated := now

end JobExecution

def StepExecution.addFailure (s : StepExecution) (f : FailureCause) : StepExecution :=
  { s with failures := s.failures ++ [f] }

structure ExecutionSummary where
  jobName : String
  jobExecutionId : Nat
  stepName : String
  stepExecutionId : Nat
  status : Status
  exitStatus : ExitStatus
  failures : List FailureCause
  startedAt : Option Instant
  completedAt : Option Instant
  durationMillis : Option Int
  deriving DecidableEq

def StepExecution.duration? (s : StepExecution) : Option Int :=
  match s.startTime, s.endTime with
  | some start, some stop => some (stop.millisSince start)
  | _, _ => none

def StepExecution.summary (s : StepExecution) : ExecutionSummary where
  jobName := s.jobName
  jobExecutionId := s.jobExecutionId
  stepName := s.stepName
  stepExecutionId := s.id
  status := s.status
  exitStatus := s.exitStatus
  failures := s.failures
  startedAt := s.startTime
  completedAt := s.endTime
  durationMillis := s.duration?

end NestedBatch

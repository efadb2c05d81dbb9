import NestedBatch.Context.Json
import NestedBatch.Execution.Basic

/-! Executions in JSON. -/
namespace NestedBatch

open Json

def Status.toJson (s : Status) : Json := .string s.name

def Status.ofJson? (v : Json) : Option Status := (v.asName false).bind Status.ofName?

def ExitStatus.toJson (e : ExitStatus) : Json :=
  .object [("exit_code", .string e.code), ("exit_description", .string e.description)]

def ExitStatus.ofJson? (v : Json) : Option ExitStatus := do
  let r ← v.record? ["exit_code", "exit_description"]
  let code ← r.required "exit_code" asText
  let description ← r.withDefault "exit_description" "" asText
  some ⟨code, description⟩

def FailureKind.ofJson? (v : Json) : Option FailureKind := (v.asName false).bind FailureKind.ofName?

def FailureCause.toJson (f : FailureCause) : Json :=
  .object [("kind", .string f.kind.name), ("message", .string f.message),
    ("occurred_at", .ofInstant f.occurredAt)]

def FailureCause.ofJson? (v : Json) : Option FailureCause := do
  let r ← v.record? ["kind", "message", "occurred_at"]
  let kind ← r.required "kind" FailureKind.ofJson?
  let message ← r.required "message" asText
  let occurredAt ← r.required "occurred_at" asInstant
  some ⟨kind, message, occurredAt⟩

def JobInstance.toJson (i : JobInstance) : Json :=
  .object [("id", .ofNat i.id), ("job_name", .string i.jobName), ("job_key", .string i.jobKey)]

def JobInstance.ofJson? (v : Json) : Option JobInstance := do
  let r ← v.record? ["id", "job_name", "job_key"]
  let id ← r.required "id" asNat
  let jobName ← r.required "job_name" asText
  let jobKey ← r.required "job_key" asText
  some ⟨id, jobName, jobKey⟩

def StepExecution.fieldNames : List String :=
  ["id", "step_name", "job_execution_id", "job_instance_id", "job_name", "job_parameters",
   "status", "exit_status", "execution_context", "failures", "start_time", "end_time",
   "last_updated"]

def StepExecution.toJson (s : StepExecution) : Json :=
  .object [("id", .ofNat s.id), ("step_name", .string s.stepName),
    ("job_execution_id", .ofNat s.jobExecutionId), ("job_instance_id", .ofNat s.jobInstanceId),
    ("job_name", .string s.jobName), ("job_parameters", s.jobParameters.toJson),
    ("status", s.status.toJson), ("exit_status", s.exitStatus.toJson),
    ("execution_context", s.context.toJson),
    ("failures", .array (s.failures.map FailureCause.toJson)),
    ("start_time", ofOption ofInstant s.startTime), ("end_time", ofOption ofInstant s.endTime),
    ("last_updated", .ofInstant s.lastUpdated)]

/-- Reads a step execution. Context and failures may be missing. -/
def StepExecution.ofJson? (v : Json) : Option StepExecution := do
  let r ← v.record? fieldNames
  let id ← r.required "id" asNat
  let stepName ← r.required "step_name" asText
  let jobExecutionId ← r.required "job_execution_id" asNat
  let jobInstanceId ← r.required "job_instance_id" asNat
  let jobName ← r.required "job_name" asText
  let jobParameters ← r.required "job_parameters" (Parameters.ofJson? false)
  let status ← r.required "status" Status.ofJson?
  let exitStatus ← r.required "exit_status" ExitStatus.ofJson?
  let context ← r.withDefault "execution_context" .empty Context.ofJson?
  let failures ← r.withDefault "failures" [] (asList FailureCause.ofJson?)
  let startTime ← r.optional "start_time" asInstant
  let endTime ← r.optional "end_time" asInstant
  let lastUpdated ← r.required "last_updated" asInstant
  some ⟨id, stepName, jobExecutionId, jobInstanceId, jobName, jobParameters, status, exitStatus,
    context, failures, startTime, endTime, lastUpdated⟩

def JobExecution.fieldNames : List String :=
  ["id", "job_instance_id", "job_name", "job_parameters", "status", "exit_status", "create_time",
   "start_time", "end_time", "last_updated", "execution_context", "step_executions", "failures"]

def JobExecution.toJson (e : JobExecution) : Json :=
  .object [("id", .ofNat e.id), ("job_instance_id", .ofNat e.jobInstanceId),
    ("job_name", .string e.jobName), ("job_parameters", e.jobParameters.toJson),
    ("status", e.status.toJson), ("exit_status", e.exitStatus.toJson),
    ("create_time", .ofInstant e.createTime),
    ("start_time", ofOption ofInstant e.startTime), ("end_time", ofOption ofInstant e.endTime),
    ("last_updated", .ofInstant e.lastUpdated), ("execution_context", e.context.toJson),
    ("step_executions", .array (e.steps.map StepExecution.toJson)),
    ("failures", .array (e.failures.map FailureCause.toJson))]

/-- Reads a job execution. Context, steps and failures may be missing. -/
def JobExecution.ofJson? (v : Json) : Option JobExecution := do
  let r ← v.record? fieldNames
  let id ← r.required "id" asNat
  let jobInstanceId ← r.required "job_instance_id" asNat
  let jobName ← r.required "job_name" asText
  let jobParameters ← r.required "job_parameters" (Parameters.ofJson? false)
  let status ← r.required "status" Status.ofJson?
  let exitStatus ← r.required "exit_status" ExitStatus.ofJson?
  let createTime ← r.required "create_time" asInstant
  let startTime ← r.optional "start_time" asInstant
  let endTime ← r.optional "end_time" asInstant
  let lastUpdated ← r.required "last_updated" asInstant
  let context ← r.withDefault "execution_context" .empty Context.ofJson?
  let steps ← r.withDefault "step_executions" [] (asList StepExecution.ofJson?)
  let failures ← r.withDefault "failures" [] (asList FailureCause.ofJson?)
  some ⟨id, jobInstanceId, jobName, jobParameters, status, exitStatus, createTime, startTime,
    endTime, lastUpdated, context, steps, failures⟩

def ExecutionSummary.fieldNames : List String :=
  ["job_name", "job_execution_id", "step_name", "step_execution_id", "status", "exit_status",
   "failures", "started_at", "completed_at", "duration_ms"]

def ExecutionSummary.toJson (s : ExecutionSummary) : Json :=
  .object [("job_name", .string s.jobName), ("job_execution_id", .ofNat s.jobExecutionId),
    ("step_name", .string s.stepName), ("step_execution_id", .ofNat s.stepExecutionId),
    ("status", s.status.toJson), ("exit_status", s.exitStatus.toJson),
    ("failures", .array (s.failures.map FailureCause.toJson)),
    ("started_at", ofOption ofInstant s.startedAt),
    ("completed_at", ofOption ofInstant s.completedAt),
    ("duration_ms", ofOption Json.ofInt s.durationMillis)]

def ExecutionSummary.ofJson? (v : Json) : Option ExecutionSummary := do
  let r ← v.record? fieldNames
  let jobName ← r.required "job_name" asText
  let jobExecutionId ← r.required "job_execution_id" asNat
  let stepName ← r.required "step_name" asText
  let stepExecutionId ← r.required "step_execution_id" asNat
  let status ← r.required "status" Status.ofJson?
  let exitStatus ← r.required "exit_status" ExitStatus.ofJson?
  let failures ← r.required "failures" (asList FailureCause.ofJson?)
  let startedAt ← r.optional "started_at" asInstant
  let completedAt ← r.optional "completed_at" asInstant
  let durationMillis ← r.optional "duration_ms" asLong
  some ⟨jobName, jobExecutionId, stepName, stepExecutionId, status, exitStatus, failures,
    startedAt, completedAt, durationMillis.map Int64.toInt⟩

end NestedBatch

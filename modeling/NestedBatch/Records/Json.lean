import NestedBatch.Execution.Json
import NestedBatch.Json.Printer
import NestedBatch.Json.Reader
import NestedBatch.Records.Basic

/-! The text in which records are stored. -/
namespace NestedBatch.Records

open Json

def toJson (r : Records) : Json :=
  .object [("next_id", .ofNat r.nextId),
    ("instances", .array (r.instances.map JobInstance.toJson)),
    ("job_executions", .array (r.executions.map JobExecution.toJson)),
    ("step_executions", .array (r.steps.map StepExecution.toJson))]

def ofJson? (v : Json) : Option Records := do
  let r ← v.record? ["next_id", "instances", "job_executions", "step_executions"]
  let nextId ← r.required "next_id" asNat
  let instances ← r.required "instances" (asList JobInstance.ofJson?)
  let executions ← r.required "job_executions" (asList JobExecution.ofJson?)
  let steps ← r.required "step_executions" (asList StepExecution.ofJson?)
  some ⟨nextId, instances, executions, steps⟩

def text (r : Records) : String := r.toJson.prettyText

def ofText? (s : String) : Option Records := (Json.read s).bind ofJson?

end NestedBatch.Records

import NestedBatch.Execution.Json
import NestedBatch.Json.Printer

/-! What is printed of steps and of recorded executions. -/
namespace NestedBatch.Report

def padded (width : Nat) (s : String) : String :=
  s ++ String.ofList (List.replicate (width - s.length) ' ')

def mark (s : Status) : String :=
  match s with
  | .completed => "✓"
  | .stopped => "■"
  | _ => "✗"

/-- The outcome of a step, and a line for each of its failures. -/
def outcomeLines (s : StepExecution) : List String :=
  ("  " ++ mark s.status ++ " " ++ s.stepName ++ " " ++ s.status.name ++ " (exit " ++
      s.exitStatus.text ++ ")") ::
    s.failures.map fun f => "    • " ++ f.kind.name ++ ": " ++ f.message

def summaryLines (s : StepExecution) : List String :=
  ["", "─── Step Execution ───", s.summary.toJson.prettyText]

def executionLines (e : JobExecution) : List String :=
  ("#" ++ padded 4 (Numeral.natText e.id) ++ " " ++ padded 16 e.jobName ++ " " ++ e.status.name ++
      " exit=" ++ padded 12 e.exitStatus.code ++ " params=[" ++ e.jobParameters.text ++ "]") ::
    e.steps.map fun s =>
      "       └ " ++ s.stepName ++ " " ++ s.status.name ++ " exit=" ++ s.exitStatus.code

def executionsLines (all : List JobExecution) : List String :=
  if all.isEmpty then ["no job executions recorded"] else all.flatMap executionLines

def text (lines : List String) : String := String.join (lines.map (· ++ "\n"))

end NestedBatch.Report

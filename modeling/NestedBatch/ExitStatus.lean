import NestedBatch.Status

/-! How an execution ended: a code and a free text. The codes below belong to
the framework; any other code was chosen by a job. -/
namespace NestedBatch

structure ExitStatus where
  code : String
  description : String
  deriving DecidableEq, Inhabited

namespace ExitStatus

def ofCode (code : String) : ExitStatus := ⟨code, ""⟩

def unknown : ExitStatus := ofCode "UNKNOWN"

def executing : ExitStatus := ofCode "EXECUTING"

def completed : ExitStatus := ofCode "COMPLETED"

def noop : ExitStatus := ofCode "NOOP"

def failed : ExitStatus := ofCode "FAILED"

def stopped : ExitStatus := ofCode "STOPPED"

def failedWith (reason : String) : ExitStatus := ⟨failed.code, reason⟩

/-- The exit status of an execution that ended with a status and says no more. -/
def ofStatus (s : Status) : ExitStatus := ofCode s.name

/-- The codes of the framework, from the least severe to the most severe. -/
def frameworkCodes : List String :=
  ["EXECUTING", "COMPLETED", "NOOP", "STOPPED", "FAILED", "UNKNOWN"]

/-- The place among the framework's codes; custom codes come after all of them. -/
def severity (e : ExitStatus) : Nat := frameworkCodes.idxOf e.code

def isCustom (e : ExitStatus) : Bool := !frameworkCodes.contains e.code

def isRunning (e : ExitStatus) : Bool := e.code = "EXECUTING" || e.code = "UNKNOWN"

/-- Two descriptions as one; equal or empty ones are not repeated. -/
def joinDescriptions (a b : String) : String :=
  if b = "" then a
  else if a = "" then b
  else if a = b then b
  else a ++ "; " ++ b

/-- Joins two exit statuses: the more severe code counts, the first one of equals. -/
def and (a b : ExitStatus) : ExitStatus :=
  ⟨if a.severity < b.severity then b.code else a.code,
   joinDescriptions a.description b.description⟩

def text (e : ExitStatus) : String :=
  if e.description = "" then e.code else e.code ++ " (" ++ e.description ++ ")"

end ExitStatus

end NestedBatch

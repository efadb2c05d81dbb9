import NestedBatch.Repository
import NestedBatch.Text.Quoted

/-! Jobs: a name, whether they may be restarted, and what they do. -/
namespace NestedBatch

inductive Ending where
  | done
  /-- The job raised a fault. -/
  | raised (message : String)
  /-- The job broke off, with a text if it left one. -/
  | panicked (payload : Option String)
  deriving DecidableEq

def Ending.fault? : Ending → Option String
  | .done => none
  | .raised message => some message
  | .panicked payload => some (payload.getD "child job panicked")

/-- A job works on its own execution; it may also touch its surroundings. -/
structure Job (W : Type) where
  name : String
  restartable : Bool
  body : JobExecution → Repository W → Ending × JobExecution × Repository W

/-- What is shown of a job. Its body cannot be shown. -/
def Job.describe {W : Type} (job : Job W) : String :=
  "FnJob \x7b name: " ++ Text.quoted job.name ++ ", restartable: " ++
    (if job.restartable then "true" else "false") ++ ", .. \x7d"

end NestedBatch

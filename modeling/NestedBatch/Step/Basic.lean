import NestedBatch.Repository

/-! Steps: units of work that a job runs. -/
namespace NestedBatch

/-- A step leaves its outcome in its execution; recording it is up to the caller. -/
structure Step (W : Type) where
  name : String
  execute : StepExecution → Repository W → StepExecution × Repository W

end NestedBatch

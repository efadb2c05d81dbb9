import NestedBatch.Execution.Basic

/-! What the outcome of a child means for the step that ran it. -/
namespace NestedBatch

/-- The status and exit status of a step after its child. A completed child
hands up an exit status of its own making; any other ending has the exit status
of its name. A child that is still under way makes the step unknown. -/
def JobExecution.stepOutcome (child : JobExecution) : Status × ExitStatus :=
  match child.status with
  | .completed =>
    (.completed, if child.exitStatus.isCustom then child.exitStatus else .completed)
  | .failed => (.failed, .failed)
  | .stopped => (.stopped, .stopped)
  | .abandoned => (.abandoned, .ofStatus .abandoned)
  | .unknown => (.unknown, .ofStatus .unknown)
  | .starting | .started | .stopping => (.unknown, .unknown)

end NestedBatch

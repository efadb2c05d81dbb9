import NestedBatch.Job.Command
import NestedBatch.Proofs.Launch.Admission
import NestedBatch.Proofs.Step.Outcome

/-! A nested step whose child is a command. Its outcome is decided by the process, if
there was one, and of the process by no more than how it ended. -/
namespace NestedBatch

variable {W : Type} {h : Host W} {launcher : Launcher} {job : Job W} {c : CommandJob}
  {spawn : Spawner W} {p : Parameters} {r r' : Repository W} {e : JobExecution}

/-- A text that was chosen for an exit code is told as it is, unless it is one of the
framework's, also one that no ended execution can have. -/
theorem ExitStatus.code_of_chosen (text : String) {exitStatus : ExitStatus}
    (left : exitStatus = if (ofCode text).isRunning = true then ofStatus .completed
      else ofCode text) :
    (if exitStatus.isCustom = true then exitStatus else ofStatus .completed).code
      = if text ∈ frameworkCodes then "COMPLETED" else text := by
  have custom : (ofCode text).isCustom = true ↔ text ∉ frameworkCodes := by
    simp [isCustom, ofCode]
  cases running : (ofCode text).isRunning with
  | true =>
    have framework : text ∈ frameworkCodes := by
      simp only [isRunning, Bool.or_eq_true, decide_eq_true_eq] at running
      rcases running with rfl | rfl <;> decide
    rw [running, if_pos rfl] at left
    rw [left, if_pos framework]
    rfl
  | false =>
    rw [running, if_neg Bool.false_ne_true] at left
    rw [left]
    by_cases framework : text ∈ frameworkCodes
    · rw [if_pos framework, if_neg fun chosen => custom.1 chosen framework]
      rfl
    · rw [if_neg framework, if_pos (custom.2 framework)]
      rfl

namespace CommandJob

/-- The call by which the process of an execution is started. -/
def invocation (c : CommandJob) (e : JobExecution) : Invocation :=
  ⟨c.program, c.arguments, settings e.jobParameters⟩

/-- The status and the exit code of a step as the process of its child decides them,
where one was to be started. -/
def told (c : CommandJob) : Option (Except IoFault ProcessOutcome) → Status × String
  | some (.ok (.exited code)) =>
    if code = 0 then (.completed, "COMPLETED")
    else
      match c.exitCodes.get? code with
      | some text =>
        (.completed, if text ∈ ExitStatus.frameworkCodes then "COMPLETED" else text)
      | none => (.failed, "FAILED")
  | some (.ok (.killed _)) => (.stopped, "STOPPED")
  | some (.error _) | none => (.failed, "FAILED")

theorem status_told_exited (c : CommandJob) (code : Nat) :
    (c.told (some (.ok (.exited code)))).1
      = if code = 0 ∨ c.exitCodes.contains code = true then .completed else .failed := by
  simp only [told, KeyMap.contains]
  by_cases zero : code = 0
  · simp only [zero, true_or, if_true]
  · simp only [zero, false_or, if_false]
    cases c.exitCodes.get? (code : Int) <;> rfl

/-- What a child reports of its process comes through its closing and its step. -/
theorem told_report (c : CommandJob) {outcome : ProcessOutcome} {status : Status}
    {exitStatus : ExitStatus} (reported : report c.exitCodes outcome = (status, exitStatus))
    {child : JobExecution} (ended : child.status = Launch.settled status)
    (left : child.exitStatus = if exitStatus.isRunning = true
      then .ofStatus (Launch.settled status) else exitStatus) :
    (child.status, (if child.status = .completed ∧ child.exitStatus.isCustom = true
      then child.exitStatus else .ofStatus child.status).code) = c.told (some (.ok outcome)) := by
  cases outcome with
  | killed signal =>
    cases reported
    rw [ended]
    rfl
  | exited code =>
    simp only [report] at reported
    simp only [told]
    split at reported <;> rename_i zero
    · cases reported
      rw [if_pos zero, ended, left]
      rfl
    · rw [if_neg zero]
      cases mapped : c.exitCodes.get? code with
      | none =>
        rw [mapped] at reported
        cases reported
        rw [ended]
        rfl
      | some text =>
        rw [mapped] at reported
        cases reported
        have completed : child.status = .completed := ended
        simp only [completed, true_and]
        exact congrArg (Status.completed, ·) (ExitStatus.code_of_chosen text left)

theorem perform_congr {spawn' : Spawner W}
    (same : spawn' (c.invocation e) r.world = spawn (c.invocation e) r.world) :
    c.perform spawn' e r = c.perform spawn e r := by
  simp only [invocation] at same
  simp only [perform, same]

/-- A command leaves of the repository the records as they are, and of the world what the
process leaves of it. -/
theorem perform_repository (c : CommandJob) (spawn : Spawner W) (e : JobExecution)
    (r : Repository W) :
    (c.perform spawn e r).2.2 = ⟨r.records, (spawn (c.invocation e) r.world).2⟩ := by
  simp only [perform, invocation]
  split
  · rename_i spawned
    rw [spawned]
  · rename_i spawned
    rw [spawned]

theorem perform_cases (c : CommandJob) (spawn : Spawner W) (e : JobExecution)
    (r : Repository W) :
    (∃ fault message w, spawn (c.invocation e) r.world = (.error fault, w) ∧
        c.perform spawn e r = (.raised message, e, ⟨r.records, w⟩)) ∨
      ∃ outcome status exitStatus w, spawn (c.invocation e) r.world = (.ok outcome, w) ∧
        report c.exitCodes outcome = (status, exitStatus) ∧
        c.perform spawn e r = (.done, { e with status, exitStatus }, ⟨r.records, w⟩) := by
  rcases spawned : spawn (c.invocation e) r.world with ⟨fault | outcome, w⟩
  · refine Or.inl ⟨fault, "failed to run '" ++ c.program ++ "': " ++ fault.message, w, rfl, ?_⟩
    simp only [invocation] at spawned
    simp only [perform, spawned]
  · rcases reported : report c.exitCodes outcome with ⟨status, exitStatus⟩
    refine Or.inr ⟨outcome, status, exitStatus, w, rfl, reported, ?_⟩
    simp only [invocation] at spawned
    simp only [perform, spawned, reported]

/-- A command leaves the records and the origin of its execution alone. -/
theorem confined_toJob (c : CommandJob) (spawn : Spawner W) :
    Interleaving.Confined (c.toJob spawn) := by
  constructor
  · intro e r
    rcases c.perform_cases spawn e r with ⟨_, _, _, _, raised⟩ | ⟨_, _, _, _, _, _, done⟩
    · simp only [toJob, raised]
      exact .refl e
    · simp only [toJob, done]
      exact ⟨rfl, rfl, rfl, rfl⟩
  · intro e r
    rcases c.perform_cases spawn e r with ⟨_, _, _, _, raised⟩ | ⟨_, _, _, _, _, _, done⟩
    · simp only [toJob, raised]
    · simp only [toJob, done]

end CommandJob

namespace Launch

theorem contained_of_confined (confined : Interleaving.Confined job) : Contained job := by
  constructor
  · exact fun e r => (confined.origin e r).id
  · exact fun e r => (confined.origin e r).jobInstanceId
  · intro e r
    rw [confined.records e r]
    exact .refl
  · intro e r x there _ _
    rw [confined.records e r] at there
    exact Or.inr there

theorem run_unhanded (unhanded : handed? h launcher job p r = none) :
    ∃ fault, (run h launcher job p r).1 = .error fault := by
  simp only [run]
  rcases started : start h job p r with ⟨fault | e, r'⟩
  · exact ⟨fault, rfl⟩
  · cases launcher with
    | closedTask => exact ⟨_, rfl⟩
    | sameThread | task => simp [handed?, started] at unhanded

/-- An ended execution that is there is closed, unless a write has a fault. -/
theorem finish_ended {x : JobExecution} (there : r.records.hasExecution x.id = true) :
    (∃ fault, (finish h x none r).1 = .error (.io fault)) ∨
      ∃ child, (finish h x none r).1 = .ok child ∧ child.status = (concluded x).status ∧
        child.exitStatus = (concluded x).exitStatus := by
  have same : (closed h x none r.world).1.status = (concluded x).status ∧
      (closed h x none r.world).1.exitStatus = (concluded x).exitStatus ∧
      (closed h x none r.world).1.id = x.id := by
    simp only [closed]
    split <;> exact ⟨rfl, rfl, rfl⟩
  simp only [finish]
  generalize closed h x none r.world = ended at same ⊢
  obtain ⟨status, exitStatus, id⟩ := same
  have present : r.records.hasExecution ended.1.id = true := id ▸ there
  obtain ⟨answer, w, updated, saved⟩ := Repository.updateExecution_present h
    (e := ended.1) (r := ⟨r.records, ended.2⟩) present
  simp only [updated]
  rcases saved with rfl | ⟨fault, rfl⟩
  · exact Or.inr ⟨_, rfl, status, exitStatus⟩
  · exact Or.inl ⟨fault, rfl⟩

/-- A command does not break off, so that its launcher makes no difference. -/
theorem perform_command (awake : launcher ≠ .closedTask) (c : CommandJob) (spawn : Spawner W)
    (e : JobExecution) (r : Repository W) :
    perform launcher (c.toJob spawn) e r
      = ((c.perform spawn e r).1.fault?, (c.perform spawn e r).2) := by
  cases launcher with
  | closedTask => exact absurd rfl awake
  | sameThread => rfl
  | task =>
    simp only [perform, CommandJob.toJob]
    rcases c.perform_cases spawn e r with ⟨_, _, _, _, raised⟩ | ⟨_, _, _, _, _, _, done⟩
    · simp only [raised]
    · simp only [done]

/-- The launch of a command answers with what its process was reported with. -/
theorem run_command (handed : handed? h launcher (c.toJob spawn) p r = some (e, r'))
    (saved : ∀ fault, (run h launcher (c.toJob spawn) p r).1 ≠ .error (.io fault)) :
    match (spawn (c.invocation e) r'.world).1 with
    | .error _ => ∃ fault, (run h launcher (c.toJob spawn) p r).1 = .error fault
    | .ok outcome => ∃ child, (run h launcher (c.toJob spawn) p r).1 = .ok child ∧
      (child.status, (if child.status = .completed ∧ child.exitStatus.isCustom = true
        then child.exitStatus else .ofStatus child.status).code)
          = c.told (some (.ok outcome)) := by
  obtain ⟨started, awake⟩ := handed?_eq_some.1 handed
  have there := (start_ok started).2
  simp only [run, started, perform_command awake] at saved ⊢
  rcases c.perform_cases spawn e r' with ⟨fault, message, w, spawned, raised⟩ |
    ⟨outcome, status, exitStatus, w, spawned, reported, done⟩
  · simp only [spawned, raised]
    exact ⟨_, rfl⟩
  · simp only [spawned, done] at saved ⊢
    rcases finish_ended (h := h) (x := { e with status, exitStatus }) (r := ⟨r'.records, w⟩)
      there with ⟨fault, unsaved⟩ | ⟨child, answer, ended, left⟩
    · exact absurd unsaved (saved fault)
    · exact ⟨child, answer, c.told_report reported ended left⟩

end Launch

namespace NestedStep

variable {n : NestedStep W} {s : StepExecution}

/-- What the body of the child is handed, where an attempt gets as far as that. -/
def handed? (n : NestedStep W) (h : Host W) (s : StepExecution) (r : Repository W) :
    Option (JobExecution × Repository W) :=
  match (n.resolve (begun s (h.now r.world).1)).1 with
  | .error _ => none
  | .ok q => Launch.handed? h n.launcher n.job q ⟨r.records, (h.now r.world).2⟩

theorem handed?_of_resolved {q : Parameters} {t : StepExecution}
    (resolved : n.resolve (begun s (h.now r.world).1) = (.ok q, t)) :
    n.handed? h s r = Launch.handed? h n.launcher n.job q ⟨r.records, (h.now r.world).2⟩ := by
  simp only [handed?, resolved]

/-- An attempt depends on the body of its child only where something is handed to it. -/
theorem execute_congr (n : NestedStep W)
    {body : JobExecution → Repository W → Ending × JobExecution × Repository W}
    (same : ∀ e r', n.handed? h s r = some (e, r') → body e r' = n.job.body e r') :
    { n with job := { n.job with body } }.execute h s r = n.execute h s r := by
  have launched : { n with job := { n.job with body } }.launched h s r = n.launched h s r := by
    simp only [NestedStep.launched, launchChild, show
      { n with job := { n.job with body } }.resolve = n.resolve from rfl]
    rcases resolved : n.resolve (begun s (h.now r.world).1) with ⟨fault | q, t⟩
    · rfl
    · rw [handed?_of_resolved resolved] at same
      simp only [Launch.run_congr same]
  rw [execute_of_launched, execute_of_launched, launched]

theorem calls_execute (contained : Launch.Contained n.job) (h : Host W) (s : StepExecution)
    (r : Repository W) : Records.Calls r.records (n.execute h s r).2.records := by
  rw [execute_records]
  split
  · exact Launch.run_calls h n.launcher contained _ ⟨r.records, (h.now r.world).2⟩
  · exact .refl

/-- The process of the child decides how its step ends, unless a write of the launch
has a fault. -/
theorem tells_process (command : n.job = c.toJob spawn)
    (saved : ∀ fault, (n.launched h s r).1 ≠ .error (.io fault)) :
    ((n.execute h s r).1.status, (n.execute h s r).1.exitStatus.code)
      = c.told ((n.handed? h s r).map fun x => (spawn (c.invocation x.1) x.2.world).1) := by
  have folded := n.folded_execute h s r
  -- Without an answer from the child the step has failed, whatever the reason.
  have failed : ∀ {fault}, (n.launched h s r).1 = .error fault →
      ((n.execute h s r).1.status, (n.execute h s r).1.exitStatus.code)
        = (.failed, "FAILED") := by
    intro fault answer
    obtain ⟨status, exitStatus, _⟩ := folded.failure fault answer
    rw [status, exitStatus]
  rcases resolved : n.resolve (begun s (h.now r.world).1) with ⟨fault | q, t⟩
  · have answer : (n.launched h s r).1 = .error fault := by
      rw [launched_of_unresolved resolved]
    simp only [failed answer, handed?, resolved, Option.map_none, CommandJob.told]
  · have answers : (n.launched h s r).1
        = (Launch.run h n.launcher (c.toJob spawn) q ⟨r.records, (h.now r.world).2⟩).1 := by
      rw [launched_of_resolved resolved, command]
    rw [handed?_of_resolved resolved, command]
    rw [answers] at saved
    cases handed : Launch.handed? h n.launcher (c.toJob spawn) q
        ⟨r.records, (h.now r.world).2⟩ with
    | none =>
      obtain ⟨fault, answer⟩ := Launch.run_unhanded handed
      exact failed (answers.trans answer)
    | some x =>
      have decides := Launch.run_command handed saved
      simp only [Option.map_some]
      cases spawned : (spawn (c.invocation x.1) x.2.world).1 with
      | error _ =>
        rw [spawned] at decides
        obtain ⟨fault, answer⟩ := decides
        exact failed (answers.trans answer)
      | ok outcome =>
        rw [spawned] at decides
        obtain ⟨child, answer, told⟩ := decides
        obtain ⟨status, exitStatus, _⟩ := folded.outcome child (answers.trans answer)
        rw [status, exitStatus, told]

end NestedStep

end NestedBatch

import NestedBatch.Proofs.ExitStatus
import NestedBatch.Proofs.Runner.Closing
import NestedBatch.Proofs.Step.Outcome

/-! How a launch closes its execution. A body that came to its end keeps what it told of
its outcome, as far as it told any; of one that did not, the fault is told besides. The
record is closed whether or not it can be saved. -/
namespace NestedBatch

namespace ExitStatus

variable {e : ExitStatus}

theorem severity_of_custom (custom : e.isCustom = true) : e.severity = 6 := by
  have absent : e.code ∉ frameworkCodes := by simpa [isCustom] using custom
  exact List.idxOf_eq_length absent

theorem isCustom_of_isRunning (running : e.isRunning = true) : e.isCustom = false := by
  unfold isRunning at running
  rw [Bool.or_eq_true, decide_eq_true_eq, decide_eq_true_eq] at running
  unfold isCustom
  rcases running with executing | unknown
  · rw [executing]
    rfl
  · rw [unknown]
    rfl

/-- Joined with a failure, a code of the job's own stays, and any other gives way. -/
theorem code_and_failed (idle : e.isRunning = false) (message : String) :
    (e.and (.failedWith message)).code = if e.isCustom = true then e.code else "FAILED" := by
  obtain ⟨code, description⟩ := e
  cases custom : isCustom ⟨code, description⟩ with
  -- A code of the job's own is the most severe, so that joining keeps it.
  | true =>
    have severe : ¬ severity ⟨code, description⟩ < severity (.failedWith message) := by
      rw [severity_of_custom custom]
      exact (by decide : ¬ 6 < 4)
    unfold ExitStatus.and
    rw [if_neg severe, if_pos rfl]
  | false =>
    have framework : code ∈ frameworkCodes := by simpa [isCustom] using custom
    simp only [frameworkCodes, List.mem_cons, List.not_mem_nil, or_false] at framework
    rcases framework with rfl | rfl | rfl | rfl | rfl | rfl
    all_goals first | rfl | cases idle

end ExitStatus

namespace Launch

variable {W : Type} {h : Host W} {launcher : Launcher} {job : Job W} {p : Parameters}
  {r r₁ r₂ : Repository W} {e e₀ x : JobExecution} {fault : Option String}

/-- The record of an execution whose body came to its end. -/
structure Settles (e x : JobExecution) : Prop where
  status : x.status = settled e.status
  exitStatus : x.exitStatus
    = if e.exitStatus.isRunning = true then .ofStatus x.status else e.exitStatus
  running : x.exitStatus.isRunning = true → x.status = .unknown
  failures : x.failures = e.failures

/-- The record of an execution whose body was ended by a fault. -/
structure Fails (e x : JobExecution) (message : String) : Prop where
  status : x.status = if e.status = .abandoned ∨ e.status = .unknown then e.status else .failed
  code : x.exitStatus.code = if e.exitStatus.isCustom = true then e.exitStatus.code else "FAILED"
  description : if e.exitStatus.isRunning = true then x.exitStatus.description = message
    else e.exitStatus.description.toList <:+: x.exitStatus.description.toList ∧
      message.toList <:+: x.exitStatus.description.toList
  failures : ∃ now, x.failures = e.failures ++ [⟨.childExecution, message, now⟩]

/-- An execution was closed, and the launch answered so. -/
structure Closes (h : Host W) (fault : Option String) (e x : JobExecution)
    (ended : Except BatchError JobExecution × Repository W) : Prop where
  stored : ended.2.records.execution? e.id = some x
  idle : x.status.isRunning = false
  endTime : x.endTime.isSome = true ∧ ∀ t, e.endTime = some t → x.endTime = some t
  /-- All else is as the body left it. The records keep the steps apart. -/
  frame : x = { e with
    status := x.status
    exitStatus := x.exitStatus
    failures := x.failures
    endTime := x.endTime
    lastUpdated := x.lastUpdated
    steps := [] }
  settles : fault = none → Settles e x
  fails : ∀ message, fault = some message → Fails e x message
  /-- A fault of the body is told before one of the write, and that before the outcome. -/
  answer : ∃ unsaved w, h.save ended.2.records w = (unsaved, ended.2.world) ∧
    ended.1 = match fault, unsaved with
      | some message, _ => .error (.jobFault message)
      | none, some io => .error (.io io)
      | none, none => .ok { x with steps := e.steps }

theorem settles_concluded (e : JobExecution) : Settles e (concluded e) := by
  constructor
  · rfl
  · rfl
  · unfold concluded
    dsimp only
    intro running
    split at running
    · revert running
      cases settled e.status <;> decide
    · rename_i idle
      exact absurd running idle
  · rfl

theorem fails_faulted (e : JobExecution) (message : String) (now : Instant) :
    Fails e (faulted e message now) message := by
  constructor
  · show e.status.upgradeTo .failed = _
    cases e.status <;> rfl
  · show (if e.exitStatus.isRunning = true then ExitStatus.failedWith message
      else e.exitStatus.and (.failedWith message)).code = _
    split
    · rename_i running
      rw [ExitStatus.isCustom_of_isRunning running]
      rfl
    · rename_i idle
      exact ExitStatus.code_and_failed (Bool.eq_false_iff.2 idle) message
  · unfold faulted
    dsimp only
    split
    · rfl
    · exact ExitStatus.infix_joinDescriptions _ _
  · exact ⟨now, rfl⟩

def judged (e : JobExecution) (fault : Option String) (now : Instant) : JobExecution :=
  match fault with
  | none => concluded e
  | some message => faulted e message now

theorem with_endTime {t : Instant} (there : e.endTime = some t) :
    { e with endTime := some t } = e := by
  rw [← there]

/-- A closed execution keeps the end that its body recorded. -/
theorem closed_eq (h : Host W) (e : JobExecution) (fault : Option String) (w : W) :
    ∃ occurred now, (closed h e fault w).1
      = { judged e fault occurred with endTime := some (e.endTime.getD now) } := by
  cases fault with
  | none =>
    unfold closed judged
    dsimp only
    split
    · rename_i t there
      have kept : e.endTime = some t := there
      rw [kept]
      exact ⟨.epoch, t, (with_endTime there).symm⟩
    · rename_i there
      have absent : e.endTime = none := there
      rw [absent]
      exact ⟨.epoch, _, rfl⟩
  | some message =>
    unfold closed judged
    dsimp only
    split
    · rename_i t there
      have kept : e.endTime = some t := there
      rw [kept]
      exact ⟨_, t, (with_endTime there).symm⟩
    · rename_i there
      have absent : e.endTime = none := there
      rw [absent]
      exact ⟨_, _, rfl⟩

theorem finish_eq (h : Host W) (fault : Option String)
    (there : r.records.hasExecution e.id = true) :
    ∃ now unsaved w w', h.save (r.records.putExecution
        { (closed h e fault r.world).1 with lastUpdated := now }) w = (unsaved, w') ∧
      finish h e fault r = (match fault, unsaved with
        | some message, _ => .error (.jobFault message)
        | none, some io => .error (.io io)
        | none, none => .ok { (closed h e fault r.world).1 with lastUpdated := now },
        ⟨r.records.putExecution { (closed h e fault r.world).1 with lastUpdated := now }, w'⟩) := by
  have present : r.records.hasExecution (closed h e fault r.world).1.id = true :=
    (sameOrigin_closed h e fault r.world).id ▸ there
  let y := closed h e fault r.world
  rcases saved : h.save (r.records.putExecution { y.1 with lastUpdated := (h.now y.2).1 })
    (h.now y.2).2 with ⟨unsaved, w'⟩
  refine ⟨(h.now y.2).1, unsaved, (h.now y.2).2, w', saved, ?_⟩
  unfold finish
  simp only [Repository.updateExecution, present, if_true, Repository.flush]
  cases fault <;> cases unsaved <;> simp only [y] at saved ⊢ <;> rw [saved] <;> rfl

theorem idle_judged (e : JobExecution) (fault : Option String) (now : Instant) :
    (judged e fault now).status.isRunning = false := by
  cases fault with
  | none => exact isRunning_settled e.status
  | some message =>
    show (e.status.upgradeTo .failed).isRunning = false
    cases e.status <;> rfl

theorem closes_finish (h : Host W) (fault : Option String)
    (there : r.records.hasExecution e.id = true) :
    ∃ x, Closes h fault e x (finish h e fault r) := by
  obtain ⟨now, unsaved, w, w', saved, ended⟩ := finish_eq h fault there
  obtain ⟨occurred, stop, closed⟩ := closed_eq h e fault r.world
  have origin := sameOrigin_closed h e fault r.world
  rw [closed] at saved ended origin
  have present : r.records.hasExecution (judged e fault occurred).id = true := origin.id ▸ there
  refine ⟨{ judged e fault occurred with
    endTime := some (e.endTime.getD stop), lastUpdated := now, steps := [] }, ?_⟩
  rw [ended]
  constructor
  case stored => exact origin.id ▸ Records.execution?_putExecution present
  case idle => exact idle_judged e fault occurred
  case endTime =>
    refine ⟨rfl, fun t there => ?_⟩
    rw [there]
    rfl
  case frame => cases fault <;> rfl
  case settles =>
    rintro rfl
    exact ⟨rfl, rfl, (settles_concluded e).running, rfl⟩
  case fails =>
    rintro message rfl
    have fails := fails_faulted e message occurred
    exact ⟨fails.status, fails.code, fails.description, fails.failures⟩
  case answer =>
    refine ⟨unsaved, w, saved, ?_⟩
    cases fault <;> cases unsaved <;> rfl

/-- What is asked of the body of a job: it leaves the id of its execution alone and
reaches the records by calls only. -/
structure LeavesId (job : Job W) : Prop where
  id : ∀ e r, (job.body e r).2.1.id = e.id
  calls : ∀ e r, Records.Calls r.records (job.body e r).2.2.records

/-- A body is not heard where its task was cancelled, and no more than its fault is where
its task broke off. -/
def Unheard (launcher : Launcher) (ending : Ending) : Prop :=
  launcher = .closedTask ∨ launcher = .task ∧ ∃ payload, ending = .panicked payload

theorem keepsChanges_of_heard {ending : Ending} (heard : ¬ Unheard launcher ending) :
    keepsChanges launcher ending = true := by
  unfold keepsChanges
  split
  · exact absurd (Or.inr ⟨rfl, _, rfl⟩) heard
  · rfl

theorem perform_heard (heard : ¬ Unheard launcher (job.body e r).1) :
    perform launcher job e r = ((job.body e r).1.fault?, (job.body e r).2) := by
  have runs : launcher ≠ .closedTask := fun closed => heard (Or.inl closed)
  rw [perform_eq runs, keepsChanges_of_heard heard]
  rfl

theorem perform_unheard (unheard : Unheard launcher (job.body e r).1) :
    (perform launcher job e r).2.1 = e ∧
      (perform launcher job e r).1 = if launcher = .closedTask
        then some "child job task was cancelled" else (job.body e r).1.fault? := by
  rcases unheard with rfl | ⟨rfl, payload, broke⟩
  · exact ⟨rfl, rfl⟩
  · rw [perform_eq (by decide), broke]
    exact ⟨rfl, rfl⟩

theorem LeavesId.there (leaves : LeavesId job) (launcher : Launcher) (e : JobExecution)
    {r : Repository W} (there : r.records.hasExecution e.id = true) :
    (perform launcher job e r).2.2.records.hasExecution (perform launcher job e r).2.1.id
      = true := by
  by_cases runs : launcher = .closedTask
  · rw [runs]
    exact there
  · have kept := (leaves.calls e r).hasExecution there
    rw [perform_eq runs]
    split
    · exact (leaves.id e r).symm ▸ kept
    · exact kept

/-- A launch closes what its body left of the execution: the outcome that was told stays as
far as there was any, an end that was recorded stays, and a fault is told besides, whether or
not the write has a fault of its own. Where the body is not heard, what is closed is the
execution as it was handed over. -/
theorem launch_closes (h : Host W) (launcher : Launcher) (leaves : LeavesId job)
    (started : start h job p r = (.ok e₀, r₁)) :
    (∃ x, Closes h (perform launcher job e₀ r₁).1 (perform launcher job e₀ r₁).2.1 x
        (run h launcher job p r)) ∧
      (¬ Unheard launcher (job.body e₀ r₁).1 →
        perform launcher job e₀ r₁ = ((job.body e₀ r₁).1.fault?, (job.body e₀ r₁).2)) ∧
      (Unheard launcher (job.body e₀ r₁).1 →
        (perform launcher job e₀ r₁).2.1 = e₀ ∧
          (perform launcher job e₀ r₁).1 = if launcher = .closedTask
            then some "child job task was cancelled" else (job.body e₀ r₁).1.fault?) := by
  refine ⟨?_, perform_heard, perform_unheard⟩
  rw [run_of_started started]
  exact closes_finish h _ (leaves.there launcher e₀ (start_ok started).2)

/-- A job that notes how far it came and then has a full disk. -/
def filling : Job Unit :=
  ⟨"filling", true, fun e r =>
    (.raised "disk full", { e with exitStatus := ⟨"HALF_DONE", "3 of 6"⟩ }, r)⟩

theorem leavesId_filling : LeavesId filling :=
  ⟨fun _ _ => rfl, fun _ _ => .refl⟩

/-- What was noted is told, and so is why there is no more of it. -/
theorem filling_closed : ∃ e₀ r₁ x, start .still filling .firstRun ⟨.empty, ()⟩ = (.ok e₀, r₁) ∧
    Closes .still (some "disk full") (filling.body e₀ r₁).2.1 x
      (run .still .task filling .firstRun ⟨.empty, ()⟩) := by
  obtain ⟨e₀, r₁, started⟩ : ∃ e₀ r₁, start .still filling .firstRun ⟨.empty, ()⟩
      = (.ok e₀, r₁) := ⟨_, _, rfl⟩
  obtain ⟨⟨x, closes⟩, heard, _⟩ := launch_closes .still .task leavesId_filling started
  have performed := heard (by rintro (closed | ⟨_, _, broke⟩) <;> contradiction)
  rw [performed] at closes
  exact ⟨e₀, r₁, x, started, closes⟩

def givenUp (e : JobExecution) : JobExecution := { e with status := .abandoned }

/-- It is not so that what a body left of its execution is what is closed: a task that gave
its execution up and broke off has failed. -/
theorem given_up_not_closed :
    ¬ ∀ (h : Host Unit) (launcher : Launcher) (job : Job Unit) (p : Parameters)
      (r r₁ : Repository Unit) (e₀ : JobExecution), LeavesId job → launcher ≠ .closedTask →
        start h job p r = (.ok e₀, r₁) →
          ∃ x, Closes h (job.body e₀ r₁).1.fault? (job.body e₀ r₁).2.1 x
            (run h launcher job p r) := by
  intro closed
  have leaves : LeavesId (breaking givenUp) := ⟨fun _ _ => rfl, fun _ _ => .refl⟩
  obtain ⟨e₀, r₁, started⟩ : ∃ e₀ r₁, start .still (breaking givenUp) .firstRun ⟨.empty, ()⟩
      = (.ok e₀, r₁) := ⟨_, _, rfl⟩
  obtain ⟨x, closes⟩ := closed .still .task _ _ _ _ _ leaves (by decide) started
  have failed : ∀ y ∈ (run .still .task (breaking givenUp) .firstRun
      ⟨.empty, ()⟩).2.records.executions, y.status = .failed := by decide
  have recorded := failed x (List.mem_of_find?_eq_some closes.stored)
  have abandoned : x.status = .abandoned := (closes.fails _ rfl).status
  cases recorded.symm.trans abandoned

end Launch

end NestedBatch

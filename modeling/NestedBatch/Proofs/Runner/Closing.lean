import NestedBatch.Proofs.Interleaving.Sequential
import NestedBatch.Proofs.Launch.Agreement

/-! A step run closes its parent. Once the parent is under way, each of the writes
that follow may fail, and the step may do to its execution what it likes; in the
end the record of the parent has an end, and tells the outcome of the step or the
first fault that was met. -/
namespace NestedBatch

namespace Records

variable {r : Records}

def execution? (r : Records) (id : Nat) : Option JobExecution :=
  r.executions.find? fun e => e.id = id

def step? (r : Records) (id : Nat) : Option StepExecution := r.steps.find? fun s => s.id = id

theorem find?_replaceFirst {α : Type} {test : α → Bool} {new : α} {l : List α}
    (there : ∃ a ∈ l, test a = true) (found : test new = true) :
    (replaceFirst test new l).find? test = some new := by
  induction l with
  | nil => simp at there
  | cons a rest ih =>
    rw [replaceFirst]
    split
    · exact List.find?_cons_of_pos found
    · rename_i other
      rw [List.find?_cons_of_neg other]
      refine ih ?_
      obtain ⟨b, hb, here⟩ := there
      rcases List.mem_cons.1 hb with rfl | later
      · exact absurd here other
      · exact ⟨b, later, here⟩

theorem execution?_putExecution {e : JobExecution} (there : r.hasExecution e.id = true) :
    (r.putExecution e).execution? e.id = some { e with steps := [] } :=
  find?_replaceFirst (by simpa [hasExecution] using there) (decide_eq_true rfl)

theorem step?_putStep {s : StepExecution} (there : r.hasStep s.id = true) :
    (r.putStep s).step? s.id = some s :=
  find?_replaceFirst (by simpa [hasStep] using there) (decide_eq_true rfl)

theorem hasExecution_congr {r' : Records} (same : r'.executions = r.executions) (id : Nat) :
    r'.hasExecution id = r.hasExecution id := by
  simp only [hasExecution, same]

end Records

namespace Runner

open Interleaving

variable {W : Type} {h : Host W} {step : Step W} {parent : JobExecution} {seed : Context}
  {r : Repository W}

theorem openParent_eq (h : Host W) (job : String) (p : Parameters) (r : Repository W) :
    openParent h job p r = Launch.opened h job p r := rfl

/-- The step execution as it was registered, and what the step then left of it. -/
def executed (h : Host W) (step : Step W) (parent : JobExecution) (seed : Context)
    (r : Repository W) : StepExecution × Repository W :=
  let registered := Repository.addStep h (recalled h step.name parent seed r)
    ⟨r.records, (h.now r.world).2⟩
  step.execute registered.2.1 registered.2.2

def closingAnswer (h : Host W) (parent : JobExecution) (e : BatchError) (r : Repository W) :
    Except BatchError Unit :=
  (Repository.updateExecution h
    (failedParent parent e (h.now r.world).1 (h.now (h.now r.world).2).1)
    ⟨r.records, (h.now (h.now r.world).2).2⟩).1

def outcomeAnswers (h : Host W) (parent : JobExecution) (s : StepExecution) (r : Repository W) :
    List (Except BatchError Unit) :=
  match Repository.updateStep h s r with
  | (.error e, _, r) => [.error e, closingAnswer h parent e r]
  | (.ok _, s, r) =>
    match Repository.updateExecution h (absorb parent s (h.now r.world).1)
        ⟨r.records, (h.now r.world).2⟩ with
    | (.error e, parent, r) => [.ok (), .error e, closingAnswer h parent e r]
    | (.ok _, _, _) => [.ok (), .ok ()]

/-- What the writes of a run are answered from the registration of its step on, in
their order. The closing write of a failed parent comes last. -/
def answers (h : Host W) (step : Step W) (parent : JobExecution) (seed : Context)
    (r : Repository W) : List (Except BatchError Unit) :=
  match Repository.addStep h (recalled h step.name parent seed r)
      ⟨r.records, (h.now r.world).2⟩ with
  | (.error e, _, r) => [.error e, closingAnswer h parent e r]
  | (.ok _, s, r) =>
    .ok () :: outcomeAnswers h parent (step.execute s r).1 (step.execute s r).2

def firstFault : List (Except BatchError Unit) → Option BatchError
  | [] => none
  | .ok _ :: rest => firstFault rest
  | .error e :: _ => some e

/-- How the record of a parent stands when its run has answered. -/
def Tells (x : JobExecution) (records : Records) (fault : Option BatchError) (left : Status) :
    Except BatchError StepExecution → Prop
  | .ok s =>
    fault = none ∧ records.step? s.id = some s ∧ x.status = Status.started.upgradeTo s.status ∧
      x.exitStatus = s.exitStatus ∧ x.failures = s.failures
  | .error e =>
    fault = some e ∧ (x.status = .failed ∨ (x.status = .abandoned ∨ x.status = .unknown) ∧
      x.status = left) ∧ x.status.isUnsuccessful = true ∧
      x.exitStatus = ⟨"FAILED", e.message⟩ ∧ ∃ now, x.failures.getLast? = some (e.cause now)

/-- A parent that is closed as failed is not taken back from where its step had taken it. -/
theorem closing_status (s : Status) :
    ((Status.started.upgradeTo s).upgradeTo .failed = .failed ∨
        ((Status.started.upgradeTo s).upgradeTo .failed = .abandoned ∨
          (Status.started.upgradeTo s).upgradeTo .failed = .unknown) ∧
        (Status.started.upgradeTo s).upgradeTo .failed = s) ∧
      ((Status.started.upgradeTo s).upgradeTo .failed).isUnsuccessful = true := by
  cases s <;> decide

theorem idle_of_endTime {x : JobExecution} (ended : x.endTime.isSome = true) :
    x.isRunning = false := by
  simp only [JobExecution.isRunning, Bool.and_eq_false_iff, Option.isNone_eq_false_iff]
  exact Or.inr ended

/-- Closing a parent succeeds in memory, whether or not it can be saved. -/
theorem closeFailed_record (e : BatchError) (there : r.records.hasExecution parent.id = true) :
    ∃ x now, (closeFailed h parent e r).records.execution? parent.id = some x ∧
      x.endTime.isSome = true ∧ x.status = parent.status.upgradeTo .failed ∧
      x.exitStatus = .failedWith e.message ∧ x.failures = parent.failures ++ [e.cause now] := by
  let failed := failedParent parent e (h.now r.world).1 (h.now (h.now r.world).2).1
  obtain ⟨updated, _, put⟩ := Repository.updateExecution_effect h failed
    ⟨r.records, (h.now (h.now r.world).2).2⟩
  have records : (closeFailed h parent e r).records
      = r.records.putExecution { failed with lastUpdated := updated } := put
  refine ⟨{ failed with lastUpdated := updated, steps := [] }, (h.now r.world).1, ?_, rfl, rfl,
    rfl, rfl⟩
  rw [records]
  exact Records.execution?_putExecution (e := { failed with lastUpdated := updated }) there

/-- What is left of a parent that is closed before the step's outcome reached it, or after. -/
theorem tells_closed {e : BatchError} {records : Records} {fault : Option BatchError}
    {s left : Status} (first : fault = some e)
    (there : r.records.hasExecution parent.id = true)
    (reached : parent.status = Status.started.upgradeTo s)
    (source : s = left ∨ s = .started) :
    ∃ x, (closeFailed h parent e r).records.execution? parent.id = some x ∧
      x.endTime.isSome = true ∧ Tells x records fault left (.error e) := by
  obtain ⟨x, now, found, ended, status, exitStatus, failures⟩ :=
    closeFailed_record (h := h) e there
  obtain ⟨which, unsuccessful⟩ := closing_status s
  rw [reached] at status
  refine ⟨x, found, ended, first, ?_, status ▸ unsuccessful, exitStatus, now, ?_⟩
  · rw [status]
    rcases source with rfl | rfl
    · exact which
    · exact Or.inl rfl
  · rw [failures, List.getLast?_append]
    rfl

theorem conclude_recordStep (s : StepExecution) (new : Launch.IsNew parent)
    (there : r.records.hasExecution parent.id = true) :
    ∃ x, (concludeParent h (recordStep h parent s r)).2.records.execution? parent.id = some x ∧
      x.endTime.isSome = true ∧
      Tells x (concludeParent h (recordStep h parent s r)).2.records
        (firstFault (outcomeAnswers h parent s r)) s.status
        (concludeParent h (recordStep h parent s r)).1 := by
  have executions := (Repository.updateStep_frame h s r).1
  rcases saved : Repository.updateStep h s r with ⟨answer, s', r₁⟩
  rw [saved] at executions
  have kept : r₁.records.hasExecution parent.id = true :=
    (Records.hasExecution_congr executions parent.id).trans there
  cases answer with
  | error e =>
    simp only [recordStep, outcomeAnswers, saved, concludeParent]
    exact tells_closed rfl kept (s := .started) new.status (Or.inr rfl)
  | ok _ =>
    obtain ⟨status, exitStatus, failures, recorded⟩ :
        s'.status = s.status ∧ s'.exitStatus = s.exitStatus ∧ s'.failures = s.failures ∧
          r₁.records.step? s'.id = some s' := by
      cases present : r.records.hasStep s.id with
      | false => cases saved.symm.trans (Repository.updateStep_absent h present)
      | true =>
        obtain ⟨_, t, w, recorded, rfl, _⟩ := Repository.updateStep_present h present
        cases saved.symm.trans recorded
        exact ⟨rfl, rfl, rfl, Records.step?_putStep present⟩
    obtain ⟨answer, w, updated, outcome⟩ := Repository.updateExecution_present h
      (e := absorb parent s' (h.now r₁.world).1) (r := ⟨r₁.records, (h.now r₁.world).2⟩) kept
    have reached : (absorb parent s' (h.now r₁.world).1).status
        = Status.started.upgradeTo s.status := by
      simp only [absorb, JobExecution.upgradeStatus, new.status, status]
    rcases outcome with rfl | ⟨fault, rfl⟩
    · simp only [recordStep, outcomeAnswers, saved, updated, concludeParent]
      refine ⟨_, Records.execution?_putExecution kept, rfl, rfl, recorded, ?_, rfl, ?_⟩
      · exact status ▸ reached
      · simp only [absorb, JobExecution.upgradeStatus, new.failures, List.nil_append]
    · simp only [recordStep, outcomeAnswers, saved, updated, concludeParent]
      have present : (r₁.records.putExecution { absorb parent s' (h.now r₁.world).1 with
          lastUpdated := (h.now (h.now r₁.world).2).1 }).hasExecution
            ({ absorb parent s' (h.now r₁.world).1 with
              lastUpdated := (h.now (h.now r₁.world).2).1 } : JobExecution).id = true :=
        Records.hasExecution_putExecution kept
      exact tells_closed rfl present reached (Or.inl rfl)

/-- A parent that is under way is closed when its run is over, whatever its step did
and whichever writes could not be saved. If the run answers with the step, the step
is recorded as answered and the parent tells its outcome; if it answers with a
fault, that is the first one met, and the parent has failed by it. -/
theorem parent_closed (h : Host W) (step : Step W)
    (calls : ∀ s r, Records.Calls r.records (step.execute s r).2.records)
    {job : String} {p : Parameters} (seed : Context) {r r' : Repository W} {parent : JobExecution}
    (opened : openParent h job p r = (.ok parent, r')) :
    ∃ x, (run h step job p seed r).2.records.execution? parent.id = some x ∧
      x.isRunning = false ∧ x.endTime.isSome = true ∧
      Tells x (run h step job p seed r).2.records
        (firstFault (answers h step parent seed r')) (executed h step parent seed r').1.status
        (run h step job p seed r).1 := by
  obtain ⟨new, there⟩ := Launch.opened_ok opened
  suffices closed : ∃ x, (run h step job p seed r).2.records.execution? parent.id = some x ∧
      x.endTime.isSome = true ∧ Tells x (run h step job p seed r).2.records
        (firstFault (answers h step parent seed r')) (executed h step parent seed r').1.status
        (run h step job p seed r).1 by
    obtain ⟨x, found, ended, tells⟩ := closed
    exact ⟨x, found, idle_of_endTime ended, ended, tells⟩
  have executions := (Repository.addStep_frame h (recalled h step.name parent seed r')
    ⟨r'.records, (h.now r'.world).2⟩).1
  rw [run_eq, opened]
  simp only [answers, executed]
  rcases added : Repository.addStep h (recalled h step.name parent seed r')
    ⟨r'.records, (h.now r'.world).2⟩ with ⟨answer, s, r₁⟩
  rw [added] at executions
  have kept : r₁.records.hasExecution parent.id = true :=
    (Records.hasExecution_congr executions parent.id).trans there
  cases answer with
  | error e =>
    simp only [concludeParent]
    exact tells_closed rfl kept (s := .started) new.status (Or.inr rfl)
  | ok _ => exact conclude_recordStep _ new ((calls s r₁).hasExecution kept)

/-- A place that has no room at one of the attempts to save, and room at all others. -/
def fullOnce (n : Nat) : Host Nat :=
  ⟨fun w => (.epoch, w), fun _ w => (if w = n then some .noSpace else none, w + 1)⟩

def abandoning : Step Nat := ⟨"load", fun s r => ({ s with status := .abandoned }, r)⟩

/-- The outcome of an abandoned step cannot be saved: the parent stays abandoned, and
tells the fault. -/
theorem abandoned_parent_closed :
    ∃ parent r', openParent (fullOnce 4) "parent" .empty ⟨.empty, 0⟩ = (.ok parent, r') ∧
      (run (fullOnce 4) abandoning "parent" .empty .empty ⟨.empty, 0⟩).1
        = .error (.io .noSpace) ∧
      ∃ x, (run (fullOnce 4) abandoning "parent" .empty .empty
          ⟨.empty, 0⟩).2.records.execution? parent.id = some x ∧
        x.isRunning = false ∧ x.endTime.isSome = true ∧
        x.exitStatus = ⟨"FAILED", (BatchError.io .noSpace).message⟩ := by
  obtain ⟨parent, r', opened⟩ : ∃ parent r',
      openParent (fullOnce 4) "parent" .empty ⟨.empty, 0⟩ = (.ok parent, r') := ⟨_, _, rfl⟩
  have answered : (run (fullOnce 4) abandoning "parent" .empty .empty ⟨.empty, 0⟩).1
      = .error (.io .noSpace) := rfl
  obtain ⟨x, found, idle, ended, tells⟩ :=
    parent_closed (fullOnce 4) abandoning (fun _ _ => .refl) .empty opened
  rw [answered] at tells
  exact ⟨parent, r', opened, answered, x, found, idle, ended, tells.2.2.2.1⟩

end Runner

end NestedBatch

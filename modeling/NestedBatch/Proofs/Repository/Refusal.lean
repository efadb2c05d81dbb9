import NestedBatch.Machine.Basic
import NestedBatch.Proofs.Repository.Operation

/-! Operations that are refused because there is no record with an id that they name.
Nothing is changed or saved by them. Yet a step execution that was to be put back is
stamped before it is looked for, so that its caller's copy counts as saved. -/
namespace NestedBatch

variable {W : Type}

/-- Is the error that there is no record with an id that was named? -/
def BatchError.IsAbsence : BatchError → Prop
  | noSuchExecution _ | noSuchStep _ => True
  | _ => False

namespace Answer

def errorOf {α : Type} : Except BatchError α → Option BatchError
  | .error e => some e
  | .ok _ => none

/-- The error that an operation is answered with. -/
def error? : Answer → Option BatchError
  | created result => errorOf result
  | updated result _ | stepped result _ => errorOf result
  | last _ | has _ | lastStep _ | all _ => none

end Answer

namespace Repository

/-- What got as far as saving was not refused for want of a record. -/
theorem Saved.present {α : Type} {a : α} {answer : Except BatchError α} (saved : Saved a answer)
    {e : BatchError} (refused : Answer.errorOf answer = some e) : ¬ e.IsAbsence := by
  rcases saved with rfl | ⟨fault, rfl⟩
  · cases refused
  · cases refused
    exact id

end Repository

namespace Operation

open Repository

variable {h : Host W} {o : Operation} {r : Repository W} {e : BatchError}

/-- The operation with its caller's copy as it is after the answer. -/
def after : Operation → Answer → Operation
  | update _, .updated _ e => update e
  | addStep _, .stepped _ s => addStep s
  | updateStep _, .stepped _ s => updateStep s
  | o, _ => o

/-- The operation with its caller's copy as it is when its record is looked for. -/
def stamped (now : Instant) : Operation → Operation
  | updateStep s => updateStep { s with lastUpdated := now, context := s.context.clearDirty }
  | o => o

/-- A copy is stamped without a change if it was just stamped, and is not unsaved. -/
theorem stamped_eq_iff {now : Instant} :
    o.stamped now = o ↔ ∀ s, o = updateStep s → s.lastUpdated = now ∧ s.context.dirty = false := by
  cases o with
  | updateStep s =>
    constructor
    · intro same
      rintro t ⟨⟩
      have whole := Operation.updateStep.inj same
      have time := congrArg StepExecution.lastUpdated whole
      have flag := congrArg (fun t => t.context.dirty) whole
      exact ⟨time.symm, flag.symm⟩
    · intro settled
      obtain ⟨time, flag⟩ := settled s rfl
      have context : s.context.clearDirty = s.context := by
        rw [Context.clearDirty, ← flag]
      rw [stamped, context, ← time]
  | create _ _ | update _ | addStep _ | last _ _ | has _ _ | lastStep _ _ | all =>
    exact ⟨fun _ _ other => (by cases other), fun _ => rfl⟩

/-- An operation that misses its record has looked at the clock at most. -/
theorem run_of_absence (refused : (o.run h r).1.error? = some e) (absent : e.IsAbsence) :
    (∃ w, (w = r.world ∨ w = (h.now r.world).2) ∧ (o.run h r).2 = ⟨r.records, w⟩) ∧
      o.after (o.run h r).1 = o.stamped (h.now r.world).1 := by
  cases o with
  | create job p =>
    refine ⟨⟨r.world, Or.inl rfl, ?_⟩, rfl⟩
    cases found : r.records.findOrMakeInstance job p with
    | error fault => simp only [run, createExecution_refused h found]
    | ok made =>
      obtain ⟨answer, w, created, saved⟩ := createExecution_admitted h found
      simp only [run, created] at refused
      exact absurd absent (saved.present refused)
  | update x =>
    cases there : r.records.hasExecution x.id with
    | false =>
      simp only [run, updateExecution_absent h there]
      exact ⟨⟨r.world, Or.inl rfl, rfl⟩, rfl⟩
    | true =>
      obtain ⟨answer, w, updated, saved⟩ := updateExecution_present h there
      simp only [run, updated] at refused
      exact absurd absent (saved.present refused)
  | addStep s =>
    cases there : r.records.hasExecution s.jobExecutionId with
    | false =>
      simp only [run, addStep_absent h there]
      exact ⟨⟨r.world, Or.inl rfl, rfl⟩, rfl⟩
    | true =>
      obtain ⟨answer, t, w, added, _, saved⟩ := addStep_present h there
      simp only [run, added] at refused
      exact absurd absent (saved.present refused)
  | updateStep s =>
    cases there : r.records.hasStep s.id with
    | false =>
      simp only [run, updateStep_absent h there]
      exact ⟨⟨(h.now r.world).2, Or.inr rfl, rfl⟩, rfl⟩
    | true =>
      obtain ⟨answer, t, w, updated, _, saved⟩ := updateStep_present h there
      simp only [run, updated] at refused
      exact absurd absent (saved.present refused)
  | last _ _ | has _ _ | lastStep _ _ | all => cases refused

/-- An operation that misses its record changes no records and nothing that looking at the
clock leaves alone, such as a file. Its caller's copy is as before, but for the stamp of a
step execution that was to be put back; so it is as before unless that stamp is new or
takes a mark for unsaved changes away. -/
theorem absence_leaves {D : Type} (disk : W → D) (still : ∀ w, disk (h.now w).2 = disk w)
    (refused : (o.run h r).1.error? = some e) (absent : e.IsAbsence) :
    (o.run h r).2.records = r.records ∧ disk (o.run h r).2.world = disk r.world ∧
      o.after (o.run h r).1 = o.stamped (h.now r.world).1 ∧
      (o.after (o.run h r).1 = o ↔ ∀ s, o = updateStep s →
        s.lastUpdated = (h.now r.world).1 ∧ s.context.dirty = false) := by
  obtain ⟨⟨w, looked, left⟩, copy⟩ := run_of_absence refused absent
  refine ⟨?_, ?_, copy, ?_⟩
  · rw [left]
  · rw [left]
    rcases looked with rfl | rfl
    · rfl
    · exact still r.world
  · rw [copy]
    exact stamped_eq_iff

def bare : Machine := .boot .empty .empty

/-- A copy whose context holds a change that was not saved. -/
def unsavedStep : StepExecution :=
  { (JobExecution.create 7 ⟨1, "load", ""⟩ .empty .epoch).newStep "copy" .epoch with
    context := Context.empty.put "note" (.bool true) }

def strayed : Answer × Repository Machine :=
  (addStep unsavedStep).run (Machine.host (some "records.json")) ⟨.empty, bare⟩

/-- A step execution cannot be filed under an execution that is not there, and stays unsaved. -/
theorem stray_step_left :
    strayed.1.error? = some (.noSuchExecution 7) ∧ strayed.2.records = .empty ∧
      strayed.2.world.files = bare.files ∧
      (addStep unsavedStep).after strayed.1 = addStep unsavedStep := by
  have refused : strayed.1.error? = some (.noSuchExecution 7) := rfl
  obtain ⟨records, files, _, same⟩ :=
    absence_leaves Machine.files (fun _ => rfl) refused trivial
  exact ⟨refused, records, files, same.2 fun _ other => by cases other⟩

/-- A change that was never written counts as saved once the step execution was missed. -/
theorem absence_marks_saved :
    ¬ ∀ (o : Operation) (r : Repository Machine) (e : BatchError),
      (o.run (Machine.host none) r).1.error? = some e → e.IsAbsence →
        o.after (o.run (Machine.host none) r).1 = o := by
  intro unchanged
  have same := unchanged (updateStep unsavedStep) ⟨.empty, bare⟩ (.noSuchStep 0) rfl trivial
  have flag := congrArg (fun s => s.context.dirty) (Operation.updateStep.inj same)
  exact absurd flag (by decide)

end Operation

end NestedBatch

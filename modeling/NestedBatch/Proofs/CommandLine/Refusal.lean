import NestedBatch.Proofs.CommandLine.Outcome
import NestedBatch.Proofs.Launch.Admission
import NestedBatch.Proofs.Step.Extraction

/-! Requests that are refused. All that a run is given is looked at before its parent is
made, and nothing is written, printed or started before that. So a run that does not get
as far as its parent leaves the machine as it was. A request for the status only prints. -/
namespace NestedBatch

theorem Except.bind_ok_iff {ε α β : Type} {x : Except ε α} {f : α → Except ε β} {b : β} :
    x >>= f = .ok b ↔ ∃ a, x = .ok a ∧ f a = .ok b := by
  cases x <;> simp [bind, Except.bind]

theorem Parameter.setOfAssignments_ok_iff {given : List String} :
    (∃ p, setOfAssignments given = .ok p) ↔ ∀ a ∈ given, ∃ named, ofAssignment a = .ok named := by
  have assignments : (∃ read, given.mapM ofAssignment = .ok read) ↔
      ∀ a ∈ given, ∃ named, ofAssignment a = .ok named := by
    induction given with
    | nil => exact iff_of_true ⟨[], rfl⟩ (List.forall_mem_nil _)
    | cons a rest ih =>
      rw [List.forall_mem_cons, ← ih, List.mapM_cons]
      cases ofAssignment a with
      | error fault => simp [bind, Except.bind]
      | ok named =>
        cases rest.mapM ofAssignment <;> simp [bind, Except.bind, pure, Except.pure]
  rw [← assignments, setOfAssignments]
  cases given.mapM ofAssignment <;> simp [Except.map]

/-- The configuration of a run, where the options have the last word. -/
def RunOptions.applied (o : RunOptions) (config : RunConfig) : RunConfig :=
  { config with
    store := o.store.or config.store
    launcher := o.launcher.getD config.launcher }

namespace CommandLine

variable {o : RunOptions} {m : Machine} {p : Prepared}

theorem contextOf_ok_iff {c : Context} {given : List String} :
    (∃ read, contextOf c given = .ok read) ↔ ∀ a ∈ given, (contextEntry a).isSome = true := by
  induction given generalizing c with
  | nil => exact iff_of_true ⟨c, rfl⟩ (List.forall_mem_nil _)
  | cons a rest ih =>
    rw [contextOf, List.forall_mem_cons]
    cases contextEntry a with
    | none => simp
    | some entry => simp only [Option.isSome_some, true_and, ih]

/-- All that is made ready, in the order in which it is. -/
theorem prepare_ok_iff :
    prepare o m = .ok p ↔ ∃ config, RunConfig.load m o.config = .ok config ∧
      o.applied config = p.config ∧ openStore m (o.applied config).store = .ok p.records ∧
      (o.applied config).child.toJob = .ok p.child ∧
      Parameter.setOfAssignments o.parameters = .ok p.parameters ∧
      contextOf .empty o.context = .ok p.seed := by
  simp only [prepare, Except.bind_ok_iff, Except.mapError_ok_iff]
  constructor
  · rintro ⟨config, loaded, records, opened, child, made, parameters, assigned, seed, put, done⟩
    cases done
    exact ⟨config, loaded, rfl, opened, made, assigned, put⟩
  · rintro ⟨config, loaded, applied, opened, made, assigned, put⟩
    obtain ⟨config', records, child, parameters, seed⟩ := p
    cases applied
    exact ⟨config, loaded, records, opened, child, made, parameters, assigned, seed, put, rfl⟩

/-- What a run has to be given for its parent to be made. -/
structure Clears (o : RunOptions) (m : Machine) (config : RunConfig) (records : Records)
    (parameters : Parameters) : Prop where
  loaded : RunConfig.load m o.config = .ok config
  opened : openStore m (o.store.or config.store) = .ok records
  command : config.child.command ≠ []
  codes : ∀ entry ∈ config.child.exitCodes.entries, ChildConfig.IsCode entry.1
  assignments : ∀ given ∈ o.parameters, ∃ named, Parameter.ofAssignment given = .ok named
  assigned : Parameter.setOfAssignments o.parameters = .ok parameters
  context : ∀ given ∈ o.context, (contextEntry given).isSome = true
  free : ∀ e ∈ records.recorded config.parentJob parameters,
    Records.obstacle? config.parentJob parameters e = none

/-- Does the run get as far as making its parent? -/
def ParentMade (o : RunOptions) (m : Machine) : Prop :=
  ∃ p, prepare o m = .ok p ∧ (p.parent? m).2.records.executions ≠ p.records.executions

theorem parent?_refused {fault : BatchError}
    (refused : p.records.findOrMakeInstance p.config.parentJob p.parameters = .error fault) :
    p.parent? m = (.error fault, ⟨p.records, m⟩) :=
  Repository.createExecution_refused p.host refused

theorem parent?_made_iff :
    (p.parent? m).2.records.executions ≠ p.records.executions ↔
      ∀ e ∈ p.records.recorded p.config.parentJob p.parameters,
        Records.obstacle? p.config.parentJob p.parameters e = none := by
  rw [← Records.findOrMakeInstance_ok_iff]
  cases found : p.records.findOrMakeInstance p.config.parentJob p.parameters with
  | error fault => simp [parent?_refused found]
  | ok admitted =>
    refine iff_of_true ?_ ⟨admitted, rfl⟩
    obtain ⟨answer, w, created, _⟩ :=
      Repository.createExecution_admitted p.host (r := ⟨p.records, m⟩) found
    rw [Prepared.parent?, created]
    simp [Records.newExecution, (Records.findOrMakeInstance_frame found).1]

theorem parentMade_iff :
    ParentMade o m ↔ ∃ config records parameters, Clears o m config records parameters := by
  constructor
  · rintro ⟨p, prepared, made⟩
    obtain ⟨config, loaded, applied, opened, child, parameters, seed⟩ := prepare_ok_iff.1 prepared
    obtain ⟨command, codes⟩ := ChildConfig.toJob_ok_iff.1 ⟨p.child, child⟩
    have free := parent?_made_iff.1 made
    rw [← applied] at free
    exact ⟨config, p.records, p.parameters, {
      loaded, opened, command, codes
      assigned := parameters
      assignments := Parameter.setOfAssignments_ok_iff.1 ⟨p.parameters, parameters⟩
      context := contextOf_ok_iff.1 ⟨p.seed, seed⟩
      free }⟩
  · rintro ⟨config, records, parameters, clears⟩
    obtain ⟨child, isChild⟩ := ChildConfig.toJob_ok_iff.2 ⟨clears.command, clears.codes⟩
    obtain ⟨seed, isSeed⟩ := contextOf_ok_iff (c := .empty).2 clears.context
    refine ⟨⟨o.applied config, records, child, parameters, seed⟩, prepare_ok_iff.2 ?_,
      parent?_made_iff.2 clears.free⟩
    exact ⟨config, clears.loaded, rfl, clears.opened, isChild, clears.assigned, isSeed⟩

/-- A parent that is refused ends the run there. -/
theorem Prepared.run_refused {fault : BatchError}
    (refused : p.records.findOrMakeInstance p.config.parentJob p.parameters = .error fault)
    (spawn : Spawner Machine) (verbose : Bool) :
    p.run spawn verbose m = (.failed fault.chain, m) := by
  have refused : p.parent? m = (.error fault, ⟨p.records, m⟩) := parent?_refused refused
  simp only [Prepared.parent?] at refused
  simp only [run, Runner.run, Runner.openParent, refused]

/-- A run that makes no parent ends with the text of an error, and leaves the machine as it
was. That is so with anything that processes could be started with, so none is. -/
theorem run_without_parent (refused : ¬ ParentMade o m) :
    ∃ message, ∀ spawn verbose, execute spawn ⟨.run o, verbose⟩ m = (.failed message, m) := by
  -- Either something that was given cannot be read, or the parent is refused.
  cases prepared : prepare o m with
  | error message => exact ⟨message, fun spawn verbose => by simp only [execute, prepared]⟩
  | ok p =>
    cases found : p.records.findOrMakeInstance p.config.parentJob p.parameters with
    | error fault =>
      refine ⟨fault.chain, fun spawn verbose => ?_⟩
      rw [execute_prepared prepared]
      exact p.run_refused found spawn verbose
    | ok admitted =>
      have free := Records.findOrMakeInstance_ok_iff.1 ⟨admitted, found⟩
      exact absurd ⟨p, prepared, parent?_made_iff.2 free⟩ refused

theorem status_prints (store : String) (m : Machine) :
    ∃ outcome text, ∀ spawn verbose,
      execute spawn ⟨.status store, verbose⟩ m = (outcome, m.print text) := by
  cases opened : openStore m (some store) with
  | error message =>
    refine ⟨.failed message, "", fun spawn verbose => ?_⟩
    simp only [execute, opened, Machine.print, String.append_empty]
  | ok records =>
    exact ⟨_, _, fun spawn verbose => by simp only [execute, opened]; rfl⟩

/-- A run that is refused leaves no trace. Either its parent is made, which is so exactly
if everything that it was given can be read and no recorded execution stands in the way,
or the run only tells an error: no file is changed, nothing is printed, and no process is
started. A request for the status never does more than print. -/
theorem refusal_leaves_no_trace (m : Machine) :
    (∀ o, ParentMade o m ∨
      ∃ message, ∀ spawn verbose, execute spawn ⟨.run o, verbose⟩ m = (.failed message, m)) ∧
      (∀ o, ParentMade o m ↔
        ∃ config records parameters, Clears o m config records parameters) ∧
      ∀ store, ∃ outcome text, ∀ spawn verbose,
        execute spawn ⟨.status store, verbose⟩ m = (outcome, m.print text) := by
  refine ⟨fun o => ?_, fun o => parentMade_iff, fun store => status_prints store m⟩
  exact (Classical.em (ParentMade o m)).imp id run_without_parent

end CommandLine

end NestedBatch

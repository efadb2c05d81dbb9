import NestedBatch.Proofs.CommandLine.Refusal
import NestedBatch.Proofs.Runner.Finite
import NestedBatch.Proofs.Step.Extraction

/-! No run that is asked for on the command line records a double that is not finite: not
from the parameters and the context that it is given, not from the store that it opens,
and not from what earlier runs have left there. -/
namespace NestedBatch.CommandLine

variable {spawn : Spawner Machine} {o : RunOptions} {m : Machine} {p : Prepared}

theorem allFinite_contextOf {c seed : Context} (finite : c.AllFinite) {given : List String}
    (read : contextOf c given = .ok seed) : seed.AllFinite := by
  induction given generalizing c with
  | nil =>
    cases read
    exact finite
  | cons text rest ih =>
    simp only [contextOf, contextEntry] at read
    cases cut : Text.cutFirst '=' text.toList with
    | none =>
      simp only [cut, Option.map_none, reduceCtorEq] at read
    | some parts =>
      simp only [cut, Option.map_some] at read
      exact ih (finite.put (ContextValue.allFinite_infer _) _) read

theorem allFinite_openStore {store : Option String} {records : Records}
    (opened : openStore m store = .ok records) : records.AllFinite := by
  cases store with
  | none =>
    cases opened
    exact Records.allFinite_empty
  | some store =>
    simp only [openStore] at opened
    split at opened
    · rename_i held found
      cases opened
      unfold Machine.openRecords at found
      split at found
      · split at found
        · cases found
        · split at found
          · rename_i read
            cases found
            exact Records.allFinite_ofText? read
          · cases found
      · cases found
        exact Records.allFinite_empty
    · cases opened

theorem Prepared.keepsFinite (p : Prepared) (spawn : Spawner Machine) :
    (p.step spawn).KeepsFinite :=
  ⟨fun _ _ finite extracted =>
    Extraction.allFinite_parameters finite (Extraction.derive_eq_ok.1 extracted),
    p.child.keepsFinite spawn⟩

/-- A run has to do with finite doubles only: in the records that it starts from, in those
that it leaves, and in all that it hands over to be saved in between. A host that did
anything else with records of another kind, say left a mark, would not be noticed. -/
structure Prepared.RunsFinite (p : Prepared) (spawn : Spawner Machine) (m : Machine) : Prop where
  opened : p.records.AllFinite
  saved : ∀ h, h.AgreesOnFinite p.host →
    Runner.run h ((p.step spawn).toStep h) p.config.parentJob p.parameters p.seed ⟨p.records, m⟩
      = p.ended spawn m
  left : (p.ended spawn m).2.records.AllFinite

theorem runsFinite_of_prepared (prepared : prepare o m = .ok p) (spawn : Spawner Machine) :
    p.RunsFinite spawn m := by
  obtain ⟨config, _, _, opened, _, assigned, put⟩ := prepare_ok_iff.1 prepared
  have records := allFinite_openStore opened
  have parameters := Parameter.allFinite_of_setOfAssignments assigned
  have seed := allFinite_contextOf Context.allFinite_empty put
  have alike : ∀ h : Host Machine, h.AgreesOnFinite p.host →
      AlikeFinite StepExecution.AllFinite
        (Runner.run h ((p.step spawn).toStep h) p.config.parentJob p.parameters p.seed
          ⟨p.records, m⟩) (p.ended spawn m) := by
    intro h agree
    exact Runner.alike_run agree (NestedStep.stepsAlike agree (p.keepsFinite spawn)) records
      parameters seed
  exact ⟨records, fun h agree => (alike h agree).same,
    (alike p.host ⟨rfl, fun _ _ => rfl⟩).records⟩

/-- A command that is given, and what its processes are started with. -/
structure Call where
  spawn : Spawner Machine
  command : CommandLine

/-- In each of some commands, given one after the other, every run is finite. -/
def EachFinite : List Call → Machine → Prop
  | [], _ => True
  | c :: rest, m =>
    (∀ o p, c.command.request = .run o → prepare o m = .ok p → p.RunsFinite c.spawn m) ∧
      EachFinite rest (execute c.spawn c.command m).2

theorem eachFinite (calls : List Call) (m : Machine) : EachFinite calls m := by
  induction calls generalizing m with
  | nil => trivial
  | cons c rest ih => exact ⟨fun _ _ _ prepared => runsFinite_of_prepared prepared c.spawn, ih _⟩

/-- No double that is not finite is ever made. None is inferred or read from a text, none is
extracted where the context and the parameters of the parent have no such double, and none is
put in the context then. So, whatever commands are given one after the other, with whatever
in the store and whatever processes, no run records one. -/
theorem only_finite_doubles :
    (∀ raw, (ContextValue.infer raw).AllFinite) ∧
      (∀ (type : ParameterType) name raw v, type.read name raw = .ok v → v.IsFinite) ∧
      (∀ (x : Extraction) s q, s.AllFinite → x.parameters s = .ok q → q.AllFinite) ∧
      (∀ {W : Type} (n : NestedStep W) (x : Extraction) s, n.derive = x.derive →
        s.AllFinite → (n.resolve s).2.context.AllFinite) ∧
      ∀ calls m, EachFinite calls m := by
  refine ⟨ContextValue.allFinite_infer, fun _ _ _ _ => ParameterType.isFinite_of_read,
    fun _ _ _ => Extraction.allFinite_parameters, ?_, eachFinite⟩
  intro W n x s derives finite
  have extracts : ∀ q, n.derive s = .ok q → q.AllFinite := by
    intro q derived
    rw [derives] at derived
    exact Extraction.allFinite_parameters finite (Extraction.derive_eq_ok.1 derived)
  exact (n.allFinite_resolve extracts finite).2.context

theorem eq_ok_of_toOption {ε α : Type} {x : Except ε α} {a : α} (found : x.toOption = some a) :
    x = .ok a := by
  cases x with
  | error fault => cases found
  | ok b => exact congrArg Except.ok (Option.some.inj found)

/-- A step execution with a count and a rate in its context. -/
def counting : StepExecution :=
  { (JobExecution.create 2 ⟨1, "load", "key"⟩ .empty .epoch).newStep "copy" .epoch with
    context := (Context.empty.put "count" (.infer "5")).put "rate" (.infer "0.5") }

/-- A large double is read, a count that is wanted as a double becomes one, and so is all
finite that a run of the job records. -/
theorem count_and_rate_finite :
    (∃ v, ParameterType.double.read "rate" " 1e300 " = .ok v ∧ v.IsFinite) ∧
      (counting.AllFinite ∧ ∃ q, Extraction.parameters ⟨["count(double)", "rate"], true⟩ counting
        = .ok q ∧ q.size = 2 ∧ q.AllFinite) ∧
      ((mapping.step (ending (.exited 3))).resolve counting).2.context.AllFinite ∧
      prepare mappingRun mappingMachine = .ok mapping ∧
      mapping.RunsFinite (ending (.exited 3)) mappingMachine := by
  obtain ⟨inferred, reads, extracts, resolves, runs⟩ := only_finite_doubles
  have finite : counting.AllFinite := by
    refine ⟨Parameters.allFinite_empty, ?_⟩
    exact (Context.allFinite_empty.put (inferred "5") "count").put (inferred "0.5") "rate"
  have large : (ParameterType.double.read "rate" " 1e300 ").toOption.isSome = true := by
    decide +kernel
  obtain ⟨v, read⟩ := Option.isSome_iff_exists.1 large
  have two : ((Extraction.parameters ⟨["count(double)", "rate"], true⟩ counting).toOption.map
      KeyMap.size) = some 2 := by
    decide +kernel
  obtain ⟨q, extracted, size⟩ := Option.map_eq_some_iff.1 two
  have read := eq_ok_of_toOption read
  have extracted := eq_ok_of_toOption extracted
  refine ⟨⟨v, read, reads _ _ _ v read⟩, ⟨finite, q, extracted, size, ?_⟩, ?_, prepare_mapping, ?_⟩
  · exact extracts _ _ q finite extracted
  · exact resolves _ ⟨mapping.config.keys, mapping.config.inheritAll⟩ counting rfl finite
  · have first := (runs [⟨ending (.exited 3), .run mappingRun, false⟩] mappingMachine).1
    exact first _ _ rfl prepare_mapping

end NestedBatch.CommandLine

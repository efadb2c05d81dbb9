import NestedBatch.Proofs.Launch.Instances
import NestedBatch.Proofs.Parameter.Identity

/-! Launches of one job are for one instance if the identifying parameters that their
keys tell are the same, and only then. No launch is refused because of an execution
that was made with others. -/
namespace NestedBatch

namespace Parameters

def secondRun : Parameters := KeyMap.empty.insert "run" ⟨.long 2, true⟩

def dated (nano : Nat) (short : nano < 1000000000) : Parameters :=
  KeyMap.empty.insert "at" ⟨.date ⟨1704067200, nano, by omega⟩, true⟩

def zero (negative : Bool) : Parameters :=
  KeyMap.empty.insert "rate" ⟨.double (.finite negative .zero), true⟩

end Parameters

namespace Launch

variable {W : Type} {h : Host W} {job : Job W} {p q : Parameters} {r : Repository W}

/-- An execution because of which a launch is refused. -/
def StandsInTheWay (job : Job W) (p : Parameters) (e : BatchError) (x : JobExecution) : Prop :=
  preflight job (some x) = .error e ∨ Records.obstacle? job.name p x = some e

/-- A launch is refused because of an execution of its instance, unless it cannot be saved. -/
theorem refused_cases (numbered : r.records.Numbered) {e : BatchError}
    (refused : (start h job p r).1 = .error e) :
    (∃ fault, e = .io fault) ∨
      ∃ x ∈ r.records.executionsOf (r.records.instanceIdOf job.name p),
        StandsInTheWay job p e x := by
  cases checked : preflight job (r.records.lastExecution? job.name p) with
  | error e' =>
    simp only [start, checked, Except.error.injEq] at refused
    subst refused
    cases found : r.records.lastExecution? job.name p with
    | none =>
      rw [found] at checked
      cases checked
    | some last =>
      rw [found] at checked
      simp only [Records.lastExecution?, Option.bind_eq_some_iff, Option.map_eq_some_iff] at found
      obtain ⟨i, there, x, newest, rfl⟩ := found
      refine Or.inr ⟨x, ?_, Or.inl checked⟩
      rw [Records.instanceIdOf_some there]
      exact Records.mem_of_newest newest
  | ok _ =>
    cases found : r.records.findOrMakeInstance job.name p with
    | error e' =>
      simp only [start, checked, Repository.createExecution_refused h found,
        Except.error.injEq] at refused
      subst refused
      obtain ⟨i, x, there, listed, obstacle⟩ := Records.findOrMakeInstance_error found
      refine Or.inr ⟨x, ?_, Or.inr obstacle⟩
      rwa [Records.instanceIdOf_some there]
    | ok admitted =>
      obtain ⟨x, started⟩ := start_admitted h numbered checked found
      rcases started.answer with saved | ⟨fault, unsaved⟩
      · rw [saved] at refused
        cases refused
      · rw [unsaved] at refused
        cases refused
        exact Or.inl ⟨fault, rfl⟩

/-- How the instances of a job are told apart. -/
structure Identified (h : Host W) (job : Job W) (p q : Parameters) (r : Repository W) : Prop where
  key : p.jobKey = q.jobKey ↔ p.identity = q.identity
  /-- With plain values in both sets, the keys are the same if the identifying parameters are equal. -/
  plain : p.IsPlain → q.IsPlain →
    (p.jobKey = q.jobKey ↔ p.identifying.agree q.identifying = true)
  /-- Two launches are for one instance if their identities are the same. -/
  address : ∀ {i j}, r.records.instance? job.name p.jobKey = some i →
    r.records.instance? job.name q.jobKey = some j → (i = j ↔ p.identity = q.identity)
  single : ∀ i ∈ r.records.instances, ∀ j ∈ r.records.instances, i.jobName = j.jobName →
    i.jobKey = j.jobKey → i = j
  /-- The executions that a launch counts as restarted by it have its identity. -/
  counted : ∀ x ∈ r.records.executionsOf (r.records.instanceIdOf job.name p),
    x.jobName = job.name ∧ x.jobParameters.identity = p.identity
  refused : ∀ {e}, (start h job p r).1 = .error e → (∃ fault, e = .io fault) ∨
    ∃ x ∈ r.records.executions, StandsInTheWay job p e x ∧ x.jobName = job.name ∧
      x.jobParameters.identity = p.identity

/-- The identity of an instance is what its key tells of the identifying parameters:
all of plain values, of dates no more than the millisecond, and of zeros the sign. -/
theorem instances_identified (h : Host W) (job : Job W) (genuine : r.records.Genuine)
    (finite : p.IsFinite) (finite' : q.IsFinite) (apart : p.NoCollision q)
    (recorded : ∀ x ∈ r.records.executions,
      x.jobParameters.IsFinite ∧ x.jobParameters.NoCollision p) :
    Identified h job p q r := by
  have owned := genuine.owned
  have key := Parameters.jobKey_eq_iff_identity finite finite' apart
  have counted : ∀ x ∈ r.records.executionsOf (r.records.instanceIdOf job.name p),
      x.jobName = job.name ∧ x.jobParameters.identity = p.identity := by
    intro x listed
    obtain ⟨name, same⟩ := owned.counted listed
    obtain ⟨finiteX, apartX⟩ := recorded x (Records.mem_executionsOf.1 listed).1
    exact ⟨name, (Parameters.jobKey_eq_iff_identity finiteX finite apartX).1 same⟩
  refine ⟨key, fun plain plain' => ?_, fun there there' => ?_, owned.names.named, counted,
    fun refused => ?_⟩
  · rw [key, Parameters.identity_eq_iff_agree finite finite' plain plain']
  · obtain ⟨hi, name, iKey⟩ := Records.instance?_some there
    obtain ⟨hj, name', jKey⟩ := Records.instance?_some there'
    rw [← key, ← iKey, ← jKey]
    exact ⟨fun same => by rw [same], owned.names.named _ hi _ hj (name.trans name'.symm)⟩
  · refine (refused_cases owned.numbered refused).imp_right ?_
    rintro ⟨x, listed, stands⟩
    exact ⟨x, (Records.mem_executionsOf.1 listed).1, stands, counted x listed⟩

def firstAdmitted : Repository Unit :=
  (Repository.createExecution .still "idle" .firstRun ⟨.empty, ()⟩).2

theorem genuine_firstAdmitted : firstAdmitted.records.Genuine :=
  .single ⟨.create .still "idle" .firstRun ⟨.empty, ()⟩, fun _ none => by cases none⟩

theorem runs_identified : Identified .still .idle .firstRun .secondRun firstAdmitted ∧
    Parameters.firstRun.jobKey ≠ Parameters.secondRun.jobKey := by
  have apart : Parameters.firstRun.jobKey ≠ Parameters.secondRun.jobKey := by decide +kernel
  refine ⟨?_, apart⟩
  refine instances_identified .still .idle genuine_firstAdmitted ?_ ?_
    (fun same => absurd same apart) ?_
  · exact List.forall_mem_singleton.2 trivial
  · exact List.forall_mem_singleton.2 trivial
  · intro x listed
    rw [List.mem_singleton.1 listed]
    exact ⟨List.forall_mem_singleton.2 trivial, fun _ => rfl⟩

/-- It is not so that keys are the same exactly if the identifying parameters are
equal: dates in one millisecond have one key, and the two zeros have two. -/
theorem keys_mistake_identity :
    ¬ (∀ p q : Parameters, p.IsFinite → q.IsFinite → p.NoCollision q → p.jobKey = q.jobKey →
        p.identifying.agree q.identifying = true) ∧
      ¬ ∀ p q : Parameters, p.IsFinite → q.IsFinite → p.NoCollision q →
        p.identifying.agree q.identifying = true → p.jobKey = q.jobKey := by
  constructor
  · intro tells
    have canonical : (Parameters.dated 0 (by decide)).canonical
        = (Parameters.dated 100000 (by decide)).canonical := by decide +kernel
    have key : (Parameters.dated 0 (by decide)).jobKey
        = (Parameters.dated 100000 (by decide)).jobKey := by
      rw [Parameters.jobKey, canonical, Parameters.jobKey]
    have agree := tells (Parameters.dated 0 (by decide)) (Parameters.dated 100000 (by decide))
      (List.forall_mem_singleton.2 trivial) (List.forall_mem_singleton.2 trivial)
      (fun _ => congrArg String.ofList canonical) key
    revert agree
    decide
  · intro tells
    have apart : (Parameters.zero true).jobKey ≠ (Parameters.zero false).jobKey := by
      decide +kernel
    exact apart (tells (Parameters.zero true) (Parameters.zero false)
      (List.forall_mem_singleton.2 rfl) (List.forall_mem_singleton.2 rfl)
      (fun same => absurd same apart) (by decide))

end Launch

end NestedBatch

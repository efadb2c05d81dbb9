import NestedBatch.Proofs.Launch.Release

/-! Instances and the executions that are theirs. As long as nobody makes another
execution of one that is recorded, each belongs to the instance that its job and its
parameters name, and no two instances are named alike. -/
namespace NestedBatch

namespace Records

variable {r r' : Records} {job : String} {p : Parameters}

/-- Every execution is still there and still what it was made as. -/
def KeepsOrigins (r r' : Records) : Prop :=
  ∀ x ∈ r.executions, ∃ y ∈ r'.executions, SameOrigin x y

theorem keepsOrigins_of_eq (same : r'.executions = r.executions) : KeepsOrigins r r' :=
  fun x hx => ⟨x, same ▸ hx, .refl x⟩

/-- An execution that is put back as what it was made as. -/
theorem keepsOrigins_putExecution (numbered : r.Numbered) {x y : JobExecution}
    (there : x ∈ r.executions) (same : SameOrigin x y) : KeepsOrigins r (r.putExecution y) := by
  intro z hz
  by_cases id : z.id = y.id
  · obtain rfl := numbered.eq_of_id hz there (id.trans same.id)
    have present : r.hasExecution y.id = true := hasExecution_iff.2 ⟨z, hz, id⟩
    refine ⟨{ y with steps := [] }, (mem_putExecution numbered).2 (Or.inl ⟨rfl, present⟩), ?_⟩
    exact ⟨same.id, same.jobInstanceId, same.jobName, same.jobParameters⟩
  · exact ⟨z, (mem_putExecution numbered).2 (Or.inr ⟨hz, id⟩), .refl z⟩

/-- Records that have grown: nothing that identifies an execution or an instance is changed. -/
structure Grows (r r' : Records) : Prop where
  numbered : r'.Numbered
  origins : KeepsOrigins r r'
  instances : ∀ {job key i}, r.instance? job key = some i → r'.instance? job key = some i

theorem grows_newExecution (numbered : r.Numbered) {i : JobInstance} {made : Records}
    (now : Instant) (found : r.findOrMakeInstance job p = .ok (i, made)) :
    Grows r (made.newExecution i p now).2 := by
  obtain ⟨executions, count⟩ := findOrMakeInstance_frame found
  refine ⟨(numbered.mono executions count).newExecution i p now, fun x hx => ?_, fun there => ?_⟩
  · exact ⟨x, List.mem_append_left _ (executions ▸ hx), .refl x⟩
  · have kept := findOrMakeInstance_instance? found there
    exact kept

/-- A call that makes no other execution of one that is recorded. -/
def GenuineCall (r r' : Records) : Prop := Call r r' ∧ KeepsOrigins r r'

def Genuine (r : Records) : Prop := Relation.ReflTransGen GenuineCall empty r

/-- Instances have ids that were handed out, each its own, and no two are named alike. -/
structure WellNamed (r : Records) : Prop where
  known : ∀ i ∈ r.instances, i.id ≤ r.nextId
  distinct : ∀ i ∈ r.instances, ∀ j ∈ r.instances, i.id = j.id → i = j
  named : ∀ i ∈ r.instances, ∀ j ∈ r.instances, i.jobName = j.jobName → i.jobKey = j.jobKey →
    i = j

theorem wellNamed_empty : WellNamed empty :=
  ⟨by simp [empty], by simp [empty], by simp [empty]⟩

theorem WellNamed.mono (names : WellNamed r) (same : r'.instances = r.instances)
    (count : r.nextId ≤ r'.nextId) : WellNamed r' :=
  ⟨fun i hi => Nat.le_trans (names.known i (same ▸ hi)) count, same ▸ names.distinct,
    same ▸ names.named⟩

/-- How instances and executions belong together. -/
structure Owned (r : Records) : Prop where
  numbered : r.Numbered
  names : r.WellNamed
  owner : ∀ e ∈ r.executions, ∃ i ∈ r.instances, i.id = e.jobInstanceId ∧
    i.jobName = e.jobName ∧ i.jobKey = e.jobParameters.jobKey

theorem owned_empty : Owned empty := ⟨numbered_empty, wellNamed_empty, by simp [empty]⟩

theorem instance?_some {i : JobInstance} {key : String} (there : r.instance? job key = some i) :
    i ∈ r.instances ∧ i.jobName = job ∧ i.jobKey = key := by
  have named := List.find?_some there
  simp only [Bool.and_eq_true, decide_eq_true_eq] at named
  exact ⟨List.mem_of_find?_eq_some there, named⟩

theorem instance?_none {key : String} (absent : r.instance? job key = none) :
    ∀ i ∈ r.instances, ¬ (i.jobName = job ∧ i.jobKey = key) := by
  intro i hi named
  have other := List.find?_eq_none.1 absent i hi
  simp [named.1, named.2] at other

/-- The instance of an admitted execution is the one that is named, old or new. -/
theorem WellNamed.findOrMakeInstance (names : WellNamed r) {i : JobInstance} {made : Records}
    (found : r.findOrMakeInstance job p = .ok (i, made)) :
    WellNamed made ∧ i ∈ made.instances ∧ i.jobName = job ∧ i.jobKey = p.jobKey := by
  have known := (findOrMakeInstance_known names.known found).2
  rcases findOrMakeInstance_ok found with ⟨there, rfl, _⟩ | ⟨absent, new, rfl⟩
  · exact ⟨names, instance?_some there⟩
  · have fresh : ∀ j ∈ r.instances, j.id ≠ i.id := by
      intro j hj same
      have bound := names.known j hj
      rw [same, new] at bound
      exact absurd bound (Nat.not_succ_le_self _)
    have others := instance?_none absent
    subst new
    refine ⟨⟨known, ?_, ?_⟩, List.mem_append_right _ List.mem_cons_self, rfl, rfl⟩
    · intro j hj k hk same
      rcases List.mem_append.1 hj with old | last <;> rcases List.mem_append.1 hk with old' | last'
      · exact names.distinct j old k old' same
      · exact absurd (same.trans (congrArg JobInstance.id (List.mem_singleton.1 last')))
          (fresh j old)
      · exact absurd (same.symm.trans (congrArg JobInstance.id (List.mem_singleton.1 last)))
          (fresh k old')
      · exact (List.mem_singleton.1 last).trans (List.mem_singleton.1 last').symm
    · intro j hj k hk name key
      rcases List.mem_append.1 hj with old | last <;> rcases List.mem_append.1 hk with old' | last'
      · exact names.named j old k old' name key
      · rw [List.mem_singleton.1 last'] at name key
        exact absurd ⟨name, key⟩ (others j old)
      · rw [List.mem_singleton.1 last] at name key
        exact absurd ⟨name.symm, key.symm⟩ (others k old')
      · exact (List.mem_singleton.1 last).trans (List.mem_singleton.1 last').symm

theorem Call.wellNamed (call : Call r r') (names : WellNamed r) : WellNamed r' := by
  rcases call.cases with rfl | ⟨job, p, i, made, now, found, rfl⟩ | ⟨e, rfl⟩ | ⟨s, _, rfl⟩ |
    ⟨s, rfl⟩
  · exact names
  · exact (names.findOrMakeInstance found).1.mono rfl (Nat.le_succ _)
  · exact names.mono rfl (Nat.le_refl _)
  · exact names.mono rfl (Nat.le_succ _)
  · exact names.mono rfl (Nat.le_refl _)

/-- A call that adds no execution. -/
theorem Owned.of_ids (owned : Owned r) (numbered : r'.Numbered) (names : WellNamed r')
    (instances : r'.instances = r.instances)
    (ids : r'.executions.map JobExecution.id = r.executions.map JobExecution.id)
    (keeps : KeepsOrigins r r') : Owned r' := by
  refine ⟨numbered, names, fun e he => ?_⟩
  have listed : e.id ∈ r.executions.map JobExecution.id := ids ▸ List.mem_map_of_mem he
  obtain ⟨x, hx, same⟩ := List.mem_map.1 listed
  obtain ⟨y, hy, origin⟩ := keeps x hx
  obtain rfl : y = e := numbered.eq_of_id hy he (origin.id.trans same)
  obtain ⟨i, hi, id, name, key⟩ := owned.owner x hx
  exact ⟨i, instances ▸ hi, id.trans origin.jobInstanceId.symm, name.trans origin.jobName.symm,
    key.trans (congrArg Parameters.jobKey origin.jobParameters.symm)⟩

theorem GenuineCall.owned (call : GenuineCall r r') (owned : Owned r) : Owned r' := by
  obtain ⟨call, keeps⟩ := call
  have numbered := call.numbered owned.numbered
  have names := call.wellNamed owned.names
  rcases call.cases with rfl | ⟨job, p, i, made, now, found, rfl⟩ | ⟨e, rfl⟩ | ⟨s, _, rfl⟩ |
    ⟨s, rfl⟩
  · exact owned
  · obtain ⟨_, member, name, key⟩ := owned.names.findOrMakeInstance found
    obtain ⟨executions, _⟩ := findOrMakeInstance_frame found
    refine ⟨numbered, names, fun e he => ?_⟩
    rcases List.mem_append.1 he with old | new
    · obtain ⟨j, hj, owns⟩ := owned.owner e (executions ▸ old)
      refine ⟨j, ?_, owns⟩
      rcases findOrMakeInstance_ok found with ⟨_, rfl, _⟩ | ⟨_, _, rfl⟩
      · exact hj
      · exact List.mem_append_left _ hj
    · rw [List.mem_singleton.1 new]
      exact ⟨i, member, rfl, rfl, key⟩
  · exact owned.of_ids numbered names rfl (ids_putExecution e) keeps
  · exact owned.of_ids numbered names rfl rfl keeps
  · exact owned.of_ids numbered names rfl rfl keeps

theorem Genuine.owned (genuine : r.Genuine) : Owned r := by
  induction genuine with
  | refl => exact owned_empty
  | tail _ call ih => exact call.owned ih

/-- The executions that a launch counts as those of its instance are of its job and
have its key. -/
theorem Owned.counted (owned : Owned r) {x : JobExecution}
    (counted : x ∈ r.executionsOf (r.instanceIdOf job p)) :
    x.jobName = job ∧ x.jobParameters.jobKey = p.jobKey := by
  obtain ⟨member, belongs⟩ := mem_executionsOf.1 counted
  obtain ⟨i, hi, id, name, key⟩ := owned.owner x member
  cases there : r.instance? job p.jobKey with
  | some j =>
    obtain ⟨hj, jName, jKey⟩ := instance?_some there
    rw [instanceIdOf_some there] at belongs
    obtain rfl := owned.names.distinct i hi j hj (id.trans belongs)
    exact ⟨name.symm.trans jName, key.symm.trans jKey⟩
  | none =>
    have bound := owned.names.known i hi
    simp only [instanceIdOf, there] at belongs
    omega

end Records

end NestedBatch

import Mathlib.Logic.Equiv.Defs
import NestedBatch.Proofs.Launch.Instances

/-! Numbering. Executions of different instances that are added in another order get
other ids, and their instances too where they are new. One renaming of the ids that were
handed out meanwhile takes the one outcome to the other. -/
namespace NestedBatch

/-- What is added: an execution of the instance that job and parameters name. -/
structure Entry where
  job : String
  parameters : Parameters
  /-- The execution without the ids that it will get. -/
  content : JobExecution

def Entry.Apart (x y : Entry) : Prop :=
  ¬ (x.job = y.job ∧ x.parameters.jobKey = y.parameters.jobKey)

theorem Entry.Apart.symm {x y : Entry} (apart : x.Apart y) : y.Apart x :=
  fun same => apart ⟨same.1.symm, same.2.symm⟩

def JobInstance.renamed (σ : Equiv.Perm Nat) (i : JobInstance) : JobInstance :=
  { i with id := σ i.id }

def JobExecution.renamed (σ : Equiv.Perm Nat) (e : JobExecution) : JobExecution :=
  { e with id := σ e.id, jobInstanceId := σ e.jobInstanceId }

namespace Records

variable {r r₁ r₂ r₃ base : Records} {x y : Entry} {σ τ : Equiv.Perm Nat}

def entered? (r : Records) (x : Entry) : Option JobInstance := r.instance? x.job x.parameters.jobKey

/-- How many ids an entry takes. -/
def room (r : Records) (x : Entry) : Nat := if (r.entered? x).isSome then 1 else 2

/-- The instance that is made for an entry, where there is none yet. -/
def founded (r : Records) (x : Entry) : List JobInstance :=
  if (r.entered? x).isSome then [] else [⟨r.nextId + 1, x.job, x.parameters.jobKey⟩]

def entry (r : Records) (x : Entry) : JobExecution :=
  { x.content with id := r.nextId + r.room x, jobInstanceId := r.instanceIdOf x.job x.parameters }

def add (r : Records) (x : Entry) : Records where
  nextId := r.nextId + r.room x
  instances := r.instances ++ r.founded x
  executions := r.executions ++ [r.entry x]
  steps := r.steps

theorem room_pos : 0 < r.room x := by
  simp only [room]
  split <;> decide

theorem entered?_some {i : JobInstance} (there : r.entered? x = some i) :
    r.room x = 1 ∧ r.founded x = [] ∧ r.instanceIdOf x.job x.parameters = i.id := by
  refine ⟨?_, ?_, instanceIdOf_some there⟩ <;> simp only [room, founded, there] <;> rfl

theorem entered?_none (absent : r.entered? x = none) :
    r.room x = 2 ∧ r.founded x = [⟨r.nextId + 1, x.job, x.parameters.jobKey⟩] ∧
      r.instanceIdOf x.job x.parameters = r.nextId + 1 := by
  refine ⟨?_, ?_, ?_⟩
  · simp only [room, absent]
    rfl
  · simp only [founded, absent]
    rfl
  · simp only [entered?] at absent
    simp only [instanceIdOf, absent]

theorem add_of_some {i : JobInstance} (there : r.entered? x = some i) :
    r.add x = r.withNewest { x.content with id := r.nextId + 1, jobInstanceId := i.id } := by
  obtain ⟨room, founded, own⟩ := entered?_some there
  simp only [add, entry, room, founded, own, List.append_nil, withNewest]

theorem add_of_none (absent : r.entered? x = none) :
    r.add x = withNewest { r with
      nextId := r.nextId + 1
      instances := r.instances ++ [⟨r.nextId + 1, x.job, x.parameters.jobKey⟩] }
        { x.content with id := r.nextId + 1 + 1, jobInstanceId := r.nextId + 1 } := by
  obtain ⟨room, founded, own⟩ := entered?_none absent
  simp only [add, entry, room, founded, own, withNewest]

/-- The instance of an entry has an id that was handed out before, or the next one. -/
theorem instanceIdOf_cases (names : r.WellNamed) (x : Entry) :
    (∃ i ∈ r.instances, r.entered? x = some i ∧ i.id ≤ r.nextId ∧
      r.instanceIdOf x.job x.parameters = i.id) ∨
      r.entered? x = none ∧ r.instanceIdOf x.job x.parameters = r.nextId + 1 := by
  cases there : r.entered? x with
  | none => exact Or.inr ⟨rfl, (entered?_none there).2.2⟩
  | some i =>
    have member := (instance?_some there).1
    exact Or.inl ⟨i, member, rfl, names.known i member, (entered?_some there).2.2⟩

theorem instanceIdOf_le (names : r.WellNamed) (x : Entry) :
    r.instanceIdOf x.job x.parameters ≤ r.nextId + r.room x := by
  rcases instanceIdOf_cases names x with ⟨i, _, there, known, own⟩ | ⟨absent, own⟩
  · omega
  · have room := (entered?_none absent).1
    omega

/-- An entry is not seen at the place of another. -/
theorem entered?_add (apart : x.Apart y) : (r.add x).entered? y = r.entered? y := by
  have other : (r.founded x).find? (fun i => i.jobName = y.job && i.jobKey = y.parameters.jobKey)
      = none := by
    simp only [founded]
    split
    · rfl
    · have differ : (decide (x.job = y.job) && decide (x.parameters.jobKey = y.parameters.jobKey))
          = false := by
        simpa [Entry.Apart] using apart
      simp only [List.find?_cons, differ, List.find?_nil]
  simp only [entered?, instance?, add, List.find?_append, other, Option.or_none]

theorem WellNamed.add (names : r.WellNamed) (x : Entry) : (r.add x).WellNamed := by
  cases there : r.entered? x with
  | some i =>
    have same : (r.add x).instances = r.instances := by
      simp only [Records.add, (entered?_some there).2.1, List.append_nil]
    exact names.mono same (Nat.le_add_right _ _)
  | none =>
    obtain ⟨room, founded, _⟩ := entered?_none there
    have found : r.findOrMakeInstance x.job x.parameters
        = .ok (⟨r.nextId + 1, x.job, x.parameters.jobKey⟩, { r with
          nextId := r.nextId + 1
          instances := r.instances ++ [⟨r.nextId + 1, x.job, x.parameters.jobKey⟩] }) := by
      have absent : r.instance? x.job x.parameters.jobKey = none := there
      simp only [Records.findOrMakeInstance, absent]
    refine (names.findOrMakeInstance found).1.mono ?_ ?_
    · simp only [Records.add, founded]
    · simp only [Records.add, room]
      omega

/-- Two outcomes from one beginning, the second of which is the first under other ids. The
ids of the beginning are kept, and so are those that have not been handed out. Of the
executions of one instance the order is the same as well. -/
structure Alike (base : Records) (σ : Equiv.Perm Nat) (r₁ r₂ : Records) : Prop where
  old : ∀ id ≤ base.nextId, σ id = id
  beyond : ∀ id, r₁.nextId < id → σ id = id
  count : r₁.nextId = r₂.nextId
  instances : (r₁.instances.map (JobInstance.renamed σ)).Perm r₂.instances
  executions : ∃ es₁ es₂, r₁.executions = base.executions ++ es₁ ∧
    r₂.executions = base.executions ++ es₂ ∧
    ∀ id, (es₁.filter fun e => e.jobInstanceId = id).map (JobExecution.renamed σ)
      = es₂.filter fun e => e.jobInstanceId = σ id
  steps : r₁.steps = base.steps ∧ r₂.steps = base.steps

theorem filter_renamed (σ : Equiv.Perm Nat) (es : List JobExecution) (id : Nat) :
    (es.map (JobExecution.renamed σ)).filter (fun e => e.jobInstanceId = σ id)
      = (es.filter fun e => e.jobInstanceId = id).map (JobExecution.renamed σ) := by
  rw [List.filter_map]
  refine congrArg _ (List.filter_congr fun e _ => ?_)
  simp [JobExecution.renamed]

theorem filter_pair_comm {α : Type} {test : α → Bool} {a b : α}
    (once : test a = true → test b = true → False) : [a, b].filter test = [b, a].filter test := by
  cases first : test a with
  | false => cases second : test b <;> simp [first, second]
  | true =>
    cases second : test b with
    | false => simp [first, second]
    | true => exact (once first second).elim

theorem instances_renamed (σ : Equiv.Perm Nat) {n : Nat} (kept : ∀ id ≤ n, σ id = id)
    {is : List JobInstance} (known : ∀ i ∈ is, i.id ≤ n) :
    is.map (JobInstance.renamed σ) = is := by
  refine (List.map_congr_left fun i hi => ?_).trans (List.map_id is)
  simp only [JobInstance.renamed, kept i.id (known i hi), id_eq]

theorem Alike.refl (names : base.WellNamed) : Alike base (Equiv.refl Nat) base base where
  old _ _ := rfl
  beyond _ _ := rfl
  count := rfl
  instances := by
    rw [instances_renamed _ (fun _ _ => rfl) names.known]
  executions := ⟨[], [], (List.append_nil _).symm, (List.append_nil _).symm, fun _ => rfl⟩
  steps := ⟨rfl, rfl⟩

theorem Alike.trans (first : Alike base σ r₁ r₂) (second : Alike base τ r₂ r₃) :
    Alike base (σ.trans τ) r₁ r₃ := by
  obtain ⟨es₁, es₂, begins₁, begins₂, renames⟩ := first.executions
  obtain ⟨es₂', es₃, begins₂', begins₃, renames'⟩ := second.executions
  obtain rfl : es₂ = es₂' := List.append_cancel_left (begins₂.symm.trans begins₂')
  refine ⟨?_, ?_, first.count.trans second.count, ?_, ⟨es₁, es₃, begins₁, begins₃, ?_⟩,
    first.steps.1, second.steps.2⟩
  · intro id old
    rw [Equiv.trans_apply, first.old id old, second.old id old]
  · intro id above
    rw [Equiv.trans_apply, first.beyond id above, second.beyond id (first.count ▸ above)]
  · have both : r₁.instances.map (JobInstance.renamed (σ.trans τ))
        = (r₁.instances.map (JobInstance.renamed σ)).map (JobInstance.renamed τ) := by
      rw [List.map_map]
      rfl
    rw [both]
    exact (first.instances.map _).trans second.instances
  · intro id
    rw [Equiv.trans_apply, ← renames' (σ id), ← renames id, List.map_map]
    rfl

/-- An entry for an instance that has had no other part in the outcomes. -/
theorem Alike.add (alike : Alike base σ r₁ r₂) (names : base.WellNamed)
    (first : r₁.entered? x = base.entered? x) (second : r₂.entered? x = base.entered? x) :
    Alike base σ (r₁.add x) (r₂.add x) := by
  have room : r₂.room x = r₁.room x := by simp only [Records.room, first, second]
  have next : ∀ id, r₁.nextId < id → σ id = id := alike.beyond
  have own : r₂.instanceIdOf x.job x.parameters = σ (r₁.instanceIdOf x.job x.parameters) := by
    cases there : base.entered? x with
    | some i =>
      have known := names.known i (instance?_some there).1
      rw [(entered?_some (second.trans there)).2.2, (entered?_some (first.trans there)).2.2,
        alike.old i.id known]
    | none =>
      rw [(entered?_none (second.trans there)).2.2, (entered?_none (first.trans there)).2.2,
        next _ (Nat.lt_succ_self _), alike.count]
  have entry : (r₁.entry x).renamed σ = r₂.entry x := by
    simp only [Records.entry, JobExecution.renamed, own, room, ← alike.count,
      next _ (Nat.lt_add_of_pos_right room_pos)]
  have founded : (r₁.founded x).map (JobInstance.renamed σ) = r₂.founded x := by
    simp only [Records.founded, first, second]
    split
    · rfl
    · simp only [List.map_cons, List.map_nil, JobInstance.renamed, ← alike.count,
        next _ (Nat.lt_succ_self _)]
  obtain ⟨es₁, es₂, begins₁, begins₂, renames⟩ := alike.executions
  refine ⟨alike.old, ?_, ?_, ?_, ⟨es₁ ++ [r₁.entry x], es₂ ++ [r₂.entry x], ?_, ?_, ?_⟩,
    alike.steps⟩
  · intro id above
    simp only [Records.add] at above
    exact next id (by omega)
  · simp only [Records.add, alike.count, room]
  · simp only [Records.add, List.map_append, founded]
    exact alike.instances.append_right _
  · simp only [Records.add, begins₁, List.append_assoc]
  · simp only [Records.add, begins₂, List.append_assoc]
  · intro id
    have last := filter_renamed σ [r₁.entry x] id
    rw [List.map_singleton, entry] at last
    rw [List.filter_append, List.map_append, renames, List.filter_append, last]

theorem Alike.foldl_add {xs : List Entry} (names : base.WellNamed)
    (alike : Alike base σ r₁ r₂) (apart : xs.Pairwise Entry.Apart)
    (first : ∀ x ∈ xs, r₁.entered? x = base.entered? x)
    (second : ∀ x ∈ xs, r₂.entered? x = base.entered? x) :
    Alike base σ (xs.foldl Records.add r₁) (xs.foldl Records.add r₂) := by
  induction xs generalizing r₁ r₂ with
  | nil => exact alike
  | cons x rest ih =>
    obtain ⟨others, rest⟩ := List.pairwise_cons.1 apart
    have head := alike.add names (first x List.mem_cons_self) (second x List.mem_cons_self)
    refine ih head rest (fun y hy => ?_) fun y hy => ?_
    · exact (entered?_add (others y hy)).trans (first y (List.mem_cons_of_mem _ hy))
    · exact (entered?_add (others y hy)).trans (second y (List.mem_cons_of_mem _ hy))

/-- What began one entry later also began before it. -/
theorem Alike.of_add (names : base.WellNamed) (alike : Alike (base.add x) σ r₁ r₂) :
    Alike base σ r₁ r₂ := by
  have old : ∀ id ≤ base.nextId + base.room x, σ id = id := alike.old
  have entry : (base.entry x).renamed σ = base.entry x := by
    simp only [Records.entry, JobExecution.renamed, old _ (Nat.le_refl _),
      old _ (instanceIdOf_le names x)]
  obtain ⟨es₁, es₂, begins₁, begins₂, renames⟩ := alike.executions
  refine ⟨fun id below => old id (Nat.le_add_right_of_le below), alike.beyond, alike.count,
    alike.instances, ⟨base.entry x :: es₁, base.entry x :: es₂, ?_, ?_, ?_⟩, alike.steps⟩
  · rw [begins₁, Records.add, List.append_assoc, List.singleton_append]
  · rw [begins₂, Records.add, List.append_assoc, List.singleton_append]
  · intro id
    have first := filter_renamed σ [base.entry x] id
    rw [List.map_singleton, entry] at first
    rw [← List.singleton_append, ← List.singleton_append (l := es₂), List.filter_append,
      List.map_append, renames, List.filter_append, first]

/-- Lets the `k` ids after `n` and the `l` ids after these change places. -/
def rotation (n k l : Nat) : Equiv.Perm Nat where
  toFun id := if id ≤ n then id else if id ≤ n + k then id + l else if id ≤ n + k + l then id - k
    else id
  invFun id := if id ≤ n then id else if id ≤ n + l then id + k else if id ≤ n + l + k then id - l
    else id
  left_inv id := by
    dsimp only
    split_ifs <;> omega
  right_inv id := by
    dsimp only
    split_ifs <;> omega

theorem rotation_old {n k l id : Nat} (old : id ≤ n) : rotation n k l id = id := by
  simp [rotation, old]

theorem rotation_first {n k l id : Nat} (above : n < id) (below : id ≤ n + k) :
    rotation n k l id = id + l := by
  simp [rotation, Nat.not_le_of_lt above, below]

theorem rotation_second {n k l id : Nat} (above : n + k < id) (below : id ≤ n + k + l) :
    rotation n k l id = id - k := by
  have past : ¬ id ≤ n := by omega
  simp [rotation, past, Nat.not_le_of_lt above, below]

theorem rotation_beyond {n k l id : Nat} (above : n + k + l < id) : rotation n k l id = id := by
  have past : ¬ id ≤ n := by omega
  have past' : ¬ id ≤ n + k := by omega
  simp [rotation, past, past', Nat.not_le_of_lt above]

section Swap

variable (names : base.WellNamed) (apart : x.Apart y)

include apart in
theorem room_add : (base.add x).room y = base.room y := by
  simp only [room, entered?_add apart]

include names apart

/-- Two entries never belong to the same instance. -/
theorem instanceIdOf_add_ne :
    base.instanceIdOf x.job x.parameters ≠ (base.add x).instanceIdOf y.job y.parameters := by
  intro same
  have bound := instanceIdOf_le names x
  rcases instanceIdOf_cases (names.add x) y with ⟨j, _, there', _, own'⟩ | ⟨absent', own'⟩
  · rw [entered?_add apart] at there'
    have known := names.known j (instance?_some there').1
    rcases instanceIdOf_cases names x with ⟨i, hi, there, _, own⟩ | ⟨absent, own⟩
    -- One id is the id of one instance, and that is of one job and key.
    · obtain rfl := names.distinct i hi j (instance?_some there').1
        (own.symm.trans (same.trans own'))
      obtain ⟨_, job, key⟩ := instance?_some there
      obtain ⟨_, job', key'⟩ := instance?_some there'
      exact apart ⟨job.symm.trans job', key.symm.trans key'⟩
    · omega
  · have next : (base.add x).nextId = base.nextId + base.room x := rfl
    omega

/-- What comes first under its own ids comes second under those after the other's. -/
theorem renamed_add :
    (base.entry x).renamed (rotation base.nextId (base.room x) (base.room y))
        = (base.add y).entry x ∧
      (base.founded x).map (JobInstance.renamed
          (rotation base.nextId (base.room x) (base.room y))) = (base.add y).founded x := by
  have before := entered?_add apart.symm (r := base)
  have next : (base.add y).nextId = base.nextId + base.room y := rfl
  have execution : rotation base.nextId (base.room x) (base.room y) (base.nextId + base.room x)
      = base.nextId + base.room x + base.room y :=
    rotation_first (Nat.lt_add_of_pos_right room_pos) (Nat.le_refl _)
  have room : (base.add y).room x = base.room x := room_add apart.symm
  cases there : base.entered? x with
  | some i =>
    obtain ⟨_, founded, own⟩ := entered?_some there
    obtain ⟨_, founded', own'⟩ := entered?_some (before.trans there)
    have kept := rotation_old (k := base.room x) (l := base.room y)
      (names.known i (instance?_some there).1)
    simp only [entry, JobExecution.renamed, founded, founded', own, own', kept, execution, room,
      next, List.map_nil, and_true]
    rw [Nat.add_right_comm]
  | none =>
    obtain ⟨two, founded, own⟩ := entered?_none there
    obtain ⟨_, founded', own'⟩ := entered?_none (before.trans there)
    have inst : rotation base.nextId (base.room x) (base.room y) (base.nextId + 1)
        = base.nextId + 1 + base.room y := rotation_first (by omega) (by omega)
    simp only [entry, JobExecution.renamed, JobInstance.renamed, founded, founded', own, own',
      execution, inst, room, next, List.map_cons, List.map_nil]
    rw [Nat.add_right_comm, Nat.add_right_comm _ 1]
    exact ⟨rfl, rfl⟩

/-- What comes second under the ids after the other's comes first under the next ones. -/
theorem renamed_add_second :
    ((base.add x).entry y).renamed (rotation base.nextId (base.room x) (base.room y))
        = base.entry y ∧
      ((base.add x).founded y).map (JobInstance.renamed
          (rotation base.nextId (base.room x) (base.room y))) = base.founded y := by
  have before := entered?_add apart (r := base)
  have next : (base.add x).nextId = base.nextId + base.room x := rfl
  have positive := room_pos (r := base) (x := y)
  have execution : rotation base.nextId (base.room x) (base.room y)
      (base.nextId + base.room x + base.room y) = base.nextId + base.room y :=
    (rotation_second (by omega) (Nat.le_refl _)).trans (by omega)
  have room : (base.add x).room y = base.room y := room_add apart
  cases there : base.entered? y with
  | some i =>
    obtain ⟨_, founded, own⟩ := entered?_some there
    obtain ⟨_, founded', own'⟩ := entered?_some (before.trans there)
    have kept := rotation_old (k := base.room x) (l := base.room y)
      (names.known i (instance?_some there).1)
    simp only [entry, JobExecution.renamed, founded, founded', own, own', kept, execution, room,
      next, List.map_nil, and_self]
  | none =>
    obtain ⟨two, founded, own⟩ := entered?_none there
    obtain ⟨_, founded', own'⟩ := entered?_none (before.trans there)
    have inst : rotation base.nextId (base.room x) (base.room y) (base.nextId + base.room x + 1)
        = base.nextId + 1 := (rotation_second (by omega) (by omega)).trans (by omega)
    simp only [entry, JobExecution.renamed, JobInstance.renamed, founded, founded', own, own',
      execution, inst, room, next, List.map_cons, List.map_nil, and_self]

theorem alike_swap :
    Alike base (rotation base.nextId (base.room x) (base.room y))
      ((base.add x).add y) ((base.add y).add x) := by
  have room : (base.add x).room y = base.room y := room_add apart
  have room' : (base.add y).room x = base.room x := room_add apart.symm
  obtain ⟨first, founds⟩ := renamed_add names apart
  obtain ⟨second, founds'⟩ := renamed_add_second names apart
  refine ⟨fun id => rotation_old, ?_, ?_, ?_,
    ⟨[base.entry x, (base.add x).entry y], [base.entry y, (base.add y).entry x], ?_, ?_, ?_⟩,
    rfl, rfl⟩
  · intro id above
    have past : base.nextId + base.room x + base.room y < id := room ▸ above
    exact rotation_beyond past
  · have count : base.nextId + base.room x + (base.add x).room y
        = base.nextId + base.room y + (base.add y).room x := by omega
    exact count
  · have old := instances_renamed (rotation base.nextId (base.room x) (base.room y))
      (fun id => rotation_old) names.known
    simp only [Records.add, List.map_append, List.append_assoc] at founds founds' ⊢
    rw [old, founds, founds']
    exact List.perm_append_comm.append_left _
  · simp only [Records.add, List.append_assoc, List.singleton_append]
  · simp only [Records.add, List.append_assoc, List.singleton_append]
  · intro id
    have others : (base.entry x).jobInstanceId ≠ ((base.add x).entry y).jobInstanceId :=
      instanceIdOf_add_ne names apart
    have once : decide ((base.entry x).jobInstanceId = id) = true →
        decide (((base.add x).entry y).jobInstanceId = id) = true → False := fun own own' =>
      others ((of_decide_eq_true own).trans (of_decide_eq_true own').symm)
    rw [filter_pair_comm once, ← filter_renamed, List.map_cons, List.map_singleton, first, second]

end Swap

/-- Entries of different instances come to the same in any order, but for a renaming. -/
theorem alike_of_perm {xs ys : List Entry} (perm : xs.Perm ys) (names : base.WellNamed)
    (apart : xs.Pairwise Entry.Apart) :
    ∃ σ, Alike base σ (xs.foldl Records.add base) (ys.foldl Records.add base) := by
  induction perm generalizing base with
  | nil => exact ⟨Equiv.refl Nat, .refl names⟩
  | cons x _ ih =>
    obtain ⟨σ, alike⟩ := ih (names.add x) (List.pairwise_cons.1 apart).2
    exact ⟨σ, alike.of_add names⟩
  | swap x y rest =>
    -- What is added after the swap is added to alike records.
    obtain ⟨first, later⟩ := List.pairwise_cons.1 apart
    obtain ⟨second, rest⟩ := List.pairwise_cons.1 later
    refine ⟨_, (alike_swap names (first x List.mem_cons_self)).foldl_add names rest ?_ ?_⟩
    · intro z hz
      rw [entered?_add (second z hz), entered?_add (first z (List.mem_cons_of_mem _ hz))]
    · intro z hz
      rw [entered?_add (first z (List.mem_cons_of_mem _ hz)), entered?_add (second z hz)]
  | trans before _ ih ih' =>
    obtain ⟨σ, alike⟩ := ih names apart
    obtain ⟨τ, alike'⟩ := ih' names (before.pairwise apart fun {_ _} => Entry.Apart.symm)
    exact ⟨σ.trans τ, alike.trans alike'⟩

/-- Every id that an execution or a step execution refers to has been handed out. -/
structure Settled (r : Records) : Prop where
  executions : ∀ e ∈ r.executions, e.jobInstanceId ≤ r.nextId
  steps : ∀ s ∈ r.steps, s.jobExecutionId ≤ r.nextId

section Settled

variable (alike : Alike base σ r₁ r₂) (settled : base.Settled)

include alike

theorem Alike.above {id : Nat} (above : base.nextId < id) : base.nextId < σ id := by
  by_contra below
  have fixed : σ (σ id) = σ id := alike.old (σ id) (Nat.le_of_not_lt below)
  have same : σ id = id := σ.injective fixed
  omega

include settled

theorem Alike.withSteps (e : JobExecution) :
    (r₁.withSteps e).renamed σ = r₂.withSteps (e.renamed σ) := by
  have steps : r₁.steps.filter (fun s => s.jobExecutionId = e.id)
      = r₂.steps.filter fun s => s.jobExecutionId = σ e.id := by
    rw [alike.steps.1, alike.steps.2]
    refine List.filter_congr fun s hs => ?_
    have fixed := alike.old s.jobExecutionId (settled.steps s hs)
    refine decide_eq_decide.2 (σ.injective.eq_iff.symm.trans ?_)
    rw [fixed]
  exact congrArg (fun steps => { e with id := σ e.id, jobInstanceId := σ e.jobInstanceId, steps })
    steps

variable (numbered : base.Numbered)

include numbered

theorem Alike.executionsOf_base (id : Nat) :
    (base.executionsOf id).map (JobExecution.renamed σ) = base.executionsOf (σ id) := by
  by_cases old : id ≤ base.nextId
  · rw [alike.old id old]
    refine (List.map_congr_left fun e he => ?_).trans (List.map_id _)
    obtain ⟨member, own⟩ := mem_executionsOf.1 he
    simp only [JobExecution.renamed, alike.old e.id (numbered.bounded e member), own,
      alike.old id old, id_eq]
    rw [← own]
  -- A new id is taken to a new one, and nothing of the beginning refers to either.
  · have above := alike.above (Nat.lt_of_not_le old)
    have none : ∀ n, base.nextId < n → base.executionsOf n = [] := by
      intro n past
      refine List.filter_eq_nil_iff.2 fun e he => ?_
      have known := settled.executions e he
      simp only [decide_eq_true_eq]
      omega
    rw [none id (Nat.lt_of_not_le old), none _ above, List.map_nil]

/-- What is recorded of an instance is recorded of the instance of its new id. -/
theorem Alike.recorded (id : Nat) :
    (r₁.executionsOf id).map (fun e => (r₁.withSteps e).renamed σ)
      = (r₂.executionsOf (σ id)).map r₂.withSteps := by
  obtain ⟨es₁, es₂, begins₁, begins₂, renames⟩ := alike.executions
  have before := alike.executionsOf_base settled numbered id
  have renamed : (r₁.executionsOf id).map (JobExecution.renamed σ) = r₂.executionsOf (σ id) := by
    simp only [Records.executionsOf] at before ⊢
    rw [begins₁, begins₂, List.filter_append, List.map_append, renames, List.filter_append, before]
  rw [← renamed, List.map_map]
  exact List.map_congr_left fun e _ => alike.withSteps settled e

end Settled

end Records

end NestedBatch

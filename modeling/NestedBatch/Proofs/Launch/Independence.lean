import NestedBatch.Proofs.Launch.Content
import NestedBatch.Proofs.Launch.Renaming
import NestedBatch.Proofs.Repository.History

/-! Launches of different instances. What a launch answers and what it adds depends on what
is recorded of its own instance, and on what its body works on. Where bodies keep to
themselves, launches of different instances may so be made in any order: each of them
answers as if it were the only one, and what they add is the same but for its ids. -/
namespace NestedBatch

namespace Records

variable {r : Records} {job : String} {p : Parameters} {x : Entry}

theorem unclocked_withNewest (r : Records) (e : JobExecution) :
    (r.withNewest e).unclocked = r.unclocked.withNewest e.unclocked := by
  simp only [unclocked, withNewest, List.map_append, List.map_cons, List.map_nil]

theorem WellNamed.unclocked (names : r.WellNamed) : r.unclocked.WellNamed :=
  ⟨names.known, names.distinct, names.named⟩

theorem Numbered.unclocked (numbered : r.Numbered) : r.unclocked.Numbered where
  increasing := by
    have ids : r.unclocked.executions.map JobExecution.id = r.executions.map JobExecution.id := by
      simp only [Records.unclocked, List.map_map]
      rfl
    rw [ids]
    exact numbered.increasing
  bounded := List.forall_mem_map.2 numbered.bounded

theorem Settled.unclocked (settled : r.Settled) : r.unclocked.Settled :=
  ⟨List.forall_mem_map.2 settled.executions, List.forall_mem_map.2 settled.steps⟩

theorem recorded_unclocked (r : Records) (job : String) (p : Parameters) :
    r.unclocked.recorded job p = (r.recorded job p).map JobExecution.unclocked := by
  have there : r.unclocked.instance? job p.jobKey = r.instance? job p.jobKey := rfl
  simp only [recorded, there]
  cases r.instance? job p.jobKey with
  | none => rfl
  | some i => exact filter_map_same JobExecution.unclocked fun _ => rfl

theorem recorded_add (names : r.WellNamed)
    (apart : ¬ (x.job = job ∧ x.parameters.jobKey = p.jobKey)) :
    (r.add x).recorded job p = r.recorded job p := by
  have kept : (r.add x).instance? job p.jobKey = r.instance? job p.jobKey :=
    entered?_add (y := ⟨job, p, x.content⟩) apart
  cases there : r.instance? job p.jobKey with
  | none => rw [recorded_none there, recorded_none (kept.trans there)]
  | some i =>
    have other := instanceIdOf_add_ne (y := ⟨job, p, x.content⟩) names apart
    rw [instanceIdOf_some (kept.trans there)] at other
    rw [recorded_some there, recorded_some (kept.trans there)]
    simp only [executionsOf, add, entry, List.filter_append, List.filter_cons, other, decide_false,
      Bool.false_eq_true, if_false, List.filter_nil, List.append_nil]

theorem recorded_foldl_add {xs : List Entry} (names : r.WellNamed)
    (apart : ∀ x ∈ xs, ¬ (x.job = job ∧ x.parameters.jobKey = p.jobKey)) :
    (xs.foldl Records.add r).recorded job p = r.recorded job p := by
  induction xs generalizing r with
  | nil => rfl
  | cons x rest ih =>
    obtain ⟨first, others⟩ := List.forall_mem_cons.1 apart
    exact (ih (names.add x) others).trans (recorded_add names first)

end Records

namespace Launch

variable {W : Type} {h : Host W} {calm : W → Prop}

/-- A launch that is asked for, and what of the world its body works on. -/
structure Request (W : Type) where
  launcher : Launcher
  job : Job W
  parameters : Parameters
  State : Type
  own : W → State

namespace Request

variable {q q' : Request W} {r r' : Repository W}

def run (h : Host W) (q : Request W) (r : Repository W) :
    Except BatchError JobExecution × Repository W :=
  Launch.run h q.launcher q.job q.parameters r

def perform (q : Request W) (e : JobExecution) (r : Repository W) :
    Option String × JobExecution × Repository W :=
  Launch.perform q.launcher q.job e r

theorem perform_closed (closed : q.launcher = .closedTask) (e : JobExecution) (r : Repository W) :
    q.perform e r = (some "child job task was cancelled", e, r) := by
  simp only [perform, closed, Launch.perform]

def recorded (q : Request W) (records : Records) : List JobExecution :=
  records.recorded q.job.name q.parameters

/-- A body that keeps to itself. Ids and times, other records and the rest of the world make
no difference to it. It writes to its own execution only, and leaves the ids of that alone. -/
structure Lone (h : Host W) (calm : W → Prop) (q : Request W) : Prop where
  spared : h.Spares q.own
  stays : ∀ e r, calm r.world → calm (q.job.body e r).2.2.world
  id : ∀ e r, (q.job.body e r).2.1.id = e.id
  jobInstanceId : ∀ e r, (q.job.body e r).2.1.jobInstanceId = e.jobInstanceId
  records : ∀ e r, (q.job.body e r).2.2.records = r.records ∨
    ∃ x, x.id = e.id ∧ (q.job.body e r).2.2.records = r.records.putExecution x
  blind : ∀ e e' r r', e.content = e'.content → q.own r.world = q.own r'.world →
    r.records.hasExecution e.id = true → r'.records.hasExecution e'.id = true →
    calm r.world → calm r'.world →
    (q.job.body e r).1 = (q.job.body e' r').1 ∧
      (q.job.body e r).2.1.content = (q.job.body e' r').2.1.content ∧
      q.own (q.job.body e r).2.2.world = q.own (q.job.body e' r').2.2.world

/-- Launches of different instances whose bodies share nothing. -/
structure Separate (q q' : Request W) : Prop where
  instances : ¬ (q.job.name = q'.job.name ∧ q.parameters.jobKey = q'.parameters.jobKey)
  spares : ∀ e r, q'.own (q.job.body e r).2.2.world = q'.own r.world
  spared : ∀ e r, q.own (q'.job.body e r).2.2.world = q.own r.world

theorem Separate.symm (separate : q.Separate q') : q'.Separate q :=
  ⟨fun same => separate.instances ⟨same.1.symm, same.2.symm⟩, separate.spared, separate.spares⟩

/-- What the body leaves, by a launcher that need not run it. -/
structure Performed (h : Host W) (calm : W → Prop) (e : JobExecution) (r : Repository W)
    (x : JobExecution) (r' : Repository W) : Prop where
  id : x.id = e.id
  jobInstanceId : x.jobInstanceId = e.jobInstanceId
  stays : calm r'.world
  records : r'.records = r.records ∨ ∃ y, y.id = e.id ∧ r'.records = r.records.putExecution y

theorem Performed.kept {e x : JobExecution} {made : Records}
    (performed : Performed h calm e r x r') (numbered : made.Numbered)
    (id : e.id = made.nextId + 1) (handed : r.records = made.withNewest e) :
    ∃ y, y.id = e.id ∧ r'.records = made.withNewest y := by
  rcases performed.records with same | ⟨y, own, put⟩
  · exact ⟨e, rfl, same.trans handed⟩
  · refine ⟨{ y with steps := [] }, own, put.trans ?_⟩
    rw [handed]
    exact Records.putExecution_withNewest numbered id own

theorem Lone.performed (lone : q.Lone h calm) (e : JobExecution) (before : calm r.world) :
    Performed h calm e r (q.perform e r).2.1 (q.perform e r).2.2 := by
  by_cases runs : q.launcher = .closedTask
  · rw [perform_closed runs]
    exact ⟨rfl, rfl, before, Or.inl rfl⟩
  · rw [perform, perform_eq runs]
    refine ⟨?_, ?_, lone.stays e r before, lone.records e r⟩
    · dsimp only
      split
      · exact lone.id e r
      · rfl
    · dsimp only
      split
      · exact lone.jobInstanceId e r
      · rfl

theorem Lone.performs_alike (lone : q.Lone h calm) {e e' : JobExecution}
    (content : e.content = e'.content) (own : q.own r.world = q.own r'.world)
    (there : r.records.hasExecution e.id = true) (there' : r'.records.hasExecution e'.id = true)
    (before : calm r.world) (before' : calm r'.world) :
    (q.perform e r).1 = (q.perform e' r').1 ∧
      (q.perform e r).2.1.content = (q.perform e' r').2.1.content ∧
      q.own (q.perform e r).2.2.world = q.own (q.perform e' r').2.2.world := by
  by_cases runs : q.launcher = .closedTask
  · rw [perform_closed runs, perform_closed runs]
    exact ⟨rfl, content, own⟩
  · obtain ⟨ending, left, owned⟩ := lone.blind e e' r r' content own there there' before before'
    rw [perform, perform, perform_eq runs, perform_eq runs, ending]
    refine ⟨rfl, ?_, owned⟩
    dsimp only
    split
    · exact left
    · exact content

theorem Separate.performs (separate : q.Separate q') (e : JobExecution) (r : Repository W) :
    q'.own (q.perform e r).2.2.world = q'.own r.world := by
  by_cases runs : q.launcher = .closedTask
  · rw [perform_closed runs]
  · rw [perform, perform_eq runs]
    exact separate.spares e r

/-- The course of a launch that was let pass: the execution that was handed over and the
repository then, and the execution as it is recorded at last. -/
structure Course (h : Host W) (q : Request W) (r : Repository W) (i : JobInstance)
    (made : Records) (e : JobExecution) (handed : Repository W) (y : JobExecution)
    (left : Repository W) : Prop where
  started : handed.records = made.withNewest e
  drifts : h.Drift r.world handed.world
  fresh : e.content = fresh i.jobName q.parameters
  id : e.id = made.nextId + 1
  closed : y.content = closure (q.perform e handed).1 (q.perform e handed).2.1.content
  answer : ∃ z, (q.run h r).1 = reply (q.perform e handed).1 z ∧ z.content = y.content
  ended : (q.run h r).2 = left
  drifted : h.Drift (q.perform e handed).2.2.world left.world
  records : left.records = made.withNewest y
  ids : y.id = made.nextId + 1 ∧ y.jobInstanceId = i.id
  steps : y.steps = []

theorem Lone.course (lone : q.Lone h calm) (steady : h.Steady calm) (before : calm r.world)
    (numbered : r.records.Numbered)
    (passed : verdict q.job q.parameters (q.recorded r.records) = none) :
    ∃ i made e handed y left, r.records.findOrMakeInstance q.job.name q.parameters = .ok (i, made) ∧
      Course h q r i made e handed y left ∧ calm left.world := by
  obtain ⟨checked, i, made, found⟩ := admitted_of_verdict passed
  obtain ⟨executions, count⟩ := Records.findOrMakeInstance_frame found
  have ordered := numbered.mono executions count
  obtain ⟨e, w, started, drift, id, belongs, content⟩ :=
    start_steady steady before numbered checked found
  have calmly := drift.keeps steady before
  have performed := lone.performed e (r := ⟨made.withNewest e, w⟩) calmly
  obtain ⟨fault, x, r', ran⟩ : ∃ fault x r',
    q.perform e ⟨made.withNewest e, w⟩ = (fault, x, r') := ⟨_, _, _, rfl⟩
  rw [ran] at performed
  -- The body may have written of its execution. The closing writes that over.
  obtain ⟨x', own, kept⟩ := performed.kept ordered id rfl
  have present : r'.records.hasExecution x.id = true := by
    rw [kept, performed.id, ← own]
    exact made.hasExecution_withNewest x'
  obtain ⟨y, w', finished, drift', yId, yBelongs, closed⟩ :=
    finish_steady steady performed.stays fault present
  have records : r'.records.putExecution y = made.withNewest { y with steps := [] } := by
    rw [kept]
    exact Records.putExecution_withNewest ordered (own.trans id)
      (yId.trans (performed.id.trans own.symm))
  have whole : q.run h r = (reply fault y, ⟨made.withNewest { y with steps := [] }, w'⟩) := by
    rw [← records, ← finished]
    simp only [perform] at ran
    simp only [run, Launch.run, started, ran]
  refine ⟨i, made, e, ⟨made.withNewest e, w⟩, { y with steps := [] },
    ⟨made.withNewest { y with steps := [] }, w'⟩, found, ?_, drift'.keeps steady performed.stays⟩
  exact {
    started := rfl
    drifts := drift
    fresh := content
    id
    closed := by
      rw [ran]
      exact closed
    answer := by
      rw [ran, whole]
      exact ⟨y, rfl, rfl⟩
    ended := by rw [whole]
    drifted := by
      rw [ran]
      exact drift'
    records := rfl
    ids := ⟨yId.trans (performed.id.trans id),
      yBelongs.trans (performed.jobInstanceId.trans belongs)⟩
    steps := rfl }

section Courses

variable {i i' : JobInstance} {made made' : Records} {e e' y y' : JobExecution}
  {handed handed' left left' : Repository W}

theorem Course.present (course : Course h q r i made e handed y left) :
    handed.records.hasExecution e.id = true := by
  rw [course.started]
  exact made.hasExecution_withNewest e

/-- Two launches that were let pass and whose bodies find the same come to the same. -/
theorem Course.alike (course : Course h q r i made e handed y left)
    (course' : Course h q r' i' made' e' handed' y' left') (lone : q.Lone h calm)
    (steady : h.Steady calm) (before : calm r.world) (before' : calm r'.world)
    (own : q.own r.world = q.own r'.world) (name : i.jobName = i'.jobName) :
    (q.run h r).1.map JobExecution.content = (q.run h r').1.map JobExecution.content ∧
      y.content = y'.content := by
  have content : e.content = e'.content := by rw [course.fresh, course'.fresh, name]
  have owned : q.own handed.world = q.own handed'.world := by
    rw [course.drifts.spares lone.spared, own, course'.drifts.spares lone.spared]
  obtain ⟨fault, performed, _⟩ := lone.performs_alike content owned course.present course'.present
    (course.drifts.keeps steady before) (course'.drifts.keeps steady before')
  have closed : y.content = y'.content := by
    rw [course.closed, course'.closed, fault, performed]
  obtain ⟨z, answer, told⟩ := course.answer
  obtain ⟨z', answer', told'⟩ := course'.answer
  refine ⟨?_, closed⟩
  rw [answer, answer', fault]
  cases (q.perform e' handed').1 with
  | some message => rfl
  | none =>
    simp only [reply, Except.map]
    rw [told, told', closed]

theorem Course.spares (course : Course h q r i made e handed y left)
    (separate : q.Separate q') (spared : h.Spares q'.own) : q'.own left.world = q'.own r.world := by
  rw [course.drifted.spares spared, separate.performs, course.drifts.spares spared]

/-- What a launch adds, as an entry without ids and times. -/
def added? (h : Host W) (q : Request W) (r : Repository W) : Option Entry :=
  ((q.run h r).2.records.executions.drop r.records.executions.length).head?.map fun e =>
    ⟨q.job.name, q.parameters, e.content⟩

theorem added?_refused {fault : BatchError} (refused : q.run h r = (.error fault, r)) :
    q.added? h r = none := by
  simp only [added?, refused, List.drop_length, List.head?_nil, Option.map_none]

theorem Course.added? (course : Course h q r i made e handed y left)
    (found : r.records.findOrMakeInstance q.job.name q.parameters = .ok (i, made)) :
    q.added? h r = some ⟨q.job.name, q.parameters, y.content⟩ := by
  have executions := (Records.findOrMakeInstance_frame found).1
  simp only [Request.added?, course.ended, course.records, Records.withNewest, executions,
    List.drop_left, List.head?_cons, Option.map_some]

theorem Course.unclocked (course : Course h q r i made e handed y left)
    (found : r.records.findOrMakeInstance q.job.name q.parameters = .ok (i, made)) :
    left.records.unclocked = r.records.unclocked.add ⟨q.job.name, q.parameters, y.content⟩ := by
  obtain ⟨id, belongs⟩ := course.ids
  have execution : y.unclocked
      = { y.content with id := y.id, jobInstanceId := y.jobInstanceId } := by
    have steps : y.unclocked.steps = [] := congrArg (List.map StepExecution.unclocked) course.steps
    exact congrArg (fun steps => { y.unclocked with steps }) steps
  rw [course.records]
  rcases Records.findOrMakeInstance_ok found with ⟨there, rfl, _⟩ | ⟨absent, rfl, rfl⟩
  · have entered : r.records.unclocked.entered? ⟨q.job.name, q.parameters, y.content⟩ = some i :=
      there
    rw [Records.unclocked_withNewest, Records.add_of_some entered, execution, id, belongs]
    rfl
  · have entered : r.records.unclocked.entered? ⟨q.job.name, q.parameters, y.content⟩ = none :=
      absent
    rw [Records.unclocked_withNewest, Records.add_of_none entered, execution, id, belongs]
    rfl

end Courses

theorem Lone.calls_run (lone : q.Lone h calm) (r : Repository W) :
    Records.Calls r.records (q.run h r).2.records := by
  have starts := start_calls h q.job q.parameters r
  simp only [run, Launch.run]
  generalize start h q.job q.parameters r = started at starts ⊢
  obtain ⟨_ | e, r'⟩ := started
  · exact starts
  · have performs : Records.Calls r'.records (q.perform e r').2.2.records := by
      have body : Records.Calls r'.records (q.job.body e r').2.2.records := by
        rcases lone.records e r' with same | ⟨x, _, put⟩
        · rw [same]
          exact .refl
        · rw [put]
          exact .single (.put r'.records x)
      by_cases runs : q.launcher = .closedTask
      · rw [perform_closed runs]
        exact .refl
      · rw [perform, perform_eq runs]
        exact body
    exact (Relation.ReflTransGen.trans starts performs).tail (finish_call h _ _ _)

/-- One launch, compared with the same launch where the same is recorded of its instance
and its body finds the same. -/
theorem Lone.step (lone : q.Lone h calm) (steady : h.Steady calm) (before : calm r.world)
    (before' : calm r'.world) (reachable : r.records.Reachable)
    (reachable' : r'.records.Reachable) (own : q.own r.world = q.own r'.world)
    (same : (q.recorded r.records).map JobExecution.unclocked
      = (q.recorded r'.records).map JobExecution.unclocked) :
    (q.run h r).1.map JobExecution.content = (q.run h r').1.map JobExecution.content ∧
      (q.run h r).2.records.unclocked
        = (q.added? h r').toList.foldl Records.add r.records.unclocked ∧
      calm (q.run h r).2.world ∧
      ∀ q', q.Separate q' → h.Spares q'.own → q'.own (q.run h r).2.world = q'.own r.world := by
  have decided : verdict q.job q.parameters (q.recorded r.records)
      = verdict q.job q.parameters (q.recorded r'.records) := by
    rw [← verdict_unclocked, same, verdict_unclocked]
  -- Both are refused, with the same error and nothing done, or both are let pass.
  cases passed : verdict q.job q.parameters (q.recorded r'.records) with
  | some fault =>
    have refused : q.run h r = (.error fault, r) := by
      simp only [run, Launch.run, start_of_verdict (decided.trans passed)]
    have refused' : q.run h r' = (.error fault, r') := by
      simp only [run, Launch.run, start_of_verdict passed]
    rw [added?_refused refused', refused, refused']
    exact ⟨rfl, rfl, before, fun _ _ _ => rfl⟩
  | none =>
    obtain ⟨i, made, e, handed, y, left, found, course, calmly⟩ :=
      lone.course steady before reachable.numbered (decided.trans passed)
    obtain ⟨i', made', e', handed', y', left', found', course', _⟩ :=
      lone.course steady before' reachable'.numbered passed
    have name := (reachable.issued.1.findOrMakeInstance found).2.2.1
    have name' := (reachable'.issued.1.findOrMakeInstance found').2.2.1
    obtain ⟨answers, contents⟩ :=
      course.alike course' lone steady before before' own (name.trans name'.symm)
    rw [course'.added? found', ← contents, course.ended]
    exact ⟨answers, course.unclocked found, calmly, fun q' => course.spares⟩

/-- Launches one after the other. -/
def runAll (h : Host W) : List (Request W) → Repository W →
    List (Except BatchError JobExecution) × Repository W
  | [], r => ([], r)
  | q :: rest, r =>
    let done := q.run h r
    let later := runAll h rest done.2
    (done.1 :: later.1, later.2)

theorem added?_names {x : Entry} (added : q.added? h r = some x) :
    x.job = q.job.name ∧ x.parameters = q.parameters := by
  obtain ⟨e, _, rfl⟩ := Option.map_eq_some_iff.1 added
  exact ⟨rfl, rfl⟩

theorem reachable_run (lone : q.Lone h calm) (reachable : r.records.Reachable) :
    (q.run h r).2.records.Reachable :=
  Relation.ReflTransGen.trans reachable (lone.calls_run r)

variable {qs qs' : List (Request W)} {base : Repository W} {xs : List Entry}

/-- Among launches of other instances each one answers and adds what it answers and adds
alone. The induction carries the entries that have been added so far. -/
theorem runAll_alone (steady : h.Steady calm) (reachable' : base.records.Reachable)
    (before' : calm base.world) (reachable : r.records.Reachable) (before : calm r.world)
    (lone : ∀ q ∈ qs, q.Lone h calm) (separate : qs.Pairwise Separate)
    (own : ∀ q ∈ qs, q.own r.world = q.own base.world)
    (added : r.records.unclocked = xs.foldl Records.add base.records.unclocked)
    (apart : ∀ q ∈ qs, ∀ x ∈ xs,
      ¬ (x.job = q.job.name ∧ x.parameters.jobKey = q.parameters.jobKey)) :
    (runAll h qs r).1.map (Except.map JobExecution.content)
        = qs.map (fun q => (q.run h base).1.map JobExecution.content) ∧
      (runAll h qs r).2.records.unclocked
        = (xs ++ qs.filterMap fun q => q.added? h base).foldl Records.add
          base.records.unclocked := by
  induction qs generalizing r xs with
  | nil => exact ⟨rfl, by rw [List.filterMap_nil, List.append_nil]; exact added⟩
  | cons q rest ih =>
    obtain ⟨others, separate⟩ := List.pairwise_cons.1 separate
    obtain ⟨first, lone⟩ := List.forall_mem_cons.1 lone
    obtain ⟨owned, own⟩ := List.forall_mem_cons.1 own
    obtain ⟨apartFirst, apart⟩ := List.forall_mem_cons.1 apart
    have names : base.records.unclocked.WellNamed := reachable'.issued.1.unclocked
    -- What was added is of other instances, so the launch finds what it would find alone.
    have same : (q.recorded r.records).map JobExecution.unclocked
        = (q.recorded base.records).map JobExecution.unclocked := by
      rw [recorded, recorded, ← Records.recorded_unclocked, ← Records.recorded_unclocked, added]
      exact Records.recorded_foldl_add names apartFirst
    obtain ⟨answer, left, calmly, spares⟩ :=
      first.step steady before before' reachable reachable' owned same
    have grown : (q.run h r).2.records.unclocked
        = (xs ++ (q.added? h base).toList).foldl Records.add base.records.unclocked := by
      rw [List.foldl_append, ← added]
      exact left
    have spared : ∀ q' ∈ rest, q'.own (q.run h r).2.world = q'.own base.world := fun q' member =>
      (spares q' (others q' member) (lone q' member).spared).trans (own q' member)
    have grownApart : ∀ q' ∈ rest, ∀ x ∈ xs ++ (q.added? h base).toList,
        ¬ (x.job = q'.job.name ∧ x.parameters.jobKey = q'.parameters.jobKey) := by
      intro q' member x there
      rcases List.mem_append.1 there with old | new
      · exact apart q' member x old
      · obtain ⟨job, parameters⟩ := added?_names (Option.mem_toList.1 new)
        rw [job, parameters]
        exact (others q' member).instances
    obtain ⟨answers, ends⟩ :=
      ih (reachable_run first reachable) calmly lone separate spared grown grownApart
    refine ⟨?_, ?_⟩
    · simp only [runAll, List.map_cons, answer, answers]
    · have entries : (q :: rest).filterMap (fun q => q.added? h base)
          = (q.added? h base).toList ++ rest.filterMap fun q => q.added? h base := by
        cases entered : q.added? h base <;> simp [entered]
      rw [entries, ← List.append_assoc]
      exact ends

/-- Launches of different instances answer the same in any order, each what it answers when
it is the only one. They leave the same, but for times and for a renaming of the ids that
were handed out meanwhile. So the same is recorded of every instance where there was no
execution or step of an id that had not been handed out. -/
theorem launches_in_any_order (steady : h.Steady calm) (r : Repository W)
    (reachable : r.records.Reachable) (before : calm r.world) (perm : qs.Perm qs')
    (lone : ∀ q ∈ qs, q.Lone h calm) (separate : qs.Pairwise Separate) :
    (runAll h qs r).1.map (Except.map JobExecution.content)
        = qs.map (fun q => (q.run h r).1.map JobExecution.content) ∧
      (runAll h qs' r).1.map (Except.map JobExecution.content)
        = qs'.map (fun q => (q.run h r).1.map JobExecution.content) ∧
      ∃ σ : Equiv.Perm Nat,
        r.records.unclocked.Alike σ (runAll h qs r).2.records.unclocked
          (runAll h qs' r).2.records.unclocked ∧
        (r.records.Settled → ∀ id,
          ((runAll h qs r).2.records.unclocked.executionsOf id).map
              (fun e => ((runAll h qs r).2.records.unclocked.withSteps e).renamed σ)
            = ((runAll h qs' r).2.records.unclocked.executionsOf (σ id)).map
              (runAll h qs' r).2.records.unclocked.withSteps) := by
  have lone' : ∀ q ∈ qs', q.Lone h calm := fun q member => lone q (perm.mem_iff.2 member)
  have separate' := perm.pairwise separate fun {_ _} => Separate.symm
  have nothing : ∀ qs : List (Request W), ∀ q ∈ qs, ∀ x ∈ ([] : List Entry),
      ¬ (x.job = q.job.name ∧ x.parameters.jobKey = q.parameters.jobKey) :=
    fun _ _ _ _ member => (List.not_mem_nil member).elim
  obtain ⟨answers, left⟩ := runAll_alone steady reachable before reachable before lone separate
    (fun _ _ => rfl) (show _ = ([] : List Entry).foldl Records.add _ from rfl) (nothing qs)
  obtain ⟨answers', left'⟩ := runAll_alone steady reachable before reachable before lone' separate'
    (fun _ _ => rfl) (show _ = ([] : List Entry).foldl Records.add _ from rfl) (nothing qs')
  have names : r.records.unclocked.WellNamed := reachable.issued.1.unclocked
  have entries : (qs.filterMap fun q => q.added? h r).Pairwise Entry.Apart := by
    refine separate.filterMap _ fun q q' apart x added x' added' same => apart.instances ?_
    obtain ⟨job, parameters⟩ := added?_names added
    obtain ⟨job', parameters'⟩ := added?_names added'
    rwa [job, parameters, job', parameters'] at same
  -- Either order adds the same entries, and only their order differs.
  obtain ⟨σ, alike⟩ := Records.alike_of_perm (perm.filterMap fun q => q.added? h r) names entries
  rw [List.nil_append] at left left'
  rw [← left, ← left'] at alike
  exact ⟨answers, answers', σ, alike, fun settled =>
    alike.recorded settled.unclocked reachable.numbered.unclocked⟩

/-- A launch of a job that does nothing. -/
def idle (name : String) : Request Unit :=
  ⟨.task, { Job.idle with name }, .firstRun, Unit, id⟩

theorem steady_still : Host.still.Steady fun _ => True :=
  ⟨fun _ _ => trivial, fun _ _ _ => ⟨rfl, trivial⟩⟩

theorem lone_idle (name : String) : (idle name).Lone .still fun _ => True where
  spared := ⟨fun _ => rfl, fun _ _ => rfl⟩
  stays _ _ _ := trivial
  id _ _ := rfl
  jobInstanceId _ _ := rfl
  records _ _ := Or.inl rfl
  blind _ _ _ _ content _ _ _ _ _ := ⟨rfl, content, rfl⟩

theorem separate_idle {name name' : String} (differ : name ≠ name') :
    (idle name).Separate (idle name') :=
  ⟨fun same => differ same.1, fun _ _ => rfl, fun _ _ => rfl⟩

theorem settled_completedOnce : completedOnce.Settled := by
  constructor <;> decide +kernel

/-- The job that has completed before is refused, be it launched before the other or after,
and what is recorded is the same. -/
theorem idle_in_any_order :
    (runAll .still [idle "idle", idle "other"] ⟨completedOnce, ()⟩).1.map
        (Except.map JobExecution.content)
      = [.error (.alreadyComplete "idle" Parameters.firstRun.text),
        ((idle "other").run .still ⟨completedOnce, ()⟩).1.map JobExecution.content] ∧
      (runAll .still [idle "other", idle "idle"] ⟨completedOnce, ()⟩).1.map
        (Except.map JobExecution.content)
      = [((idle "other").run .still ⟨completedOnce, ()⟩).1.map JobExecution.content,
        .error (.alreadyComplete "idle" Parameters.firstRun.text)] ∧
      ∃ σ : Equiv.Perm Nat, ∀ id,
        let left :=
          (runAll .still [idle "idle", idle "other"] ⟨completedOnce, ()⟩).2.records.unclocked
        let left' :=
          (runAll .still [idle "other", idle "idle"] ⟨completedOnce, ()⟩).2.records.unclocked
        (left.executionsOf id).map (fun e => (left.withSteps e).renamed σ)
          = (left'.executionsOf (σ id)).map left'.withSteps := by
  have lone : ∀ q ∈ [idle "idle", idle "other"], q.Lone .still fun _ => True := by
    intro q member
    simp only [List.mem_cons, List.not_mem_nil, or_false] at member
    rcases member with rfl | rfl <;> exact lone_idle _
  have separate : [idle "idle", idle "other"].Pairwise Separate :=
    List.pairwise_pair.2 (separate_idle (by decide))
  have refused : ((idle "idle").run .still ⟨completedOnce, ()⟩).1
      = .error (.alreadyComplete "idle" Parameters.firstRun.text) := by decide +kernel
  obtain ⟨answers, answers', σ, _, recorded⟩ := launches_in_any_order steady_still
    ⟨completedOnce, ()⟩ reachable_completedOnce trivial (.swap _ _ []) lone separate
  rw [answers, answers']
  simp only [List.map_cons, List.map_nil, refused]
  exact ⟨rfl, rfl, σ, recorded settled_completedOnce⟩

/-- An execution that was put back as one of an instance that there is not yet. -/
def stray : JobExecution :=
  { JobExecution.create 2 ⟨3, "load", ""⟩ .empty .epoch with
    status := .completed
    endTime := some .epoch }

def strayed : Records :=
  (Session.fresh ()).after .still [.create "load" .empty, .update stray]

theorem reachable_strayed : strayed.Reachable :=
  Session.calls_perform [.create "load" .empty, .update stray] (Session.fresh ())

/-- What is left of two launches from there, in either order. -/
def strayedAB : Records := (runAll .still [idle "a", idle "b"] ⟨strayed, ()⟩).2.records.unclocked
def strayedBA : Records := (runAll .still [idle "b", idle "a"] ⟨strayed, ()⟩).2.records.unclocked

/-- No renaming takes the one to the other: the stray execution is counted to the instance
that is made first, whichever that is. -/
theorem stray_joins_first :
    strayed.Reachable ∧ (idle "a").Separate (idle "b") ∧
      ¬ ∃ σ : Equiv.Perm Nat,
        (strayedAB.instances.map (JobInstance.renamed σ)).Perm strayedBA.instances ∧
        ∀ id, (strayedAB.executionsOf id).map (fun e => (strayedAB.withSteps e).renamed σ)
          = (strayedBA.executionsOf (σ id)).map strayedBA.withSteps := by
  refine ⟨reachable_strayed, separate_idle (by decide), ?_⟩
  rintro ⟨σ, instances, executions⟩
  have first : strayedAB.instances.map (fun i => (i.id, i.jobName))
      = [(1, "load"), (3, "a"), (5, "b")] := by decide +kernel
  have second : strayedBA.instances.map (fun i => (i.id, i.jobName))
      = [(1, "load"), (3, "b"), (5, "a")] := by decide +kernel
  -- A renaming has to take the instance of the one job to that of the same job.
  have moved : σ 3 = 5 := by
    have names := instances.map fun i => (i.id, i.jobName)
    have renamed :
        (strayedAB.instances.map (JobInstance.renamed σ)).map (fun i => (i.id, i.jobName))
        = (strayedAB.instances.map fun i => (i.id, i.jobName)).map fun n => (σ n.1, n.2) := by
      simp only [List.map_map]
      rfl
    rw [renamed, first, second] at names
    have member : (σ 3, "a") ∈ [(1, "load"), (3, "b"), (5, "a")] :=
      names.mem_iff.1 (by simp)
    simpa using member
  have lengths := congrArg List.length (executions 3)
  rw [moved, List.length_map, List.length_map] at lengths
  have two : (strayedAB.executionsOf 3).length = 2 := by decide +kernel
  have one : (strayedBA.executionsOf 5).length = 1 := by decide +kernel
  omega

/-- A body that gives its execution another id. -/
def renumbering : Request Unit :=
  ⟨.task, ⟨"renumbering", true, fun e r => (.done, { e with id := 4 }, r)⟩, .firstRun, Unit, id⟩

/-- A body that gives its execution to another instance. -/
def moving : Request Unit :=
  ⟨.task, ⟨"moving", true, fun e r => (.done, { e with jobInstanceId := 1 }, r)⟩, .firstRun, Unit,
    id⟩

def failedOnce : JobExecution :=
  { JobExecution.create 2 ⟨1, "load", ""⟩ .firstRun .epoch with
    status := .failed
    endTime := some .epoch }

/-- Bodies have to leave both alone. In one order the execution that the first body asks for
is not there, in the other it is its own. And the instance is blocked for the restart by what
the second body leaves there, unless the restart comes first. -/
theorem ids_written_heed_order :
    (runAll .still [renumbering, idle "b"] ⟨.empty, ()⟩).1.map (fun a => a.toOption.isSome)
        = [false, true] ∧
      (runAll .still [idle "b", renumbering] ⟨.empty, ()⟩).1.map (fun a => a.toOption.isSome)
        = [true, true] ∧
      let loaded := (Session.fresh ()).after .still [.create "load" .firstRun, .update failedOnce]
      (runAll .still [moving, idle "load"] ⟨loaded, ()⟩).1.map (fun a => a.toOption.isSome)
        = [true, false] ∧
      (runAll .still [idle "load", moving] ⟨loaded, ()⟩).1.map (fun a => a.toOption.isSome)
        = [true, true] := by
  decide +kernel

end Request

end Launch

end NestedBatch

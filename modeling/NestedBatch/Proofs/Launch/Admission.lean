import NestedBatch.Proofs.Interleaving.Sequential
import NestedBatch.Proofs.Records.Attempts

/-! Which launches are let pass. The look at the newest execution and the look at all
of them come to one condition on what is recorded of the instance. A launch that does
not meet it leaves no trace, and one that meets it adds one execution and nothing else,
but for its instance where there was none. -/
namespace NestedBatch

namespace Records

variable {r r' made : Records} {job : String} {p : Parameters} {i : JobInstance}
  {x y : JobExecution}

/-- The recorded executions of the instance that job and parameters name, if there is one. -/
def recorded (r : Records) (job : String) (p : Parameters) : List JobExecution :=
  match r.instance? job p.jobKey with
  | some i => r.executionsOf i.id
  | none => []

theorem recorded_some (there : r.instance? job p.jobKey = some i) :
    r.recorded job p = r.executionsOf i.id := by
  simp only [recorded, there]

theorem recorded_none (absent : r.instance? job p.jobKey = none) : r.recorded job p = [] := by
  simp only [recorded, absent]

theorem newest_eq_none_iff {α : Type} {id : α → Nat} {l : List α} :
    newest id l = none ↔ l = [] := by
  cases l with
  | nil => simp [newest]
  | cons a rest =>
    simp only [newest]
    split
    · simp
    · split <;> simp

theorem lastExecution?_eq :
    r.lastExecution? job p = (newest JobExecution.id (r.recorded job p)).map r.withSteps := by
  cases there : r.instance? job p.jobKey with
  | some i => simp only [lastExecution?, recorded, there, Option.bind_some]
  | none => simp only [lastExecution?, recorded, there, Option.bind_none, newest, Option.map_none]

/-- What is recorded of an instance lets another execution of it pass exactly if none
of its executions stands in the way. -/
theorem findOrMakeInstance_ok_iff :
    (∃ found, r.findOrMakeInstance job p = .ok found) ↔
      ∀ e ∈ r.recorded job p, obstacle? job p e = none := by
  cases there : r.instance? job p.jobKey with
  | none =>
    rw [recorded_none there]
    simp [findOrMakeInstance, there]
  | some i =>
    rw [recorded_some there, ← List.findSome?_eq_none_iff]
    simp only [findOrMakeInstance, there]
    cases (r.executionsOf i.id).findSome? (obstacle? job p) with
    | none => simp
    | some e => simp

/-- An id that an instance, an execution or a step execution has. -/
def Uses (r : Records) (id : Nat) : Prop :=
  (∃ i ∈ r.instances, i.id = id) ∨ (∃ e ∈ r.executions, e.id = id) ∨ ∃ s ∈ r.steps, s.id = id

theorem Reachable.issued (reachable : r.Reachable) : r.WellNamed ∧ r.StepsNumbered := by
  induction reachable with
  | refl => exact ⟨tidy_empty.names, tidy_empty.steps⟩
  | tail _ call ih => exact ⟨call.wellNamed ih.1, call.stepsNumbered ih.2⟩

/-- Every id in the records has been handed out. -/
theorem Reachable.bounded (reachable : r.Reachable) {id : Nat} (used : r.Uses id) :
    id ≤ r.nextId := by
  obtain ⟨names, steps⟩ := reachable.issued
  rcases used with ⟨i, hi, rfl⟩ | ⟨e, he, rfl⟩ | ⟨s, hs, rfl⟩
  · exact names.known i hi
  · exact reachable.numbered.bounded e he
  · exact steps.bounded s.id (List.mem_map_of_mem hs)

/-- The records after one execution was added: it has the given parameters and a new
id, and belongs to the instance there was, or to a new one where there was none. -/
structure Appended (r : Records) (job : String) (p : Parameters) (x : JobExecution)
    (r' : Records) : Prop where
  executions : r'.executions = r.executions ++ [x]
  steps : r'.steps = r.steps
  fresh : ¬ r.Uses x.id
  jobName : x.jobName = job
  jobParameters : x.jobParameters = p
  owner : ∃ i, r'.instance? job p.jobKey = some i ∧ x.jobInstanceId = i.id ∧ x.id ≠ i.id ∧
    (r.instance? job p.jobKey = some i ∧ r'.instances = r.instances ∨
      r.instance? job p.jobKey = none ∧ r'.instances = r.instances ++ [i] ∧ ¬ r.Uses i.id)

theorem Appended.sameOrigin (appended : r.Appended job p x (made.withNewest x))
    (same : SameOrigin x y) : r.Appended job p y (made.withNewest y) := by
  obtain ⟨executions, steps, fresh, name, parameters, owner⟩ := appended
  have front : made.executions = r.executions := List.append_cancel_right executions
  refine ⟨?_, steps, ?_, same.jobName.trans name, same.jobParameters.trans parameters, ?_⟩
  · exact congrArg (· ++ [y]) front
  · rwa [same.id]
  · rwa [same.jobInstanceId, same.id]

theorem appended_withNewest (reachable : r.Reachable)
    (found : r.findOrMakeInstance job p = .ok (i, made)) (id : x.id = made.nextId + 1)
    (belongs : x.jobInstanceId = i.id) (name : x.jobName = i.jobName)
    (parameters : x.jobParameters = p) : r.Appended job p x (made.withNewest x) := by
  have count := (findOrMakeInstance_frame found).2
  have fresh : ∀ n, r.nextId < n → ¬ r.Uses n := fun n above used =>
    Nat.not_le_of_lt above (reachable.bounded used)
  obtain ⟨_, named⟩ := instance?_made found
  have kept : (made.withNewest x).instance? job p.jobKey = some i := named
  rcases findOrMakeInstance_ok found with ⟨there, rfl, _⟩ | ⟨absent, new, rfl⟩
  · obtain ⟨member, iName, _⟩ := instance?_some there
    have known := reachable.issued.1.known i member
    constructor
    · rfl
    · rfl
    · exact fresh x.id (by omega)
    · exact name.trans iName
    · exact parameters
    · exact ⟨i, kept, belongs, by omega, Or.inl ⟨there, rfl⟩⟩
  · have own : i.id = r.nextId + 1 := by rw [new]
    constructor
    · rfl
    · rfl
    · exact fresh x.id (by simp only at id; omega)
    · rw [name, new]
    · exact parameters
    · refine ⟨i, kept, belongs, by simp only at id; omega, Or.inr ⟨absent, rfl, ?_⟩⟩
      exact fresh i.id (by omega)

end Records

namespace Launch

variable {W : Type} {h : Host W} {launcher : Launcher} {job : Job W} {p : Parameters}
  {r r' : Repository W} {e x : JobExecution}

/-- When a launch is let pass: nothing of the instance is under way, there is nothing of
it unless the job may be restarted, and nothing of it has come to its end for good
unless nothing identifies it. -/
structure Admissible (job : Job W) (p : Parameters) (records : Records) : Prop where
  idle : ∀ e ∈ records.recorded job.name p, e.isRunning = false
  restartable : job.restartable = true ∨ records.recorded job.name p = []
  unfinished : p.identifying.isEmpty = true ∨
    ∀ e ∈ records.recorded job.name p, ¬ (e.status = .completed ∨ e.status = .abandoned)

theorem preflight_ok_iff {records : Records} :
    preflight job (records.lastExecution? job.name p) = .ok () ↔
      ∀ last, Records.newest JobExecution.id (records.recorded job.name p) = some last →
        last.isRunning = false ∧ job.restartable = true := by
  rw [Records.lastExecution?_eq]
  cases Records.newest JobExecution.id (records.recorded job.name p) with
  | none => simp [preflight]
  | some last =>
    have same : (records.withSteps last).isRunning = last.isRunning := rfl
    simp only [Option.map_some, preflight, same, Option.some.injEq]
    cases running : last.isRunning <;> cases job.restartable <;> simp [running]

/-- The look at the newest execution and the look at all of them come to one condition. -/
theorem admissible_iff {records : Records} :
    Admissible job p records ↔
      preflight job (records.lastExecution? job.name p) = .ok () ∧
        ∃ found, records.findOrMakeInstance job.name p = .ok found := by
  rw [preflight_ok_iff, Records.findOrMakeInstance_ok_iff]
  constructor
  · rintro ⟨idle, restartable, unfinished⟩
    constructor
    · intro last newest
      have listed := Records.mem_of_newest newest
      refine ⟨idle last listed, restartable.resolve_right fun none => ?_⟩
      rw [none] at listed
      exact List.not_mem_nil listed
    · intro e listed
      refine Records.obstacle?_eq_none.2 ⟨idle e listed, fun identified => ?_⟩
      rcases unfinished with anonymous | unfinished
      · exact absurd (anonymous.symm.trans identified) (by decide)
      · exact unfinished e listed
  · rintro ⟨checked, clear⟩
    constructor
    · intro e listed
      exact (Records.obstacle?_eq_none.1 (clear e listed)).1
    · -- Where there are executions, one is the newest, and the job has passed because of it.
      cases newest : Records.newest JobExecution.id (records.recorded job.name p) with
      | none => exact Or.inr (Records.newest_eq_none_iff.1 newest)
      | some last => exact Or.inl (checked last newest).2
    · cases identified : p.identifying.isEmpty with
      | true => exact Or.inl rfl
      | false =>
        refine Or.inr fun e listed => ?_
        exact (Records.obstacle?_eq_none.1 (clear e listed)).2 identified

/-- The errors with which a launch is refused, and what each of them tells. -/
def Refusal (job : Job W) (p : Parameters) (records : Records) : BatchError → Prop
  | .alreadyRunning name =>
    name = job.name ∧ ∃ e ∈ records.recorded job.name p, e.isRunning = true
  | .notRestartable fault =>
    fault = .launchedBefore job.name ∧ job.restartable = false ∧ records.recorded job.name p ≠ []
  | .alreadyComplete name parameters =>
    name = job.name ∧ parameters = p.text ∧ p.identifying.isEmpty = false ∧
      ∃ e ∈ records.recorded job.name p, e.status = .completed ∨ e.status = .abandoned
  | _ => False

theorem refusal_preflight {records : Records} {fault : BatchError}
    (refused : preflight job (records.lastExecution? job.name p) = .error fault) :
    Refusal job p records fault := by
  rw [Records.lastExecution?_eq] at refused
  cases newest : Records.newest JobExecution.id (records.recorded job.name p) with
  | none =>
    rw [newest] at refused
    cases refused
  | some last =>
    have listed := Records.mem_of_newest newest
    rw [newest] at refused
    simp only [Option.map_some, preflight] at refused
    split at refused
    · rename_i running
      cases refused
      exact ⟨rfl, last, listed, running⟩
    · split at refused
      · rename_i once
        cases refused
        refine ⟨rfl, by simpa using once, fun none => ?_⟩
        rw [none] at listed
        exact List.not_mem_nil listed
      · cases refused

theorem refusal_findOrMakeInstance {records : Records} {fault : BatchError}
    (refused : records.findOrMakeInstance job.name p = .error fault) :
    Refusal job p records fault := by
  obtain ⟨i, x, there, listed, obstacle⟩ := Records.findOrMakeInstance_error refused
  rw [← Records.recorded_some there] at listed
  simp only [Records.obstacle?] at obstacle
  split at obstacle
  · rename_i running
    cases obstacle
    exact ⟨rfl, x, listed, running⟩
  · split at obstacle
    · rename_i finished
      cases obstacle
      exact ⟨rfl, rfl, by simpa using finished.2, x, listed, finished.1⟩
    · cases obstacle

/-- A launch that is not let pass ends before anything is written. -/
theorem start_refused (h : Host W) (refused : ¬ Admissible job p r.records) :
    ∃ fault, Refusal job p r.records fault ∧ start h job p r = (.error fault, r) := by
  rw [admissible_iff] at refused
  cases checked : preflight job (r.records.lastExecution? job.name p) with
  | error fault =>
    exact ⟨fault, refusal_preflight checked, by simp only [start, checked]⟩
  | ok _ =>
    cases found : r.records.findOrMakeInstance job.name p with
    | error fault =>
      refine ⟨fault, refusal_findOrMakeInstance found, ?_⟩
      simp only [start_eq, checked, opened_refused h found]
    | ok admitted => exact absurd ⟨checked, admitted, found⟩ refused

/-- A launch that was let pass has added its execution to the records. -/
theorem start_appends (reachable : r.records.Reachable)
    (begins : start h job p r = (.ok x, r')) :
    ∃ made : Records, r'.records = made.withNewest x ∧ made.Numbered ∧
      x.id = made.nextId + 1 ∧ r.records.Appended job.name p x (made.withNewest x) := by
  have numbered := reachable.numbered
  obtain ⟨i, made, found, started, name, parameters⟩ := started_of_ok numbered begins
  obtain ⟨executions, count⟩ := Records.findOrMakeInstance_frame found
  refine ⟨made, started.records, numbered.mono executions count, started.id, ?_⟩
  exact Records.appended_withNewest reachable found started.id started.jobInstanceId name
    parameters

/-- What the body is handed, where a launch gets as far as that. -/
def handed? (h : Host W) (launcher : Launcher) (job : Job W) (p : Parameters)
    (r : Repository W) : Option (JobExecution × Repository W) :=
  match start h job p r with
  | (.error _, _) => none
  | (.ok e, r) => if launcher = .closedTask then none else some (e, r)

theorem handed?_eq_some :
    handed? h launcher job p r = some (e, r') ↔
      start h job p r = (.ok e, r') ∧ launcher ≠ .closedTask := by
  simp only [handed?]
  generalize start h job p r = started
  obtain ⟨_ | x, r''⟩ := started <;> simp [and_comm]

/-- A launch depends on the body only where something is handed to it. -/
theorem run_congr {body : JobExecution → Repository W → Ending × JobExecution × Repository W}
    (same : ∀ e r', handed? h launcher job p r = some (e, r') → body e r' = job.body e r') :
    run h launcher { job with body } p r = run h launcher job p r := by
  have begins : start h { job with body } p r = start h job p r := rfl
  simp only [run, begins]
  rcases started : start h job p r with ⟨_ | e, r'⟩
  · rfl
  · cases launcher with
    | closedTask => rfl
    | sameThread | task =>
      have handed := same e r' (handed?_eq_some.2 ⟨started, by decide⟩)
      simp only [perform, handed]

/-- A body that does not write to the records leaves them with the one execution more. -/
theorem run_appends (reachable : r.records.Reachable) (confined : Interleaving.Confined job)
    (begins : start h job p r = (.ok x, r')) :
    ∃ y, SameOrigin x y ∧
      r.records.Appended job.name p y (run h launcher job p r).2.records := by
  obtain ⟨made, records, numbered, next, appended⟩ := start_appends reachable begins
  obtain ⟨origin, kept⟩ := confined.perform launcher x r'
  rw [run_of_started begins]
  generalize perform launcher job x r' = performed at origin kept ⊢
  obtain ⟨fault, e, r''⟩ := performed
  obtain ⟨now, put⟩ := finish_records h e fault r''
  have closes := origin.trans (sameOrigin_closed h e fault r''.world)
  have left : (finish h e fault r'').2.records = made.withNewest
      { (closed h e fault r''.world).1 with lastUpdated := now, steps := [] } := by
    rw [put, show r''.records = made.withNewest x from kept.trans records]
    exact Records.putExecution_withNewest numbered next closes.id
  refine ⟨{ (closed h e fault r''.world).1 with lastUpdated := now, steps := [] }, ?_, ?_⟩
  · exact ⟨closes.id, closes.jobInstanceId, closes.jobName, closes.jobParameters⟩
  · simp only [left]
    refine appended.sameOrigin ?_
    exact ⟨closes.id, closes.jobInstanceId, closes.jobName, closes.jobParameters⟩

/-- A launch whose writes do not fail is let pass exactly under the condition above. One
that is not runs no body and changes nothing, and its error is true of the records. One
that is adds its execution, and its body is handed just that; the rest of the launch is
what the body makes of it and how that is closed, and a body that does not write to the
records leaves no other change. -/
theorem launch_admission (h : Host W) (launcher : Launcher) (job : Job W) (p : Parameters)
    {r : Repository W} (reachable : r.records.Reachable)
    (saved : ∀ fault, (start h job p r).1 ≠ .error (.io fault)) :
    ((∃ x, (start h job p r).1 = .ok x) ↔ Admissible job p r.records) ∧
      (¬ Admissible job p r.records → handed? h launcher job p r = none ∧
        ∃ fault, Refusal job p r.records fault ∧ run h launcher job p r = (.error fault, r)) ∧
      ∀ x, (start h job p r).1 = .ok x →
        r.records.Appended job.name p x (start h job p r).2.records ∧
          (run h launcher job p r =
            let done := perform launcher job x (start h job p r).2
            finish h done.2.1 done.1 done.2.2) ∧
          (launcher ≠ .closedTask →
            handed? h launcher job p r = some (x, (start h job p r).2)) ∧
          (Interleaving.Confined job → ∃ y, SameOrigin x y ∧
            r.records.Appended job.name p y (run h launcher job p r).2.records) := by
  refine ⟨⟨?_, ?_⟩, ?_, ?_⟩
  · rintro ⟨x, started⟩
    by_contra inadmissible
    obtain ⟨fault, _, refused⟩ := start_refused h inadmissible
    rw [refused] at started
    cases started
  · intro admissible
    obtain ⟨checked, admitted, found⟩ := admissible_iff.1 admissible
    obtain ⟨x, started⟩ := start_admitted h reachable.numbered checked found
    rcases started.answer with done | ⟨fault, unsaved⟩
    · exact ⟨x, done⟩
    · exact absurd unsaved (saved fault)
  · intro inadmissible
    obtain ⟨fault, refusal, refused⟩ := start_refused h inadmissible
    exact ⟨by simp only [handed?, refused], fault, refusal, by simp only [run, refused]⟩
  · intro x started
    have begins : start h job p r = (.ok x, (start h job p r).2) := Prod.ext started rfl
    obtain ⟨made, records, _, _, appended⟩ := start_appends reachable begins
    refine ⟨records ▸ appended, run_of_started begins, fun open' => ?_, fun confined => ?_⟩
    · rw [handed?, begins]
      exact if_neg open'
    · exact run_appends reachable confined begins

/-- The records after a first run, which completed. -/
def completedOnce : Records := (run .still .sameThread .idle .firstRun ⟨.empty, ()⟩).2.records

theorem reachable_completedOnce : completedOnce.Reachable :=
  run_calls .still .sameThread contained_idle .firstRun ⟨.empty, ()⟩

/-- An instance that has completed is not launched again. -/
theorem completed_not_launched :
    ¬ Admissible (Job.idle (W := Unit)) .firstRun completedOnce ∧
      ∃ fault, Refusal (Job.idle (W := Unit)) .firstRun completedOnce fault ∧
        run .still .task .idle .firstRun ⟨completedOnce, ()⟩
          = (.error fault, ⟨completedOnce, ()⟩) := by
  have answer : (start Host.still .idle .firstRun ⟨completedOnce, ()⟩).1
      = .error (.alreadyComplete "idle" Parameters.firstRun.text) := by decide +kernel
  obtain ⟨passes, refuses, _⟩ := launch_admission .still .task (Job.idle (W := Unit)) .firstRun
    (r := ⟨completedOnce, ()⟩) reachable_completedOnce fun fault unsaved => by
      rw [answer] at unsaved
      cases unsaved
  have inadmissible : ¬ Admissible (Job.idle (W := Unit)) .firstRun completedOnce := by
    intro admissible
    obtain ⟨x, started⟩ := passes.2 admissible
    rw [answer] at started
    cases started
  exact ⟨inadmissible, (refuses inadmissible).2⟩

end Launch

end NestedBatch

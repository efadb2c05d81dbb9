import NestedBatch.Launch
import NestedBatch.Proofs.Repository.Calls

/-! How a launch begins and how it is closed. A launch is refused without a
trace, or its execution is the last one of the records and under way, whether or
not that could be saved. -/
namespace NestedBatch

variable {W : Type}

/-- What a body is not to change of its execution. -/
structure SameOrigin (e x : JobExecution) : Prop where
  id : x.id = e.id
  jobInstanceId : x.jobInstanceId = e.jobInstanceId
  jobName : x.jobName = e.jobName
  jobParameters : x.jobParameters = e.jobParameters

theorem SameOrigin.refl (e : JobExecution) : SameOrigin e e := ⟨rfl, rfl, rfl, rfl⟩

theorem SameOrigin.symm {a b : JobExecution} (ab : SameOrigin a b) : SameOrigin b a :=
  ⟨ab.id.symm, ab.jobInstanceId.symm, ab.jobName.symm, ab.jobParameters.symm⟩

theorem SameOrigin.trans {a b c : JobExecution} (ab : SameOrigin a b) (bc : SameOrigin b c) :
    SameOrigin a c :=
  ⟨bc.id.trans ab.id, bc.jobInstanceId.trans ab.jobInstanceId, bc.jobName.trans ab.jobName,
    bc.jobParameters.trans ab.jobParameters⟩

def Host.still : Host Unit := ⟨fun _ => (.epoch, ()), fun _ _ => (none, ())⟩

def Host.full : Host Unit := ⟨fun _ => (.epoch, ()), fun _ _ => (some .noSpace, ())⟩

def Job.idle : Job W := ⟨"idle", true, fun e r => (.done, e, r)⟩

def Parameters.firstRun : Parameters := KeyMap.empty.insert "run" ⟨.long 1, true⟩

def begun (e : JobExecution) (now : Instant) : JobExecution :=
  { e with status := .started, startTime := some now }

namespace Records

/-- The records with a new execution of an instance, as it stands after some time. -/
def withNewest (made : Records) (x : JobExecution) : Records :=
  { made with nextId := made.nextId + 1, executions := made.executions ++ [x] }

theorem replaceFirst_append {α : Type} {test : α → Bool} {new a : α} {l : List α}
    (absent : ∀ b ∈ l, test b = false) (found : test a = true) :
    replaceFirst test new (l ++ [a]) = l ++ [new] := by
  induction l with
  | nil => simp only [List.nil_append, replaceFirst, found, if_true]
  | cons b rest ih =>
    have other : test b = false := absent b List.mem_cons_self
    have tail := ih fun c hc => absent c (List.mem_cons_of_mem b hc)
    simp only [List.cons_append, replaceFirst, other, tail, Bool.false_eq_true, if_false]

theorem hasExecution_withNewest (made : Records) (x : JobExecution) :
    (made.withNewest x).hasExecution x.id = true :=
  hasExecution_iff.2 ⟨x, List.mem_append_right _ List.mem_cons_self, rfl⟩

theorem putExecution_withNewest {made : Records} (numbered : made.Numbered) {x y : JobExecution}
    (new : x.id = made.nextId + 1) (same : y.id = x.id) :
    (made.withNewest x).putExecution y = made.withNewest { y with steps := [] } := by
  have absent : ∀ b ∈ made.executions, decide (b.id = y.id) = false := by
    intro b hb
    have below := numbered.bounded b hb
    exact decide_eq_false (by omega)
  have found : decide (x.id = y.id) = true := decide_eq_true same.symm
  simp only [putExecution, withNewest, replaceFirst_append absent found]

end Records

namespace Records

variable {r : Records} {job : String} {p : Parameters} {i : JobInstance}

/-- The instance that a launch is for: the one there is, or the one that is made for it. -/
def instanceIdOf (r : Records) (job : String) (p : Parameters) : Nat :=
  match r.instance? job p.jobKey with
  | some i => i.id
  | none => r.nextId + 1

/-- Is an execution of the instance under way? -/
def Blocked (r : Records) (job : String) (p : Parameters) : Prop :=
  ∃ e ∈ r.executionsOf (r.instanceIdOf job p), e.isRunning = true

theorem instanceIdOf_some (there : r.instance? job p.jobKey = some i) :
    r.instanceIdOf job p = i.id := by
  simp only [instanceIdOf, there]

theorem mem_of_newest {α : Type} {id : α → Nat} {l : List α} {a : α}
    (found : newest id l = some a) : a ∈ l := by
  induction l with
  | nil => cases found
  | cons b rest ih =>
    simp only [newest] at found
    split at found
    · cases found
      exact List.mem_cons_self
    · rename_i c later
      split at found
      · cases found
        exact List.mem_cons_of_mem b (ih later)
      · cases found
        exact List.mem_cons_self

theorem blocked_of_last {e : JobExecution} (found : r.lastExecution? job p = some e)
    (running : e.isRunning = true) : r.Blocked job p := by
  simp only [lastExecution?, Option.bind_eq_some_iff, Option.map_eq_some_iff] at found
  obtain ⟨i, there, x, newest, rfl⟩ := found
  refine ⟨x, ?_, running⟩
  rw [instanceIdOf_some there]
  exact mem_of_newest newest

end Records

namespace Launch

theorem sameOrigin_closed (h : Host W) (e : JobExecution) (fault : Option String) (w : W) :
    SameOrigin e (closed h e fault w).1 := by
  cases fault <;> simp only [closed] <;> split <;> exact ⟨rfl, rfl, rfl, rfl⟩

/-- A closed execution has an end, whatever its body did. -/
theorem isRunning_closed (h : Host W) (e : JobExecution) (fault : Option String) (w : W) :
    (closed h e fault w).1.isRunning = false := by
  have ended : (closed h e fault w).1.endTime ≠ none := by
    simp only [closed]
    split
    · rename_i there
      rw [there]
      exact Option.some_ne_none _
    · exact Option.some_ne_none _
  simp only [JobExecution.isRunning, Bool.and_eq_false_iff, Option.isNone_eq_false_iff]
  exact Or.inr (Option.isSome_iff_ne_none.2 ended)

variable {job : Job W} {p : Parameters} {r : Repository W}

/-- Are the changes of a body to its execution kept? -/
def keepsChanges (launcher : Launcher) (ending : Ending) : Bool :=
  match launcher, ending with
  | .task, .panicked _ => false
  | _, _ => true

theorem perform_eq {launcher : Launcher} (runs : launcher ≠ .closedTask) (job : Job W)
    (e : JobExecution) (r : Repository W) :
    perform launcher job e r = ((job.body e r).1.fault?,
      if keepsChanges launcher (job.body e r).1 then (job.body e r).2.1 else e,
      (job.body e r).2.2) := by
  cases launcher with
  | sameThread => rfl
  | closedTask => exact absurd rfl runs
  | task =>
    simp only [perform]
    split
    · rename_i payload x r' ended
      rw [ended]
      rfl
    · rename_i ending x r' unbroken ended
      rw [ended]
      cases ending with
      | panicked payload => exact absurd rfl (unbroken payload)
      | done => rfl
      | raised message => rfl

/-- What becomes of a launch that has started: the body is run, and its execution closed. -/
theorem run_of_started {h : Host W} {launcher : Launcher} {e : JobExecution} {r' : Repository W}
    (started : start h job p r = (.ok e, r')) :
    run h launcher job p r = finish h (perform launcher job e r').2.1
      (perform launcher job e r').1 (perform launcher job e r').2.2 := by
  simp only [run, started]

/-- However the closing ends, the records are as if the closed execution had been put back. -/
theorem finish_records (h : Host W) (e : JobExecution) (fault : Option String) (r : Repository W) :
    ∃ now, (finish h e fault r).2.records = r.records.putExecution
      { (closed h e fault r.world).1 with lastUpdated := now } := by
  obtain ⟨now, _, records⟩ := Repository.updateExecution_effect h (closed h e fault r.world).1
    ⟨r.records, (closed h e fault r.world).2⟩
  refine ⟨now, ?_⟩
  cases fault <;> exact records

/-- A refusal of a launch, and what it tells about the records. -/
def IsRefusal (records : Records) (job : String) (p : Parameters) : BatchError → Prop
  | .alreadyRunning name => name = job ∧ records.Blocked job p
  | .notRestartable fault => fault.job = job
  | .alreadyComplete name _ => name = job
  | _ => False

theorem preflight_refused {e : BatchError}
    (refused : preflight job (r.records.lastExecution? job.name p) = .error e) :
    IsRefusal r.records job.name p e := by
  simp only [preflight] at refused
  split at refused
  · cases refused
  · rename_i last found
    split at refused
    · rename_i running
      cases refused
      exact ⟨rfl, Records.blocked_of_last found running⟩
    · split at refused
      · cases refused
        rfl
      · cases refused

theorem findOrMakeInstance_refused {records : Records} {name : String} {e : BatchError}
    (refused : records.findOrMakeInstance name p = .error e) : IsRefusal records name p e := by
  obtain ⟨i, x, there, listed, obstacle⟩ := Records.findOrMakeInstance_error refused
  simp only [Records.obstacle?] at obstacle
  split at obstacle
  · rename_i running
    cases obstacle
    refine ⟨rfl, x, ?_, running⟩
    rwa [Records.instanceIdOf_some there]
  · split at obstacle
    · cases obstacle
      rfl
    · cases obstacle

/-- What a launch leaves that was not refused: its execution is there and under
way, and whether the job is to be run depends on saving alone. -/
structure Started (i : JobInstance) (made : Records) (x : JobExecution)
    (outcome : Except BatchError JobExecution × Repository W) : Prop where
  records : outcome.2.records = made.withNewest x
  running : x.isRunning = true
  id : x.id = made.nextId + 1
  jobInstanceId : x.jobInstanceId = i.id
  answer : Repository.Saved x outcome.1

theorem Started.of_create {i : JobInstance} {made : Records} {now : Instant} {fault : IoFault}
    {w : W} : Started i made (made.newExecution i p now).1
      (.error (.io fault), ⟨(made.newExecution i p now).2, w⟩) :=
  ⟨rfl, rfl, rfl, rfl, Or.inr ⟨fault, rfl⟩⟩

def recordBegun (h : Host W) (e : JobExecution) (r : Repository W) :
    Except BatchError JobExecution × Repository W :=
  let (saved, e, r) :=
    Repository.updateExecution h (begun e (h.now r.world).1) ⟨r.records, (h.now r.world).2⟩
  (saved.map fun _ => e, r)

/-- An execution is made and begun: by a launch that was let pass, or as the parent of a step. -/
def opened (h : Host W) (name : String) (p : Parameters) (r : Repository W) :
    Except BatchError JobExecution × Repository W :=
  match r.createExecution h name p with
  | (.error e, r) => (.error e, r)
  | (.ok e, r) => recordBegun h e r

theorem start_eq (h : Host W) (job : Job W) (p : Parameters) (r : Repository W) :
    start h job p r =
      match preflight job (r.records.lastExecution? job.name p) with
      | .error e => (.error e, r)
      | .ok _ => opened h job.name p r := rfl

theorem recordBegun_present (h : Host W) {e : JobExecution}
    (present : r.records.hasExecution e.id = true) :
    ∃ now updated answer w, recordBegun h e r =
        (answer, ⟨r.records.putExecution { begun e now with lastUpdated := updated }, w⟩) ∧
      Repository.Saved { begun e now with lastUpdated := updated } answer := by
  obtain ⟨answer, w, eq, saved⟩ := Repository.updateExecution_present h
    (e := begun e (h.now r.world).1) (r := ⟨r.records, (h.now r.world).2⟩) present
  refine ⟨(h.now r.world).1, (h.now (h.now r.world).2).1, (recordBegun h e r).1, w, ?_, ?_⟩ <;>
    simp only [recordBegun, eq]
  rcases saved with rfl | ⟨fault, rfl⟩
  · exact Or.inl rfl
  · exact Or.inr ⟨fault, rfl⟩

theorem Started.of_begun (h : Host W) {i : JobInstance} {made : Records} (ordered : made.Numbered)
    (now : Instant) (w : W) :
    ∃ x, Started i made x
      (recordBegun h (made.newExecution i p now).1 ⟨(made.newExecution i p now).2, w⟩) := by
  have present : (⟨(made.newExecution i p now).2, w⟩ : Repository W).records.hasExecution
      (made.newExecution i p now).1.id = true :=
    made.hasExecution_withNewest (made.newExecution i p now).1
  obtain ⟨begin, updated, answer, w', recorded, saved⟩ := recordBegun_present h present
  refine ⟨{ begun (made.newExecution i p now).1 begin with lastUpdated := updated }, ?_⟩
  rw [recorded]
  refine ⟨?_, rfl, rfl, rfl, saved⟩
  exact Records.putExecution_withNewest ordered (x := (made.newExecution i p now).1) rfl rfl

theorem opened_refused (h : Host W) {name : String} {e : BatchError}
    (refused : r.records.findOrMakeInstance name p = .error e) :
    opened h name p r = (.error e, r) := by
  simp only [opened, Repository.createExecution_refused h refused]

theorem opened_admitted (h : Host W) (numbered : r.records.Numbered) {name : String}
    {i : JobInstance} {made : Records}
    (found : r.records.findOrMakeInstance name p = .ok (i, made)) :
    ∃ x, Started i made x (opened h name p r) := by
  obtain ⟨executions, count⟩ := Records.findOrMakeInstance_frame found
  obtain ⟨answer, w, created, saved⟩ := Repository.createExecution_admitted h found
  simp only [opened, created]
  rcases saved with rfl | ⟨fault, rfl⟩
  · exact Started.of_begun (i := i) (p := p) h (numbered.mono executions count)
      (h.now r.world).1 w
  · exact ⟨_, .of_create⟩

/-- A launch that nothing stands in the way of. -/
theorem start_admitted (h : Host W) (numbered : r.records.Numbered) {i : JobInstance}
    {made : Records} (checked : preflight job (r.records.lastExecution? job.name p) = .ok ())
    (found : r.records.findOrMakeInstance job.name p = .ok (i, made)) :
    ∃ x, Started i made x (start h job p r) := by
  simp only [start_eq, checked]
  exact opened_admitted h numbered found

theorem start_cases (h : Host W) (job : Job W) (p : Parameters) (numbered : r.records.Numbered) :
    (∃ e, IsRefusal r.records job.name p e ∧ start h job p r = (.error e, r)) ∨
      ∃ i made x, r.records.findOrMakeInstance job.name p = .ok (i, made) ∧
        Started i made x (start h job p r) := by
  cases checked : preflight job (r.records.lastExecution? job.name p) with
  | error e => exact Or.inl ⟨e, preflight_refused checked, by simp only [start, checked]⟩
  | ok _ =>
    cases found : r.records.findOrMakeInstance job.name p with
    | error e =>
      have refused := opened_refused h found
      exact Or.inl ⟨e, findOrMakeInstance_refused found, by simp only [start_eq, checked, refused]⟩
    | ok admitted =>
      obtain ⟨i, made⟩ := admitted
      obtain ⟨x, started⟩ := start_admitted h numbered checked found
      exact Or.inr ⟨i, made, x, rfl, started⟩

/-- What is made for a launch has the job and the parameters that it was asked for. The
steps stay as they are. -/
theorem opened_origin {h : Host W} {name : String} {e : JobExecution} {r' : Repository W}
    (begins : opened h name p r = (.ok e, r')) :
    ∃ i made, r.records.findOrMakeInstance name p = .ok (i, made) ∧ e.jobName = i.jobName ∧
      e.jobInstanceId = i.id ∧ e.jobParameters = p ∧ r'.records.steps = made.steps := by
  cases found : r.records.findOrMakeInstance name p with
  | error fault => simp [opened_refused h found] at begins
  | ok admitted =>
    refine ⟨admitted.1, admitted.2, rfl, ?_⟩
    obtain ⟨answer, w, created, saved⟩ := Repository.createExecution_admitted h found
    simp only [opened, created] at begins
    rcases saved with rfl | ⟨fault, rfl⟩
    · obtain ⟨begin, updated, answer, w', recorded, saved⟩ := recordBegun_present h
        (r := ⟨(admitted.2.newExecution admitted.1 p (h.now r.world).1).2, w⟩)
        (admitted.2.hasExecution_withNewest
          (admitted.2.newExecution admitted.1 p (h.now r.world).1).1)
      simp only [recorded] at begins
      rcases saved with rfl | ⟨fault, rfl⟩
      · cases begins
        exact ⟨rfl, rfl, rfl, rfl⟩
      · cases begins
    · cases begins

/-- What a launch has begun is the last execution of the records, of the job and with the
parameters of the launch. -/
theorem started_of_ok {h : Host W} {e : JobExecution} {r' : Repository W}
    (numbered : r.records.Numbered) (begins : start h job p r = (.ok e, r')) :
    ∃ i made, r.records.findOrMakeInstance job.name p = .ok (i, made) ∧
      Started i made e (.ok e, r') ∧ e.jobName = i.jobName ∧ e.jobParameters = p := by
  rcases start_cases h job p numbered with ⟨fault, _, refused⟩ | ⟨i, made, x, found, started⟩
  · cases begins.symm.trans refused
  · rw [begins] at started
    obtain rfl : e = x := by
      rcases started.answer with same | ⟨fault, unsaved⟩
      · exact Except.ok.inj same
      · cases unsaved
    have opens : opened h job.name p r = (.ok e, r') := by
      rw [start_eq] at begins
      split at begins
      · cases begins
      · exact begins
    obtain ⟨j, made', found', name, _, parameters, _⟩ := opened_origin opens
    cases found.symm.trans found'
    exact ⟨i, made, found, started, name, parameters⟩

end Launch

end NestedBatch

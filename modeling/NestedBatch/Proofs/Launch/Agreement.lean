import NestedBatch.Proofs.Launch.Start

/-! Where it makes a difference whether a job runs on the caller's thread or as
a task of its own. The answers are always the same. The records are the same
too, but for the time, unless the body breaks off after it has changed more of
its execution than the closing makes good. -/
namespace NestedBatch

def FailureCause.unclocked (f : FailureCause) : FailureCause := { f with occurredAt := .epoch }

/-- A step execution with its times left out; what remains is whether they are there. -/
def StepExecution.unclocked (s : StepExecution) : StepExecution :=
  { s with
    failures := s.failures.map FailureCause.unclocked
    startTime := s.startTime.map fun _ => .epoch
    endTime := s.endTime.map fun _ => .epoch
    lastUpdated := .epoch }

/-- A job execution with its times left out; what remains is whether they are there. -/
def JobExecution.unclocked (e : JobExecution) : JobExecution :=
  { e with
    createTime := .epoch
    startTime := e.startTime.map fun _ => .epoch
    endTime := e.endTime.map fun _ => .epoch
    lastUpdated := .epoch
    steps := e.steps.map StepExecution.unclocked
    failures := e.failures.map FailureCause.unclocked }

def Records.unclocked (r : Records) : Records :=
  { r with
    executions := r.executions.map JobExecution.unclocked
    steps := r.steps.map StepExecution.unclocked }

namespace Records

theorem map_replaceFirst_inj {α β : Type} (f : α → β) {test : α → Bool} {a b : α} {l : List α}
    (there : ∃ x ∈ l, test x = true) :
    (replaceFirst test a l).map f = (replaceFirst test b l).map f ↔ f a = f b := by
  induction l with
  | nil => simp at there
  | cons x rest ih =>
    simp only [replaceFirst]
    split
    · simp
    · rename_i other
      have later : ∃ y ∈ rest, test y = true := by
        obtain ⟨y, hy, found⟩ := there
        rcases List.mem_cons.1 hy with rfl | hy
        · exact absurd found other
        · exact ⟨y, hy, found⟩
      simp only [List.map_cons, List.cons.injEq, true_and, ih later]

/-- Two states of one execution leave the same records if they differ in times and steps only. -/
theorem unclocked_putExecution {r : Records} {a b : JobExecution} (same : a.id = b.id)
    (there : r.hasExecution a.id = true) :
    (r.putExecution a).unclocked = (r.putExecution b).unclocked ↔
      ({ a with steps := [] } : JobExecution).unclocked
        = ({ b with steps := [] } : JobExecution).unclocked := by
  obtain ⟨x, hx, found⟩ := hasExecution_iff.1 there
  have test : ∃ x ∈ r.executions, decide (x.id = b.id) = true :=
    ⟨x, hx, decide_eq_true (found.trans same)⟩
  simp only [unclocked, putExecution, same, Records.mk.injEq, true_and, and_true,
    map_replaceFirst_inj JobExecution.unclocked test]

end Records

theorem Records.hasExecution_putExecution {r : Records} {e : JobExecution} {id : Nat}
    (there : r.hasExecution id = true) : (r.putExecution e).hasExecution id = true := by
  obtain ⟨x, hx, same⟩ := Records.hasExecution_iff.1 there
  have listed := List.mem_map_of_mem (f := JobExecution.id) hx
  rw [← Records.ids_putExecution e] at listed
  obtain ⟨y, hy, id⟩ := List.mem_map.1 listed
  exact Records.hasExecution_iff.2 ⟨y, hy, id.trans same⟩

namespace Launch

variable {W : Type} {job : Job W} {p : Parameters} {r r' : Repository W} {e x : JobExecution}

/-- An execution as a body gets it. -/
structure IsNew (e : JobExecution) : Prop where
  status : e.status = .started
  exitStatus : e.exitStatus = .unknown
  context : e.context = .empty
  failures : e.failures = []
  startTime : e.startTime.isSome = true

/-- An execution that was made and could be recorded as begun is new, and it is there. -/
theorem opened_ok {h : Host W} {name : String} (begins : opened h name p r = (.ok e, r')) :
    IsNew e ∧ r'.records.hasExecution e.id = true := by
  cases found : r.records.findOrMakeInstance name p with
  | error fault => simp [opened_refused h found] at begins
  | ok admitted =>
    obtain ⟨answer, w, created, saved⟩ := Repository.createExecution_admitted h found
    simp only [opened, created] at begins
    rcases saved with rfl | ⟨fault, rfl⟩
    · have present := admitted.2.hasExecution_withNewest
        (admitted.2.newExecution admitted.1 p (h.now r.world).1).1
      obtain ⟨begin, updated, answer, w', recorded, saved⟩ := recordBegun_present h
        (r := ⟨(admitted.2.newExecution admitted.1 p (h.now r.world).1).2, w⟩) present
      simp only [recorded] at begins
      rcases saved with rfl | ⟨fault, rfl⟩
      · cases begins
        exact ⟨⟨rfl, rfl, rfl, rfl, rfl⟩, Records.hasExecution_putExecution present⟩
      · cases begins
    · cases begins

theorem start_ok {h : Host W} (admitted : start h job p r = (.ok e, r')) :
    IsNew e ∧ r'.records.hasExecution e.id = true := by
  rw [start_eq] at admitted
  split at admitted
  · cases admitted
  · exact opened_ok admitted

/-- What is asked of the body of a job: it leaves the origin and the start of its
execution alone and reaches the records by calls only. -/
structure Keeps (job : Job W) : Prop where
  origin : ∀ e r, SameOrigin e (job.body e r).2.1
  startTime : ∀ e r, (job.body e r).2.1.startTime.isSome = e.startTime.isSome
  calls : ∀ e r, Records.Calls r.records (job.body e r).2.2.records

/-- Does closing an execution with a fault leave nothing of what its body did to it? -/
structure MadeGood (message : String) (e : JobExecution) : Prop where
  status : e.status.upgradeTo .failed = .failed
  exitStatus : e.exitStatus.isRunning = true ∨
    e.exitStatus.and (.failedWith message) = .failedWith message
  context : e.context = .empty
  failures : e.failures = []

/-- The fields of an execution that was closed with a fault, its times and steps left out. -/
theorem unclocked_closed (h : Host W) (e : JobExecution) (message : String) (w : W)
    (now : Instant) :
    ({ ({ (closed h e (some message) w).1 with lastUpdated := now } : JobExecution) with
        steps := [] } : JobExecution).unclocked
      = { e with
          status := e.status.upgradeTo .failed
          exitStatus := if e.exitStatus.isRunning then .failedWith message
            else e.exitStatus.and (.failedWith message)
          createTime := .epoch
          startTime := e.startTime.map fun _ => .epoch
          endTime := some .epoch
          lastUpdated := .epoch
          steps := []
          failures := e.failures.map FailureCause.unclocked
            ++ [⟨.childExecution, message, .epoch⟩] } := by
  simp only [closed]
  split <;> rename_i there
  · have ended : (e.endTime.map fun _ => Instant.epoch) = some .epoch :=
      (congrArg (Option.map fun _ => Instant.epoch) there).trans rfl
    simp only [JobExecution.unclocked, faulted, JobExecution.addFailure,
      JobExecution.upgradeStatus, List.map_append, List.map_cons, List.map_nil, ended,
      FailureCause.unclocked]
  · simp only [JobExecution.unclocked, faulted, JobExecution.addFailure,
      JobExecution.upgradeStatus, List.map_append, List.map_cons, List.map_nil,
      Option.map_some, FailureCause.unclocked]

/-- Closing what a body left comes to the same as closing what it was given
exactly if the closing makes good what it did. -/
theorem unclocked_closed_eq_iff (h : Host W) (new : IsNew e) (origin : SameOrigin e x)
    (startTime : x.startTime.isSome = e.startTime.isSome) (message : String) (w : W)
    (now now' : Instant) :
    ({ ({ (closed h x (some message) w).1 with lastUpdated := now } : JobExecution) with
        steps := [] } : JobExecution).unclocked
      = ({ ({ (closed h e (some message) w).1 with lastUpdated := now' } : JobExecution) with
        steps := [] } : JobExecution).unclocked ↔ MadeGood message x := by
  have presence : (x.startTime.map fun _ => Instant.epoch)
      = e.startTime.map fun _ => Instant.epoch := by
    cases hx : x.startTime <;> cases he : e.startTime <;> simp_all
  have severe : Status.started.upgradeTo .failed = .failed := rfl
  have silent : ExitStatus.unknown.isRunning = true := rfl
  rw [unclocked_closed, unclocked_closed]
  simp only [JobExecution.mk.injEq, origin.id, origin.jobInstanceId,
    origin.jobName, origin.jobParameters, new.status, new.exitStatus, new.context, new.failures,
    presence, severe, silent, if_true, true_and, List.map_nil, List.nil_append]
  constructor
  · rintro ⟨status, exitStatus, context, failures⟩
    refine ⟨status, ?_, context, ?_⟩
    · split at exitStatus
      · exact Or.inl ‹_›
      · exact Or.inr exitStatus
    · exact List.map_eq_nil_iff.1 (List.append_left_eq_self.1 failures)
  · rintro ⟨status, exitStatus, context, failures⟩
    refine ⟨status, ?_, context, by rw [failures]; rfl⟩
    split
    · rfl
    · exact exitStatus.resolve_left ‹_›

theorem unclocked_finish_eq_iff (h : Host W) (new : IsNew e) (origin : SameOrigin e x)
    (startTime : x.startTime.isSome = e.startTime.isSome)
    (present : r.records.hasExecution e.id = true) {message : String} :
    (finish h x (some message) r).2.records.unclocked
      = (finish h e (some message) r).2.records.unclocked ↔ MadeGood message x := by
  obtain ⟨now, put⟩ := finish_records h x (some message) r
  obtain ⟨now', put'⟩ := finish_records h e (some message) r
  have left := (sameOrigin_closed h x (some message) r.world).id.trans origin.id
  have right := (sameOrigin_closed h e (some message) r.world).id
  rw [put, put']
  refine (Records.unclocked_putExecution ?_ ?_).trans ?_
  · exact left.trans right.symm
  · exact left.symm ▸ present
  · exact unclocked_closed_eq_iff h new origin startTime message r.world now now'

/-- The two launchers part only when the body breaks off. -/
theorem run_eq_of_not_panicked {h : Host W}
    (ends : ∀ e r', start h job p r = (.ok e, r') →
      ∀ payload, (job.body e r').1 ≠ .panicked payload) :
    run h .sameThread job p r = run h .task job p r := by
  cases started : start h job p r with
  | mk answer r' =>
    cases answer with
    | error fault => simp only [run, started]
    | ok e =>
      simp only [run, started, perform]
      split
      · rename_i payload _ _ broke
        exact absurd (congrArg Prod.fst broke) (ends e r' started payload)
      · rename_i ending _ _ _ broke
        simp only [broke]

/-- A body that breaks off is closed as it stands on the caller's thread, and as
it was handed over where it was a task. -/
theorem run_of_panicked {h : Host W} {payload : Option String} {r'' : Repository W}
    (started : start h job p r = (.ok e, r'))
    (broke : job.body e r' = (.panicked payload, x, r'')) :
    run h .sameThread job p r = finish h x (some (payload.getD "child job panicked")) r'' ∧
      run h .task job p r = finish h e (some (payload.getD "child job panicked")) r'' := by
  simp only [run, started, perform, broke, Ending.fault?, and_self]

/-- The launchers give the same answer. They leave the same records, but for the
time, unless the body breaks off and its execution is not made good by the closing. -/
theorem launchers_agree_iff (h : Host W) (keeps : Keeps job) (p : Parameters) (r : Repository W) :
    (run h .sameThread job p r).1 = (run h .task job p r).1 ∧
      ((run h .sameThread job p r).2.records.unclocked
          = (run h .task job p r).2.records.unclocked ↔
        ∀ e r' payload x r'', start h job p r = (.ok e, r') →
          job.body e r' = (.panicked payload, x, r'') →
          MadeGood (payload.getD "child job panicked") x) := by
  by_cases breaks : ∃ e r' payload x r'', start h job p r = (.ok e, r') ∧
      job.body e r' = (.panicked payload, x, r'')
  · obtain ⟨e, r', payload, x, r'', started, broke⟩ := breaks
    obtain ⟨new, present⟩ := start_ok started
    have origin := keeps.origin e r'
    have startTime := keeps.startTime e r'
    have calls := keeps.calls e r'
    obtain ⟨same, task⟩ := run_of_panicked started broke
    rw [broke] at origin startTime calls
    rw [same, task]
    refine ⟨rfl, ?_⟩
    have compared : (finish h x (some (payload.getD "child job panicked")) r'').2.records.unclocked
        = (finish h e (some (payload.getD "child job panicked")) r'').2.records.unclocked ↔
          MadeGood (payload.getD "child job panicked") x :=
      unclocked_finish_eq_iff h new origin startTime (calls.hasExecution present)
    rw [compared]
    constructor
    · intro good e' r₁ payload' x' r₂ started' broke'
      cases started.symm.trans started'
      cases broke.symm.trans broke'
      exact good
    · intro good
      exact good e r' payload x r'' started broke
  · have ends : ∀ e r', start h job p r = (.ok e, r') →
        ∀ payload, (job.body e r').1 ≠ .panicked payload :=
      fun e r' started payload broke => breaks ⟨e, r', payload, _, _, started, Prod.ext broke rfl⟩
    rw [run_eq_of_not_panicked ends]
    refine ⟨rfl, iff_of_true rfl ?_⟩
    intro e r' payload x r'' started broke
    exact absurd (congrArg Prod.fst broke) (ends e r' started payload)

def breaking (change : JobExecution → JobExecution) : Job Unit :=
  ⟨"breaking", true, fun e r => (.panicked none, change e, r)⟩

theorem keeps_breaking {change : JobExecution → JobExecution}
    (origin : ∀ e, SameOrigin e (change e))
    (startTime : ∀ e, (change e).startTime.isSome = e.startTime.isSome) :
    Keeps (breaking change) :=
  ⟨fun e _ => origin e, fun e _ => startTime e, fun _ _ => .refl⟩

/-- A body that breaks off at once leaves nothing that would be lost. -/
theorem launchers_agree_on_breaking :
    (run .still .sameThread (breaking id) .firstRun ⟨.empty, ()⟩).2.records.unclocked
      = (run .still .task (breaking id) .firstRun ⟨.empty, ()⟩).2.records.unclocked := by
  have keeps : Keeps (breaking id) := keeps_breaking .refl fun _ => rfl
  refine (launchers_agree_iff .still keeps .firstRun ⟨.empty, ()⟩).2.2 ?_
  intro e r' payload x r'' started broke
  have new := (start_ok started).1
  cases broke
  exact ⟨by rw [id, new.status]; rfl, Or.inl (by rw [id, new.exitStatus]; rfl), new.context,
    new.failures⟩

def noted (e : JobExecution) : JobExecution :=
  { e with context := e.context.put "note" (.bool true) }

/-- It is not so that both launchers always leave the same records: what a body
puts into its context before it breaks off is kept by one of them only. -/
theorem launchers_disagree_on_noted :
    ¬ ∀ (h : Host Unit) (job : Job Unit), Keeps job → ∀ (p : Parameters) (r : Repository Unit),
      (run h .sameThread job p r).2.records.unclocked
        = (run h .task job p r).2.records.unclocked := by
  intro agree
  have keeps : Keeps (breaking noted) :=
    keeps_breaking (fun _ => ⟨rfl, rfl, rfl, rfl⟩) fun _ => rfl
  have same := agree .still _ keeps .firstRun ⟨.empty, ()⟩
  have contexts := congrArg (fun records => records.executions.map fun e => e.context.size) same
  revert contexts
  decide

end Launch

end NestedBatch

import NestedBatch.Proofs.Launch.Start

/-! What a launch leaves of its instance. Whatever the body does, the closing
releases the instance, also if it cannot be saved. Only a launch that broke off
because its start could not be saved leaves the instance blocked. -/
namespace NestedBatch

namespace Records

variable {r made : Records} {job : String} {p q : Parameters} {i : JobInstance} {x : JobExecution}

theorem instanceIdOf_congr (same : q.jobKey = p.jobKey) :
    r.instanceIdOf job q = r.instanceIdOf job p := by
  simp only [instanceIdOf, same]

theorem lastExecution?_congr (same : q.jobKey = p.jobKey) :
    r.lastExecution? job q = r.lastExecution? job p := by
  simp only [lastExecution?, same]

theorem instance?_made (found : r.findOrMakeInstance job p = .ok (i, made)) :
    r.instanceIdOf job p = i.id ∧ made.instance? job p.jobKey = some i := by
  rcases findOrMakeInstance_ok found with ⟨there, rfl, _⟩ | ⟨absent, rfl, rfl⟩
  · exact ⟨instanceIdOf_some there, there⟩
  · refine ⟨by simp only [instanceIdOf, absent], ?_⟩
    simp only [Records.instance?] at absent ⊢
    rw [List.find?_append, absent]
    simp

theorem newest_append {α : Type} {id : α → Nat} {l : List α} {a : α}
    (greatest : ∀ b ∈ l, id b ≤ id a) : newest id (l ++ [a]) = some a := by
  induction l with
  | nil => rfl
  | cons b rest ih =>
    have tail := ih fun c hc => greatest c (List.mem_cons_of_mem b hc)
    simp only [List.cons_append, newest, tail, greatest b List.mem_cons_self, if_true]

/-- An execution that was made last is the newest one of its instance. -/
theorem lastExecution?_withNewest (numbered : made.Numbered) (new : x.id = made.nextId + 1)
    (there : made.instance? job p.jobKey = some i) (belongs : x.jobInstanceId = i.id) :
    (made.withNewest x).lastExecution? job p = some ((made.withNewest x).withSteps x) := by
  have older : ∀ e ∈ made.executionsOf i.id, e.id ≤ x.id := by
    intro e he
    have bound := numbered.bounded e (mem_executionsOf.1 he).1
    omega
  have listed : (made.withNewest x).executionsOf i.id = made.executionsOf i.id ++ [x] := by
    simp only [executionsOf, withNewest, List.filter_append, List.filter_cons, belongs,
      decide_true, if_true, List.filter_nil]
  have kept : (made.withNewest x).instance? job p.jobKey = some i := there
  simp only [lastExecution?, kept, Option.bind_some, listed, newest_append older, Option.map_some]

end Records

namespace Launch

variable {W : Type} {job : Job W} {p : Parameters} {r : Repository W}

/-- What is asked of the body of a job: it leaves the id and the instance of its
execution alone, reaches the records by calls only, and leaves none but its own
execution under way in its instance. -/
structure Contained (job : Job W) : Prop where
  id : ∀ e r, (job.body e r).2.1.id = e.id
  jobInstanceId : ∀ e r, (job.body e r).2.1.jobInstanceId = e.jobInstanceId
  calls : ∀ e r, Records.Calls r.records (job.body e r).2.2.records
  others : ∀ e r, ∀ x ∈ (job.body e r).2.2.records.executions,
    x.jobInstanceId = e.jobInstanceId → x.isRunning = true → x.id = e.id ∨ x ∈ r.records.executions

/-- What the closing of a launch gets from the launcher. -/
structure Handed (e : JobExecution) (r : Repository W) (x : JobExecution) (r' : Repository W) :
    Prop where
  id : x.id = e.id
  jobInstanceId : x.jobInstanceId = e.jobInstanceId
  calls : Records.Calls r.records r'.records
  others : ∀ y ∈ r'.records.executions, y.jobInstanceId = e.jobInstanceId → y.isRunning = true →
    y.id = e.id ∨ y ∈ r.records.executions

theorem Contained.perform (contained : Contained job) (launcher : Launcher) (e : JobExecution)
    (r : Repository W) :
    Handed e r (perform launcher job e r).2.1 (perform launcher job e r).2.2 := by
  have body : Handed e r (job.body e r).2.1 (job.body e r).2.2 :=
    ⟨contained.id e r, contained.jobInstanceId e r, contained.calls e r, contained.others e r⟩
  by_cases runs : launcher = .closedTask
  · subst runs
    exact ⟨rfl, rfl, .refl, fun y hy _ _ => Or.inr hy⟩
  · rw [perform_eq runs]
    dsimp only
    split
    · exact body
    · exact ⟨rfl, rfl, body.calls, body.others⟩

theorem finish_call (h : Host W) (e : JobExecution) (fault : Option String) (r : Repository W) :
    Records.Call r.records (finish h e fault r).2.records := by
  have call : Records.Call r.records _ := .update h (closed h e fault r.world).1
    ⟨r.records, (closed h e fault r.world).2⟩
  cases fault <;> exact call

theorem opened_calls (h : Host W) (name : String) (p : Parameters) (r : Repository W) :
    Records.Calls r.records (opened h name p r).2.records := by
  have creates := Records.Call.create h name p r
  simp only [opened]
  generalize r.createExecution h name p = created at creates ⊢
  obtain ⟨_ | e, r'⟩ := created
  · exact .single creates
  · exact Relation.ReflTransGen.tail (.single creates)
      (.update h (begun e (h.now r'.world).1) ⟨r'.records, (h.now r'.world).2⟩)

theorem start_calls (h : Host W) (job : Job W) (p : Parameters) (r : Repository W) :
    Records.Calls r.records (start h job p r).2.records := by
  rw [start_eq]
  split
  · exact .refl
  · exact opened_calls h job.name p r

theorem run_calls (h : Host W) (launcher : Launcher) (contained : Contained job) (p : Parameters)
    (r : Repository W) : Records.Calls r.records (run h launcher job p r).2.records := by
  have starts := start_calls h job p r
  simp only [run]
  generalize start h job p r = started at starts ⊢
  obtain ⟨_ | e, r'⟩ := started
  · exact starts
  · have handed := contained.perform launcher e r'
    exact (Relation.ReflTransGen.trans starts handed.calls).tail (finish_call h _ _ _)

/-- An execution that has come to its closing is not refused any more. -/
theorem finish_ne_alreadyRunning (h : Host W) (e : JobExecution) (fault : Option String)
    (r : Repository W) (name : String) :
    (finish h e fault r).1 ≠ .error (.alreadyRunning name) := by
  cases fault with
  | some message => simp [finish]
  | none =>
    simp only [finish]
    generalize (closed h e none r.world).1 = x
    generalize (⟨r.records, (closed h e none r.world).2⟩ : Repository W) = r'
    cases present : r'.records.hasExecution x.id with
    | false =>
      rw [Repository.updateExecution_absent h present]
      simp [Except.map]
    | true =>
      obtain ⟨answer, w, updated, saved⟩ := Repository.updateExecution_present h present
      rw [updated]
      rcases saved with rfl | ⟨fault, rfl⟩ <;> simp [Except.map]

/-- A launch is told that its job is running only where an execution is under way. -/
theorem blocked_of_alreadyRunning {h : Host W} {launcher : Launcher} {name : String}
    (numbered : r.records.Numbered)
    (refused : (run h launcher job p r).1 = .error (.alreadyRunning name)) :
    r.records.Blocked job.name p := by
  rcases start_cases h job p numbered with ⟨e, refusal, eq⟩ | ⟨i, made, x, _, started⟩
  · simp only [run, eq, Except.error.injEq] at refused
    subst refused
    exact refusal.2
  · have answer := started.answer
    generalize eq : start h job p r = outcome at answer
    obtain ⟨result, r'⟩ := outcome
    rcases answer with rfl | ⟨fault, rfl⟩
    · simp only [run, eq] at refused
      exact absurd refused (finish_ne_alreadyRunning h _ _ _ name)
    · simp [run, eq] at refused

/-- Where the newest execution is under way, every launch is told so. -/
theorem alreadyRunning_of_last {h : Host W} {launcher : Launcher} {last : JobExecution}
    (found : r.records.lastExecution? job.name p = some last) (running : last.isRunning = true) :
    (run h launcher job p r).1 = .error (.alreadyRunning job.name) := by
  simp only [run, start, found, preflight, running, if_true]

/-- After the closing, what is still under way in the instance was there before
and is another execution. -/
theorem running_after_finish (h : Host W) {x e y : JobExecution} {r r' : Repository W}
    (fault : Option String) (handed : Handed x r e r') (numbered : r'.records.Numbered)
    (there : y ∈ (finish h e fault r').2.records.executions)
    (belongs : y.jobInstanceId = x.jobInstanceId) (running : y.isRunning = true) :
    y ∈ r.records.executions ∧ y.id ≠ x.id := by
  obtain ⟨now, put⟩ := finish_records h e fault r'
  have origin := sameOrigin_closed h e fault r'.world
  rw [put, Records.mem_putExecution numbered] at there
  rcases there with ⟨rfl, _⟩ | ⟨member, other⟩
  · have ended := isRunning_closed h e fault r'.world
    exact absurd (ended.symm.trans running) Bool.false_ne_true
  · have differ : y.id ≠ x.id := fun same => other (same.trans (origin.id.trans handed.id).symm)
    rcases handed.others y member belongs running with same | before
    · exact absurd same differ
    · exact ⟨before, differ⟩

/-- A launch that got as far as its body leaves its instance free. -/
theorem released_of_admitted {h : Host W} (launcher : Launcher) (contained : Contained job)
    (numbered : r.records.Numbered) (free : ¬ r.records.Blocked job.name p)
    {i : JobInstance} {made : Records} {x : JobExecution}
    (found : r.records.findOrMakeInstance job.name p = .ok (i, made))
    (started : Started i made x (start h job p r)) (admitted : (start h job p r).1 = .ok x) :
    ¬ (run h launcher job p r).2.records.Blocked job.name p := by
  have starts := start_calls h job p r
  have records := started.records
  obtain ⟨instanceId, madeThere⟩ := Records.instance?_made found
  simp only [run]
  generalize start h job p r = outcome at admitted records starts ⊢
  obtain ⟨result, r'⟩ := outcome
  dsimp only at admitted records starts
  subst admitted
  have handed := contained.perform launcher x r'
  dsimp only
  generalize perform launcher job x r' = performed at handed ⊢
  obtain ⟨fault, e, r''⟩ := performed
  dsimp only at handed ⊢
  have there : (finish h e fault r'').2.records.instance? job.name p.jobKey = some i := by
    have first : r'.records.instance? job.name p.jobKey = some i := records ▸ madeThere
    exact (finish_call h e fault r'').instance? (handed.calls.instance? first)
  rintro ⟨y, listed, running⟩
  rw [Records.instanceIdOf_some there] at listed
  obtain ⟨member, belongs⟩ := Records.mem_executionsOf.1 listed
  obtain ⟨before, differ⟩ := running_after_finish h fault handed
    (handed.calls.numbered (starts.numbered numbered)) member
    (belongs.trans started.jobInstanceId.symm) running
  rw [records] at before
  rcases List.mem_append.1 before with old | new
  · rw [(Records.findOrMakeInstance_frame found).1] at old
    refine free ⟨y, ?_, running⟩
    rw [instanceId]
    exact Records.mem_executionsOf.2 ⟨old, belongs⟩
  · exact differ (congrArg JobExecution.id (List.mem_singleton.1 new))

/-- A launch whose start could not be saved leaves its execution under way, and
as the newest one of its instance. -/
theorem last_of_unsaved {h : Host W} (launcher : Launcher) (numbered : r.records.Numbered)
    {fault : IoFault} (unsaved : (start h job p r).1 = .error (.io fault)) :
    ∃ x, (run h launcher job p r).2.records.lastExecution? job.name p = some x ∧
      x.isRunning = true := by
  rcases start_cases h job p numbered with ⟨e, refusal, eq⟩ | ⟨i, made, x, found, started⟩
  · rw [eq] at unsaved
    cases unsaved
    exact refusal.elim
  · obtain ⟨executions, count⟩ := Records.findOrMakeInstance_frame found
    have ordered : made.Numbered := numbered.mono executions count
    have records : (run h launcher job p r).2.records = made.withNewest x := by
      have left := started.records
      simp only [run]
      generalize start h job p r = outcome at unsaved left ⊢
      obtain ⟨result, r'⟩ := outcome
      dsimp only at unsaved left
      subst unsaved
      exact left
    refine ⟨(made.withNewest x).withSteps x, ?_, started.running⟩
    rw [records]
    exact Records.lastExecution?_withNewest ordered started.id (Records.instance?_made found).2
      started.jobInstanceId

/-- An instance that was free is free again after a launch, and the next launch
of it is not told that it is running, unless the start could not be saved. Then,
and only then, it is blocked for every later launch. -/
theorem instance_blocked_iff (h : Host W) (launcher : Launcher) (contained : Contained job)
    (reachable : r.records.Reachable) (free : ¬ r.records.Blocked job.name p) :
    ((run h launcher job p r).2.records.Blocked job.name p ↔
        ∃ fault, (start h job p r).1 = .error (.io fault)) ∧
      ∀ {V : Type} (g : Host V) (next : Launcher) (again : Job V) (q : Parameters) (v : V),
        again.name = job.name → q.jobKey = p.jobKey →
        ((run g next again q ⟨(run h launcher job p r).2.records, v⟩).1
            = .error (.alreadyRunning job.name) ↔
          ∃ fault, (start h job p r).1 = .error (.io fault)) := by
  have numbered := reachable.numbered
  have after := (run_calls h launcher contained p r).numbered numbered
  by_cases unsaved : ∃ fault, (start h job p r).1 = .error (.io fault)
  · obtain ⟨x, last, running⟩ := last_of_unsaved launcher numbered unsaved.choose_spec
    refine ⟨iff_of_true (Records.blocked_of_last last running) unsaved,
      fun g next again q v name key => ?_⟩
    refine iff_of_true ?_ unsaved
    rw [← name] at last ⊢
    rw [← Records.lastExecution?_congr key] at last
    exact alreadyRunning_of_last (r := ⟨_, v⟩) last running
  · have released : ¬ (run h launcher job p r).2.records.Blocked job.name p := by
      rcases start_cases h job p numbered with ⟨e, _, eq⟩ | ⟨i, made, x, found, started⟩
      · simpa only [run, eq] using free
      · exact released_of_admitted launcher contained numbered free found started
          (started.answer.resolve_right unsaved)
    refine ⟨iff_of_false released unsaved, fun g next again q v name key => ?_⟩
    refine iff_of_false (fun refused => released ?_) unsaved
    obtain ⟨y, listed, running⟩ := blocked_of_alreadyRunning (r := ⟨_, v⟩) after refused
    rw [name, Records.instanceIdOf_congr key] at listed
    exact ⟨y, listed, running⟩

theorem contained_idle : Contained (Job.idle (W := W)) :=
  ⟨fun _ _ => rfl, fun _ _ => rfl, fun _ _ => .refl, fun _ _ _ hx _ _ => Or.inr hx⟩

theorem free_empty (job : String) (p : Parameters) : ¬ Records.empty.Blocked job p := by
  rintro ⟨e, listed, _⟩
  cases (Records.mem_executionsOf.1 listed).1

/-- Where everything can be saved, the instance is free after its first launch
and can be launched again. -/
theorem instance_free_after_idle :
    ¬ (run .still .sameThread .idle .firstRun ⟨.empty, ()⟩).2.records.Blocked "idle" .firstRun ∧
      (run .still .task .idle .firstRun
          ⟨(run .still .sameThread .idle .firstRun ⟨.empty, ()⟩).2.records, ()⟩).1
        ≠ .error (.alreadyRunning "idle") := by
  have saved : ∃ x, (start Host.still Job.idle .firstRun ⟨.empty, ()⟩).1 = .ok x := ⟨_, rfl⟩
  have started : ¬ ∃ fault, (start Host.still Job.idle .firstRun ⟨.empty, ()⟩).1
      = .error (.io fault) := by
    rintro ⟨fault, unsaved⟩
    cases saved.choose_spec.symm.trans unsaved
  obtain ⟨free, launch⟩ := instance_blocked_iff (p := .firstRun) (r := ⟨.empty, ()⟩) Host.still
    .sameThread contained_idle .refl (free_empty "idle" .firstRun)
  exact ⟨fun blocked => started (free.1 blocked),
    fun refused => started ((launch Host.still .task .idle .firstRun () rfl rfl).1 refused)⟩

/-- It is not so that a launch always leaves a free instance free. -/
theorem instance_blocked_by_full_disk :
    ¬ ∀ (h : Host Unit) (launcher : Launcher) (job : Job Unit), Contained job →
      ∀ (p : Parameters) (r : Repository Unit), r.records.Reachable →
        ¬ r.records.Blocked job.name p →
          ¬ (run h launcher job p r).2.records.Blocked job.name p := by
  intro releases
  have unsaved : (start Host.full Job.idle .firstRun ⟨.empty, ()⟩).1 = .error (.io .noSpace) := rfl
  obtain ⟨x, last, running⟩ := last_of_unsaved .sameThread Records.numbered_empty unsaved
  exact releases Host.full .sameThread .idle contained_idle .firstRun ⟨.empty, ()⟩ .refl
    (free_empty "idle" .firstRun) (Records.blocked_of_last last running)

end Launch

end NestedBatch

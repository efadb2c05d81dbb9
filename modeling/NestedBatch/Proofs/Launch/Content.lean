import NestedBatch.Proofs.Launch.Admission
import NestedBatch.Proofs.Launch.Agreement

/-! What a launch comes to where every write succeeds, apart from ids and times. Whether it
is let pass is decided by what is recorded of its instance. If it is, its body gets an
execution that always has the same content, and the closing depends on the content only. -/
namespace NestedBatch

variable {W : Type} {h : Host W}

/-- What of an execution is neither an id nor a time. Its steps are recorded apart. -/
def JobExecution.content (e : JobExecution) : JobExecution :=
  { e.unclocked with id := 0, jobInstanceId := 0, steps := [] }

namespace Host

variable {calm : W → Prop} {w w' : W}

/-- Nothing but the clock and the saving of records has gone over the world. -/
def Drift (h : Host W) : W → W → Prop :=
  Relation.ReflTransGen fun w w' => w' = (h.now w).2 ∨ ∃ r, w' = (h.save r w).2

/-- In such a world saving succeeds, now and later. -/
structure Steady (h : Host W) (calm : W → Prop) : Prop where
  now : ∀ w, calm w → calm (h.now w).2
  save : ∀ r w, calm w → (h.save r w).1 = none ∧ calm (h.save r w).2

/-- Neither the clock nor the saving of records has to do with what is looked at. -/
structure Spares {S : Type} (h : Host W) (own : W → S) : Prop where
  now : ∀ w, own (h.now w).2 = own w
  save : ∀ r w, own (h.save r w).2 = own w

theorem drift_now (w : W) : h.Drift w (h.now w).2 := .single (Or.inl rfl)

theorem Drift.keeps (drift : h.Drift w w') (steady : h.Steady calm) (before : calm w) :
    calm w' := by
  induction drift with
  | refl => exact before
  | tail _ next ih =>
    rcases next with rfl | ⟨r, rfl⟩
    · exact steady.now _ ih
    · exact (steady.save r _ ih).2

theorem Drift.spares {S : Type} {own : W → S} (drift : h.Drift w w') (spared : h.Spares own) :
    own w' = own w := by
  induction drift with
  | refl => rfl
  | tail _ next ih =>
    rcases next with rfl | ⟨r, rfl⟩
    · exact (spared.now _).trans ih
    · exact (spared.save r _).trans ih

end Host

/-! ### Calls that succeed -/

namespace Repository

variable {calm : W → Prop} {r : Repository W}

theorem flush_steady (steady : h.Steady calm) (before : calm r.world) :
    ∃ w, flush h r = (.ok (), ⟨r.records, w⟩) ∧ h.Drift r.world w := by
  obtain ⟨saved, _⟩ := steady.save r.records r.world before
  refine ⟨(h.save r.records r.world).2, ?_, .single (Or.inr ⟨r.records, rfl⟩)⟩
  simp only [flush]
  split
  · rename_i fault w unsaved
    cases saved.symm.trans (congrArg Prod.fst unsaved)
  · rename_i w saved
    rw [saved]

theorem updateExecution_steady (steady : h.Steady calm) (before : calm r.world)
    {e : JobExecution} (present : r.records.hasExecution e.id = true) :
    ∃ now w, updateExecution h e r = (.ok (), { e with lastUpdated := now },
        ⟨r.records.putExecution { e with lastUpdated := now }, w⟩) ∧ h.Drift r.world w := by
  obtain ⟨w, flushed, drift⟩ := flush_steady steady (steady.now r.world before)
    (r := ⟨r.records.putExecution { e with lastUpdated := (h.now r.world).1 }, (h.now r.world).2⟩)
  refine ⟨(h.now r.world).1, w, ?_, (Host.drift_now r.world).trans drift⟩
  simp only [updateExecution, present, if_true, flushed]

theorem createExecution_steady (steady : h.Steady calm) (before : calm r.world) {job : String}
    {p : Parameters} {i : JobInstance} {made : Records}
    (found : r.records.findOrMakeInstance job p = .ok (i, made)) :
    ∃ now w, r.createExecution h job p
        = (.ok (made.newExecution i p now).1, ⟨(made.newExecution i p now).2, w⟩) ∧
      h.Drift r.world w := by
  obtain ⟨w, flushed, drift⟩ := flush_steady steady (steady.now r.world before)
    (r := ⟨(made.newExecution i p (h.now r.world).1).2, (h.now r.world).2⟩)
  refine ⟨(h.now r.world).1, w, ?_, (Host.drift_now r.world).trans drift⟩
  simp only [createExecution, found, flushed]
  rfl

end Repository

theorem Records.Call.put (r : Records) (e : JobExecution) : Records.Call r (r.putExecution e) := by
  let host : Host Unit := ⟨fun _ => (e.lastUpdated, ()), fun _ _ => (none, ())⟩
  have call := Records.Call.update host e ⟨r, ()⟩
  cases present : r.hasExecution e.id with
  | false =>
    rw [Repository.updateExecution_absent host present] at call
    rwa [Records.putExecution_absent present]
  | true =>
    obtain ⟨answer, w, updated, _⟩ := Repository.updateExecution_present host (r := ⟨r, ()⟩) present
    rw [updated] at call
    exact call

namespace Launch

variable {calm : W → Prop} {job : Job W} {p : Parameters} {r : Repository W} {i : JobInstance}
  {made : Records} {e x : JobExecution}

/-! ### What decides whether a launch is let pass -/

/-- Why a launch is refused, if it is, by what is recorded of its instance. -/
def verdict (job : Job W) (p : Parameters) (recorded : List JobExecution) : Option BatchError :=
  match preflight job (Records.newest JobExecution.id recorded) with
  | .error fault => some fault
  | .ok _ => recorded.findSome? (Records.obstacle? job.name p)

theorem preflight_recorded (records : Records) :
    preflight job (records.lastExecution? job.name p)
      = preflight job (Records.newest JobExecution.id (records.recorded job.name p)) := by
  rw [Records.lastExecution?_eq]
  cases Records.newest JobExecution.id (records.recorded job.name p) <;> rfl

theorem findOrMakeInstance_recorded (records : Records) (name : String) (p : Parameters) :
    match (records.recorded name p).findSome? (Records.obstacle? name p) with
    | some fault => records.findOrMakeInstance name p = .error fault
    | none => ∃ admitted, records.findOrMakeInstance name p = .ok admitted := by
  cases there : records.instance? name p.jobKey with
  | none =>
    rw [Records.recorded_none there]
    simp [Records.findOrMakeInstance, there]
  | some i =>
    rw [Records.recorded_some there]
    simp only [Records.findOrMakeInstance, there]
    cases (records.executionsOf i.id).findSome? (Records.obstacle? name p) <;> simp

theorem start_of_verdict {fault : BatchError}
    (refused : verdict job p (r.records.recorded job.name p) = some fault) :
    start h job p r = (.error fault, r) := by
  have found := findOrMakeInstance_recorded r.records job.name p
  rw [start_eq, preflight_recorded]
  cases checked : preflight job (Records.newest JobExecution.id (r.records.recorded job.name p)) with
  | error cause =>
    simp only [verdict, checked, Option.some.injEq] at refused
    rw [refused]
  | ok _ =>
    simp only [verdict, checked] at refused
    simp only [refused] at found
    exact opened_refused h found

theorem admitted_of_verdict (passed : verdict job p (r.records.recorded job.name p) = none) :
    preflight job (r.records.lastExecution? job.name p) = .ok () ∧
      ∃ i made, r.records.findOrMakeInstance job.name p = .ok (i, made) := by
  have found := findOrMakeInstance_recorded r.records job.name p
  rw [preflight_recorded]
  cases checked : preflight job (Records.newest JobExecution.id (r.records.recorded job.name p)) with
  | error cause => simp only [verdict, checked, reduceCtorEq] at passed
  | ok _ =>
    simp only [verdict, checked] at passed
    simp only [passed] at found
    obtain ⟨⟨i, made⟩, found⟩ := found
    exact ⟨rfl, i, made, found⟩

/-- Times make no difference. -/
theorem verdict_unclocked (recorded : List JobExecution) :
    verdict job p (recorded.map JobExecution.unclocked) = verdict job p recorded := by
  have running : ∀ e : JobExecution, e.unclocked.isRunning = e.isRunning := by
    intro e
    simp [JobExecution.isRunning, JobExecution.unclocked]
  have obstacles : Records.obstacle? job.name p ∘ JobExecution.unclocked
      = Records.obstacle? job.name p := by
    funext e
    simp only [Function.comp, Records.obstacle?, running]
    rfl
  have checks : ∀ last : Option JobExecution,
      preflight job (last.map JobExecution.unclocked) = preflight job last := by
    intro last
    cases last with
    | none => rfl
    | some e => simp only [Option.map_some, preflight, running]
  simp only [verdict]
  rw [Records.newest_map JobExecution.unclocked fun _ => rfl, checks, List.findSome?_map, obstacles]

/-! ### The parts of a launch -/

/-- An execution as a body gets it. -/
def fresh (name : String) (p : Parameters) : JobExecution :=
  (begun (JobExecution.create 0 ⟨0, name, ""⟩ p .epoch) .epoch).content

theorem start_steady (steady : h.Steady calm) (before : calm r.world)
    (numbered : r.records.Numbered)
    (checked : preflight job (r.records.lastExecution? job.name p) = .ok ())
    (found : r.records.findOrMakeInstance job.name p = .ok (i, made)) :
    ∃ e w, start h job p r = (.ok e, ⟨made.withNewest e, w⟩) ∧ h.Drift r.world w ∧
      e.id = made.nextId + 1 ∧ e.jobInstanceId = i.id ∧ e.content = fresh i.jobName p := by
  obtain ⟨executions, count⟩ := Records.findOrMakeInstance_frame found
  obtain ⟨now, w, created, drift⟩ := Repository.createExecution_steady steady before found
  have next := Host.Drift.keeps (drift.trans (Host.drift_now w)) steady before
  obtain ⟨updated, w', recorded, drift'⟩ := Repository.updateExecution_steady steady
    (e := begun (made.newExecution i p now).1 (h.now w).1)
    (r := ⟨(made.newExecution i p now).2, (h.now w).2⟩) next
    (made.hasExecution_withNewest (made.newExecution i p now).1)
  refine ⟨{ begun (made.newExecution i p now).1 (h.now w).1 with lastUpdated := updated }, w', ?_,
    (drift.trans (Host.drift_now w)).trans drift', rfl, rfl, rfl⟩
  simp only [start_eq, checked, opened, created, recordBegun, recorded, Except.map]
  exact congrArg (fun records => (Except.ok _, Repository.mk records w'))
    (Records.putExecution_withNewest (numbered.mono executions count)
      (x := (made.newExecution i p now).1) rfl rfl)

/-- What closing makes of an execution, without its times. -/
def closure (fault : Option String) (e : JobExecution) : JobExecution :=
  { (match fault with
    | none => concluded e
    | some message => faulted e message .epoch) with endTime := some .epoch }

theorem content_faulted (e : JobExecution) (message : String) (now : Instant) :
    (faulted e message now).content = faulted e.content message .epoch := by
  let cause : FailureCause := ⟨.childExecution, message, now⟩
  have failures : (e.failures ++ [cause]).map FailureCause.unclocked
      = e.failures.map FailureCause.unclocked ++ [cause.unclocked] := List.map_append
  exact congrArg (fun failures => { faulted e.content message .epoch with failures }) failures

/-- An end that there is not is set, and of one that there is no more is kept. -/
theorem content_ended (e : JobExecution) (w : W) :
    (match e.endTime with
      | some _ => (e, w)
      | none => ({ e with endTime := some (h.now w).1 }, (h.now w).2)).1.content
      = { e.content with endTime := some .epoch } := by
  split
  · rename_i ended
    have kept : e.endTime.map (fun _ => Instant.epoch) = some .epoch :=
      (congrArg (Option.map fun _ => Instant.epoch) ended).trans rfl
    exact congrArg (fun endTime => { e.content with endTime }) kept
  · rfl

theorem content_closed (h : Host W) (e : JobExecution) (fault : Option String) (w : W) :
    (closed h e fault w).1.content = closure fault e.content := by
  cases fault with
  | none => exact content_ended (concluded e) w
  | some message =>
    refine (content_ended (faulted e message (h.now w).1) (h.now w).2).trans ?_
    rw [content_faulted]
    rfl

theorem drift_closed (h : Host W) (e : JobExecution) (fault : Option String) (w : W) :
    h.Drift w (closed h e fault w).2 := by
  cases fault with
  | none =>
    simp only [closed]
    split
    · exact .refl
    · exact Host.drift_now w
  | some message =>
    simp only [closed]
    split
    · exact Host.drift_now w
    · exact (Host.drift_now w).trans (Host.drift_now _)

/-- What the caller is told of an execution that was closed so. -/
def reply (fault : Option String) (e : JobExecution) : Except BatchError JobExecution :=
  match fault with
  | none => .ok e
  | some message => .error (.jobFault message)

theorem finish_steady (steady : h.Steady calm) (before : calm r.world) (fault : Option String)
    (present : r.records.hasExecution e.id = true) :
    ∃ y w, finish h e fault r = (reply fault y, ⟨r.records.putExecution y, w⟩) ∧
      h.Drift r.world w ∧ y.id = e.id ∧ y.jobInstanceId = e.jobInstanceId ∧
      y.content = closure fault e.content := by
  have origin := sameOrigin_closed h e fault r.world
  have drift := drift_closed h e fault r.world
  obtain ⟨now, w, updated, drift'⟩ := Repository.updateExecution_steady steady
    (e := (closed h e fault r.world).1) (r := ⟨r.records, (closed h e fault r.world).2⟩)
    (Host.Drift.keeps drift steady before) (origin.id ▸ present)
  refine ⟨{ (closed h e fault r.world).1 with lastUpdated := now }, w, ?_, drift.trans drift',
    origin.id, origin.jobInstanceId, content_closed h e fault r.world⟩
  simp only [finish, updated]
  cases fault <;> rfl

end Launch

end NestedBatch

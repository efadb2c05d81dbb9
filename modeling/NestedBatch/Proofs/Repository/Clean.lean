import NestedBatch.Proofs.Records.Stored
import NestedBatch.Proofs.Repository.Calls

/-! The flags of contexts decide nothing: a repository without them answers every
call as one with them does, again without them. -/
namespace NestedBatch

@[simp] theorem StepExecution.clean_clean (s : StepExecution) : s.clean.clean = s.clean := rfl

@[simp] theorem JobExecution.clean_clean (e : JobExecution) : e.clean.clean = e.clean := by
  simp only [clean, List.map_map]
  rfl

namespace Records

section Lists

variable {α : Type} (f : α → α) {l : List α}

theorem newest_map {id : α → Nat} (same : ∀ a, id (f a) = id a) :
    newest id (l.map f) = (newest id l).map f := by
  induction l with
  | nil => rfl
  | cons a rest ih =>
    rw [List.map_cons, newest, newest, ih]
    cases newest id rest with
    | none => rfl
    | some b =>
      simp only [Option.map_some, same]
      split <;> rfl

theorem replaceFirst_map (test : α → Bool) (new : α) (same : ∀ a, test (f a) = test a) :
    replaceFirst test (f new) (l.map f) = (replaceFirst test new l).map f := by
  induction l with
  | nil => rfl
  | cons a rest ih =>
    simp only [List.map_cons, replaceFirst, same, ih]
    split <;> rfl

theorem filter_map_same {test : α → Bool} (same : ∀ a, test (f a) = test a) :
    (l.map f).filter test = (l.filter test).map f := by
  rw [List.filter_map]
  exact congrArg (List.map f) (List.filter_congr fun a _ => same a)

theorem any_map_same {test : α → Bool} (same : ∀ a, test (f a) = test a) :
    (l.map f).any test = l.any test := by
  rw [List.any_map]
  exact congrArg l.any (funext same)

end Lists

variable (r : Records)

@[simp] theorem clean_clean : r.clean.clean = r.clean := by
  simp only [clean, List.map_map]
  congr 1
  exact List.map_congr_left fun e _ => e.clean_clean

theorem executionsOf_clean (id : Nat) :
    r.clean.executionsOf id = (r.executionsOf id).map JobExecution.clean :=
  filter_map_same JobExecution.clean fun _ => rfl

theorem withSteps_clean (e : JobExecution) : r.clean.withSteps e.clean = (r.withSteps e).clean := by
  have steps : r.clean.steps.filter (fun s => s.jobExecutionId = e.id)
      = (r.steps.filter fun s => s.jobExecutionId = e.id).map StepExecution.clean :=
    filter_map_same StepExecution.clean fun _ => rfl
  unfold withSteps JobExecution.clean
  simp only [steps]

theorem lastExecution?_clean (job : String) (p : Parameters) :
    r.clean.lastExecution? job p = (r.lastExecution? job p).map JobExecution.clean := by
  unfold lastExecution?
  rw [show r.clean.instance? job p.jobKey = r.instance? job p.jobKey from rfl]
  cases r.instance? job p.jobKey with
  | none => rfl
  | some i =>
    simp only [Option.bind_some, executionsOf_clean]
    rw [newest_map JobExecution.clean fun _ => rfl]
    cases newest JobExecution.id (r.executionsOf i.id) with
    | none => rfl
    | some e => simp only [Option.map_some, withSteps_clean]

theorem lastStep?_clean (id : Nat) (step : String) :
    r.clean.lastStep? id step = (r.lastStep? id step).map StepExecution.clean := by
  unfold lastStep? clean
  dsimp only
  rw [filter_map_same StepExecution.clean fun _ => rfl,
    newest_map StepExecution.clean fun _ => rfl]

theorem allExecutions_clean : r.clean.allExecutions = r.allExecutions.map JobExecution.clean := by
  unfold allExecutions
  simp only [clean, List.map_map]
  exact List.map_congr_left fun e _ => r.withSteps_clean e

theorem findOrMakeInstance_clean (job : String) (p : Parameters) :
    r.clean.findOrMakeInstance job p
      = (r.findOrMakeInstance job p).map fun made => (made.1, made.2.clean) := by
  have there : r.clean.instance? job p.jobKey = r.instance? job p.jobKey := rfl
  simp only [findOrMakeInstance, there]
  cases r.instance? job p.jobKey with
  | none => rfl
  | some i =>
    have obstacles : ((r.executionsOf i.id).map JobExecution.clean).findSome? (obstacle? job p)
        = (r.executionsOf i.id).findSome? (obstacle? job p) := by
      rw [List.findSome?_map]
      rfl
    simp only [executionsOf_clean, obstacles]
    cases (r.executionsOf i.id).findSome? (obstacle? job p) <;> rfl

theorem newExecution_clean (i : JobInstance) (p : Parameters) (now : Instant) :
    r.clean.newExecution i p now
      = ((r.newExecution i p now).1.clean, (r.newExecution i p now).2.clean) := by
  simp only [newExecution, clean, List.map_append]
  rfl

theorem hasExecution_clean (id : Nat) : r.clean.hasExecution id = r.hasExecution id :=
  any_map_same JobExecution.clean fun _ => rfl

theorem hasStep_clean (id : Nat) : r.clean.hasStep id = r.hasStep id :=
  any_map_same StepExecution.clean fun _ => rfl

theorem putExecution_clean (e : JobExecution) :
    r.clean.putExecution e.clean = (r.putExecution e).clean := by
  have executions := replaceFirst_map JobExecution.clean (l := r.executions)
    (fun x => x.id = e.id) { e with steps := [] } fun _ => rfl
  exact congrArg (fun l => { r.clean with executions := l }) executions

theorem appendStep_clean (s : StepExecution) :
    r.clean.appendStep s.clean = ((r.appendStep s).1.clean, (r.appendStep s).2.clean) := by
  simp only [appendStep, clean, List.map_append]
  rfl

theorem putStep_clean (s : StepExecution) : r.clean.putStep s.clean = (r.putStep s).clean := by
  have steps := replaceFirst_map StepExecution.clean (l := r.steps)
    (fun x => x.id = s.id) s fun _ => rfl
  exact congrArg (fun l => { r.clean with steps := l }) steps

end Records

/-- Is all that matters for saving the text of the records? -/
def Host.Textual {W : Type} (h : Host W) : Prop :=
  ∀ r s w, r.text = s.text → h.save r w = h.save s w

namespace Repository

variable {W : Type} {h : Host W}

def clean (r : Repository W) : Repository W := ⟨r.records.clean, r.world⟩

theorem flush_clean (textual : h.Textual) (r : Repository W) :
    flush h r.clean = ((flush h r).1, (flush h r).2.clean) := by
  have same := textual r.records.clean r.records r.world r.records.text_clean
  simp only [flush, clean, same]
  split <;> rfl

theorem createExecution_clean (textual : h.Textual) (job : String) (p : Parameters)
    (r : Repository W) :
    r.clean.createExecution h job p
      = ((r.createExecution h job p).1.map JobExecution.clean,
        (r.createExecution h job p).2.clean) := by
  have found := r.records.findOrMakeInstance_clean job p
  simp only [createExecution]
  rw [show r.clean.records = r.records.clean from rfl, found]
  cases r.records.findOrMakeInstance job p with
  | error e => rfl
  | ok made =>
    have saved := flush_clean textual ⟨(made.2.newExecution made.1 p (h.now r.world).1).2,
      (h.now r.world).2⟩
    simp only [Except.map, Records.newExecution_clean]
    rw [show r.clean.world = r.world from rfl]
    simp only [clean] at saved ⊢
    rw [saved]
    cases (flush h _).1 <;> rfl

theorem updateExecution_clean (textual : h.Textual) (e : JobExecution) (r : Repository W) :
    updateExecution h e.clean r.clean
      = ((updateExecution h e r).1, (updateExecution h e r).2.1.clean,
        (updateExecution h e r).2.2.clean) := by
  have present := r.records.hasExecution_clean e.id
  simp only [updateExecution]
  rw [show r.clean.records = r.records.clean from rfl, show e.clean.id = e.id from rfl, present]
  split
  · have put := r.records.putExecution_clean { e with lastUpdated := (h.now r.world).1 }
    have saved := flush_clean textual
      ⟨r.records.putExecution { e with lastUpdated := (h.now r.world).1 }, (h.now r.world).2⟩
    simp only [clean, ← put] at saved
    exact congrArg (fun f => (f.1, { e with lastUpdated := (h.now r.world).1 }.clean, f.2)) saved
  · rfl

theorem addStep_clean (textual : h.Textual) (s : StepExecution) (r : Repository W) :
    addStep h s.clean r.clean
      = ((addStep h s r).1, (addStep h s r).2.1.clean, (addStep h s r).2.2.clean) := by
  have present := r.records.hasExecution_clean s.jobExecutionId
  simp only [addStep]
  rw [show r.clean.records = r.records.clean from rfl,
    show s.clean.jobExecutionId = s.jobExecutionId from rfl, present]
  split
  · have appended := r.records.appendStep_clean { s with lastUpdated := (h.now r.world).1 }
    have saved := flush_clean textual
      ⟨(r.records.appendStep { s with lastUpdated := (h.now r.world).1 }).2, (h.now r.world).2⟩
    simp only [clean] at saved
    refine (congrArg (fun m : StepExecution × Records =>
      ((flush h ⟨m.2, (h.now r.world).2⟩).1, m.1, (flush h ⟨m.2, (h.now r.world).2⟩).2))
      appended).trans ?_
    dsimp only
    rw [saved]
    rfl
  · rfl

theorem updateStep_clean (textual : h.Textual) (s : StepExecution) (r : Repository W) :
    updateStep h s.clean r.clean
      = ((updateStep h s r).1, (updateStep h s r).2.1.clean, (updateStep h s r).2.2.clean) := by
  have present := r.records.hasStep_clean s.id
  simp only [updateStep]
  rw [show r.clean.records = r.records.clean from rfl, show s.clean.id = s.id from rfl, present]
  split
  · let t := { s with lastUpdated := (h.now r.world).1, context := s.context.clearDirty }
    have put := r.records.putStep_clean t
    have saved := flush_clean textual ⟨r.records.putStep t, (h.now r.world).2⟩
    simp only [clean, ← put] at saved
    exact congrArg (fun f => (f.1, t.clean, f.2)) saved
  · rfl

end Repository

end NestedBatch

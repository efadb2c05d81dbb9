import NestedBatch.Proofs.Interleaving.Basic
import NestedBatch.Step.Nested

/-! A launch, and a step run with the launch that its step makes, are runs of the
system: alone in the world, they go through the same phases one after the other. -/
namespace NestedBatch.Interleaving

variable {W ι : Type} {h : Host W}

/-- What is asked of the body of a job: it does not write to the repository and
leaves the origin of its execution alone. -/
structure Confined (job : Job W) : Prop where
  origin : ∀ e r, SameOrigin e (job.body e r).2.1
  records : ∀ e r, (job.body e r).2.2.records = r.records

/-- A run by itself: a move of it, whatever the world. -/
def Goes (h : Host W) (a b : Phase W × Records) : Prop :=
  ∃ w r, Moves h a.1 ⟨a.2, w⟩ b.1 r ∧ r.records = b.2

def Trail (h : Host W) : Phase W × Records → Phase W × Records → Prop :=
  Relation.ReflTransGen (Goes h)

/-- The trail of one run is one that the system can take. -/
theorem Trail.steps [DecidableEq ι] {a b : Phase W × Records} (trail : Trail h a b)
    (runs : ι → Phase W) (k : ι) :
    Transitions h ⟨a.2, Function.update runs k a.1⟩ ⟨b.2, Function.update runs k b.1⟩ := by
  refine Relation.ReflTransGen.lift
    (fun a : Phase W × Records => (⟨a.2, Function.update runs k a.1⟩ : System ι W)) ?_ _ _ trail
  rintro c d ⟨w, r, moves, records⟩
  have step : Transition h ⟨c.2, Function.update runs k c.1⟩
      ⟨r.records, Function.update (Function.update runs k c.1) k d.1⟩ :=
    .move k w (by simpa only [Function.update_self] using moves)
  rwa [Function.update_idem, records] at step

theorem Trail.call (phase : Phase W) (r : Repository W) :
    Trail h (phase, r.records) ((advance h phase r).1, (advance h phase r).2.records) :=
  .single ⟨r.world, _, .call phase r, rfl⟩

theorem Trail.after {phase next : Phase W} {r r' : Repository W} {b : Phase W × Records}
    (call : advance h phase r = (next, r')) (rest : Trail h (next, r'.records) b) :
    Trail h (phase, r.records) b := by
  have first := Trail.call (h := h) phase r
  rw [call] at first
  exact first.trans rest

theorem Trail.work {e e' : JobExecution} (same : SameOrigin e e') (fault : Option String)
    (records : Records) (w : W) : Trail h (.working e, records) (.closing e' fault, records) :=
  .single ⟨w, ⟨records, w⟩, .worked same fault _, rfl⟩

/-- A launch that is over before the body runs, or has come as far as the body. -/
theorem trail_start (job : Job W) (p : Parameters) (r : Repository W) :
    Trail h (.launching job p, r.records)
      (match (Launch.start h job p r).1 with
        | .ok e => .working e
        | .error _ => .done, (Launch.start h job p r).2.records) := by
  cases checked : Launch.preflight job (r.records.lastExecution? job.name p) with
  | error e =>
    have ended : advance h (.launching job p) r = (.done, r) := by simp only [advance, checked]
    simp only [Launch.start, checked]
    exact .after ended .refl
  | ok _ =>
    have admitted : advance h (.launching job p) r = (.admitted job p, r) := by
      simp only [advance, checked]
    refine .after admitted ?_
    cases made : r.createExecution h job.name p with
    | mk answer r' =>
      cases answer with
      | error e =>
        have ended : advance h (.admitted job p) r = (.done, r') := by simp only [advance, made]
        simp only [Launch.start, checked, made]
        exact .after ended .refl
      | ok e =>
        have created : advance h (.admitted job p) r = (.created e, r') := by
          simp only [advance, made]
        refine .after created ?_
        simp only [Launch.start, checked, made]
        cases recorded : Repository.updateExecution h (begun e (h.now r'.world).1)
            ⟨r'.records, (h.now r'.world).2⟩ with
        | mk saved rest =>
          have same := recorded
          simp only [begun] at same
          rw [same]
          cases saved with
          | error _ => exact .after (by simp only [advance, recorded]; rfl) .refl
          | ok _ => exact .after (by simp only [advance, recorded]; rfl) .refl

/-- Whatever the launcher, the closing gets an execution of the same origin. -/
theorem Confined.perform {job : Job W} (confined : Confined job) (launcher : Launcher)
    (e : JobExecution) (r : Repository W) :
    SameOrigin e (Launch.perform launcher job e r).2.1 ∧
      (Launch.perform launcher job e r).2.2.records = r.records := by
  have origin := confined.origin e r
  have records := confined.records e r
  by_cases runs : launcher = .closedTask
  · subst runs
    exact ⟨.refl e, rfl⟩
  · rw [Launch.perform_eq runs]
    dsimp only
    split
    · exact ⟨origin, records⟩
    · exact ⟨.refl e, records⟩

/-- A launch goes through the phases of a run. -/
theorem trail_launch (launcher : Launcher) {job : Job W} (confined : Confined job) (p : Parameters)
    (r : Repository W) :
    Trail h (.launching job p, r.records) (.done, (Launch.run h launcher job p r).2.records) := by
  have begins := trail_start (h := h) job p r
  cases started : Launch.start h job p r with
  | mk answer r' =>
    rw [started] at begins
    cases answer with
    | error e =>
      simp only [Launch.run, started]
      exact begins
    | ok e =>
      obtain ⟨origin, records⟩ := confined.perform launcher e r'
      rw [Launch.run_of_started started]
      refine begins.trans ?_
      generalize Launch.perform launcher job e r' = performed at origin records ⊢
      obtain ⟨fault, e', r''⟩ := performed
      have works : Trail h (.working e, r'.records) (.closing e' fault, r''.records) := by
        rw [show r''.records = r'.records from records]
        exact .work origin fault _ r''.world
      have closes := Trail.call (h := h) (.closing e' fault) r''
      have finished : (Launch.finish h e' fault r'').2.records
          = (advance h (.closing e' fault) r'').2.records := by
        cases fault <;> rfl
      rw [finished]
      exact works.trans closes

/-- A step run that is over before its parent is under way, or has come as far as
the context of its step. -/
theorem trail_open (step job : String) (p : Parameters) (seed : Context) (r : Repository W) :
    Trail h (.opening step job p seed, r.records)
      (match (Runner.openParent h job p r).1 with
        | .ok parent => .recalling step parent seed
        | .error _ => .done, (Runner.openParent h job p r).2.records) := by
  cases made : r.createExecution h job p with
  | mk answer r' =>
    cases answer with
    | error e =>
      simp only [Runner.openParent, made]
      exact .after (by simp only [advance, made]) .refl
    | ok e =>
      have opened : advance h (.opening step job p seed) r = (.opened step e seed, r') := by
        simp only [advance, made]
      refine .after opened ?_
      simp only [Runner.openParent, made]
      cases recorded : Repository.updateExecution h (begun e (h.now r'.world).1)
          ⟨r'.records, (h.now r'.world).2⟩ with
      | mk saved rest =>
        have same := recorded
        simp only [begun] at same
        rw [same]
        cases saved with
        | error _ => exact .after (by simp only [advance, recorded]; rfl) .refl
        | ok _ => exact .after (by simp only [advance, recorded]; rfl) .refl

def recordStep (h : Host W) (parent : JobExecution) (s : StepExecution) (r : Repository W) :
    Except BatchError StepExecution × JobExecution × Repository W :=
  match Repository.updateStep h s r with
  | (.error e, _, r) => (.error e, parent, r)
  | (.ok _, s, r) =>
    match Repository.updateExecution h (Runner.absorb parent s (h.now r.world).1)
        ⟨r.records, (h.now r.world).2⟩ with
    | (.error e, parent, r) => (.error e, parent, r)
    | (.ok _, parent, r) => (.ok s, parent, r)

/-- How a step run ends: a parent without an outcome is closed as failed. -/
def concludeParent (h : Host W)
    (outcome : Except BatchError StepExecution × JobExecution × Repository W) :
    Except BatchError StepExecution × Repository W :=
  match outcome with
  | (.ok s, _, r) => (.ok s, r)
  | (.error e, parent, r) => (.error e, Runner.closeFailed h parent e r)

theorem run_eq (step : Step W) (job : String) (p : Parameters) (seed : Context) (r : Repository W) :
    Runner.run h step job p seed r =
      match Runner.openParent h job p r with
      | (.error e, r) => (.error e, r)
      | (.ok parent, r) =>
        concludeParent h
          (match Repository.addStep h (recalled h step.name parent seed r)
              ⟨r.records, (h.now r.world).2⟩ with
          | (.error e, _, r) => (.error e, parent, r)
          | (.ok _, s, r) => recordStep h parent (step.execute s r).1 (step.execute s r).2) := rfl

/-- The end of a step run once its step has been executed. -/
theorem trail_record (parent : JobExecution) (s : StepExecution) (r : Repository W) :
    Trail h (.saving parent s, r.records)
      (.done, (concludeParent h (recordStep h parent s r)).2.records) := by
  rcases saved : Repository.updateStep h s r with ⟨answer, s', r'⟩
  cases answer with
  | error e =>
    have fails : advance h (.saving parent s) r = (.failing parent e, r') := by
      simp only [advance, saved]
    simp only [recordStep, saved, concludeParent]
    exact Trail.after fails (Trail.call (.failing parent e) r')
  | ok _ =>
    have goesOn : advance h (.saving parent s) r = (.absorbing parent s', r') := by
      simp only [advance, saved]
    refine Trail.after goesOn ?_
    rcases recorded : Repository.updateExecution h
      (Runner.absorb parent s' (h.now r'.world).1) ⟨r'.records, (h.now r'.world).2⟩
      with ⟨answer, parent', r''⟩
    cases answer with
    | error e =>
      have fails : advance h (.absorbing parent s') r' = (.failing parent' e, r'') := by
        simp only [advance, recorded]
      simp only [recordStep, saved, recorded, concludeParent]
      exact Trail.after fails (Trail.call (.failing parent' e) r'')
    | ok _ =>
      have ends : advance h (.absorbing parent s') r' = (.done, r'') := by
        simp only [advance, recorded]
      simp only [recordStep, saved, recorded, concludeParent]
      exact Trail.after ends .refl

/-- A step run is over before its step is executed, or goes through the phases
of a run up to its step and from there to its end. -/
theorem trail_runner (step : Step W) (job : String) (p : Parameters) (seed : Context)
    (r : Repository W) :
    Trail h (.opening step.name job p seed, r.records)
        (.done, (Runner.run h step job p seed r).2.records) ∨
      ∃ parent s r', Trail h (.opening step.name job p seed, r.records)
          (.stepping parent s, r'.records) ∧
        Trail h (.saving parent (step.execute s r').1, (step.execute s r').2.records)
          (.done, (Runner.run h step job p seed r).2.records) := by
  have opens := trail_open (h := h) step.name job p seed r
  rcases opened : Runner.openParent h job p r with ⟨answer, r₁⟩
  rw [opened] at opens
  cases answer with
  | error e =>
    simp only [Runner.run, opened]
    exact Or.inl opens
  | ok parent =>
    have recalls : Trail h (.opening step.name job p seed, r.records)
        (.registering parent (recalled h step.name parent seed r₁), r₁.records) :=
      Relation.ReflTransGen.trans opens (Trail.call (.recalling step.name parent seed) r₁)
    simp only [run_eq, opened]
    generalize recalled h step.name parent seed r₁ = s at recalls ⊢
    rcases added : Repository.addStep h s ⟨r₁.records, (h.now r₁.world).2⟩ with ⟨answer, s', r₂⟩
    cases answer with
    | error e =>
      have fails : advance h (.registering parent s) ⟨r₁.records, (h.now r₁.world).2⟩
          = (.failing parent e, r₂) := by
        simp only [advance, added]
      have ends : Trail h (.registering parent s, r₁.records)
          (.done, (Runner.closeFailed h parent e r₂).records) :=
        Trail.after (r := ⟨r₁.records, (h.now r₁.world).2⟩) fails
            (Trail.call (.failing parent e) r₂)
      exact Or.inl (Relation.ReflTransGen.trans recalls ends)
    | ok _ =>
      have registered : advance h (.registering parent s) ⟨r₁.records, (h.now r₁.world).2⟩
          = (.stepping parent s', r₂) := by
        simp only [advance, added]
      have begins : Trail h (.registering parent s, r₁.records)
          (.stepping parent s', r₂.records) :=
        Trail.after (r := ⟨r₁.records, (h.now r₁.world).2⟩) registered .refl
      refine Or.inr ⟨parent, s', r₂, Relation.ReflTransGen.trans recalls begins, ?_⟩
      exact trail_record parent (step.execute s' r₂).1 (step.execute s' r₂).2

/-- What a nested step does to the records while it is executed, a launch does:
that of its child, if it gets as far as having parameters for it. -/
theorem trail_child {n : NestedStep W} (confined : Confined n.job) (s : StepExecution)
    (r : Repository W) :
    ∃ child last : Phase W, child.IsFresh ∧
      Trail h (child, r.records) (last, (n.execute h s r).2.records) := by
  simp only [NestedStep.execute, NestedStep.launchChild]
  generalize ({ s with
    status := Status.started
    startTime := some (h.now r.world).1
    context := s.context.put NestedStep.stepTypeKey (.string NestedStep.stepType) } :
      StepExecution) = begun
  rcases n.resolve begun with ⟨_ | p, kept⟩
  · exact ⟨.opening "" "" .empty .empty, _, trivial, .refl⟩
  · exact ⟨.launching n.job p, .done, trivial,
      trail_launch n.launcher confined p ⟨r.records, (h.now r.world).2⟩⟩

/-- The run of a nested step is two runs of the system, of which the second one
goes on while the first one's step is at work. -/
theorem transitions_nested [DecidableEq ι] {n : NestedStep W} (confined : Confined n.job)
    (job : String) (p : Parameters) (seed : Context) (r : Repository W) (runs : ι → Phase W)
    {k l : ι} (apart : k ≠ l) :
    ∃ child last : Phase W, child.IsFresh ∧
      Transitions h
        ⟨r.records, Function.update (Function.update runs l child) k (.opening n.name job p seed)⟩
        ⟨(Runner.run h (n.toStep h) job p seed r).2.records,
          Function.update (Function.update runs l last) k .done⟩ := by
  rcases trail_runner (h := h) (n.toStep h) job p seed r with ended | ⟨parent, s, r', begins, ends⟩
  · exact ⟨.opening "" "" .empty .empty, _, trivial, ended.steps _ k⟩
  · obtain ⟨child, last, fresh, works⟩ := trail_child (h := h) confined s r'
    refine ⟨child, last, fresh, (begins.steps _ k).trans ?_⟩
    have childWorks := works.steps (Function.update runs k (.stepping parent s)) l
    rw [Function.update_comm apart, Function.update_comm apart] at childWorks
    refine Relation.ReflTransGen.trans childWorks ?_
    have parentGoesOn : Trail h (.stepping parent s, (n.execute h s r').2.records)
        (.saving parent (n.execute h s r').1, (n.execute h s r').2.records) :=
      .single ⟨r'.world, _, .stepped parent s _ _, rfl⟩
    exact Trail.steps (Relation.ReflTransGen.trans parentGoesOn ends) _ k

/-- What a run comes to by itself can be reached by the system. -/
theorem reachable_of_trail [DecidableEq ι] {phase : Phase W} (fresh : phase.IsFresh)
    {b : Phase W × Records} (trail : Trail h (phase, .empty) b) (runs : ι → Phase W)
    (others : ∀ k, (runs k).IsFresh) (k : ι) :
    Reachable h ⟨b.2, Function.update runs k b.1⟩ := by
  refine ⟨Function.update runs k phase, fun l => ?_, trail.steps runs k⟩
  by_cases hl : l = k
  · rw [hl, Function.update_self]
    exact fresh
  · rw [Function.update_of_ne hl]
    exact others l

end NestedBatch.Interleaving

import NestedBatch.Proofs.Interleaving.Sequential

/-! Runs of one instance take turns. An execution is added only when those
before it are over, and only the run that made an execution writes to its
record; so of an instance the newest execution alone can be under way, and
alone can have come to an end that rules out another. -/
namespace NestedBatch.Interleaving

variable {W ι : Type}

/-- Has the execution come to an end after which its instance is not to run again? -/
def isFinal (e : JobExecution) : Bool := e.status = .completed ∨ e.status = .abandoned

/-- What holds between an execution and a later one of its instance. -/
def Superseded (a b : JobExecution) : Prop :=
  a.jobInstanceId = b.jobInstanceId →
    a.isRunning = false ∧ (b.jobParameters.identifying.isEmpty = false → isFinal a = false)

/-- The change from one state of a record to another takes nothing up again. -/
structure Subsides (x y : JobExecution) : Prop where
  running : y.isRunning = true → x.isRunning = true
  final : isFinal y = true → x.isRunning = true ∨ isFinal x = true

namespace Phase

/-- The execution that a run has made, as long as it may still write to its record. -/
def execution? : Phase W → Option JobExecution
  | .created e | .working e | .closing e _ => some e
  | .opened _ parent _ | .recalling _ parent _ => some parent
  | .registering parent _ | .stepping parent _ | .saving parent _ => some parent
  | .absorbing parent _ | .failing parent _ => some parent
  | .launching _ _ | .admitted _ _ | .opening _ _ _ _ | .done => none

/-- How the record of a run's execution stands. A run that is about to close its
parent as failed may have written an outcome before. -/
def Backed : Phase W → JobExecution → Prop
  | .created e, x | .opened _ e _, x => x.isRunning = true ∧ e.endTime = none
  | .failing parent _, x => x.isRunning = true ∨ x.status = parent.status
  | _, x => x.isRunning = true

end Phase

theorem endTime_of_running {e : JobExecution} (running : e.isRunning = true) :
    e.endTime = none := by
  simp only [JobExecution.isRunning, Bool.and_eq_true] at running
  exact Option.isNone_iff_eq_none.1 running.2

theorem Subsides.of_running {x y : JobExecution} (running : x.isRunning = true) : Subsides x y :=
  ⟨fun _ => running, fun _ => Or.inl running⟩

theorem eq_abandoned_of_final {s : Status} (final : s.upgradeTo .failed = .completed ∨
    s.upgradeTo .failed = .abandoned) : s = .abandoned := by
  revert final
  cases s <;> decide

theorem isFinal_failedParent {parent : JobExecution} {e : BatchError} {recorded ended : Instant}
    (final : isFinal (Runner.failedParent parent e recorded ended) = true) :
    isFinal parent = true := by
  have abandoned := eq_abandoned_of_final (of_decide_eq_true final)
  exact decide_eq_true (Or.inr abandoned)

/-- Closing a parent as failed takes nothing up again, also after an outcome was written. -/
theorem Subsides.failedParent {x parent : JobExecution} {e : BatchError} {recorded ended : Instant}
    (backed : (Phase.failing (W := W) parent e).Backed x) :
    Subsides x (Runner.failedParent parent e recorded ended) := by
  rcases backed with running | same
  · exact .of_running running
  · refine ⟨fun impossible => ?_, fun final => Or.inr ?_⟩
    · simp [JobExecution.isRunning, Runner.failedParent] at impossible
    · have parentFinal := isFinal_failedParent final
      simpa only [isFinal, same] using parentFinal

/-- What holds of every reachable system. -/
structure Invariant (s : System ι W) : Prop where
  numbered : s.records.Numbered
  known : ∀ i ∈ s.records.instances, i.id ≤ s.records.nextId
  filed : ∀ e ∈ s.records.executions, e.jobInstanceId ≤ s.records.nextId
  succession : s.records.executions.Pairwise Superseded
  backed : ∀ k e, (s.runs k).execution? = some e →
    ∃ x ∈ s.records.executions, SameOrigin e x ∧ (s.runs k).Backed x
  apart : ∀ k l e f, k ≠ l → (s.runs k).execution? = some e → (s.runs l).execution? = some f →
    e.id ≠ f.id

theorem initial_invariant (runs : ι → Phase W) (fresh : ∀ k, (runs k).IsFresh) :
    Invariant (⟨.empty, runs⟩ : System ι W) := by
  have nothing : ∀ k, (runs k).execution? = none := by
    intro k
    have := fresh k
    cases phase : runs k <;> simp_all [Phase.IsFresh, Phase.execution?]
  refine ⟨Records.numbered_empty, by simp [Records.empty], by simp [Records.empty],
    List.Pairwise.nil, ?_, ?_⟩
  · intro k e held
    rw [nothing k] at held
    cases held
  · intro k l e f _ held
    rw [nothing k] at held
    cases held

/-- A run moves on with the execution it has, or lets go of it. -/
def Carries (before after : Phase W) : Prop :=
  ∀ e, after.execution? = some e → ∃ f, before.execution? = some f ∧ SameOrigin f e

theorem Invariant.own_of_carries {s : System ι W} (inv : Invariant s) {k : ι} {phase : Phase W}
    (carries : Carries (s.runs k) phase) (e : JobExecution) (he : phase.execution? = some e) (l : ι)
    (f : JobExecution) (differ : l ≠ k) (hf : (s.runs l).execution? = some f) : e.id ≠ f.id := by
  obtain ⟨g, hg, same⟩ := carries e he
  exact same.id ▸ inv.apart k l g f differ.symm hg hf

section Update

variable [DecidableEq ι] {s : System ι W} {k : ι} {phase : Phase W}

/-- Runs stay apart when one moves on with an execution that none of the others has. -/
theorem Invariant.apart_update (inv : Invariant s)
    (own : ∀ e, phase.execution? = some e → ∀ l f, l ≠ k → (s.runs l).execution? = some f →
      e.id ≠ f.id)
    (m l : ι) (e f : JobExecution) (differ : m ≠ l)
    (he : (Function.update s.runs k phase m).execution? = some e)
    (hf : (Function.update s.runs k phase l).execution? = some f) : e.id ≠ f.id := by
  by_cases hm : m = k
  · subst hm
    rw [Function.update_self] at he
    rw [Function.update_of_ne differ.symm] at hf
    exact own e he l f differ.symm hf
  · rw [Function.update_of_ne hm] at he
    by_cases hl : l = k
    · subst hl
      rw [Function.update_self] at hf
      exact (own f hf m e hm he).symm
    · rw [Function.update_of_ne hl] at hf
      exact inv.apart m l e f differ he hf

/-- A move that leaves the executions as they are. -/
theorem Invariant.keep (inv : Invariant s) {records : Records}
    (executions : records.executions = s.records.executions)
    (instances : records.instances = s.records.instances)
    (count : s.records.nextId ≤ records.nextId) (carries : Carries (s.runs k) phase)
    (backs : ∀ e, phase.execution? = some e → ∀ x, (s.runs k).Backed x → phase.Backed x) :
    Invariant ⟨records, Function.update s.runs k phase⟩ := by
  refine ⟨inv.numbered.mono executions count, ?_, ?_, executions ▸ inv.succession, ?_,
    inv.apart_update (inv.own_of_carries carries)⟩
  · exact fun i hi => Nat.le_trans (inv.known i (instances ▸ hi)) count
  · exact fun e he => Nat.le_trans (inv.filed e (executions ▸ he)) count
  · intro l e he
    dsimp only at he ⊢
    rw [executions]
    by_cases hl : l = k
    · subst hl
      rw [Function.update_self] at he ⊢
      obtain ⟨f, hf, origin⟩ := carries e he
      obtain ⟨x, hx, same, backed⟩ := inv.backed l f hf
      exact ⟨x, hx, origin.symm.trans same, backs e he x backed⟩
    · rw [Function.update_of_ne hl] at he ⊢
      exact inv.backed l e he

/-- A move that adds a new execution, and keeps it or lets go of it. -/
theorem Invariant.create (inv : Invariant s) {job : String} {p : Parameters} {i : JobInstance}
    {made : Records} (found : s.records.findOrMakeInstance job p = .ok (i, made)) (now : Instant)
    (carries : ∀ e, phase.execution? = some e → e = (made.newExecution i p now).1)
    (backs : ∀ e, phase.execution? = some e → e.isRunning = true → phase.Backed e) :
    Invariant ⟨(made.newExecution i p now).2, Function.update s.runs k phase⟩ := by
  obtain ⟨executions, count⟩ := Records.findOrMakeInstance_frame found
  have bound : ∀ e ∈ s.records.executions, e.id ≤ made.nextId := fun e he =>
    Nat.le_trans (inv.numbered.bounded e he) count
  have clear : ∀ e ∈ s.records.executions, e.jobInstanceId = i.id →
      Records.obstacle? job p e = none := by
    intro e he belongs
    rcases Records.findOrMakeInstance_ok found with ⟨_, _, clear⟩ | ⟨_, rfl, _⟩
    · exact clear e (Records.mem_executionsOf.2 ⟨he, belongs⟩)
    · have := inv.filed e he
      simp only at belongs
      omega
  obtain ⟨instanceKnown, known⟩ := Records.findOrMakeInstance_known inv.known found
  have filed : ∀ e ∈ s.records.executions, e.jobInstanceId ≤ made.nextId := fun e he =>
    Nat.le_trans (inv.filed e he) count
  refine ⟨(inv.numbered.mono executions count).newExecution i p now, ?_, ?_, ?_, ?_, ?_⟩
  · exact fun j hj => Nat.le_succ_of_le (known j hj)
  · intro e he
    simp only [Records.newExecution, executions, List.mem_append, List.mem_singleton] at he ⊢
    rcases he with old | rfl
    · exact Nat.le_succ_of_le (filed e old)
    · exact Nat.le_succ_of_le instanceKnown
  · simp only [Records.newExecution, executions]
    refine List.pairwise_append.2 ⟨inv.succession, List.pairwise_singleton _ _, ?_⟩
    intro a ha b hb belongs
    rw [List.mem_singleton.1 hb] at belongs ⊢
    have unobstructed := Records.obstacle?_eq_none.1 (clear a ha belongs)
    exact ⟨unobstructed.1, fun identified => decide_eq_false (unobstructed.2 identified)⟩
  · intro l e he
    simp only [Records.newExecution, executions, List.mem_append, List.mem_singleton] at he ⊢
    by_cases hl : l = k
    · subst hl
      rw [Function.update_self] at he ⊢
      refine ⟨e, Or.inr (carries e he), .refl e, backs e he ?_⟩
      rw [carries e he]
      rfl
    · rw [Function.update_of_ne hl] at he ⊢
      obtain ⟨x, hx, same, backed⟩ := inv.backed l e he
      exact ⟨x, Or.inl hx, same, backed⟩
  · refine inv.apart_update ?_
    intro e he l f differ hf
    obtain ⟨x, hx, same, _⟩ := inv.backed l f hf
    have := bound x hx
    rw [carries e he]
    simp only [Records.newExecution, JobExecution.create, same.id] at this ⊢
    omega

/-- A move in which a run writes to the record of its execution. -/
theorem Invariant.write (inv : Invariant s) {e y : JobExecution}
    (held : (s.runs k).execution? = some e) (same : SameOrigin e y)
    (subsides : ∀ x, (s.runs k).Backed x → Subsides x y) (carries : Carries (s.runs k) phase)
    (backs : ∀ f, phase.execution? = some f → phase.Backed { y with steps := [] }) :
    Invariant ⟨s.records.putExecution y, Function.update s.runs k phase⟩ := by
  obtain ⟨x, hx, origin, backed⟩ := inv.backed k e held
  have subside := subsides x backed
  have made : SameOrigin x y := origin.symm.trans same
  have replaced : ∀ a ∈ s.records.executions, decide (a.id = y.id) = true → a = x := by
    intro a ha found
    exact inv.numbered.eq_of_id ha hx ((of_decide_eq_true found).trans made.id)
  have there : s.records.hasExecution y.id = true :=
    Records.hasExecution_iff.2 ⟨x, hx, made.id.symm⟩
  refine ⟨inv.numbered.putExecution y, inv.known, ?_, ?_, ?_,
    inv.apart_update (inv.own_of_carries carries)⟩
  · intro z hz
    rcases (Records.mem_putExecution inv.numbered).1 hz with ⟨rfl, _⟩ | ⟨old, _⟩
    · exact made.jobInstanceId ▸ inv.filed x hx
    · exact inv.filed z old
  · refine Records.pairwise_replaceFirst inv.succession ?_ ?_
    · intro a ha found b hb before belongs
      obtain rfl := replaced a ha found
      have := before (belongs.trans made.jobInstanceId)
      exact ⟨this.1, fun identified => this.2 (made.jobParameters ▸ identified)⟩
    · intro a ha found b hb before belongs
      obtain rfl := replaced a ha found
      obtain ⟨idle, unfinished⟩ := before (made.jobInstanceId.symm.trans belongs)
      refine ⟨Bool.eq_false_iff.2 fun running => ?_, fun identified => ?_⟩
      · have := subside.running running
        simp [idle] at this
      · refine Bool.eq_false_iff.2 fun final => ?_
        rcases subside.final final with running | final
        · simp [idle] at running
        · simp [unfinished identified] at final
  · intro l f hf
    by_cases hl : l = k
    · subst hl
      simp only [Function.update_self] at hf ⊢
      obtain ⟨g, hg, keeps⟩ := carries f hf
      obtain rfl : g = e := Option.some.inj (hg.symm.trans held)
      refine ⟨{ y with steps := [] }, (Records.mem_putExecution inv.numbered).2
        (Or.inl ⟨rfl, there⟩), ?_, ?_⟩
      · exact keeps.symm.trans ⟨same.id, same.jobInstanceId, same.jobName, same.jobParameters⟩
      · exact backs f hf
    · simp only [Function.update_of_ne hl] at hf ⊢
      obtain ⟨z, hz, match', backed'⟩ := inv.backed l f hf
      refine ⟨z, (Records.mem_putExecution inv.numbered).2 (Or.inr ⟨hz, ?_⟩), match', backed'⟩
      rw [match'.id, same.id]
      exact inv.apart l k f e hl hf held

theorem carries_of_none {before after : Phase W} (none : after.execution? = none) :
    Carries before after := by
  intro e held
  rw [none] at held
  cases held

theorem carries_of_eq {before after : Phase W} (same : before.execution? = after.execution?) :
    Carries before after := by
  intro e held
  exact ⟨e, same.trans held, .refl e⟩

theorem Invariant.createExecution (inv : Invariant s) (h : Host W) (w : W) (job : String)
    (p : Parameters) (next : JobExecution → Phase W)
    (holds : ∀ e, (next e).execution? = some e)
    (backs : ∀ e, e.isRunning = true → (next e).Backed e) :
    Invariant ⟨(Repository.createExecution h job p ⟨s.records, w⟩).2.records,
      Function.update s.runs k
        (match (Repository.createExecution h job p ⟨s.records, w⟩).1 with
          | .ok e => next e
          | .error _ => .done)⟩ := by
  cases found : s.records.findOrMakeInstance job p with
  | error e =>
    rw [Repository.createExecution_refused h found]
    exact inv.keep rfl rfl (Nat.le_refl _) (carries_of_none rfl) (fun _ none => by cases none)
  | ok admitted =>
    obtain ⟨i, made⟩ := admitted
    obtain ⟨answer, w', eq, saved⟩ :=
      Repository.createExecution_admitted h (r := ⟨s.records, w⟩) found
    rw [eq]
    rcases saved with rfl | ⟨fault, rfl⟩
    · refine inv.create found _ (fun e held => ?_) (fun e held running => ?_)
      · exact Option.some.inj (held.symm.trans (holds _))
      · obtain rfl := Option.some.inj (held.symm.trans (holds _))
        exact backs _ running
    · exact inv.create found _ (fun _ none => by cases none) (fun _ none => by cases none)

theorem Invariant.updateExecution (inv : Invariant s) (h : Host W) (w : W) {e y : JobExecution}
    (held : (s.runs k).execution? = some e) (same : SameOrigin e y)
    (subsides : ∀ x, (s.runs k).Backed x → Subsides x y)
    (next : Except BatchError Unit → JobExecution → Phase W)
    (holds : ∀ answer now, (next answer { y with lastUpdated := now }).execution? = none ∨
      ((next answer { y with lastUpdated := now }).execution? = some { y with lastUpdated := now } ∧
        (next answer { y with lastUpdated := now }).Backed
          { y with lastUpdated := now, steps := [] })) :
    Invariant ⟨(Repository.updateExecution h y ⟨s.records, w⟩).2.2.records,
      Function.update s.runs k
        (next (Repository.updateExecution h y ⟨s.records, w⟩).1
          (Repository.updateExecution h y ⟨s.records, w⟩).2.1)⟩ := by
  obtain ⟨now, copy, records⟩ := Repository.updateExecution_effect h y ⟨s.records, w⟩
  rw [copy, records]
  have made : SameOrigin e { y with lastUpdated := now } :=
    ⟨same.id, same.jobInstanceId, same.jobName, same.jobParameters⟩
  have eases : ∀ x, (s.runs k).Backed x → Subsides x { y with lastUpdated := now } := by
    intro x backed
    exact ⟨(subsides x backed).running, (subsides x backed).final⟩
  rcases holds (Repository.updateExecution h y ⟨s.records, w⟩).1 now with none | ⟨some, backed⟩
  · refine inv.write held made eases (carries_of_none none) fun f impossible => ?_
    rw [none] at impossible
    cases impossible
  · refine inv.write held made eases (fun f keeps => ?_) fun _ _ => backed
    obtain rfl := Option.some.inj (some.symm.trans keeps)
    exact ⟨e, held, made⟩

theorem Invariant.begin (inv : Invariant s) (h : Host W) (w : W) (now : Instant) {e : JobExecution}
    (held : (s.runs k).execution? = some e)
    (backed : ∀ x, (s.runs k).Backed x → x.isRunning = true ∧ e.endTime = none)
    (next : JobExecution → Phase W) (holds : ∀ z, (next z).execution? = some z)
    (backs : ∀ z x, x.isRunning = true → (next z).Backed x) :
    Invariant ⟨(Repository.updateExecution h (begun e now) ⟨s.records, w⟩).2.2.records,
      Function.update s.runs k
        (match (Repository.updateExecution h (begun e now) ⟨s.records, w⟩).1 with
          | .ok _ => next (Repository.updateExecution h (begun e now) ⟨s.records, w⟩).2.1
          | .error _ => .done)⟩ := by
  obtain ⟨x, _, _, stands⟩ := inv.backed k e held
  have open' := (backed x stands).2
  refine inv.updateExecution h w (y := begun e now) held ⟨rfl, rfl, rfl, rfl⟩
    (fun x stands => .of_running (backed x stands).1)
    (fun answer z => match answer with | .ok _ => next z | .error _ => .done) ?_
  intro answer now'
  cases answer with
  | error _ => exact Or.inl rfl
  | ok _ =>
    refine Or.inr ⟨holds _, backs _ _ ?_⟩
    simp [JobExecution.isRunning, begun, open', Status.isRunning]

theorem call_invariant (inv : Invariant s) (h : Host W) (k : ι) (w : W) :
    Invariant ⟨(advance h (s.runs k) ⟨s.records, w⟩).2.records,
      Function.update s.runs k (advance h (s.runs k) ⟨s.records, w⟩).1⟩ := by
  -- Each phase makes one call, and each call is one of the moves above.
  have keeps : Invariant ⟨s.records, Function.update s.runs k .done⟩ :=
    inv.keep rfl rfl (Nat.le_refl _) (carries_of_none rfl) fun _ none => by cases none
  cases phase : s.runs k with
  | launching job p =>
    simp only [advance]
    split
    · exact inv.keep rfl rfl (Nat.le_refl _) (carries_of_none rfl) fun _ none => by cases none
    · exact keeps
  | admitted job p =>
    have step := inv.createExecution (k := k) h w job.name p .created (fun _ => rfl)
      (fun _ running => ⟨running, endTime_of_running running⟩)
    simp only [advance]
    split <;> rename_i eq <;> rw [eq] at step <;> exact step
  | created e =>
    have step := inv.begin (k := k) h (h.now w).2 (h.now w).1 (e := e) (by rw [phase]; rfl)
      (fun x backed => by rw [phase] at backed; exact backed) .working (fun _ => rfl)
      (fun _ _ running => running)
    simp only [advance]
    split <;> rename_i eq <;> rw [eq] at step <;> exact step
  | closing e fault =>
    have step := inv.updateExecution (k := k) h (Launch.closed h e fault w).2 (by rw [phase]; rfl)
      (Launch.sameOrigin_closed h e fault w)
      (fun x backed => by rw [phase] at backed; exact .of_running backed)
      (fun _ _ => .done) fun _ _ => Or.inl rfl
    exact step
  | opening step job p seed =>
    have step := inv.createExecution (k := k) h w job p (.opened step · seed) (fun _ => rfl)
      (fun _ running => ⟨running, endTime_of_running running⟩)
    simp only [advance]
    split <;> rename_i eq <;> rw [eq] at step <;> exact step
  | opened step parent seed =>
    have step := inv.begin (k := k) h (h.now w).2 (h.now w).1 (e := parent) (by rw [phase]; rfl)
      (fun x backed => by rw [phase] at backed; exact backed) (.recalling step · seed)
      (fun _ => rfl) (fun _ _ running => running)
    simp only [advance]
    split <;> rename_i eq <;> rw [eq] at step <;> exact step
  | recalling step parent seed =>
    refine inv.keep rfl rfl (Nat.le_refl _) (carries_of_eq (by rw [phase]; rfl)) ?_
    intro e held x backed
    rw [phase] at backed
    exact backed
  | registering parent t =>
    obtain ⟨executions, instances, count⟩ := Repository.addStep_frame h t ⟨s.records, w⟩
    simp only [advance]
    split <;> rename_i eq <;> rw [eq] at executions instances count
    · exact inv.keep executions instances count (carries_of_eq (by rw [phase]; rfl))
        fun _ _ x backed => by rw [phase] at backed; exact Or.inl backed
    · exact inv.keep executions instances count (carries_of_eq (by rw [phase]; rfl))
        fun _ _ x backed => by rw [phase] at backed; exact backed
  | saving parent t =>
    obtain ⟨executions, instances, count⟩ := Repository.updateStep_frame h t ⟨s.records, w⟩
    simp only [advance]
    split <;> rename_i eq <;> rw [eq] at executions instances count
    · exact inv.keep executions instances count (carries_of_eq (by rw [phase]; rfl))
        fun _ _ x backed => by rw [phase] at backed; exact Or.inl backed
    · exact inv.keep executions instances count (carries_of_eq (by rw [phase]; rfl))
        fun _ _ x backed => by rw [phase] at backed; exact backed
  | absorbing parent t =>
    have step := inv.updateExecution (k := k) h (h.now w).2 (e := parent)
      (y := Runner.absorb parent t (h.now w).1) (by rw [phase]; rfl) ⟨rfl, rfl, rfl, rfl⟩
      (fun x backed => by rw [phase] at backed; exact .of_running backed)
      (fun answer z => match answer with | .ok _ => .done | .error e => .failing z e)
      (fun answer now => by
        cases answer with
        | ok _ => exact Or.inl rfl
        | error e => exact Or.inr ⟨rfl, Or.inr rfl⟩)
    simp only [advance]
    split <;> rename_i eq <;> rw [eq] at step <;> exact step
  | failing parent e =>
    have step := inv.updateExecution (k := k) h (h.now (h.now w).2).2 (e := parent)
      (y := Runner.failedParent parent e (h.now w).1 (h.now (h.now w).2).1) (by rw [phase]; rfl)
      ⟨rfl, rfl, rfl, rfl⟩ (fun x backed => by rw [phase] at backed; exact .failedParent backed)
      (fun _ _ => .done) fun _ _ => Or.inl rfl
    exact step
  | working e | stepping parent t | done =>
    have same : Invariant ⟨s.records, Function.update s.runs k (s.runs k)⟩ :=
      inv.keep rfl rfl (Nat.le_refl _) (carries_of_eq rfl) fun _ _ _ backed => backed
    rw [phase] at same
    exact same

theorem step_invariant {h : Host W} {s t : System ι W} (step : Transition h s t)
    (inv : Invariant s) : Invariant t := by
  cases step with
  | move k w moves =>
    generalize before : s.runs k = phase at moves
    cases moves with
    | call _ _ => exact before ▸ call_invariant inv h k w
    | worked origin fault _ =>
      refine inv.keep rfl rfl (Nat.le_refl _) ?_ fun _ _ x backed => by
        rw [before] at backed
        exact backed
      intro e held
      obtain rfl := Option.some.inj held
      exact ⟨_, by rw [before]; rfl, origin⟩
    | stepped parent _ s' _ =>
      refine inv.keep rfl rfl (Nat.le_refl _) (carries_of_eq (by rw [before]; rfl)) ?_
      intro e held x backed
      rw [before] at backed
      exact backed

theorem reachable_invariant {h : Host W} {s : System ι W} (reachable : Reachable h s) :
    Invariant s := by
  obtain ⟨runs, fresh, steps⟩ := reachable
  induction steps with
  | refl => exact initial_invariant runs fresh
  | tail _ step ih => exact step_invariant step ih

end Update

/-- Of elements none of which has a property before another one, only the last can have it. -/
theorem only_last {α : Type} {q : α → Bool} {l : List α}
    (before : l.Pairwise fun a _ => q a = false) :
    l.countP q ≤ 1 ∧ ∀ x ∈ l, q x = true → l.getLast? = some x := by
  induction l with
  | nil => exact ⟨Nat.zero_le 1, fun x hx => by cases hx⟩
  | cons a rest ih =>
    obtain ⟨first, tail⟩ := List.pairwise_cons.1 before
    cases rest with
    | nil =>
      refine ⟨List.countP_le_length, fun x hx _ => ?_⟩
      rw [List.mem_singleton.1 hx]
      rfl
    | cons b more =>
      have lacks : q a = false := first b List.mem_cons_self
      obtain ⟨count, last⟩ := ih tail
      refine ⟨?_, fun x hx has => ?_⟩
      · rw [List.countP_cons_of_neg (by simp [lacks])]
        exact count
      · rcases List.mem_cons.1 hx with rfl | later
        · rw [lacks] at has
          cases has
        · rw [List.getLast?_cons_cons]
          exact last x later has

theorem Invariant.superseded {s : System ι W} (inv : Invariant s) (id : Nat) :
    (s.records.executionsOf id).Pairwise fun a b => a.isRunning = false ∧
      (b.jobParameters.identifying.isEmpty = false → isFinal a = false) := by
  have order : (s.records.executionsOf id).Pairwise Superseded :=
    inv.succession.sublist List.filter_sublist
  refine order.imp_of_mem fun ha hb superseded => ?_
  have left := (Records.mem_executionsOf.1 ha).2
  have right := (Records.mem_executionsOf.1 hb).2
  exact superseded (left.trans right.symm)

/-- At most one execution of an instance is under way. Where identifying
parameters are given, at most one has come to its final end, and that one is the
last execution of the instance. -/
theorem instances_exclusive [DecidableEq ι] {h : Host W} {s : System ι W}
    (reachable : Reachable h s) (i : JobInstance) :
    (s.records.executionsOf i.id).countP JobExecution.isRunning ≤ 1 ∧
      ((∀ e ∈ s.records.executionsOf i.id, e.jobParameters.identifying.isEmpty = false) →
        (s.records.executionsOf i.id).countP isFinal ≤ 1 ∧
        ∀ e ∈ s.records.executionsOf i.id, isFinal e = true →
          (s.records.executionsOf i.id).getLast? = some e) := by
  have order := (reachable_invariant reachable).superseded i.id
  refine ⟨(only_last (order.imp fun both => both.1)).1, fun identified => ?_⟩
  exact only_last (order.imp_of_mem fun _ hb both => both.2 (identified _ hb))

/-- One launch of an identified job has come to its end beside another that has yet to begin. -/
def oneOfTwo : System Bool Unit :=
  ⟨(Launch.run .still .sameThread .idle .firstRun ⟨.empty, ()⟩).2.records,
    Function.update (fun _ => .launching .idle .firstRun) true .done⟩

theorem oneOfTwo_exclusive :
    oneOfTwo.records.executionsOf 1 ≠ [] ∧
      (oneOfTwo.records.executionsOf 1).countP JobExecution.isRunning ≤ 1 ∧
      (oneOfTwo.records.executionsOf 1).countP isFinal ≤ 1 ∧
      ∀ e ∈ oneOfTwo.records.executionsOf 1, isFinal e = true →
        (oneOfTwo.records.executionsOf 1).getLast? = some e := by
  have confined : Confined (Job.idle (W := Unit)) := ⟨fun e _ => .refl e, fun _ _ => rfl⟩
  have fresh : (Phase.launching Job.idle .firstRun : Phase Unit).IsFresh := trivial
  have reachable : Reachable Host.still oneOfTwo :=
    reachable_of_trail fresh (trail_launch .sameThread confined .firstRun ⟨.empty, ()⟩)
      (fun _ => .launching .idle .firstRun) (fun _ => trivial) true
  obtain ⟨running, final⟩ := instances_exclusive reachable ⟨1, "idle", ""⟩
  exact ⟨by decide, running, final (by decide)⟩

end NestedBatch.Interleaving

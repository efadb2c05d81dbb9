import NestedBatch.Proofs.Interleaving.Succession
import NestedBatch.Proofs.Launch.Instances

/-! Courses of runs side by side, move by move. The work of a run may do anything, on
its execution and on the repository. In an orderly course it makes no other execution
of one that is recorded; then whatever identifies an execution stays as it is. -/
namespace NestedBatch

namespace Interleaving

open Records

variable {W ι : Type} {h : Host W}

/-- What a call has done that put back the execution a run holds. -/
def PutsBack (phase next : Phase W) (r r' : Records) : Prop :=
  ∃ e y, phase.execution? = some e ∧ SameOrigin e y ∧ r' = r.putExecution y ∧ Carries phase next

theorem putsBack_update {phase next : Phase W} {e y e' : JobExecution} {r : Records}
    {r' : Repository W} {w : W} {answer : Except BatchError Unit}
    (updated : Repository.updateExecution h y ⟨r, w⟩ = (answer, e', r'))
    (held : phase.execution? = some e) (same : SameOrigin e y)
    (carries : ∀ f, next.execution? = some f → f = e') :
    PutsBack phase next r r'.records := by
  obtain ⟨now, copy, records⟩ := Repository.updateExecution_effect h y ⟨r, w⟩
  simp only [updated] at copy records
  have made : SameOrigin e { y with lastUpdated := now } :=
    ⟨same.id, same.jobInstanceId, same.jobName, same.jobParameters⟩
  refine ⟨e, _, held, made, records, fun f keeps => ⟨e, held, ?_⟩⟩
  rw [carries f keeps, copy]
  exact made

def Makes (next : Phase W) (job : String) (p : Parameters) (r r' : Records) : Prop :=
  ∃ i made now, r.findOrMakeInstance job p = .ok (i, made) ∧ r' = (made.newExecution i p now).2 ∧
    ∀ e, next.execution? = some e → e = (made.newExecution i p now).1

structure Spares (phase next : Phase W) (r r' : Records) : Prop where
  executions : r'.executions = r.executions
  instances : r'.instances = r.instances
  count : r.nextId ≤ r'.nextId
  carries : Carries phase next

theorem create_cases (h : Host W) (phase : Phase W) (next : JobExecution → Phase W) (job : String)
    (p : Parameters) (r : Repository W) (holds : ∀ e, (next e).execution? = some e) :
    (∃ e w, r.createExecution h job p = (.ok e, w) ∧
        Makes (next e) job p r.records w.records) ∨
      ∃ e w, r.createExecution h job p = (.error e, w) ∧
        (Spares phase .done r.records w.records ∨ Makes (.done : Phase W) job p r.records w.records) := by
  cases found : r.records.findOrMakeInstance job p with
  | error e =>
    refine Or.inr ⟨e, r, Repository.createExecution_refused h found, Or.inl ?_⟩
    exact ⟨rfl, rfl, Nat.le_refl _, carries_of_none rfl⟩
  | ok admitted =>
    obtain ⟨answer, w, eq, saved⟩ := Repository.createExecution_admitted h found
    rcases saved with rfl | ⟨fault, rfl⟩
    · refine Or.inl ⟨_, _, eq, admitted.1, admitted.2, _, found, rfl, fun e held => ?_⟩
      exact Option.some.inj (held.symm.trans (holds _))
    · refine Or.inr ⟨_, _, eq, Or.inr ⟨admitted.1, admitted.2, _, found, rfl, ?_⟩⟩
      intro _ none
      cases none

/-- All that the next call of a run can do to the executions: nothing, make one, or
put back the one that the run holds. -/
theorem advance_cases (h : Host W) (phase : Phase W) (r : Repository W) :
    Spares phase (advance h phase r).1 r.records (advance h phase r).2.records ∨
      (∃ job p, Makes (advance h phase r).1 job p r.records (advance h phase r).2.records) ∨
      PutsBack phase (advance h phase r).1 r.records (advance h phase r).2.records := by
  cases phase with
  | launching job p =>
    simp only [advance]
    split <;> exact Or.inl ⟨rfl, rfl, Nat.le_refl _, carries_of_none rfl⟩
  | admitted job p =>
    rcases create_cases h (.admitted job p) .created job.name p r fun _ => rfl with
      ⟨e, w, eq, makes⟩ | ⟨e, w, eq, spares | makes⟩ <;> simp only [advance, eq]
    · exact Or.inr (Or.inl ⟨_, _, makes⟩)
    · exact Or.inl spares
    · exact Or.inr (Or.inl ⟨_, _, makes⟩)
  | opening step job p seed =>
    rcases create_cases h (.opening step job p seed) (.opened step · seed) job p r fun _ => rfl with
      ⟨e, w, eq, makes⟩ | ⟨e, w, eq, spares | makes⟩ <;> simp only [advance, eq]
    · exact Or.inr (Or.inl ⟨_, _, makes⟩)
    · exact Or.inl spares
    · exact Or.inr (Or.inl ⟨_, _, makes⟩)
  | created e =>
    rcases updated : Repository.updateExecution h (begun e (h.now r.world).1)
      ⟨r.records, (h.now r.world).2⟩ with ⟨_ | _, e', r'⟩ <;> simp only [advance, updated] <;>
      refine Or.inr (Or.inr (putsBack_update updated rfl ⟨rfl, rfl, rfl, rfl⟩ ?_))
    · exact fun _ none => by cases none
    · exact fun _ held => (Option.some.inj held).symm
  | closing e fault =>
    have same := Launch.sameOrigin_closed h e fault r.world
    rcases updated : Repository.updateExecution h (Launch.closed h e fault r.world).1
      ⟨r.records, (Launch.closed h e fault r.world).2⟩ with ⟨answer, e', r'⟩
    simp only [advance, updated]
    exact Or.inr (Or.inr (putsBack_update updated rfl same fun _ none => by cases none))
  | opened step parent seed =>
    rcases updated : Repository.updateExecution h (begun parent (h.now r.world).1)
      ⟨r.records, (h.now r.world).2⟩ with ⟨_ | _, e', r'⟩ <;> simp only [advance, updated] <;>
      refine Or.inr (Or.inr (putsBack_update updated rfl ⟨rfl, rfl, rfl, rfl⟩ ?_))
    · exact fun _ none => by cases none
    · exact fun _ held => (Option.some.inj held).symm
  | recalling step parent seed =>
    exact Or.inl ⟨rfl, rfl, Nat.le_refl _, carries_of_eq rfl⟩
  | registering parent s =>
    obtain ⟨executions, instances, count⟩ := Repository.addStep_frame h s r
    simp only [advance]
    split <;> rename_i eq <;> rw [eq] at executions instances count <;>
      exact Or.inl ⟨executions, instances, count, carries_of_eq rfl⟩
  | saving parent s =>
    obtain ⟨executions, instances, count⟩ := Repository.updateStep_frame h s r
    simp only [advance]
    split <;> rename_i eq <;> rw [eq] at executions instances count <;>
      exact Or.inl ⟨executions, instances, count, carries_of_eq rfl⟩
  | absorbing parent s =>
    rcases updated : Repository.updateExecution h (Runner.absorb parent s (h.now r.world).1)
      ⟨r.records, (h.now r.world).2⟩ with ⟨_ | _, e', r'⟩ <;> simp only [advance, updated] <;>
      refine Or.inr (Or.inr (putsBack_update updated rfl ⟨rfl, rfl, rfl, rfl⟩ ?_))
    · exact fun _ held => (Option.some.inj held).symm
    · exact fun _ none => by cases none
  | failing parent e =>
    rcases updated : Repository.updateExecution h
      (Runner.failedParent parent e (h.now r.world).1 (h.now (h.now r.world).2).1)
      ⟨r.records, (h.now (h.now r.world).2).2⟩ with ⟨answer, e', r'⟩
    simp only [advance, Runner.closeFailed, updated]
    exact Or.inr (Or.inr (putsBack_update updated rfl ⟨rfl, rfl, rfl, rfl⟩ fun _ none => by
      cases none))
  | working e | stepping parent s | done =>
    exact Or.inl ⟨rfl, rfl, Nat.le_refl _, carries_of_eq rfl⟩

/-- What holds of every orderly course: what a run holds is recorded as it was made. -/
structure Grounded (s : System ι W) : Prop where
  numbered : s.records.Numbered
  recorded : ∀ k e, (s.runs k).execution? = some e → ∃ x ∈ s.records.executions, SameOrigin e x

section Grounded

variable {s : System ι W} {k : ι} {phase : Phase W} {r : Records}

theorem Grounded.carried (grounded : Grounded s) (grows : Grows s.records r)
    (carries : Carries (s.runs k) phase) (e : JobExecution) (has : phase.execution? = some e) :
    ∃ x ∈ r.executions, SameOrigin e x := by
  obtain ⟨f, held, same⟩ := carries e has
  obtain ⟨x, hx, origin⟩ := grounded.recorded k f held
  obtain ⟨y, hy, kept⟩ := grows.origins x hx
  exact ⟨y, hy, same.symm.trans (origin.trans kept)⟩

theorem Grounded.move [DecidableEq ι] (grounded : Grounded s) (grows : Grows s.records r)
    (held : ∀ e, phase.execution? = some e → ∃ x ∈ r.executions, SameOrigin e x) :
    Grounded (⟨r, Function.update s.runs k phase⟩ : System ι W) := by
  refine ⟨grows.numbered, fun l e has => ?_⟩
  dsimp only at has ⊢
  by_cases same : l = k
  · subst same
    rw [Function.update_self] at has
    exact held e has
  · rw [Function.update_of_ne same] at has
    obtain ⟨x, hx, origin⟩ := grounded.recorded l e has
    obtain ⟨y, hy, kept⟩ := grows.origins x hx
    exact ⟨y, hy, origin.trans kept⟩

/-- The next call of a run lets the records grow, and what the run then holds is recorded. -/
theorem Grounded.advance (grounded : Grounded s) (h : Host W) (k : ι) (w : W) :
    Grows s.records (advance h (s.runs k) ⟨s.records, w⟩).2.records ∧
      ∀ e, (advance h (s.runs k) ⟨s.records, w⟩).1.execution? = some e →
        ∃ x ∈ (advance h (s.runs k) ⟨s.records, w⟩).2.records.executions, SameOrigin e x := by
  rcases advance_cases h (s.runs k) ⟨s.records, w⟩ with spares |
    ⟨job, p, i, made, now, found, records, holds⟩ | ⟨e, y, held, same, records, carries⟩
  · have grows : Grows s.records (Interleaving.advance h (s.runs k) ⟨s.records, w⟩).2.records :=
      ⟨grounded.numbered.mono spares.executions spares.count, keepsOrigins_of_eq spares.executions,
        fun there => by rw [Records.instance?, spares.instances]; exact there⟩
    exact ⟨grows, grounded.carried grows spares.carries⟩
  · rw [records]
    refine ⟨grows_newExecution grounded.numbered now found, fun e held => ?_⟩
    exact ⟨e, List.mem_append_right _ (List.mem_singleton.2 (holds e held)), .refl e⟩
  · obtain ⟨x, hx, origin⟩ := grounded.recorded k e held
    rw [records]
    have grows : Grows s.records (s.records.putExecution y) :=
      ⟨grounded.numbered.putExecution y,
        keepsOrigins_putExecution grounded.numbered hx (origin.symm.trans same), fun there => there⟩
    exact ⟨grows, grounded.carried grows carries⟩

end Grounded

/-- Is the run at work between two of its calls? -/
def Phase.IsBusy : Phase W → Prop
  | .working _ | .stepping _ _ => True
  | _ => False

/-- A move of a run whose work may do anything: call on the repository by itself,
and leave whatever it likes in its execution. -/
inductive Acts (h : Host W) : Phase W → Repository W → Phase W → Repository W → Prop where
  | call (phase : Phase W) (r : Repository W) :
      Acts h phase r (advance h phase r).1 (advance h phase r).2
  | writes {phase : Phase W} {r r' : Repository W} (busy : phase.IsBusy)
      (call : Records.Call r.records r'.records) : Acts h phase r phase r'
  | worked (e e' : JobExecution) (fault : Option String) (r : Repository W) :
      Acts h (.working e) r (.closing e' fault) r
  | stepped (parent : JobExecution) (s s' : StepExecution) (r : Repository W) :
      Acts h (.stepping parent s) r (.saving parent s') r

/-- A course that any set of runs can take on a repository that starts empty, one
move after the other and in any world. -/
structure Course (ι : Type) [DecidableEq ι] (h : Host W) where
  state : Nat → System ι W
  mover : Nat → ι
  empty : (state 0).records = .empty
  fresh : ∀ k, ((state 0).runs k).IsFresh
  moves : ∀ n, ∃ w phase r, Acts h ((state n).runs (mover n)) ⟨(state n).records, w⟩ phase r ∧
    state (n + 1) = ⟨r.records, Function.update (state n).runs (mover n) phase⟩

namespace Course

variable [DecidableEq ι] (c : Course ι h)

def phase (n : Nat) (k : ι) : Phase W := (c.state n).runs k

/-- No work of a run makes another execution of one that is recorded. -/
structure Orderly : Prop where
  writes : ∀ n, (c.phase n (c.mover n)).IsBusy →
    KeepsOrigins (c.state n).records (c.state (n + 1)).records
  leaves : ∀ n k e e' fault, c.phase n k = .working e → c.phase (n + 1) k = .closing e' fault →
    SameOrigin e e'

variable {c}

theorem phase_succ {n : Nat} {k : ι} (other : k ≠ c.mover n) :
    c.phase (n + 1) k = c.phase n k := by
  obtain ⟨w, phase, r, _, next⟩ := c.moves n
  simp only [Course.phase, next, Function.update_of_ne other]

theorem grounded_zero : Grounded (c.state 0) := by
  have nothing : ∀ k, ((c.state 0).runs k).execution? = none := by
    intro k
    have fresh := c.fresh k
    cases phase : (c.state 0).runs k <;> simp_all [Phase.IsFresh, Phase.execution?]
  refine ⟨c.empty ▸ numbered_empty, fun k e held => ?_⟩
  rw [nothing k] at held
  cases held

theorem Orderly.step (orderly : c.Orderly) {n : Nat} (grounded : Grounded (c.state n)) :
    Grows (c.state n).records (c.state (n + 1)).records ∧ Grounded (c.state (n + 1)) := by
  obtain ⟨w, phase, r, acts, next⟩ := c.moves n
  have writes := orderly.writes n
  have leaves := orderly.leaves n (c.mover n)
  simp only [Course.phase] at writes leaves
  rw [next] at writes leaves ⊢
  simp only [Function.update_self] at leaves
  have unwritten : Grows (c.state n).records (c.state n).records :=
    ⟨grounded.numbered, keepsOrigins_of_eq rfl, fun there => there⟩
  generalize before : (c.state n).runs (c.mover n) = first at acts writes leaves
  cases acts with
  | call _ _ =>
    subst before
    obtain ⟨grows, held⟩ := grounded.advance h (c.mover n) w
    exact ⟨grows, grounded.move grows held⟩
  | writes busy call =>
    have grows : Grows (c.state n).records r.records :=
      ⟨call.numbered grounded.numbered, writes busy, fun there => call.instance? there⟩
    have carries : Carries ((c.state n).runs (c.mover n)) phase := carries_of_eq (by rw [before])
    exact ⟨grows, grounded.move grows (grounded.carried grows carries)⟩
  | worked e e' fault _ =>
    have carries : Carries ((c.state n).runs (c.mover n)) (.closing e' fault) := by
      intro f held
      cases held
      exact ⟨e, by rw [before]; rfl, leaves e e' fault rfl rfl⟩
    exact ⟨unwritten, grounded.move unwritten (grounded.carried unwritten carries)⟩
  | stepped parent s s' _ =>
    have carries : Carries ((c.state n).runs (c.mover n)) (.saving parent s') := by
      rw [before]
      exact carries_of_eq rfl
    exact ⟨unwritten, grounded.move unwritten (grounded.carried unwritten carries)⟩

theorem Orderly.grounded (orderly : c.Orderly) (n : Nat) : Grounded (c.state n) := by
  induction n with
  | zero => exact grounded_zero
  | succ n ih => exact (orderly.step ih).2

end Course

/-- One move of a run in a world without a clock: its next call, or the end of its
body with a fault. -/
def drive [DecidableEq ι] (h : Host Unit) (s : System ι Unit) (k : ι) : System ι Unit :=
  match s.runs k with
  | .working e => ⟨s.records, Function.update s.runs k (.closing e (some "lost"))⟩
  | phase =>
    let (next, r) := advance h phase ⟨s.records, ()⟩
    ⟨r.records, Function.update s.runs k next⟩

def driven [DecidableEq ι] (h : Host Unit) (runs : ι → Phase Unit) (mover : Nat → ι) :
    Nat → System ι Unit
  | 0 => ⟨.empty, runs⟩
  | n + 1 => drive h (driven h runs mover n) (mover n)

theorem drive_cases [DecidableEq ι] (h : Host Unit) (s : System ι Unit) (k : ι) :
    (∃ e, s.runs k = .working e ∧
        drive h s k = ⟨s.records, Function.update s.runs k (.closing e (some "lost"))⟩) ∨
      (∀ e, s.runs k ≠ .working e) ∧
        drive h s k = ⟨(advance h (s.runs k) ⟨s.records, ()⟩).2.records,
          Function.update s.runs k (advance h (s.runs k) ⟨s.records, ()⟩).1⟩ := by
  cases phase : s.runs k with
  | working e => exact Or.inl ⟨e, rfl, by simp only [drive, phase]⟩
  | _ => exact Or.inr ⟨fun _ => by simp, by simp only [drive, phase]⟩

def scripted [DecidableEq ι] (h : Host Unit) (runs : ι → Phase Unit) (mover : Nat → ι)
    (fresh : ∀ k, (runs k).IsFresh) : Course ι h where
  state := driven h runs mover
  mover := mover
  empty := rfl
  fresh := fresh
  moves n := by
    rcases drive_cases h (driven h runs mover n) (mover n) with ⟨e, working, eq⟩ | ⟨_, eq⟩
    · refine ⟨(), _, ⟨(driven h runs mover n).records, ()⟩, ?_, eq⟩
      rw [working]
      exact .worked e e (some "lost") _
    · exact ⟨(), _, _, .call _ _, eq⟩

theorem scripted_orderly [DecidableEq ι] (h : Host Unit) (runs : ι → Phase Unit) (mover : Nat → ι)
    (fresh : ∀ k, (runs k).IsFresh) : (scripted h runs mover fresh).Orderly := by
  refine ⟨fun n busy => keepsOrigins_of_eq ?_, fun n k e e' fault working closing => ?_⟩
  · rcases drive_cases h (driven h runs mover n) (mover n) with ⟨e, _, eq⟩ | ⟨idle, eq⟩
    · exact congrArg (fun s => s.records.executions) eq
    · refine (congrArg (fun s => s.records.executions) eq).trans ?_
      change Phase.IsBusy ((driven h runs mover n).runs (mover n)) at busy
      cases phase : (driven h runs mover n).runs (mover n) with
      | working e => exact absurd phase (idle e)
      | stepping parent s => rfl
      | _ =>
        rw [phase] at busy
        exact busy.elim
  · by_cases moves : k = mover n
    · subst moves
      rcases drive_cases h (driven h runs mover n) (mover n) with ⟨x, held, eq⟩ | ⟨idle, _⟩
      · obtain rfl : x = e := Phase.working.inj (held.symm.trans working)
        have closes : (.closing x (some "lost") : Phase Unit) = .closing e' fault := by
          refine Eq.trans ?_ closing
          change _ = (drive h (driven h runs mover n) (mover n)).runs (mover n)
          simp only [eq, Function.update_self]
        cases closes
        exact .refl _
      · exact absurd working (idle e)
    · have still := Course.phase_succ (c := scripted h runs mover fresh) (n := n) moves
      rw [working, closing] at still
      cases still

end Interleaving

end NestedBatch

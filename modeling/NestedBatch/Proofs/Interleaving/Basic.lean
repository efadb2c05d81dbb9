import NestedBatch.Proofs.Launch.Start
import NestedBatch.Runner
import Mathlib.Logic.Function.Basic

/-! Launches and step runs side by side on one repository. A run goes on by one
call on the repository at a time; between two calls of a run any of the others
may go on, and the world may have become any other. -/
namespace NestedBatch.Interleaving

variable {W ι : Type}

/-- The execution of a step that is about to be registered, with the context it starts from. -/
def recalled (h : Host W) (step : String) (parent : JobExecution) (seed : Context)
    (r : Repository W) : StepExecution :=
  let previous := r.records.lastStep? parent.jobInstanceId step
  { parent.newStep step (h.now r.world).1 with context := Runner.initialContext previous seed }

/-- How far a run has come. -/
inductive Phase (W : Type) where
  /-- A launch that has yet to look up the newest execution. -/
  | launching (job : Job W) (p : Parameters)
  | admitted (job : Job W) (p : Parameters)
  | created (e : JobExecution)
  | working (e : JobExecution)
  | closing (e : JobExecution) (fault : Option String)
  /-- A step run that has yet to make its parent. -/
  | opening (step job : String) (p : Parameters) (seed : Context)
  | opened (step : String) (parent : JobExecution) (seed : Context)
  | recalling (step : String) (parent : JobExecution) (seed : Context)
  | registering (parent : JobExecution) (s : StepExecution)
  | stepping (parent : JobExecution) (s : StepExecution)
  | saving (parent : JobExecution) (s : StepExecution)
  | absorbing (parent : JobExecution) (s : StepExecution)
  | failing (parent : JobExecution) (e : BatchError)
  | done

def advance (h : Host W) (phase : Phase W) (r : Repository W) : Phase W × Repository W :=
  match phase with
  | .launching job p =>
    match Launch.preflight job (r.records.lastExecution? job.name p) with
    | .ok _ => (.admitted job p, r)
    | .error _ => (.done, r)
  | .admitted job p =>
    match r.createExecution h job.name p with
    | (.ok e, r) => (.created e, r)
    | (.error _, r) => (.done, r)
  | .created e =>
    let (now, w) := h.now r.world
    match Repository.updateExecution h (begun e now) ⟨r.records, w⟩ with
    | (.ok _, e, r) => (.working e, r)
    | (.error _, _, r) => (.done, r)
  | .closing e fault =>
    let (e, w) := Launch.closed h e fault r.world
    let (_, _, r) := Repository.updateExecution h e ⟨r.records, w⟩
    (.done, r)
  | .opening step job p seed =>
    match r.createExecution h job p with
    | (.ok parent, r) => (.opened step parent seed, r)
    | (.error _, r) => (.done, r)
  | .opened step parent seed =>
    let (now, w) := h.now r.world
    match Repository.updateExecution h (begun parent now) ⟨r.records, w⟩ with
    | (.ok _, parent, r) => (.recalling step parent seed, r)
    | (.error _, _, r) => (.done, r)
  | .recalling step parent seed =>
    (.registering parent (recalled h step parent seed r), ⟨r.records, (h.now r.world).2⟩)
  | .registering parent s =>
    match Repository.addStep h s r with
    | (.error e, _, r) => (.failing parent e, r)
    | (.ok _, s, r) => (.stepping parent s, r)
  | .saving parent s =>
    match Repository.updateStep h s r with
    | (.error e, _, r) => (.failing parent e, r)
    | (.ok _, s, r) => (.absorbing parent s, r)
  | .absorbing parent s =>
    let (now, w) := h.now r.world
    match Repository.updateExecution h (Runner.absorb parent s now) ⟨r.records, w⟩ with
    | (.error e, parent, r) => (.failing parent e, r)
    | (.ok _, _, r) => (.done, r)
  | .failing parent e => (.done, Runner.closeFailed h parent e r)
  | .working _ | .stepping _ _ | .done => (phase, r)

/-- A move of a run: its next call, or the end of the work between two calls. A
body ends as it likes; a step leaves whatever it likes in its execution. -/
inductive Moves (h : Host W) : Phase W → Repository W → Phase W → Repository W → Prop where
  | call (phase : Phase W) (r : Repository W) :
      Moves h phase r (advance h phase r).1 (advance h phase r).2
  | worked {e e' : JobExecution} (same : SameOrigin e e') (fault : Option String)
      (r : Repository W) : Moves h (.working e) r (.closing e' fault) r
  | stepped (parent : JobExecution) (s s' : StepExecution) (r : Repository W) :
      Moves h (.stepping parent s) r (.saving parent s') r

/-- The records that all runs share, and how far each of the runs has come. -/
structure System (ι W : Type) where
  records : Records
  runs : ι → Phase W

/-- One run makes one move, in any world. -/
inductive Transition [DecidableEq ι] (h : Host W) : System ι W → System ι W → Prop where
  | move {s : System ι W} (k : ι) (w : W) {phase : Phase W} {r : Repository W}
      (moves : Moves h (s.runs k) ⟨s.records, w⟩ phase r) :
      Transition h s ⟨r.records, Function.update s.runs k phase⟩

def Transitions [DecidableEq ι] (h : Host W) : System ι W → System ι W → Prop :=
  Relation.ReflTransGen (Transition h)

def Phase.IsFresh : Phase W → Prop
  | .launching _ _ | .opening _ _ _ _ => True
  | _ => False

/-- What any set of runs can come to on a repository that starts empty. -/
def Reachable [DecidableEq ι] (h : Host W) (s : System ι W) : Prop :=
  ∃ runs : ι → Phase W, (∀ k, (runs k).IsFresh) ∧ Transitions h ⟨.empty, runs⟩ s

end NestedBatch.Interleaving

import NestedBatch.Proofs.Interleaving.Course

/-! How often the body of a job is started that is not to be run again. A launch looks
up the newest execution by one call and makes its own by a later one; what it saw is
not looked at again. So the body can be started twice only by launches that had both
looked up before either had made its execution. -/
namespace NestedBatch

namespace Records

variable {r r' : Records} {job key : String} {p : Parameters}

/-- Has the instance been launched before? -/
def Taken (r : Records) (job key : String) : Prop :=
  ∃ i, r.instance? job key = some i ∧ ∃ e ∈ r.executions, e.jobInstanceId = i.id

theorem Grows.taken (grows : Grows r r') (taken : r.Taken job key) : r'.Taken job key := by
  obtain ⟨i, there, e, he, belongs⟩ := taken
  obtain ⟨y, hy, same⟩ := grows.origins e he
  exact ⟨i, grows.instances there, y, hy, same.jobInstanceId.trans belongs⟩

theorem newest_isSome {α : Type} {id : α → Nat} {l : List α} (ne : l ≠ []) :
    ∃ a, newest id l = some a := by
  cases l with
  | nil => exact absurd rfl ne
  | cons b rest =>
    simp only [newest]
    split
    · exact ⟨_, rfl⟩
    · split <;> exact ⟨_, rfl⟩

theorem Taken.lastExecution? (taken : r.Taken job p.jobKey) :
    ∃ e, r.lastExecution? job p = some e := by
  obtain ⟨i, there, e, he, belongs⟩ := taken
  have listed : r.executionsOf i.id ≠ [] := List.ne_nil_of_mem (mem_executionsOf.2 ⟨he, belongs⟩)
  obtain ⟨x, last⟩ : ∃ x, newest JobExecution.id (r.executionsOf i.id) = some x :=
    newest_isSome listed
  exact ⟨r.withSteps x, by
    simp only [Records.lastExecution?, there, Option.bind_some, last, Option.map_some]⟩

theorem taken_newExecution {i : JobInstance} {made : Records} (now : Instant)
    (found : r.findOrMakeInstance job p = .ok (i, made)) :
    (made.newExecution i p now).2.Taken job p.jobKey :=
  ⟨i, (instance?_made found).2, _, List.mem_append_right _ List.mem_cons_self, rfl⟩

end Records

def Job.once : Job Unit := ⟨"once", false, fun e r => (.raised "lost", e, r)⟩

/-- A job that makes its execution one of another id. -/
def Job.taking (id : Nat) : Job Unit := ⟨"other", true, fun e r => (.done, { e with id }, r)⟩

namespace Interleaving

open Records

variable {W ι : Type} {h : Host W}

/-- Has the body been started, or can it not be any more? -/
def Phase.HasBegun : Phase W → Prop
  | .working _ | .closing _ _ | .done => True
  | _ => False

theorem preflight_refuses {r : Records} {job : Job W} {p : Parameters}
    (once : job.restartable = false) (taken : r.Taken job.name p.jobKey) :
    Launch.preflight job (r.lastExecution? job.name p) ≠ .ok () := by
  obtain ⟨e, last⟩ := taken.lastExecution?
  simp only [last, Launch.preflight, once]
  split <;> simp

namespace Course

variable [DecidableEq ι] (c : Course ι h)

/-- The run is a launch, of a job that is not to be run again, for one instance. -/
def Launches (k : ι) (job key : String) : Prop :=
  ∃ (j : Job W) (p : Parameters), c.phase 0 k = .launching j p ∧ j.restartable = false ∧
    j.name = job ∧ p.jobKey = key

/-- The launch has looked up the newest execution and has yet to make its own. -/
def Admitted (n : Nat) (k : ι) : Prop := ∃ j p, c.phase n k = .admitted j p

/-- The launch starts the body of its job by this move. -/
def Starts (n : Nat) (k : ι) : Prop :=
  (∃ e, c.phase n k = .created e) ∧ ∃ e, c.phase (n + 1) k = .working e

variable {c}

/-- An instance that was launched before stays so, for the whole course. -/
theorem Orderly.taken (orderly : c.Orderly) {job key : String} {n m : Nat} (later : n ≤ m)
    (taken : (c.state n).records.Taken job key) : (c.state m).records.Taken job key := by
  induction later with
  | refl => exact taken
  | step _ ih => exact (orderly.step (orderly.grounded _)).1.taken ih

/-- The launch looked up at one move and made its execution at a later one; in between
it was admitted. -/
structure Window (c : Course ι h) (k : ι) (job key : String) (a m : Nat) : Prop where
  before : a < m
  lookedUp : c.mover a = k
  free : ¬ (c.state a).records.Taken job key
  between : ∀ t, a < t → t ≤ m → c.Admitted t k
  made : c.mover m = k
  taken : (c.state (m + 1)).records.Taken job key

/-- How far a launch has come, and what it did to come there. -/
def Past (c : Course ι h) (k : ι) (job : Job W) (p : Parameters) (n : Nat) : Phase W → Prop
  | .launching j q => j = job ∧ q = p
  | .admitted j q => (j = job ∧ q = p) ∧ ∃ a, a < n ∧ c.mover a = k ∧
      ¬ (c.state a).records.Taken job.name p.jobKey ∧ ∀ t, a < t → t ≤ n → c.Admitted t k
  | .created _ => ∃ a m, m < n ∧ c.Window k job.name p.jobKey a m
  | .working _ | .closing _ _ | .done => True
  | _ => False

theorem Past.wait {k : ι} {job : Job W} {p : Parameters} {n : Nat} {phase : Phase W}
    (past : c.Past k job p n phase) (same : c.phase (n + 1) k = phase) :
    c.Past k job p (n + 1) phase := by
  cases phase with
  | admitted j q =>
    obtain ⟨origin, a, before, mover, free, between⟩ := past
    refine ⟨origin, a, Nat.lt_succ_of_lt before, mover, free, fun t after upTo => ?_⟩
    rcases Nat.lt_or_eq_of_le upTo with earlier | rfl
    · exact between t after (Nat.le_of_lt_succ earlier)
    · exact ⟨j, q, same⟩
  | created e =>
    obtain ⟨a, m, before, window⟩ := past
    exact ⟨a, m, Nat.lt_succ_of_lt before, window⟩
  | _ => exact past

theorem Past.call {k : ι} {job : Job W} {p : Parameters} {n : Nat} {w : W} {first : Phase W}
    (once : job.restartable = false) (before : c.phase n k = first) (mover : c.mover n = k)
    (past : c.Past k job p n first)
    (records : (c.state (n + 1)).records = (advance h first ⟨(c.state n).records, w⟩).2.records)
    (after : c.phase (n + 1) k = (advance h first ⟨(c.state n).records, w⟩).1) :
    c.Past k job p (n + 1) (advance h first ⟨(c.state n).records, w⟩).1 := by
  cases first with
  | launching j q =>
    obtain ⟨rfl, rfl⟩ := past
    simp only [advance] at after ⊢
    split <;> rename_i checked
    · rw [checked] at after
      refine ⟨⟨rfl, rfl⟩, n, Nat.lt_succ_self n, mover, fun taken => ?_, fun t above upTo => ?_⟩
      · exact preflight_refuses once taken checked
      · obtain rfl : t = n + 1 := Nat.le_antisymm upTo above
        exact ⟨j, q, after⟩
    · trivial
  | admitted j q =>
    obtain ⟨⟨rfl, rfl⟩, a, earlier, lookedUp, free, between⟩ := past
    rcases create_cases h (.admitted j q) .created j.name q ⟨(c.state n).records, w⟩ fun _ => rfl
      with ⟨e, r, eq, makes⟩ | ⟨e, r, eq, _⟩
    · simp only [advance, eq] at records ⊢
      obtain ⟨i, made, now, found, left, _⟩ := makes
      refine ⟨a, n, Nat.lt_succ_self n, earlier, lookedUp, free, between, mover, ?_⟩
      rw [records, left]
      exact taken_newExecution now found
    · simp only [advance, eq]
      trivial
  | created e =>
    simp only [advance]
    split <;> trivial
  | working _ | closing _ _ | done => trivial
  | _ => exact past.elim

theorem past (c : Course ι h) {k : ι} {job : Job W} {p : Parameters}
    (once : job.restartable = false) (launched : c.phase 0 k = .launching job p) (n : Nat) :
    c.Past k job p n (c.phase n k) := by
  induction n with
  | zero =>
    rw [launched]
    exact ⟨rfl, rfl⟩
  | succ n ih =>
    by_cases mover : k = c.mover n
    · subst mover
      obtain ⟨w, phase, r, acts, next⟩ := c.moves n
      have after : c.phase (n + 1) (c.mover n) = phase := by
        simp only [Course.phase, next, Function.update_self]
      have records : (c.state (n + 1)).records = r.records := by rw [next]
      generalize before : (c.state n).runs (c.mover n) = first at acts
      have held : c.phase n (c.mover n) = first := before
      rw [held] at ih
      rw [after]
      cases acts with
      | call _ _ => exact ih.call once held rfl records after
      | writes busy _ =>
        cases phase with
        | working _ => trivial
        | stepping _ _ => exact ih.elim
        | _ => exact busy.elim
      | worked _ _ _ _ => trivial
      | stepped _ _ _ _ => exact ih.elim
    · rw [phase_succ mover]
      exact ih.wait (phase_succ mover)

theorem hasBegun_succ {n : Nat} {k : ι} (begun : (c.phase n k).HasBegun) :
    (c.phase (n + 1) k).HasBegun := by
  by_cases mover : k = c.mover n
  · subst mover
    obtain ⟨w, phase, r, acts, next⟩ := c.moves n
    have after : c.phase (n + 1) (c.mover n) = phase := by
      simp only [Course.phase, next, Function.update_self]
    rw [after]
    simp only [Course.phase] at begun
    generalize (c.state n).runs (c.mover n) = first at acts begun
    cases acts with
    | call _ _ => cases first <;> trivial
    | writes _ _ => exact begun
    | worked _ _ _ _ => trivial
    | stepped _ _ _ _ => exact begun.elim
  · rw [phase_succ mover]
    exact begun

theorem Starts.unique {n m : Nat} {k : ι} (first : c.Starts n k) (second : c.Starts m k)
    (order : n ≤ m) : n = m := by
  rcases Nat.lt_or_eq_of_le order with later | same
  · have begun : ∀ t, n + 1 ≤ t → (c.phase t k).HasBegun := by
      intro t above
      induction above with
      | refl =>
        obtain ⟨e, working⟩ := first.2
        rw [working]
        trivial
      | step _ ih => exact hasBegun_succ ih
    obtain ⟨e, created⟩ := second.1
    have impossible := begun m later
    rw [created] at impossible
    exact impossible.elim
  · exact same

theorem Starts.window {n : Nat} {k : ι} {job key : String} (starts : c.Starts n k)
    (launches : c.Launches k job key) : ∃ a m, c.Window k job key a m := by
  obtain ⟨j, p, launched, once, rfl, rfl⟩ := launches
  obtain ⟨e, created⟩ := starts.1
  have past := c.past once launched n
  rw [created] at past
  obtain ⟨a, m, _, window⟩ := past
  exact ⟨a, m, window⟩

/-- Of two launches of one instance the one that made its execution later had looked
up before the other made its own. -/
theorem Window.overlap {k l : ι} {job key : String} {a m b n : Nat} (orderly : c.Orderly)
    (first : c.Window k job key a m) (second : c.Window l job key b n) (order : m < n)
    (apart : k ≠ l) : ∃ t, c.Admitted t k ∧ c.Admitted t l := by
  have looked : b < m := by
    rcases Nat.lt_trichotomy b m with before | rfl | after
    · exact before
    · exact absurd (first.made.symm.trans second.lookedUp) apart
    · exact absurd (orderly.taken after first.taken) second.free
  exact ⟨m, first.between m first.before (Nat.le_refl m),
    second.between m looked (Nat.le_of_lt order)⟩

end Course

/-- The body of a job that is not to be run again is started once at most for an
instance, however it ends, unless two launches had both looked up before either had
made its execution. -/
theorem started_once [DecidableEq ι] {c : Course ι h} (orderly : c.Orderly) {job key : String}
    {k l : ι} (hk : c.Launches k job key) (hl : c.Launches l job key) {n m : Nat}
    (first : c.Starts n k) (second : c.Starts m l) :
    (k = l ∧ n = m) ∨ k ≠ l ∧ ∃ t, c.Admitted t k ∧ c.Admitted t l := by
  by_cases apart : k = l
  · -- The phases of one launch only go forward.
    subst apart
    rcases Nat.le_total n m with order | order
    · exact Or.inl ⟨rfl, first.unique second order⟩
    · exact Or.inl ⟨rfl, (second.unique first order).symm⟩
  · refine Or.inr ⟨apart, ?_⟩
    obtain ⟨a, x, window⟩ := first.window hk
    obtain ⟨b, y, window'⟩ := second.window hl
    rcases Nat.lt_trichotomy x y with before | rfl | after
    · exact window.overlap orderly window' before apart
    · exact absurd (window.made.symm.trans window'.made) apart
    · obtain ⟨t, admitted, admitted'⟩ := window'.overlap orderly window after (Ne.symm apart)
      exact ⟨t, admitted', admitted⟩

/-- Both look up; then the one makes its execution, runs and fails before the other goes on. -/
def race : Course Bool Host.still :=
  scripted .still (fun _ => .launching .once .firstRun) (fun n => n = 1 ∨ 6 ≤ n) fun _ => trivial

def Phase.isCreated : Phase W → Bool
  | .created _ => true
  | _ => false

def Phase.isWorking : Phase W → Bool
  | .working _ => true
  | _ => false

theorem Course.starts_of_phases [DecidableEq ι] {c : Course ι h} {n : Nat} {k : ι}
    (created : (c.phase n k).isCreated = true) (working : (c.phase (n + 1) k).isWorking = true) :
    c.Starts n k := by
  refine ⟨?_, ?_⟩
  · cases phase : c.phase n k <;> simp_all [Phase.isCreated]
  · cases phase : c.phase (n + 1) k <;> simp_all [Phase.isWorking]

theorem race_launches (k : Bool) :
    race.Launches k "once" Parameters.firstRun.jobKey :=
  ⟨.once, .firstRun, rfl, rfl, rfl, rfl⟩

theorem race_starts : race.Starts 3 false ∧ race.Starts 7 true :=
  ⟨Course.starts_of_phases (by decide +kernel) (by decide +kernel),
    Course.starts_of_phases (by decide +kernel) (by decide +kernel)⟩

theorem race_overlaps : ∃ t, race.Admitted t false ∧ race.Admitted t true := by
  have orderly : race.Orderly := scripted_orderly ..
  rcases started_once orderly (race_launches false) (race_launches true) race_starts.1
    race_starts.2 with ⟨same, _⟩ | ⟨_, overlap⟩
  · cases same
  · exact overlap

/-- It is not so that the body is started once at most in any course. -/
theorem started_twice_in_race :
    ¬ ∀ (c : Course Bool Host.still) (job key : String) (k l : Bool) (n m : Nat),
      c.Launches k job key → c.Launches l job key → c.Starts n k → c.Starts m l →
        k = l ∧ n = m := by
  intro once
  have same := once race "once" _ false true 3 7 (race_launches false) (race_launches true)
    race_starts.1 race_starts.2
  cases same.1

/-- Nor is it so of launches one after the other, if a job in between takes the place
of the recorded execution. -/
theorem started_again_after_taking :
    ¬ ∀ (other : Job Unit) (p q : Parameters),
      (∃ e, (Launch.start .still .once p ⟨.empty, ()⟩).1 = .ok e) →
        ∀ e, (Launch.start .still .once p (Launch.run .still .sameThread other q
          (Launch.run .still .sameThread .once p ⟨.empty, ()⟩).2).2).1 ≠ .ok e := by
  intro once
  obtain ⟨first, began⟩ : ∃ e, (Launch.start .still .once .firstRun ⟨.empty, ()⟩).1 = .ok e :=
    ⟨_, rfl⟩
  have again : (Launch.start .still .once .firstRun (Launch.run .still .sameThread (.taking 2)
      .firstRun (Launch.run .still .sameThread .once .firstRun ⟨.empty, ()⟩).2).2).1.isOk := by
    decide +kernel
  cases second : (Launch.start .still .once .firstRun (Launch.run .still .sameThread (.taking 2)
      .firstRun (Launch.run .still .sameThread .once .firstRun ⟨.empty, ()⟩).2).2).1 with
  | error _ =>
    rw [second] at again
    cases again
  | ok e => exact once (.taking 2) .firstRun .firstRun ⟨first, began⟩ e second

end Interleaving

end NestedBatch

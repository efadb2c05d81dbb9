import NestedBatch.Proofs.Step.Nested

/-! The attempts of a nested step over a whole history of runs. From the first attempt
that has parameters for its child up to one that completes, every attempt launches
the child with those parameters, whatever it is seeded with and would extract, and
whatever else runs in between. -/
namespace NestedBatch

namespace Runner

open Interleaving NestedStep

variable {W : Type} {a : Site} {h : Host W} {d : Disk W} {child : String}

/-- An attempt of a nested step: what it starts from, and what it comes to. -/
structure Attempt (W : Type) where
  step : NestedStep W
  seed : Context
  /-- The step execution from which the parameters of the child are resolved. -/
  begun : StepExecution
  /-- The repository at that time. -/
  found : Repository W
  launched : Option Parameters
  /-- The repository after the attempt. -/
  left : Repository W
  child : Option JobInstance
  status : Status

namespace Attempt

def of (h : Host W) (n : NestedStep W) (seed : Context) (s : StepExecution) (r : Repository W) :
    Attempt W :=
  let begun := NestedStep.begun s (h.now r.world).1
  let launched := (n.resolve begun).1.toOption
  let done := n.execute h s r
  { step := n
    seed
    begun
    found := ⟨r.records, (h.now r.world).2⟩
    launched
    left := done.2
    child := launched.bind fun q => done.2.records.instance? n.job.name q.jobKey
    status := done.1.status }

def told (x : Attempt W) : Status × Option Parameters := (x.status, x.launched)

/-- The attempt starts from its seed. The parameters are those that the seed keeps,
or else extracted ones. -/
structure Afresh (x : Attempt W) : Prop where
  context : x.begun.context = x.seed.put stepTypeKey (.string stepType)
  launched : x.launched = match x.seed.parameters? parametersKey with
    | some kept => some kept
    | none => (x.step.derive x.begun).toOption

/-- The parameters of an attempt are those with which its child is launched. -/
structure Launches (h : Host W) (x : Attempt W) : Prop where
  /-- The launch with these parameters is all that the attempt does to the records. -/
  launch : ∀ q, x.launched = some q →
    x.left.records = (Launch.run h x.step.launcher x.step.job q x.found).2.records
  /-- Without parameters there is no launch. -/
  idle : x.launched = none → x.left.records = x.found.records
  /-- An execution that is begun is recorded with these parameters, flags and all, as one
  of the instance that is addressed. -/
  begins : ∀ q e r, x.launched = some q →
    Launch.start h x.step.job q x.found = (.ok e, r) →
      e ∈ r.records.executions ∧ e.jobParameters = q ∧
        ∃ i, x.child = some i ∧ e.jobInstanceId = i.id

/-- How an attempt goes on from the last one. -/
def Continues (x : Attempt W) : Option (Attempt W) → Prop
  | none => x.Afresh
  | some y =>
    if y.status = .completed then x.Afresh else ∀ q, y.launched = some q → x.launched = some q

end Attempt

/-- The attempt that a run of a nested step makes, if its parent can be opened. -/
def attempt? (h : Host W) (n : NestedStep W) (job : String) (p : Parameters) (seed : Context)
    (r : Repository W) : Option (Attempt W) :=
  match openParent h job p r with
  | (.error _, _) => none
  | (.ok parent, r) =>
    match Repository.addStep h (recalled h n.name parent seed r)
        ⟨r.records, (h.now r.world).2⟩ with
    | (.error _, _, _) => none
    | (.ok _, s, r) => some (.of h n seed s r)

/-- Runs on the records of one file, one after the other, and the attempts that were
made at the site. In between the records may be opened again from their file. -/
inductive History (d : Disk W) (a : Site) (child : String) :
    List (Attempt W) → Repository W → Prop
  | start {w : W} (missing : d.opened w = .ok .empty) : History d a child [] ⟨.empty, w⟩
  | attempt {log : List (Attempt W)} {r : Repository W} (before : History d a child log r)
      (n : NestedStep W) (p : Parameters) (seed : Context) (name : n.name = a.step)
      (job : n.job.name = child) (key : p.jobKey = a.key) (spares : n.job.Spares a)
      (unfaulted : ∀ fault, (run d.host (n.toStep d.host) a.parent p seed r).1
        ≠ .error (.io fault)) :
      History d a child (log ++ (attempt? d.host n a.parent p seed r).toList)
        (run d.host (n.toStep d.host) a.parent p seed r).2
  /-- A run of any other step or of any other parent. -/
  | other {log : List (Attempt W)} {r : Repository W} (before : History d a child log r)
      (step : Step W) (job : String) (p : Parameters) (seed : Context)
      (apart : ⟨job, p.jobKey, step.name⟩ ≠ a) (spares : step.Spares a)
      (unfaulted : ∀ fault, (run d.host step job p seed r).1 ≠ .error (.io fault)) :
      History d a child log (run d.host step job p seed r).2
  /-- Anything else that makes no attempt at the site and ends with a successful write. -/
  | meanwhile {log : List (Attempt W)} {r r' : Repository W} (before : History d a child log r)
      (leaves : Records.Leaves a r.records r'.records)
      (saved : d.opened r'.world = Records.stored r'.records.text) : History d a child log r'
  | reopen {log : List (Attempt W)} {r : Repository W} (before : History d a child log r)
      (storable : r.records.Storable) {records : Records}
      (opened : d.opened r.world = .ok records) : History d a child log ⟨records, r.world⟩

namespace Attempt

variable {n : NestedStep W} {seed : Context} {s : StepExecution} {r : Repository W}
  {q : Parameters}

theorem launched_of_kept (there : kept? s = some q) : (of h n seed s r).launched = some q := by
  have begun : kept? (NestedStep.begun s (h.now r.world).1) = some q := by
    rwa [kept?_begun]
  simp only [of, n.resolve_of_kept begun]
  rfl

theorem afresh_of_seed (same : s.context = seed) : (of h n seed s r).Afresh := by
  subst same
  refine ⟨rfl, ?_⟩
  cases there : kept? s with
  | some q =>
    rw [launched_of_kept there]
    simp only [of, show s.context.parameters? parametersKey = some q from there]
  | none =>
    have absent : kept? (NestedStep.begun s (h.now r.world).1) = none := by
      rwa [kept?_begun]
    simp only [of, n.resolve_of_none absent,
      show s.context.parameters? parametersKey = none from there]

theorem told_of (seed : Context) {t : StepExecution} {now : Instant}
    (left : t = { (n.execute h s r).1 with
      lastUpdated := now, context := (n.execute h s r).1.context.clearDirty }) :
    (t.status, kept? t) = (of h n seed s r).told := by
  obtain ⟨_, _, _, _, _, executed⟩ := n.execute_frame h s r
  have context : t.context
      = (n.resolve (NestedStep.begun s (h.now r.world).1)).2.context.clearDirty := by
    rw [left, executed]
  have kept : kept? t = kept? (n.resolve (NestedStep.begun s (h.now r.world).1)).2 := by
    simp only [kept?, context]
    rfl
  rw [kept, kept?_resolve, left]
  rfl

theorem left_of (h : Host W) (n : NestedStep W) (seed : Context) (s : StepExecution)
    (r : Repository W) :
    (of h n seed s r).left.records = match (of h n seed s r).launched with
      | some q => (Launch.run h n.launcher n.job q (of h n seed s r).found).2.records
      | none => r.records :=
  n.execute_records h s r

/-- A launch finds or makes the instance that its parameters name. -/
theorem child_of (seed : Context) (spares : n.job.Spares a) (numbered : r.records.Numbered)
    (launched : (of h n seed s r).launched = some q) :
    ∃ i, (of h n seed s r).child = some i ∧
      (n.execute h s r).2.records.instance? n.job.name q.jobKey = some i ∧
      (Launch.start h n.job q (of h n seed s r).found).2.records.instance? n.job.name q.jobKey
        = some i := by
  obtain ⟨i, began⟩ := Launch.instance?_start h n.job q (r := (of h n seed s r).found) numbered
  have there := Launch.instance?_run h n.launcher spares began
  have left := left_of h n seed s r
  simp only [launched] at left
  rw [← left] at there
  refine ⟨i, ?_, there, began⟩
  have named : (of h n seed s r).child = (of h n seed s r).launched.bind fun q =>
    (of h n seed s r).left.records.instance? n.job.name q.jobKey := rfl
  rw [named, launched, Option.bind_some, there]

theorem launches_of (seed : Context) (spares : n.job.Spares a) (numbered : r.records.Numbered) :
    (of h n seed s r).Launches h := by
  have left := left_of h n seed s r
  constructor
  · intro q launched
    rw [left, launched]
    rfl
  · intro none
    rw [left, none]
    rfl
  · intro q e r' launched begins
    obtain ⟨i, addressed, _, there⟩ := child_of seed spares numbered launched
    have begins' : Launch.start h n.job q (of h n seed s r).found = (.ok e, r') := begins
    rw [begins'] at there
    obtain ⟨listed, parameters, belongs⟩ :=
      Launch.begun_start (r := (of h n seed s r).found) numbered begins' there
    exact ⟨listed, parameters, i, addressed, belongs⟩

end Attempt

variable {n : NestedStep W} {step : Step W} {job : String} {p : Parameters} {seed : Context}
  {r r' r₁ r₂ : Repository W} {parent : JobExecution} {s t : StepExecution}
  {log : List (Attempt W)}

theorem Recorded.attempt? (recorded : Recorded h (n.toStep h) job p seed r parent r₁ s r₂ t r') :
    attempt? h n job p seed r = some (.of h n seed s r₂) := by
  have registered := recorded.registered
  simp only [toStep] at registered
  simp only [Runner.attempt?, recorded.opened, registered]

/-- A step starts from the context of the last attempt at its site, or from its seed. -/
theorem Recorded.context (recorded : Recorded h step job p seed r parent r₁ s r₂ t r')
    (tidy : r.records.Tidy) :
    s.context
      = initialContext (r.records.attempts ⟨job, p.jobKey, step.name⟩).getLast? seed := by
  obtain ⟨opens, i, there, belongs, _⟩ := recorded.opens (a := ⟨job, p.jobKey, step.name⟩) tidy
  obtain ⟨now, began⟩ := recorded.began
  have same : parent.jobInstanceId = i.id := by
    rw [← belongs, began]
    rfl
  have last := Records.lastStep?_eq (a := ⟨job, p.jobKey, step.name⟩) (opens.tidy tidy).steps there
  rw [opens.attempts tidy] at last
  rw [began, ← last, ← same]
  rfl

theorem Recorded.filed (recorded : Recorded d.host step job p seed r parent r₁ s r₂ t r') :
    d.opened r'.world = Records.stored r'.records.text := by
  obtain ⟨e, v, x, closed⟩ := recorded.closed
  have filed := Disk.filed_run (d := d) (.update e)
    ⟨(step.execute s r₂).2.records.putStep t, v⟩
  simp only [Operation.run, closed] at filed
  exact filed

/-- What holds after every history: the attempts that are recorded are those that were
made, in their order, and each went on from the one before it. -/
structure Tracks (d : Disk W) (a : Site) (child : String) (log : List (Attempt W))
    (r : Repository W) : Prop where
  tidy : r.records.Tidy
  filed : d.opened r.world = Records.stored r.records.text
  told : (r.records.attempts a).map (fun s => (s.status, kept? s)) = log.map Attempt.told
  launches : ∀ x ∈ log, x.Launches d.host
  children : ∀ x ∈ log, ∀ q, x.launched = some q →
    ∃ i, x.child = some i ∧ r.records.instance? child q.jobKey = some i
  continues : ∀ {before x after}, log = before ++ x :: after → x.Continues before.getLast?

theorem tracks_start {w : W} (missing : d.opened w = .ok .empty) :
    Tracks d a child [] ⟨.empty, w⟩ where
  tidy := Records.tidy_empty
  filed := missing.trans (Records.stored_text Records.storable_empty).symm
  told := rfl
  launches := by simp
  children := by simp
  continues := by simp

/-- An attempt that is made after a history goes on from its last one. -/
theorem Tracks.next (tracks : Tracks d a child log r) (name : n.name = a.step)
    (key : p.jobKey = a.key)
    (recorded : Recorded d.host (n.toStep d.host) a.parent p seed r parent r₁ s r₂ t r') :
    (Attempt.of d.host n seed s r₂).Continues log.getLast? := by
  have site : (⟨a.parent, p.jobKey, (n.toStep d.host).name⟩ : Site) = a := by
    rw [key, show (n.toStep d.host).name = a.step from name]
  have context := recorded.context tracks.tidy
  rw [site] at context
  -- The last attempt of the log is the last one recorded, told by status and parameters.
  have last := congrArg List.getLast? tracks.told
  rw [List.getLast?_map, List.getLast?_map] at last
  cases before : log.getLast? with
  | none =>
    simp only [before, Option.map_none, Option.map_eq_none_iff] at last
    exact Attempt.afresh_of_seed (by rw [context, last]; rfl)
  | some y =>
    simp only [before, Option.map_some, Option.map_eq_some_iff, Attempt.told, Prod.mk.injEq]
      at last
    obtain ⟨u, newest, status, kept⟩ := last
    simp only [newest, initialContext, status] at context
    simp only [Attempt.Continues]
    split
    · rename_i completed
      rw [if_pos completed] at context
      exact Attempt.afresh_of_seed context
    · rename_i unfinished
      rw [if_neg unfinished] at context
      intro q launched
      refine Attempt.launched_of_kept ?_
      rw [kept?, context]
      exact kept.trans launched

theorem continues_append {y : Attempt W}
    (old : ∀ {before x after}, log = before ++ x :: after → x.Continues before.getLast?)
    (new : y.Continues log.getLast?) {before after : List (Attempt W)} {x : Attempt W}
    (split : log ++ [y] = before ++ x :: after) : x.Continues before.getLast? := by
  rcases List.eq_nil_or_concat after with rfl | ⟨front, last, rfl⟩
  · obtain ⟨rfl, single⟩ := List.append_inj' split rfl
    obtain rfl := List.singleton_inj.1 single
    exact new
  · rw [List.concat_eq_append, ← List.cons_append, ← List.append_assoc] at split
    exact old (List.append_inj' split rfl).1

theorem Tracks.attempt (tracks : Tracks d a child log r) (name : n.name = a.step)
    (job : n.job.name = child) (key : p.jobKey = a.key) (spares : n.job.Spares a)
    (unfaulted : ∀ fault, (run d.host (n.toStep d.host) a.parent p seed r).1
      ≠ .error (.io fault)) :
    Tracks d a child (log ++ (attempt? d.host n a.parent p seed r).toList)
      (run d.host (n.toStep d.host) a.parent p seed r).2 := by
  have spares' := n.spares_toStep spares d.host
  rcases run_cases spares' tracks.tidy.numbered unfaulted with
    ⟨e, opened, ran⟩ | ⟨parent, r₁, s, r₂, t, r', recorded⟩
  · simp only [attempt?, opened, ran, Option.toList_none, List.append_nil]
    exact tracks
  · have site : (⟨a.parent, p.jobKey, (n.toStep d.host).name⟩ : Site) = a := by
      rw [key, show (n.toStep d.host).name = a.step from name]
    obtain ⟨calls, later, tidy, attempts⟩ := recorded.attempts tracks.tidy spares'
    obtain ⟨_, tidy₂, _⟩ := recorded.registers (a := a) tracks.tidy
    obtain ⟨now, left⟩ := recorded.left
    have next := tracks.next name key recorded
    rw [if_pos site] at attempts
    rw [recorded.attempt?, recorded.answered, Option.toList_some]
    refine ⟨tidy, recorded.filed, ?_, ?_, ?_, ?_⟩
    · simp only [attempts, List.map_append, tracks.told, List.map_cons, List.map_nil,
        Attempt.told_of seed left]
    · intro x hx
      rcases List.mem_append.1 hx with old | new
      · exact tracks.launches x old
      · obtain rfl := List.mem_singleton.1 new
        exact Attempt.launches_of seed spares tidy₂.numbered
    · intro x hx q launched
      rcases List.mem_append.1 hx with old | new
      · obtain ⟨i, addressed, there⟩ := tracks.children x old q launched
        exact ⟨i, addressed, calls.instance? there⟩
      · obtain rfl := List.mem_singleton.1 new
        obtain ⟨i, addressed, there, _⟩ := Attempt.child_of seed spares tidy₂.numbered launched
        exact ⟨i, addressed, job ▸ later.instance? there⟩
    · exact continues_append tracks.continues next

theorem Tracks.meanwhile (tracks : Tracks d a child log r)
    (leaves : Records.Leaves a r.records r'.records)
    (saved : d.opened r'.world = Records.stored r'.records.text) : Tracks d a child log r' := by
  refine { tracks with
    tidy := leaves.tidy tracks.tidy
    filed := saved
    told := leaves.attempts tracks.tidy ▸ tracks.told
    children := fun x hx q launched => ?_ }
  obtain ⟨i, addressed, there⟩ := tracks.children x hx q launched
  exact ⟨i, addressed, leaves.calls.instance? there⟩

theorem Tracks.other (tracks : Tracks d a child log r) (apart : ⟨job, p.jobKey, step.name⟩ ≠ a)
    (spares : step.Spares a)
    (unfaulted : ∀ fault, (run d.host step job p seed r).1 ≠ .error (.io fault)) :
    Tracks d a child log (run d.host step job p seed r).2 := by
  rcases run_cases spares tracks.tidy.numbered unfaulted with
    ⟨e, _, ran⟩ | ⟨parent, r₁, s, r₂, t, r', recorded⟩
  · rw [ran]
    exact tracks
  · obtain ⟨calls, _, tidy, attempts⟩ := recorded.attempts tracks.tidy spares
    rw [if_neg apart, List.append_nil] at attempts
    rw [recorded.answered]
    exact tracks.meanwhile ⟨calls, fun _ => tidy.filed, fun _ => attempts⟩ recorded.filed

theorem Tracks.reopened (tracks : Tracks d a child log r) (storable : r.records.Storable) :
    d.opened r.world = .ok r.records.clean :=
  tracks.filed.trans (Records.stored_text storable)

theorem Tracks.reopen (tracks : Tracks d a child log r) (storable : r.records.Storable)
    {records : Records} (opened : d.opened r.world = .ok records) :
    Tracks d a child log ⟨records, r.world⟩ := by
  obtain rfl : records = r.records.clean := by
    rw [tracks.reopened storable] at opened
    exact (Except.ok.inj opened).symm
  refine { tracks with
    tidy := tracks.tidy.clean
    filed := ?_
    told := ?_ }
  · rw [Records.text_clean]
    exact tracks.filed
  · rw [Records.attempts_clean, List.map_map]
    exact tracks.told

theorem History.tracks (history : History d a child log r) : Tracks d a child log r := by
  induction history with
  | start missing => exact tracks_start missing
  | attempt _ n p seed name job key spares unfaulted ih =>
    exact ih.attempt name job key spares unfaulted
  | other _ step job p seed apart spares unfaulted ih => exact ih.other apart spares unfaulted
  | meanwhile _ leaves saved ih => exact ih.meanwhile leaves saved
  | reopen _ storable opened ih => exact ih.reopen storable opened

theorem Attempt.Continues.launched {x y : Attempt W} {q : Parameters}
    (continues : y.Continues (some x)) (unfinished : x.status ≠ .completed)
    (launched : x.launched = some q) : y.launched = some q := by
  simp only [Attempt.Continues, if_neg unfinished] at continues
  exact continues q launched

/-- Until one completes, attempts that follow each other launch with the same parameters. -/
theorem launched_between {between : List (Attempt W)} {before after : List (Attempt W)}
    {x y : Attempt W} {q : Parameters}
    (continues : ∀ {before x after}, log = before ++ x :: after → x.Continues before.getLast?)
    (split : log = before ++ x :: (between ++ y :: after))
    (unfinished : ∀ z ∈ x :: between, z.status ≠ .completed) (launched : x.launched = some q) :
    y.launched = some q := by
  -- The parameters are handed on from each attempt to the next, from the left.
  induction between generalizing before x with
  | nil =>
    have follows := continues (split.trans (List.append_cons before x _))
    rw [List.getLast?_concat] at follows
    exact follows.launched (unfinished x List.mem_cons_self) launched
  | cons z rest ih =>
    have follows := continues (split.trans (List.append_cons before x _))
    rw [List.getLast?_concat] at follows
    have second := follows.launched (unfinished x List.mem_cons_self) launched
    exact ih (split.trans (List.append_cons before x _))
      (fun w hw => unfinished w (List.mem_cons_of_mem x hw)) second

/-- How the attempts of one site belong together. -/
structure Correlated (h : Host W) (log : List (Attempt W)) : Prop where
  /-- What an attempt has for its child is what the child is launched with. -/
  launches : ∀ x ∈ log, x.Launches h
  /-- Up to the first one that completes, attempts launch the same instance with the
  same parameters. -/
  repeated : ∀ {before x between y after q}, log = before ++ x :: (between ++ y :: after) →
    (∀ z ∈ x :: between, z.status ≠ .completed) → x.launched = some q →
      y.launched = some q ∧ ∃ i, x.child = some i ∧ y.child = some i
  /-- The first attempt and one that follows a completed one start from their seed. -/
  afresh : ∀ {before x after}, log = before ++ x :: after →
    (∀ y ∈ before.getLast?, y.status = .completed) → x.Afresh

/-- However attempts at a site, other runs and openings of the records follow each
other: until an attempt completes the child is launched with the parameters that were
first resolved, and after that it is launched afresh. -/
theorem restarts_correlated (history : History d a child log r) :
    Correlated d.host log ∧
      (r.records.attempts a).map (fun s => (s.status, kept? s)) = log.map Attempt.told ∧
      (r.records.Storable → d.opened r.world = .ok r.records.clean) := by
  have tracks := history.tracks
  refine ⟨⟨tracks.launches, fun split unfinished launched => ?_, fun split finished => ?_⟩,
    tracks.told, tracks.reopened⟩
  · rename_i before x between y after q
    have again := launched_between tracks.continues split unfinished launched
    obtain ⟨i, addressed, there⟩ := tracks.children x (by simp [split]) q launched
    obtain ⟨j, addressed', there'⟩ := tracks.children y (by simp [split]) q again
    obtain rfl : i = j := Option.some.inj (there.symm.trans there')
    exact ⟨again, i, addressed, addressed'⟩
  · rename_i before x after
    have goesOn := tracks.continues split
    cases last : before.getLast? with
    | none => rwa [last] at goesOn
    | some y =>
      rw [last] at goesOn
      simp only [Attempt.Continues, if_pos (finished y last)] at goesOn
      exact goesOn

end Runner

def Disk.steady : Disk (Except BatchError Records) where
  now w := (.epoch, w)
  write text _ := (none, Records.stored text)
  opened w := w
  opened_now _ := rfl
  opened_write written := by cases written; rfl

namespace Runner

theorem History.made {W : Type} {d : Disk W} {a : Site} {child : String} {log : List (Attempt W)}
    {r : Repository W} {x : Attempt W} (before : History d a child log r) (n : NestedStep W)
    {p : Parameters} {seed : Context} (made : attempt? d.host n a.parent p seed r = some x)
    (name : n.name = a.step) (job : n.job.name = child) (key : p.jobKey = a.key)
    (spares : n.job.Spares a)
    (answered : (run d.host (n.toStep d.host) a.parent p seed r).1.toOption.isSome = true) :
    History d a child (log ++ [x]) (run d.host (n.toStep d.host) a.parent p seed r).2 := by
  have attempted := before.attempt n p seed name job key spares fun fault faulted => by
    rw [faulted] at answered
    cases answered
  rwa [made] at attempted

def failing : Job (Except BatchError Records) :=
  ⟨"child", true, fun e r => (.raised "down", e, r)⟩

def loading (job : Job (Except BatchError Records)) (keys : List String) :
    NestedStep (Except BatchError Records) :=
  ⟨"load", job, .sameThread, (Extraction.mk keys false).derive⟩

def seeded (value : String) : Context := Context.empty.put "foo" (.string value)

def handed (value : String) : Parameters := KeyMap.empty.insert "foo" ⟨.string value, true⟩

def blank : Repository (Except BatchError Records) := ⟨.empty, .ok .empty⟩

def barAttempted (job : Job (Except BatchError Records)) :
    Repository (Except BatchError Records) :=
  (run Disk.steady.host ((loading job ["foo"]).toStep Disk.steady.host) "parent" .firstRun
    (seeded "bar") blank).2

/-- A second attempt, with another value and other keys, launches with the first value. -/
theorem bar_relaunched :
    ∃ x y r i, History .steady ⟨"parent", Parameters.firstRun.jobKey, "load"⟩ "child" [x, y] r ∧
      y.seed = seeded "changed" ∧ x.launched = some (handed "bar") ∧
      y.launched = some (handed "bar") ∧ x.child = some i ∧ y.child = some i := by
  have first : (attempt? Disk.steady.host (loading failing ["foo"]) "parent" .firstRun
      (seeded "bar") blank).map Attempt.told = some (.failed, some (handed "bar")) := by
    decide +kernel
  have second : (attempt? Disk.steady.host (loading failing ["other"]) "parent" .firstRun
      (seeded "changed") (barAttempted failing)).map Attempt.seed = some (seeded "changed") := by
    decide +kernel
  obtain ⟨x, made, told⟩ := Option.map_eq_some_iff.1 first
  obtain ⟨y, made', seed⟩ := Option.map_eq_some_iff.1 second
  obtain ⟨status, launched⟩ := Prod.mk.inj told
  have once := History.made (a := ⟨"parent", Parameters.firstRun.jobKey, "load"⟩)
    (.start (d := .steady) (w := .ok .empty) rfl) (loading failing ["foo"]) made rfl rfl rfl
    (fun _ r => .refl r.records) (by decide +kernel)
  have twice := once.made (loading failing ["other"]) made' rfl rfl rfl
    (fun _ r => .refl r.records) (by decide +kernel)
  have unfinished : ∀ z ∈ [x], z.status ≠ .completed := by simp [status]
  obtain ⟨correlated, _⟩ := restarts_correlated twice
  obtain ⟨again, i, addressed, addressed'⟩ :=
    correlated.repeated (show [x, y] = [] ++ x :: ([] ++ y :: []) from rfl) unfinished launched
  exact ⟨x, y, _, i, twice, seed, launched, again, addressed, addressed'⟩

/-- A step that takes itself for the first attempt. -/
def straying : Step (Except BatchError Records) := ⟨"other", fun s r => ({ s with id := 3 }, r)⟩

/-- A child that registers an attempt of the step that launched it. -/
def forging : Job (Except BatchError Records) :=
  ⟨"child", true, fun e r =>
    let forged : StepExecution :=
      { ({ e with id := 2, jobInstanceId := 1 } : JobExecution).newStep "load" .epoch with
        status := .failed }
    (.raised "down", e, (Repository.addStep Disk.steady.host forged r).2.2)⟩

def primed : Context := Context.empty.put NestedStep.parametersKey (.parameters (handed "bar"))

/-- It is not so whatever runs in between, since a step can be recorded in the place of
the attempt; nor whatever the child does, since it can register an attempt itself; and
an attempt after a completed one does not extract its parameters if its seed keeps some. -/
theorem correlation_lost :
    (¬ ∀ (step : Step (Except BatchError Records)) (job : String), step.name ≠ "load" →
      job ≠ "parent" → ∀ y, attempt? Disk.steady.host (loading failing ["foo"]) "parent" .firstRun
        (seeded "changed") (run Disk.steady.host step job .empty .empty (barAttempted failing)).2
          = some y → y.launched = some (handed "bar")) ∧
    (¬ ∀ job : Job (Except BatchError Records), (∀ e r, (job.body e r).2.1.id = e.id) →
      ∀ y, attempt? Disk.steady.host (loading job ["foo"]) "parent" .firstRun
        (seeded "changed") (barAttempted job) = some y → y.launched = some (handed "bar")) ∧
    ¬ ∀ (a : Site) (child : String) (r : Repository (Except BatchError Records))
      (x y : Attempt (Except BatchError Records)), History .steady a child [x, y] r →
        x.status = .completed → y.launched = (y.step.derive y.begun).toOption := by
  refine ⟨fun keeps => ?_, fun keeps => ?_, fun extracts => ?_⟩
  · have stray : (attempt? Disk.steady.host (loading failing ["foo"]) "parent" .firstRun
        (seeded "changed") (run Disk.steady.host straying "elsewhere" .empty .empty
          (barAttempted failing)).2).map Attempt.launched = some (some (handed "changed")) := by
      decide +kernel
    obtain ⟨y, made, launched⟩ := Option.map_eq_some_iff.1 stray
    have kept := keeps straying "elsewhere" (by decide) (by decide) y made
    rw [launched] at kept
    revert kept
    decide +kernel
  · have forged : (attempt? Disk.steady.host (loading forging ["foo"]) "parent" .firstRun
        (seeded "changed") (barAttempted forging)).map Attempt.launched = some (some .empty) := by
      decide +kernel
    obtain ⟨y, made, launched⟩ := Option.map_eq_some_iff.1 forged
    have kept := keeps forging (fun _ _ => rfl) y made
    rw [launched] at kept
    revert kept
    decide +kernel
  · have first : (attempt? Disk.steady.host (loading .idle []) "parent" .empty .empty blank).map
        Attempt.status = some .completed := by
      decide +kernel
    have second : (attempt? Disk.steady.host (loading .idle []) "parent" .empty primed
        (run Disk.steady.host ((loading .idle []).toStep Disk.steady.host) "parent" .empty .empty
          blank).2).map (fun y => (y.launched, (y.step.derive y.begun).toOption))
          = some (some (handed "bar"), some .empty) := by
      decide +kernel
    obtain ⟨x, made, status⟩ := Option.map_eq_some_iff.1 first
    obtain ⟨y, made', told⟩ := Option.map_eq_some_iff.1 second
    have once := History.made (a := ⟨"parent", Parameters.jobKey .empty, "load"⟩)
      (.start (d := .steady) (w := .ok .empty) rfl) (loading .idle []) made rfl rfl rfl
      (fun _ r => .refl r.records) (by decide +kernel)
    have twice := once.made (loading .idle []) made' rfl rfl rfl
      (fun _ r => .refl r.records) (by decide +kernel)
    obtain ⟨launched, derived⟩ := Prod.mk.inj told
    have same := extracts _ _ _ x y twice status
    rw [launched, derived] at same
    revert same
    decide +kernel

end Runner

end NestedBatch

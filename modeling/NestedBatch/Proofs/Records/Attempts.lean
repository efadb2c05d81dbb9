import NestedBatch.Proofs.Launch.Instances
import NestedBatch.Proofs.Repository.Clean

/-! The attempts of a step: the records of its executions under one instance of its
parent, in the order in which they were made. -/
namespace NestedBatch

/-- A step under an instance of its parent job, told by what is looked up. -/
structure Site where
  parent : String
  key : String
  step : String
  deriving DecidableEq

namespace Records

variable {r r' : Records} {a : Site} {s : StepExecution} {job : String} {p : Parameters}
  {i : JobInstance}

def isAt (r : Records) (a : Site) (s : StepExecution) : Bool :=
  (r.instance? a.parent a.key).any fun i => s.jobInstanceId = i.id && s.stepName = a.step

def attempts (r : Records) (a : Site) : List StepExecution := r.steps.filter (r.isAt a)

section Lists

variable {α : Type} {test keep : α → Bool} {new : α} {l : List α}

/-- A replacement that is kept exactly where what it replaces was kept. -/
theorem filter_replaceFirst (alike : ∀ b ∈ l, test b = true → keep b = keep new) :
    (replaceFirst test new l).filter keep
      = if keep new then replaceFirst test new (l.filter keep) else l.filter keep := by
  induction l with
  | nil => simp [replaceFirst]
  | cons b rest ih =>
    have tail := ih fun c hc => alike c (List.mem_cons_of_mem b hc)
    rw [replaceFirst]
    cases found : test b with
    | true =>
      have same := alike b List.mem_cons_self found
      cases kept : keep new <;> simp [same, kept, replaceFirst, found]
    | false =>
      simp only [Bool.false_eq_true, if_false, List.filter_cons, tail]
      cases kept : keep b <;> cases keep new <;> simp [replaceFirst, found]

theorem newest_eq_getLast? {id : α → Nat} (increasing : (l.map id).Pairwise (· < ·)) :
    newest id l = l.getLast? := by
  rcases List.eq_nil_or_concat l with rfl | ⟨front, last, rfl⟩
  · rfl
  · rw [List.concat_eq_append] at increasing ⊢
    have below := (List.pairwise_append.1 (List.map_append ▸ increasing)).2.2
    rw [List.getLast?_concat, newest_append]
    intro b hb
    exact Nat.le_of_lt (below _ (List.mem_map_of_mem hb) _ (by simp))

end Lists

/-- Step executions are numbered upwards, in the order in which they were made. -/
structure StepsNumbered (r : Records) : Prop where
  increasing : (r.steps.map StepExecution.id).Pairwise (· < ·)
  bounded : ∀ id ∈ r.steps.map StepExecution.id, id ≤ r.nextId

theorem StepsNumbered.eq_of_id (numbered : r.StepsNumbered) {t : StepExecution} (hs : s ∈ r.steps)
    (ht : t ∈ r.steps) (same : s.id = t.id) : s = t :=
  List.inj_on_of_nodup_map (numbered.increasing.imp Nat.ne_of_lt) hs ht same

theorem hasStep_iff {id : Nat} : r.hasStep id = true ↔ id ∈ r.steps.map StepExecution.id := by
  simp [hasStep]

/-- A step execution is added at the end, under the next id, and ids are kept. -/
theorem Call.stepIds (call : Call r r') :
    r'.steps.map StepExecution.id = r.steps.map StepExecution.id ∨
      r'.nextId = r.nextId + 1 ∧
        r'.steps.map StepExecution.id = r.steps.map StepExecution.id ++ [r'.nextId] := by
  rcases call.cases with rfl | ⟨job, p, i, made, now, found, rfl⟩ | ⟨e, rfl⟩ | ⟨s, _, rfl⟩ |
    ⟨s, rfl⟩
  · exact Or.inl rfl
  · rcases findOrMakeInstance_ok found with ⟨_, rfl, _⟩ | ⟨_, _, rfl⟩ <;> exact Or.inl rfl
  · exact Or.inl rfl
  · exact Or.inr ⟨rfl, by simp [appendStep]⟩
  · exact Or.inl (map_replaceFirst StepExecution.id fun _ _ found => of_decide_eq_true found)

theorem Calls.hasStep (calls : Calls r r') {id : Nat} (there : r.hasStep id = true) :
    r'.hasStep id = true := by
  rw [hasStep_iff] at there ⊢
  induction calls with
  | refl => exact there
  | tail _ call ih =>
    rcases call.stepIds with same | ⟨_, more⟩
    · rwa [same]
    · rw [more]
      exact List.mem_append_left _ ih

theorem Call.stepsNumbered (call : Call r r') (numbered : r.StepsNumbered) :
    r'.StepsNumbered := by
  have count := call.nextId.1
  rcases call.stepIds with same | ⟨next, more⟩
  · exact ⟨same ▸ numbered.increasing,
      fun id hid => Nat.le_trans (numbered.bounded id (same ▸ hid)) count⟩
  · refine ⟨?_, fun id hid => ?_⟩
    · rw [more]
      refine List.pairwise_append.2 ⟨numbered.increasing, List.pairwise_singleton _ _, ?_⟩
      intro id hid last hlast
      have bound := numbered.bounded id hid
      rw [List.mem_singleton.1 hlast]
      omega
    · rw [more] at hid
      rcases List.mem_append.1 hid with old | new
      · exact Nat.le_trans (numbered.bounded id old) count
      · exact Nat.le_of_eq (List.mem_singleton.1 new)

/-- Records whose ids were all handed out: each its own, and those of executions and
steps in order. -/
structure Tidy (r : Records) : Prop where
  numbered : r.Numbered
  names : r.WellNamed
  steps : r.StepsNumbered
  filed : ∀ s ∈ r.steps, s.jobInstanceId ≤ r.nextId

theorem tidy_empty : Tidy empty :=
  ⟨numbered_empty, wellNamed_empty, ⟨List.Pairwise.nil, by simp [empty]⟩, by simp [empty]⟩

/-- Of calls it is only left to be asked for which instances they file steps. -/
theorem Tidy.calls (tidy : r.Tidy) (calls : Calls r r')
    (filed : ∀ s ∈ r'.steps, s.jobInstanceId ≤ r'.nextId) : r'.Tidy := by
  suffices kept : r'.WellNamed ∧ r'.StepsNumbered from
    ⟨calls.numbered tidy.numbered, kept.1, kept.2, filed⟩
  clear filed
  induction calls with
  | refl => exact ⟨tidy.names, tidy.steps⟩
  | tail _ call ih => exact ⟨call.wellNamed ih.1, call.stepsNumbered ih.2⟩

theorem Tidy.clean (tidy : r.Tidy) : r.clean.Tidy := by
  have executions : r.clean.executions.map JobExecution.id = r.executions.map JobExecution.id := by
    simp only [Records.clean, List.map_map]
    rfl
  have steps : r.clean.steps.map StepExecution.id = r.steps.map StepExecution.id := by
    simp only [Records.clean, List.map_map]
    rfl
  refine ⟨⟨executions ▸ tidy.numbered.increasing, fun e he => ?_⟩,
    tidy.names.mono rfl (Nat.le_refl _),
    ⟨steps ▸ tidy.steps.increasing, steps ▸ tidy.steps.bounded⟩, fun s hs => ?_⟩
  · obtain ⟨x, hx, rfl⟩ := List.mem_map.1 he
    exact tidy.numbered.bounded x hx
  · obtain ⟨x, hx, rfl⟩ := List.mem_map.1 hs
    exact tidy.filed x hx

theorem attempts_clean : r.clean.attempts a = (r.attempts a).map StepExecution.clean :=
  filter_map_same StepExecution.clean fun _ => rfl

/-- A step execution is at the site of the job and the key that name its instance. -/
theorem isAt_iff (names : r.WellNamed) {key : String} (there : r.instance? job key = some i)
    (belongs : s.jobInstanceId = i.id) : r.isAt a s = true ↔ ⟨job, key, s.stepName⟩ = a := by
  obtain ⟨hi, name, iKey⟩ := instance?_some there
  obtain ⟨parent, key', step⟩ := a
  simp only [Site.mk.injEq]
  cases looked : r.instance? parent key' with
  | none =>
    simp only [isAt, looked, Option.any_none, Bool.false_eq_true, false_iff]
    rintro ⟨rfl, rfl, _⟩
    cases looked.symm.trans there
  | some j =>
    obtain ⟨hj, name', jKey⟩ := instance?_some looked
    simp only [isAt, looked, Option.any_some, Bool.and_eq_true, decide_eq_true_eq, belongs]
    constructor
    · rintro ⟨id, step⟩
      obtain rfl := names.distinct i hi j hj id
      exact ⟨name.symm.trans name', iKey.symm.trans jKey, step⟩
    · rintro ⟨rfl, rfl, step⟩
      cases looked.symm.trans there
      exact ⟨rfl, step⟩

/-- The newest execution of a step is its last attempt. -/
theorem lastStep?_eq (numbered : r.StepsNumbered) (there : r.instance? a.parent a.key = some i) :
    r.lastStep? i.id a.step = (r.attempts a).getLast? := by
  have increasing : ((r.attempts a).map StepExecution.id).Pairwise (· < ·) :=
    numbered.increasing.sublist (List.filter_sublist.map StepExecution.id)
  have test : r.isAt a = fun s => s.jobInstanceId = i.id && s.stepName = a.step := by
    funext s
    simp only [isAt, there, Option.any_some]
  rw [← newest_eq_getLast? increasing, lastStep?, attempts, test]

/-- An instance that is made has no attempts yet. -/
theorem attempts_made (tidy : r.Tidy) {made : Records}
    (found : r.findOrMakeInstance job p = .ok (i, made)) : made.attempts a = r.attempts a := by
  rcases findOrMakeInstance_ok found with ⟨_, rfl, _⟩ | ⟨_, rfl, rfl⟩
  · rfl
  · refine List.filter_congr fun s hs => ?_
    have bound := tidy.filed s hs
    simp only [isAt, Records.instance?, List.find?_append]
    cases r.instances.find? fun i => i.jobName = a.parent && i.jobKey = a.key with
    | some j => rfl
    | none =>
      simp only [Option.none_or, Option.any_none, List.find?_cons]
      split
      · have other : s.jobInstanceId ≠ r.nextId + 1 := by omega
        simp [other]
      · rfl

theorem attempts_appendStep :
    (r.appendStep s).2.attempts a
      = r.attempts a ++ if r.isAt a s then [(r.appendStep s).1] else [] := by
  have test : (r.appendStep s).2.isAt a = r.isAt a := rfl
  have own : r.isAt a (r.appendStep s).1 = r.isAt a s := rfl
  have steps : (r.appendStep s).2.steps = r.steps ++ [(r.appendStep s).1] := rfl
  rw [attempts, test, steps, List.filter_append, List.filter_cons, List.filter_nil, own, attempts]

theorem attempts_putStep (alike : ∀ b ∈ r.steps, b.id = s.id → r.isAt a b = r.isAt a s) :
    (r.putStep s).attempts a
      = if r.isAt a s then replaceFirst (fun x => x.id = s.id) s (r.attempts a)
        else r.attempts a :=
  filter_replaceFirst fun b hb found => alike b hb (of_decide_eq_true found)

/-- What is recorded of an execution takes its place among the attempts, if it is one. -/
theorem attempts_recorded (tidy : r.Tidy) {key : String} (there : r.instance? job key = some i)
    {t : StepExecution} (belongs : t.jobInstanceId = i.id) {front : List StepExecution}
    (listed : r.attempts a = front ++ if ⟨job, key, t.stepName⟩ = a then [s] else [])
    (same : t.id = s.id) (older : ∀ b ∈ front, b.id ≠ t.id) :
    (r.putStep t).attempts a = front ++ if ⟨job, key, t.stepName⟩ = a then [t] else [] := by
  have here := isAt_iff (a := a) tidy.names there belongs
  by_cases site : ⟨job, key, t.stepName⟩ = a
  · -- Ids are unique, so that what is replaced is the attempt that was registered.
    rw [if_pos site] at listed ⊢
    have member : s ∈ r.attempts a := listed ▸ List.mem_append_right _ List.mem_cons_self
    obtain ⟨stored, atSite⟩ := List.mem_filter.1 member
    rw [attempts_putStep, if_pos (here.2 site), listed]
    · exact replaceFirst_append (fun b hb => decide_eq_false (older b hb))
        (decide_eq_true same.symm)
    · intro b hb found
      obtain rfl := tidy.steps.eq_of_id hb stored (found.trans same)
      rw [atSite, here.2 site]
  · -- An attempt under this id would be one of those before.
    rw [if_neg site, List.append_nil] at listed ⊢
    have elsewhere : r.isAt a t = false := Bool.eq_false_iff.2 fun atSite => site (here.1 atSite)
    rw [attempts_putStep, if_neg (Bool.eq_false_iff.1 elsewhere), listed]
    intro b hb found
    rw [elsewhere, Bool.eq_false_iff]
    exact fun atSite => older b (listed ▸ List.mem_filter.2 ⟨hb, atSite⟩) found

end Records

end NestedBatch

import NestedBatch.Records.Basic
import Mathlib.Data.List.Nodup

/-! Where a change lands. The records number their executions upwards and keep
them in that order, so a record is known by its id: putting one back replaces
that record and no other. -/
namespace NestedBatch.Records

section Lists

variable {α β : Type} {test : α → Bool} {new : α} {l : List α}

theorem mem_replaceFirst {x : α} (h : x ∈ replaceFirst test new l) :
    (x = new ∧ ∃ a ∈ l, test a = true) ∨ x ∈ l := by
  induction l with
  | nil => exact Or.inr h
  | cons a rest ih =>
    rw [replaceFirst] at h
    split at h
    · rename_i found
      rcases List.mem_cons.1 h with here | later
      · exact Or.inl ⟨here, a, List.mem_cons_self, found⟩
      · exact Or.inr (List.mem_cons_of_mem a later)
    · rcases List.mem_cons.1 h with here | later
      · exact Or.inr (here ▸ List.mem_cons_self)
      · rcases ih later with ⟨same, b, hb, found⟩ | there
        · exact Or.inl ⟨same, b, List.mem_cons_of_mem a hb, found⟩
        · exact Or.inr (List.mem_cons_of_mem a there)

theorem replaceFirst_of_none (absent : ∀ a ∈ l, test a = false) : replaceFirst test new l = l := by
  induction l with
  | nil => rfl
  | cons a rest ih =>
    have other : test a = false := absent a List.mem_cons_self
    have tail := ih fun b hb => absent b (List.mem_cons_of_mem a hb)
    simp only [replaceFirst, other, tail, Bool.false_eq_true, if_false]

theorem map_replaceFirst (f : α → β) (same : ∀ a ∈ l, test a = true → f a = f new) :
    (replaceFirst test new l).map f = l.map f := by
  induction l with
  | nil => rfl
  | cons a rest ih =>
    rw [replaceFirst]
    split
    · rename_i found
      rw [List.map_cons, List.map_cons, same a List.mem_cons_self found]
    · rw [List.map_cons, List.map_cons, ih fun b hb => same b (List.mem_cons_of_mem a hb)]

/-- Under keys that do not repeat, the replaced element is the one with the new one's key. -/
theorem mem_replaceFirst_key (key : α → Nat) (new : α)
    (distinct : (l.map key).Pairwise (· < ·)) {x : α} :
    x ∈ replaceFirst (fun a => key a = key new) new l ↔
      (x = new ∧ ∃ a ∈ l, key a = key new) ∨ (x ∈ l ∧ key x ≠ key new) := by
  induction l with
  | nil => simp [replaceFirst]
  | cons a rest ih =>
    obtain ⟨above, tail⟩ := List.pairwise_cons.1 (by simpa only [List.map_cons] using distinct)
    by_cases found : key a = key new
    · have apart : ∀ b ∈ rest, key b ≠ key new := by
        intro b hb same
        have := above (key b) (List.mem_map_of_mem hb)
        omega
      have others : x ∈ rest → key x ≠ key new := apart x
      simp only [replaceFirst, found, decide_true, if_true, List.mem_cons, List.mem_cons,
        exists_eq_or_imp, true_or, and_true]
      constructor
      · rintro (rfl | later)
        · exact Or.inl rfl
        · exact Or.inr ⟨Or.inr later, others later⟩
      · rintro (rfl | ⟨rfl | later, differ⟩)
        · exact Or.inl rfl
        · exact absurd found differ
        · exact Or.inr later
    · simp only [replaceFirst, found, decide_false, Bool.false_eq_true, if_false, List.mem_cons,
        ih tail, exists_eq_or_imp, false_or]
      constructor
      · rintro (rfl | ⟨rfl, there⟩ | ⟨later, differ⟩)
        · exact Or.inr ⟨Or.inl rfl, found⟩
        · exact Or.inl ⟨rfl, there⟩
        · exact Or.inr ⟨Or.inr later, differ⟩
      · rintro (⟨rfl, there⟩ | ⟨rfl | later, differ⟩)
        · exact Or.inr (Or.inl ⟨rfl, there⟩)
        · exact Or.inl rfl
        · exact Or.inr (Or.inr ⟨later, differ⟩)

/-- An ordering survives if the new element stands wherever the replaced one did. -/
theorem pairwise_replaceFirst {R : α → α → Prop} (ordered : l.Pairwise R)
    (below : ∀ a ∈ l, test a = true → ∀ b ∈ l, R b a → R b new)
    (above : ∀ a ∈ l, test a = true → ∀ b ∈ l, R a b → R new b) :
    (replaceFirst test new l).Pairwise R := by
  induction l with
  | nil => exact List.Pairwise.nil
  | cons a rest ih =>
    obtain ⟨first, tail⟩ := List.pairwise_cons.1 ordered
    rw [replaceFirst]
    split
    · rename_i found
      exact List.pairwise_cons.2 ⟨fun b hb =>
        above a List.mem_cons_self found b (List.mem_cons_of_mem a hb) (first b hb), tail⟩
    · refine List.pairwise_cons.2 ⟨?_, ih tail ?_ ?_⟩
      · intro b hb
        rcases mem_replaceFirst hb with ⟨rfl, c, hc, found⟩ | later
        · exact below c (List.mem_cons_of_mem a hc) found a List.mem_cons_self (first c hc)
        · exact first b later
      · exact fun c hc found b hb => below c (List.mem_cons_of_mem a hc) found b
          (List.mem_cons_of_mem a hb)
      · exact fun c hc found b hb => above c (List.mem_cons_of_mem a hc) found b
          (List.mem_cons_of_mem a hb)

end Lists

variable {r r' : Records}

/-- Executions are numbered upwards, in the order in which they were made. -/
structure Numbered (r : Records) : Prop where
  increasing : (r.executions.map JobExecution.id).Pairwise (· < ·)
  bounded : ∀ e ∈ r.executions, e.id ≤ r.nextId

theorem numbered_empty : Numbered empty := ⟨List.Pairwise.nil, by simp [empty]⟩

theorem Numbered.eq_of_id (numbered : r.Numbered) {e x : JobExecution} (he : e ∈ r.executions)
    (hx : x ∈ r.executions) (same : e.id = x.id) : e = x := by
  have distinct : (r.executions.map JobExecution.id).Nodup :=
    numbered.increasing.imp Nat.ne_of_lt
  exact List.inj_on_of_nodup_map distinct he hx same

theorem hasExecution_iff {id : Nat} :
    r.hasExecution id = true ↔ ∃ e ∈ r.executions, e.id = id := by
  simp [hasExecution]

/-- Putting an execution back changes the record with its id, and that one only. -/
theorem mem_putExecution (numbered : r.Numbered) {e x : JobExecution} :
    x ∈ (r.putExecution e).executions ↔
      (x = { e with steps := [] } ∧ r.hasExecution e.id = true) ∨
        (x ∈ r.executions ∧ x.id ≠ e.id) := by
  rw [hasExecution_iff]
  exact mem_replaceFirst_key JobExecution.id { e with steps := [] } numbered.increasing

/-- Without a record of its id an execution is not put anywhere. -/
theorem putExecution_absent {e : JobExecution} (absent : r.hasExecution e.id = false) :
    r.putExecution e = r := by
  have others : ∀ a ∈ r.executions, decide (a.id = e.id) = false := by
    simpa [hasExecution] using absent
  simp only [putExecution, replaceFirst_of_none others]

@[simp] theorem ids_putExecution (e : JobExecution) :
    (r.putExecution e).executions.map JobExecution.id = r.executions.map JobExecution.id :=
  map_replaceFirst JobExecution.id fun _ _ found => of_decide_eq_true found

theorem Numbered.putExecution (numbered : r.Numbered) (e : JobExecution) :
    (r.putExecution e).Numbered := by
  refine ⟨by simpa only [ids_putExecution] using numbered.increasing, ?_⟩
  intro x hx
  have listed : x.id ∈ (r.putExecution e).executions.map JobExecution.id := List.mem_map_of_mem hx
  rw [ids_putExecution] at listed
  obtain ⟨y, hy, same⟩ := List.mem_map.1 listed
  exact same ▸ numbered.bounded y hy

theorem Numbered.newExecution (numbered : r.Numbered) (i : JobInstance) (p : Parameters)
    (now : Instant) : (r.newExecution i p now).2.Numbered := by
  refine ⟨?_, ?_⟩
  · simp only [Records.newExecution, List.map_append, List.map_cons, List.map_nil]
    refine List.pairwise_append.2 ⟨numbered.increasing, List.pairwise_singleton _ _, ?_⟩
    intro a ha b hb
    obtain ⟨e, he, rfl⟩ := List.mem_map.1 ha
    rw [List.mem_singleton.1 hb]
    exact Nat.lt_succ_of_le (numbered.bounded e he)
  · intro e he
    rcases List.mem_append.1 he with old | new
    · exact Nat.le_succ_of_le (numbered.bounded e old)
    · rw [List.mem_singleton.1 new]
      exact Nat.le_refl _

/-- Numbering only looks at the executions and at how far the count has come. -/
theorem Numbered.mono (numbered : r.Numbered) (same : r'.executions = r.executions)
    (count : r.nextId ≤ r'.nextId) : r'.Numbered :=
  ⟨same ▸ numbered.increasing,
    fun e he => Nat.le_trans (numbered.bounded e (same ▸ he)) count⟩

/-- An admitted execution belongs to an instance that is there with nothing in
the way, or to one that is made for it under the next id. -/
theorem findOrMakeInstance_ok {job : String} {p : Parameters} {i : JobInstance}
    (found : r.findOrMakeInstance job p = .ok (i, r')) :
    (r.instance? job p.jobKey = some i ∧ r' = r ∧
        ∀ e ∈ r.executionsOf i.id, obstacle? job p e = none) ∨
      (r.instance? job p.jobKey = none ∧ i = ⟨r.nextId + 1, job, p.jobKey⟩ ∧
        r' = { r with nextId := r.nextId + 1, instances := r.instances ++ [i] }) := by
  simp only [findOrMakeInstance] at found
  split at found
  · rename_i j there
    split at found
    · cases found
    · rename_i clear
      cases found
      exact Or.inl ⟨there, rfl, by simpa [List.findSome?_eq_none_iff] using clear⟩
  · rename_i absent
    cases found
    exact Or.inr ⟨absent, rfl, rfl⟩

theorem findOrMakeInstance_error {job : String} {p : Parameters} {e : BatchError}
    (refused : r.findOrMakeInstance job p = .error e) :
    ∃ i x, r.instance? job p.jobKey = some i ∧ x ∈ r.executionsOf i.id ∧
      obstacle? job p x = some e := by
  simp only [findOrMakeInstance] at refused
  split at refused
  · rename_i i there
    split at refused
    · rename_i inTheWay
      cases refused
      obtain ⟨x, hx, obstacle⟩ := List.exists_of_findSome?_eq_some inTheWay
      exact ⟨i, x, there, hx, obstacle⟩
    · cases refused
  · cases refused

theorem findOrMakeInstance_frame {job : String} {p : Parameters} {i : JobInstance}
    (found : r.findOrMakeInstance job p = .ok (i, r')) :
    r'.executions = r.executions ∧ r.nextId ≤ r'.nextId := by
  rcases findOrMakeInstance_ok found with ⟨_, rfl, _⟩ | ⟨_, _, rfl⟩
  · exact ⟨rfl, Nat.le_refl _⟩
  · exact ⟨rfl, Nat.le_succ _⟩

/-- The count of ids stays ahead of the instances, also of one that is made. -/
theorem findOrMakeInstance_known {job : String} {p : Parameters} {i : JobInstance}
    (known : ∀ j ∈ r.instances, j.id ≤ r.nextId)
    (found : r.findOrMakeInstance job p = .ok (i, r')) :
    i.id ≤ r'.nextId ∧ ∀ j ∈ r'.instances, j.id ≤ r'.nextId := by
  rcases findOrMakeInstance_ok found with ⟨there, rfl, _⟩ | ⟨_, rfl, rfl⟩
  · exact ⟨known i (List.mem_of_find?_eq_some there), known⟩
  · refine ⟨Nat.le_refl _, ?_⟩
    intro j hj
    rcases List.mem_append.1 hj with old | new
    · exact Nat.le_succ_of_le (known j old)
    · exact Nat.le_of_eq (congrArg JobInstance.id (List.mem_singleton.1 new))

/-- An execution stands in the way of another while it is under way, and for
good once it has come to its end, unless nothing identifies the instance. -/
theorem obstacle?_eq_none {job : String} {p : Parameters} {e : JobExecution} :
    obstacle? job p e = none ↔ e.isRunning = false ∧
      (p.identifying.isEmpty = false → ¬ (e.status = .completed ∨ e.status = .abandoned)) := by
  cases running : e.isRunning <;> cases empty : p.identifying.isEmpty <;>
    simp [obstacle?, running, empty]

theorem mem_executionsOf {id : Nat} {e : JobExecution} :
    e ∈ r.executionsOf id ↔ e ∈ r.executions ∧ e.jobInstanceId = id := by
  simp [executionsOf]

end NestedBatch.Records

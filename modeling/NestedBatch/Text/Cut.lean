/-! Cutting a text at the first or at the last occurrence of a character. -/
namespace NestedBatch.Text

def cutFirst (mark : Char) : List Char → Option (List Char × List Char)
  | [] => none
  | c :: rest =>
    if c = mark then some ([], rest)
    else (cutFirst mark rest).map fun p => (c :: p.1, p.2)

def cutLast (mark : Char) : List Char → Option (List Char × List Char)
  | [] => none
  | c :: rest =>
    match cutLast mark rest with
    | some p => some (c :: p.1, p.2)
    | none => if c = mark then some ([], rest) else none

/-- The cut is at the first mark: the front holds none, and nothing is lost. -/
theorem cutFirst_eq_some {mark : Char} {s before after : List Char} :
    cutFirst mark s = some (before, after) ↔ s = before ++ mark :: after ∧ mark ∉ before := by
  induction s generalizing before with
  | nil => simp [cutFirst]
  | cons c rest ih =>
    by_cases h : c = mark
    · subst h
      cases before with
      | nil => simp [cutFirst, eq_comm]
      | cons b bs =>
        simp only [cutFirst, if_pos, Option.some.injEq, Prod.mk.injEq, List.cons_append,
          List.cons.injEq, List.mem_cons, not_or]
        constructor
        · intro e; cases e.1
        · intro e; exact absurd e.1.1 e.2.1
    · cases before with
      | nil =>
        simp only [cutFirst, List.nil_append, List.cons.injEq, h, false_and, iff_false]
        cases cutFirst mark rest <;> simp
      | cons b bs =>
        have step := @ih bs
        simp only [cutFirst, if_neg h, List.cons_append, List.cons.injEq, List.mem_cons, not_or]
        cases hc : cutFirst mark rest with
        | none =>
          rw [hc] at step
          simp only [Option.map_none, reduceCtorEq, false_iff]
          intro e
          exact absurd (step.2 ⟨e.1.2, e.2.2⟩) (by simp)
        | some p =>
          rw [hc] at step
          obtain ⟨p1, p2⟩ := p
          simp only [Option.map_some, Option.some.injEq, Prod.mk.injEq, List.cons.injEq] at step ⊢
          constructor
          · rintro ⟨⟨rfl, rfl⟩, rfl⟩
            have both := step.1 ⟨rfl, rfl⟩
            exact ⟨⟨rfl, both.1⟩, fun e => h e.symm, both.2⟩
          · rintro ⟨⟨rfl, hr⟩, _, hm⟩
            have both := step.2 ⟨hr, hm⟩
            exact ⟨⟨rfl, both.1⟩, both.2⟩

theorem cutLast_eq_none {mark : Char} {s : List Char} : cutLast mark s = none ↔ mark ∉ s := by
  induction s with
  | nil => simp [cutLast]
  | cons c rest ih =>
    simp only [cutLast, List.mem_cons, not_or]
    cases hc : cutLast mark rest with
    | none =>
      have absent := ih.1 hc
      by_cases h : c = mark
      · simp [h]
      · simp [h, absent, Ne.symm h]
    | some p =>
      have present : ¬ mark ∉ rest := fun none => by simp [ih.2 none] at hc
      simp [present]

/-- The cut is at the last mark: what is behind it holds none. -/
theorem cutLast_append {mark : Char} {after : List Char} (absent : mark ∉ after)
    (before : List Char) : cutLast mark (before ++ mark :: after) = some (before, after) := by
  induction before with
  | nil => simp [cutLast, cutLast_eq_none.2 absent]
  | cons c before ih => simp [cutLast, ih]

/-- Nothing is lost where the text is cut. -/
theorem eq_of_cutLast {mark : Char} {s before after : List Char}
    (cut : cutLast mark s = some (before, after)) : s = before ++ mark :: after := by
  induction s generalizing before with
  | nil => cases cut
  | cons c rest ih =>
    simp only [cutLast] at cut
    split at cut
    · rename_i p later
      cases cut
      rw [ih later, List.cons_append]
    · rename_i none
      split at cut
      · rename_i same
        cases cut
        rw [same, List.nil_append]
      · cases cut

end NestedBatch.Text

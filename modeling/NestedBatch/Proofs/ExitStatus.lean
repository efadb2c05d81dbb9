import NestedBatch.ExitStatus

/-! Many exit statuses joined to one, in whatever way they are bracketed. The code is that of
the first of the most severe ones. Joining texts is not associative: one that equals the
other is not repeated, and whether two are equal depends on the brackets. But no text is lost. -/
namespace NestedBatch.ExitStatus

section Descriptions

theorem joinDescriptions_eq_empty (a b : String) :
    joinDescriptions a b = "" ↔ a = "" ∧ b = "" := by
  unfold joinDescriptions
  split
  · rename_i empty
    simp [empty]
  · rename_i some
    split
    · rename_i empty
      simp [empty]
    · rename_i some'
      split
      · simp [some]
      · simp [some']

theorem infix_joinDescriptions (a b : String) :
    a.toList <:+: (joinDescriptions a b).toList ∧
      b.toList <:+: (joinDescriptions a b).toList := by
  unfold joinDescriptions
  split
  · rename_i empty
    rw [empty]
    exact ⟨List.infix_rfl, List.nil_infix⟩
  · split
    · rename_i empty
      rw [empty]
      exact ⟨List.nil_infix, List.infix_rfl⟩
    · split
      · rename_i same
        rw [same]
        exact ⟨List.infix_rfl, List.infix_rfl⟩
      · simp only [String.toList_append]
        refine ⟨?_, List.suffix_append _ _ |>.isInfix⟩
        rw [List.append_assoc]
        exact (List.prefix_append _ _).isInfix

theorem joinDescriptions_self (a : String) : joinDescriptions a a = a := by
  unfold joinDescriptions
  split
  · rfl
  · rw [if_pos rfl]

end Descriptions

variable {l m : List ExitStatus} {a b worst : ExitStatus}

theorem and_self (a : ExitStatus) : a.and a = a := by
  simp only [ExitStatus.and, joinDescriptions_self, ite_self]

theorem code_and (a b : ExitStatus) :
    (a.and b).code = (if a.severity < b.severity then b else a).code := by
  rw [ExitStatus.and]
  split <;> rfl

/-- Codes decide severity. -/
theorem severity_congr (same : a.code = b.code) : a.severity = b.severity := by
  rw [severity, severity, same]

/-- The exit status is the first of the most severe ones of the list. -/
structure FirstWorst (l : List ExitStatus) (worst : ExitStatus) : Prop where
  split : ∃ before after, l = before ++ worst :: after ∧
    (∀ e ∈ before, e.severity < worst.severity) ∧ ∀ e ∈ after, e.severity ≤ worst.severity

theorem FirstWorst.le (first : FirstWorst l worst) : ∀ e ∈ l, e.severity ≤ worst.severity := by
  obtain ⟨before, after, rfl, below, atMost⟩ := first.split
  intro e there
  rcases List.mem_append.1 there with early | late
  · exact Nat.le_of_lt (below e early)
  · rcases List.mem_cons.1 late with rfl | later
    · exact Nat.le_refl _
    · exact atMost e later

theorem firstWorst_singleton (e : ExitStatus) : FirstWorst [e] e :=
  ⟨[], [], rfl, List.forall_mem_nil _, List.forall_mem_nil _⟩

/-- Of two lists one after the other, the worse one decides, and of equals the first. -/
theorem FirstWorst.append (left : FirstWorst l a) (right : FirstWorst m b) :
    FirstWorst (l ++ m) (if a.severity < b.severity then b else a) := by
  split
  · rename_i worse
    obtain ⟨before, after, rfl, below, atMost⟩ := right.split
    refine ⟨l ++ before, after, (List.append_assoc _ _ _).symm, ?_, atMost⟩
    intro e there
    rcases List.mem_append.1 there with early | late
    · exact Nat.lt_of_le_of_lt (left.le e early) worse
    · exact below e late
  · rename_i noWorse
    obtain ⟨before, after, rfl, below, atMost⟩ := left.split
    refine ⟨before, after ++ m, by simp, below, ?_⟩
    intro e there
    rcases List.mem_append.1 there with early | late
    · exact atMost e early
    · exact Nat.le_trans (right.le e late) (Nat.le_of_not_lt noWorse)

theorem FirstWorst.unique (first : FirstWorst l a) (other : FirstWorst l b) : a = b := by
  obtain ⟨before, after, rfl, below, atMost⟩ := first.split
  obtain ⟨before', after', same, below', atMost'⟩ := other.split
  -- Neither can stand behind the other: what stands in front is less severe.
  rcases List.append_eq_append_iff.1 same with ⟨between, rfl, rest⟩ | ⟨between, rfl, rest⟩
  · cases between with
    | nil => exact (List.cons.inj rest).1
    | cons c between =>
      obtain ⟨rfl, rfl⟩ := List.cons.inj rest
      have less := below' a (by simp)
      have more := atMost b (by simp)
      omega
  · cases between with
    | nil => exact (List.cons.inj rest).1.symm
    | cons c between =>
      obtain ⟨rfl, rfl⟩ := List.cons.inj rest
      have less := below b (by simp)
      have more := atMost' a (by simp)
      omega

/-- A way of joining some exit statuses two at a time. -/
inductive Bracketing where
  | one (e : ExitStatus)
  | pair (left right : Bracketing)

namespace Bracketing

/-- What is joined, from left to right. -/
def leaves : Bracketing → List ExitStatus
  | one e => [e]
  | pair left right => left.leaves ++ right.leaves

def joined : Bracketing → ExitStatus
  | one e => e
  | pair left right => left.joined.and right.joined

/-- The brackets of joining each one to all before it. -/
def leftmost (e : ExitStatus) (rest : List ExitStatus) : Bracketing :=
  rest.foldl (fun t x => pair t (one x)) (one e)

theorem leaves_leftmost (e : ExitStatus) (rest : List ExitStatus) :
    (leftmost e rest).leaves = e :: rest := by
  have grown : ∀ (rest : List ExitStatus) (t : Bracketing),
      (rest.foldl (fun t x => pair t (one x)) t).leaves = t.leaves ++ rest := by
    intro rest
    induction rest with
    | nil => exact fun t => (List.append_nil _).symm
    | cons x rest ih =>
      intro t
      rw [List.foldl_cons, ih, leaves, leaves, List.append_assoc, List.singleton_append]
  exact grown rest (one e)

theorem joined_leftmost (e : ExitStatus) (rest : List ExitStatus) :
    (leftmost e rest).joined = rest.foldl ExitStatus.and e := by
  have grown : ∀ (rest : List ExitStatus) (t : Bracketing),
      (rest.foldl (fun t x => pair t (one x)) t).joined
        = rest.foldl ExitStatus.and t.joined := by
    intro rest
    induction rest with
    | nil => exact fun t => rfl
    | cons x rest ih => exact fun t => ih (pair t (one x))
  exact grown rest (one e)

theorem firstWorst_joined (t : Bracketing) :
    ∃ worst, FirstWorst t.leaves worst ∧ t.joined.code = worst.code := by
  induction t with
  | one e => exact ⟨e, firstWorst_singleton e, rfl⟩
  | pair left right ihLeft ihRight =>
    obtain ⟨a, first, code⟩ := ihLeft
    obtain ⟨b, second, code'⟩ := ihRight
    refine ⟨_, first.append second, ?_⟩
    rw [joined, code_and, severity_congr code, severity_congr code']
    split
    · exact code'
    · exact code

theorem description_joined_eq_empty (t : Bracketing) :
    t.joined.description = "" ↔ ∀ e ∈ t.leaves, e.description = "" := by
  induction t with
  | one e => simp only [joined, leaves, List.forall_mem_singleton]
  | pair left right ihLeft ihRight =>
    rw [leaves, List.forall_mem_append, ← ihLeft, ← ihRight]
    exact joinDescriptions_eq_empty _ _

/-- Each description is found in one piece in the description of the whole. -/
theorem infix_description_joined (t : Bracketing) :
    ∀ e ∈ t.leaves, e.description.toList <:+: t.joined.description.toList := by
  induction t with
  | one e => exact List.forall_mem_singleton.2 List.infix_rfl
  | pair left right ihLeft ihRight =>
    obtain ⟨first, second⟩ :=
      infix_joinDescriptions left.joined.description right.joined.description
    refine List.forall_mem_append.2 ⟨fun e there => ?_, fun e there => ?_⟩
    · exact (ihLeft e there).trans first
    · exact (ihRight e there).trans second

end Bracketing

/-- What is left of the descriptions of some exit statuses where they are joined. -/
structure KeepsDescriptions (l : List ExitStatus) (joined : ExitStatus) : Prop where
  empty_iff : joined.description = "" ↔ ∀ e ∈ l, e.description = ""
  parts : ∀ e ∈ l, e.description.toList <:+: joined.description.toList

theorem Bracketing.keepsDescriptions (t : Bracketing) : KeepsDescriptions t.leaves t.joined :=
  ⟨t.description_joined_eq_empty, t.infix_description_joined⟩

/-- Exit statuses that are joined one after the other have the code of the first of the most
severe ones, and so they have in any other brackets. In all brackets the descriptions are
kept: nothing is told exactly if none of them tells anything, and each is there in one piece. -/
theorem joined_in_any_brackets {e : ExitStatus} {rest : List ExitStatus} {t : Bracketing}
    (same : t.leaves = e :: rest) :
    (∃ worst, FirstWorst (e :: rest) worst ∧ (rest.foldl ExitStatus.and e).code = worst.code ∧
        t.joined.code = worst.code) ∧
      KeepsDescriptions (e :: rest) (rest.foldl ExitStatus.and e) ∧
      KeepsDescriptions (e :: rest) t.joined ∧
      ∀ x : ExitStatus, x.and x = x := by
  have leftmost := Bracketing.leaves_leftmost e rest
  rw [← Bracketing.joined_leftmost, ← same]
  refine ⟨?_, ?_, t.keepsDescriptions, and_self⟩
  · obtain ⟨worst, first, code⟩ := t.firstWorst_joined
    obtain ⟨worst', first', code'⟩ := (Bracketing.leftmost e rest).firstWorst_joined
    rw [leftmost, ← same] at first'
    cases first.unique first'
    exact ⟨worst, first, code', code⟩
  · rw [same, ← leftmost]
    exact (Bracketing.leftmost e rest).keepsDescriptions

/-- Three exit statuses, of which the last two are joined first. -/
def lateAndLost : Bracketing :=
  .pair (.one ⟨"FAILED", "late"⟩) (.pair (.one ⟨"SKIPPED", "lost"⟩) (.one ⟨"NOTED", "late; lost"⟩))

/-- Of two codes of jobs the first one counts. The brackets tell whether what is told last is
told again. -/
theorem lateAndLost_joined :
    lateAndLost.leaves
        = ⟨"FAILED", "late"⟩ :: [⟨"SKIPPED", "lost"⟩, ⟨"NOTED", "late; lost"⟩] ∧
      (∃ worst, FirstWorst lateAndLost.leaves worst ∧ lateAndLost.joined.code = worst.code) ∧
      KeepsDescriptions lateAndLost.leaves lateAndLost.joined ∧
      lateAndLost.joined = ⟨"SKIPPED", "late; lost; late; lost"⟩ ∧
      [⟨"SKIPPED", "lost"⟩, ⟨"NOTED", "late; lost"⟩].foldl ExitStatus.and ⟨"FAILED", "late"⟩
        = ⟨"SKIPPED", "late; lost"⟩ := by
  have leaves : lateAndLost.leaves
      = ⟨"FAILED", "late"⟩ :: [⟨"SKIPPED", "lost"⟩, ⟨"NOTED", "late; lost"⟩] := rfl
  obtain ⟨⟨worst, first, _, code⟩, _, kept, _⟩ := joined_in_any_brackets leaves
  exact ⟨leaves, ⟨worst, first, code⟩, kept, by decide, by decide⟩

end NestedBatch.ExitStatus

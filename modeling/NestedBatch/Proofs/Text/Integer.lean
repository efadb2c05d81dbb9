import NestedBatch.Proofs.Text.Digits

/-! Which texts are read as integers: those of digits, with a sign before them or without one,
that stand for an integer in the range. -/
namespace NestedBatch

def Span.Has (span : Span) (n : Int) : Prop := -(span.low : Int) ≤ n ∧ n ≤ span.high

namespace Numeral

variable {span : Span} {bound acc m : Nat} {beyond : NumeralFault} {ds s : List Char} {n : Int}

structure IsDigits (ds : List Char) : Prop where
  nonempty : ds ≠ []
  digits : ∀ c ∈ ds, c.isDigit = true

/-- The integer that a text stands for in decimal, however many zeros it begins with. -/
inductive Decimal : List Char → Int → Prop where
  | plain {ds : List Char} (digits : IsDigits ds) : Decimal ds (value ds)
  | plus {ds : List Char} (digits : IsDigits ds) : Decimal ('+' :: ds) (value ds)
  | minus {ds : List Char} (digits : IsDigits ds) : Decimal ('-' :: ds) (-(value ds : Int))

theorem digit?_eq_some {c : Char} {d : Nat} :
    digit? c = some d ↔ c.isDigit = true ∧ c.toNat - '0'.toNat = d := by
  simp [digit?]

theorem magnitude_eq_ok (within : acc ≤ bound) :
    magnitude bound beyond acc ds = .ok m ↔
      (∀ c ∈ ds, c.isDigit = true) ∧ Nat.ofDigitChars 10 ds acc = m ∧ m ≤ bound := by
  constructor
  · intro read
    induction ds generalizing acc with
    | nil =>
      cases read
      exact ⟨List.forall_mem_nil _, rfl, within⟩
    | cons c rest ih =>
      simp only [magnitude] at read
      split at read
      · cases read
      · rename_i d digit
        split at read
        · cases read
        · rename_i fits
          obtain ⟨isDigit, rfl⟩ := digit?_eq_some.1 digit
          -- The number so far is within the bound again, and the rest is read from there.
          obtain ⟨others, total, small⟩ := ih (Nat.not_lt.1 fits) read
          refine ⟨List.forall_mem_cons.2 ⟨isDigit, others⟩, ?_, small⟩
          rw [Nat.ofDigitChars_cons, Nat.mul_comm]
          exact total
  · rintro ⟨digits, rfl, small⟩
    exact magnitude_digits beyond digits small

theorem map_magnitude_eq_ok {f : Nat → Int} :
    (magnitude bound beyond 0 ds).map f = .ok n ↔
      (∀ c ∈ ds, c.isDigit = true) ∧ f (value ds) = n ∧ value ds ≤ bound := by
  constructor
  · intro mapped
    cases read : magnitude bound beyond 0 ds with
    | error fault =>
      rw [read] at mapped
      cases mapped
    | ok m =>
      rw [read] at mapped
      cases mapped
      obtain ⟨digits, rfl, small⟩ := (magnitude_eq_ok (Nat.zero_le bound)).1 read
      exact ⟨digits, rfl, small⟩
  · rintro ⟨digits, rfl, small⟩
    rw [(magnitude_eq_ok (Nat.zero_le bound)).2 ⟨digits, rfl, small⟩]
    rfl

theorem read_minus (some : ds ≠ []) :
    read span ('-' :: ds) = (magnitude span.low .tooSmall 0 ds).map fun m : Nat => -(m : Int) := by
  simp only [read, some, List.isEmpty_iff, true_or, if_true, if_false]
  cases magnitude span.low .tooSmall 0 ds <;> rfl

theorem read_plus (some : ds ≠ []) :
    read span ('+' :: ds) = (magnitude span.high .tooLarge 0 ds).map fun m : Nat => (m : Int) := by
  simp only [read, some, List.isEmpty_iff, or_true, if_true, if_false, Char.reduceEq]
  cases magnitude span.high .tooLarge 0 ds <;> rfl

theorem read_unsigned {c : Char} (minus : c ≠ '-') (plus : c ≠ '+') (rest : List Char) :
    read span (c :: rest)
      = (magnitude span.high .tooLarge 0 (c :: rest)).map fun m : Nat => (m : Int) := by
  simp only [read, minus, plus, or_self, if_false]
  cases magnitude span.high .tooLarge 0 (c :: rest) <;> rfl

/-- A text is read as an integer exactly if it stands for that integer in decimal and the
integer is in the range. -/
theorem read_eq_ok : read span s = .ok n ↔ Decimal s n ∧ span.Has n := by
  constructor
  · intro accepted
    cases s with
    | nil => cases accepted
    | cons c rest =>
      by_cases minus : c = '-'
      · subst minus
        by_cases some : rest = []
        · subst some
          cases accepted
        · rw [read_minus some] at accepted
          obtain ⟨digits, rfl, small⟩ := map_magnitude_eq_ok.1 accepted
          exact ⟨.minus ⟨some, digits⟩, by unfold Span.Has; omega⟩
      · by_cases plus : c = '+'
        · subst plus
          by_cases some : rest = []
          · subst some
            cases accepted
          · rw [read_plus some] at accepted
            obtain ⟨digits, rfl, small⟩ := map_magnitude_eq_ok.1 accepted
            exact ⟨.plus ⟨some, digits⟩, by unfold Span.Has; omega⟩
        · rw [read_unsigned minus plus] at accepted
          obtain ⟨digits, rfl, small⟩ := map_magnitude_eq_ok.1 accepted
          exact ⟨.plain ⟨List.cons_ne_nil c rest, digits⟩, by unfold Span.Has; omega⟩
  · rintro ⟨decimal, low, high⟩
    cases decimal with
    | minus digits =>
      rw [read_minus digits.nonempty]
      exact map_magnitude_eq_ok.2 ⟨digits.digits, rfl, by omega⟩
    | plus digits =>
      rw [read_plus digits.nonempty]
      exact map_magnitude_eq_ok.2 ⟨digits.digits, rfl, by omega⟩
    | plain digits =>
      obtain ⟨c, rest, rfl⟩ := List.exists_cons_of_ne_nil digits.nonempty
      have digit := digits.digits c List.mem_cons_self
      have minus : c ≠ '-' := by
        rintro rfl
        exact absurd digit (by decide)
      have plus : c ≠ '+' := by
        rintro rfl
        exact absurd digit (by decide)
      rw [read_unsigned minus plus]
      exact map_magnitude_eq_ok.2 ⟨digits.digits, rfl, by omega⟩

end Numeral

end NestedBatch

import Mathlib.Algebra.Group.Nat.Defs
import NestedBatch.Text.Numeral

/-! Runs of digits at the front of a text, and the digits of a number. -/
namespace NestedBatch.Numeral

variable {ds rest : List Char}

/-- Does a text go on with something that is no digit? -/
def NoDigit : List Char → Prop
  | [] => True
  | c :: _ => c.isDigit = false

theorem takeWhile_digits (digits : ∀ c ∈ ds, c.isDigit = true) (stop : NoDigit rest) :
    (ds ++ rest).takeWhile Char.isDigit = ds ∧ (ds ++ rest).dropWhile Char.isDigit = rest := by
  rw [List.takeWhile_append_of_pos digits, List.dropWhile_append_of_pos digits]
  cases rest with
  | nil => exact ⟨List.append_nil ds, rfl⟩
  | cons c rest =>
    have other : ¬ c.isDigit = true := by
      rw [show c.isDigit = false from stop]
      exact Bool.false_ne_true
    rw [List.takeWhile_cons_of_neg other, List.dropWhile_cons_of_neg other]
    exact ⟨List.append_nil ds, rfl⟩

theorem ofNat_ne_nil (n : Nat) : ofNat n ≠ [] := Nat.toDigits_ne_nil

theorem head_ofNat {n : Nat} (positive : n ≠ 0) : (ofNat n).head? ≠ some '0' := by
  induction n using Nat.strongRecOn with
  | ind n ih =>
    unfold ofNat
    rcases Nat.lt_or_ge n 10 with small | large
    · rw [Nat.toDigits_of_lt_base small]
      have digits : ∀ m < 10, m ≠ 0 → [Nat.digitChar m].head? ≠ some '0' := by decide
      exact digits n small positive
    · rw [Nat.toDigits_of_base_le (by decide) large]
      have shorter := ih (n / 10) (by omega) (by omega)
      obtain ⟨c, s, first⟩ := List.exists_cons_of_ne_nil (ofNat_ne_nil (n / 10))
      unfold ofNat at first shorter
      rw [first] at shorter ⊢
      exact shorter

theorem isDigit_replicate {k : Nat} : ∀ c ∈ List.replicate k '0', c.isDigit = true := by
  intro c h
  rw [List.eq_of_mem_replicate h]
  decide

theorem isDigit_of_mem_padded (width n : Nat) : ∀ c ∈ padded width n, c.isDigit = true := by
  intro c h
  rcases List.mem_append.1 h with zero | digit
  · exact isDigit_replicate c zero
  · exact isDigit_of_mem_ofNat digit

@[simp] theorem value_padded (width n : Nat) : value (padded width n) = n := by
  unfold value padded
  rw [Nat.ofDigitChars_append, Nat.ofDigitChars_replicate_zero, Nat.mul_zero]
  exact value_ofNat n

theorem length_padded {width n : Nat} (positive : 0 < width) (fits : n < 10 ^ width) :
    (padded width n).length = width := by
  have short : (ofNat n).length ≤ width :=
    (Nat.length_toDigits_le_iff (by decide) positive).2 fits
  simp only [padded, List.length_append, List.length_replicate]
  omega

theorem le_length_padded (width n : Nat) : width ≤ (padded width n).length := by
  simp only [padded, List.length_append, List.length_replicate]
  omega

theorem le_ofDigitChars (ds : List Char) (acc : Nat) : acc ≤ Nat.ofDigitChars 10 ds acc := by
  induction ds generalizing acc with
  | nil => exact Nat.le_refl acc
  | cons c rest ih =>
    rw [Nat.ofDigitChars_cons]
    have more := ih (10 * acc + (c.toNat - '0'.toNat))
    omega

/-- Digits that stay within the bound are read to their end. -/
theorem magnitude_digits {bound acc : Nat} (beyond : NumeralFault)
    (digits : ∀ c ∈ ds, c.isDigit = true) (fits : Nat.ofDigitChars 10 ds acc ≤ bound) :
    magnitude bound beyond acc ds = .ok (Nat.ofDigitChars 10 ds acc) := by
  induction ds generalizing acc with
  | nil => rfl
  | cons c rest ih =>
    obtain ⟨digit, others⟩ := List.forall_mem_cons.1 digits
    have here : digit? c = some (c.toNat - '0'.toNat) := if_pos digit
    rw [Nat.ofDigitChars_cons, Nat.mul_comm] at fits ⊢
    have within := Nat.le_trans (le_ofDigitChars rest _) fits
    simp only [magnitude, here, if_neg (Nat.not_lt.2 within)]
    exact ih others fits

/-- An integer of a range is read from its own text. -/
theorem read_ofInt {span : Span} {n : Int} (low : -(span.low : Int) ≤ n)
    (high : n ≤ span.high) : read span (ofInt n) = .ok n := by
  have digits : ∀ m, ∀ c ∈ ofNat m, c.isDigit = true := fun m c => isDigit_of_mem_ofNat
  have whole : ∀ m, Nat.ofDigitChars 10 (ofNat m) 0 = m := value_ofNat
  cases n with
  | ofNat m =>
    have fits : Nat.ofDigitChars 10 (ofNat m) 0 ≤ span.high := by
      rw [whole]
      exact Int.ofNat_le.1 high
    have read := magnitude_digits .tooLarge (digits m) fits
    obtain ⟨c, rest, first⟩ := List.exists_cons_of_ne_nil (ofNat_ne_nil m)
    have unsigned : ¬ (c = '-' ∨ c = '+') := by
      have digit := digits m c (first ▸ List.mem_cons_self)
      rintro (rfl | rfl) <;> exact absurd digit (by decide)
    rw [whole, first] at read
    simp only [ofInt, first, Numeral.read, if_neg unsigned, read]
    rfl
  | negSucc m =>
    have fits : Nat.ofDigitChars 10 (ofNat (m + 1)) 0 ≤ span.low := by
      rw [whole]
      omega
    have read := magnitude_digits .tooSmall (digits (m + 1)) fits
    have nonempty : (ofNat (m + 1)).isEmpty = false :=
      Bool.eq_false_iff.2 fun none => ofNat_ne_nil _ (List.isEmpty_iff.1 none)
    rw [whole] at read
    simp only [ofInt, Numeral.read, true_or, if_true, nonempty, read]
    rfl

end NestedBatch.Numeral

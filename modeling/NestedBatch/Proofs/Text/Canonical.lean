import Mathlib.Data.List.Induction
import NestedBatch.Proofs.Text.Digits

/-! The one text of an integer. Digits of which none could be left out are those of the number
that they stand for, so that an integer has no other text than a sign, where it is negative,
and such digits. -/
namespace NestedBatch.Numeral

variable {ds s : List Char}

/-- Digits, at least one, of which the first is no zero that could be left out. -/
structure Plain (ds : List Char) : Prop where
  nonempty : ds ≠ []
  digits : ∀ c ∈ ds, c.isDigit = true
  noZero : 1 < ds.length → ds.head? ≠ some '0'

theorem plain_ofNat (n : Nat) : Plain (ofNat n) := by
  refine ⟨ofNat_ne_nil n, fun c => isDigit_of_mem_ofNat, fun long => ?_⟩
  by_cases zero : n = 0
  · rw [zero] at long
    exact absurd long (by decide)
  · exact head_ofNat zero

/-- Without the last digit the others are still plain, if there are any. -/
theorem Plain.front {c : Char} (plain : Plain (ds ++ [c])) (some : ds ≠ []) :
    Plain ds ∧ ds.head? ≠ .some '0' := by
  obtain ⟨d, rest, rfl⟩ := List.exists_cons_of_ne_nil some
  have first : (d :: rest).head? ≠ .some '0' := plain.noZero (by simp)
  refine ⟨⟨some, fun c there => ?_, fun _ => first⟩, first⟩
  exact plain.digits c (List.mem_append_left _ there)

theorem value_concat (ds : List Char) (c : Char) :
    value (ds ++ [c]) = 10 * value ds + (c.toNat - '0'.toNat) := by
  simp [value, Nat.ofDigitChars_append, Nat.ofDigitChars_cons]

theorem digitChar_of_isDigit {c : Char} (digit : c.isDigit = true) :
    c.toNat - '0'.toNat < 10 ∧ Nat.digitChar (c.toNat - '0'.toNat) = c := by
  obtain ⟨low, high⟩ := Char.isDigit_iff_toNat.1 digit
  have from48 : '0'.toNat = 48 := rfl
  have to57 : '9'.toNat = 57 := rfl
  have small : c.toNat - '0'.toNat < 10 := by omega
  refine ⟨small, Char.toNat_inj.1 ?_⟩
  rw [Nat.toNat_digitChar_of_lt_ten small]
  omega

/-- Plain digits are those of the number that they stand for. -/
theorem ofNat_value (plain : Plain ds) : ofNat (value ds) = ds := by
  induction ds using List.reverseRecOn with
  | nil => exact absurd rfl plain.nonempty
  | append_singleton ds c ih =>
    obtain ⟨small, char⟩ := digitChar_of_isDigit (plain.digits c (by simp))
    rw [value_concat]
    by_cases some : ds = []
    · subst some
      rw [ofNat, show value [] = 0 from rfl, Nat.mul_zero, Nat.zero_add,
        Nat.toDigits_of_lt_base small, char]
      rfl
    · obtain ⟨front, first⟩ := plain.front some
      have same := ih front
      -- The digits in front stand for more than nothing, so that the last one is not alone.
      have positive : value ds ≠ 0 := by
        intro zero
        rw [zero] at same
        exact first (same ▸ rfl)
      rw [ofNat, Nat.toDigits_of_base_le (by decide) (by omega),
        show (10 * value ds + (c.toNat - '0'.toNat)) / 10 = value ds by omega,
        show (10 * value ds + (c.toNat - '0'.toNat)) % 10 = c.toNat - '0'.toNat by omega, char]
      exact congrArg (· ++ [c]) same

/-- The text of an integer: a minus sign, if it is negative, and the plain digits of its size.
So there is no plus sign, no zero that could be left out, and no negative zero. -/
structure Canonical (s : List Char) (n : Int) : Prop where
  written : ∃ ds, s = (if n < 0 then ['-'] else []) ++ ds ∧ Plain ds ∧ value ds = n.natAbs

theorem canonical_iff {n : Int} : Canonical s n ↔ ofInt n = s := by
  have text : ofInt n = (if n < 0 then ['-'] else []) ++ ofNat n.natAbs := by
    cases n with
    | ofNat m => rfl
    | negSucc m => rw [if_pos (Int.negSucc_lt_zero m)]; rfl
  rw [text]
  constructor
  · rintro ⟨ds, rfl, plain, size⟩
    rw [← size, ofNat_value plain]
  · rintro rfl
    exact ⟨_, rfl, plain_ofNat _, value_ofNat _⟩

end NestedBatch.Numeral

import NestedBatch.Proofs.Double.Rounding
import NestedBatch.Proofs.Double.Text
import NestedBatch.Proofs.Text.Blank

/-! The text of a finite double is read as that double: the decimal in it lies in the
interval of the size, and whatever lies there is rounded to that size. -/
namespace NestedBatch.Double

variable {g : Magnitude} {x : ℚ}

theorem cast_sub_le {a b : Nat} (atMost : (a : ℚ) ≤ x + b) (nonneg : 0 ≤ x) :
    ((a - b : Nat) : ℚ) ≤ x := by
  rcases Nat.le_total b a with less | more
  · rw [Nat.cast_sub less]
    linarith
  · rw [Nat.sub_eq_zero_of_le more]
    exact_mod_cast nonneg

namespace Rounds

variable {m : Nat} {y : ℚ} {e : Int}

theorem contains_of_carry (rounds : Rounds g m y e) (full : m = 2 ^ 53)
    (mantissa : g.mantissa = 2 ^ 52) (exponent : g.exponent = e + 1) :
    g.interval.Contains (y * 2 ^ e) := by
  have down := (abs_le.1 rounds.near).2
  have below := rounds.below
  have scaled : y * 2 ^ e = 2 * y * g.quarter := by
    rw [Magnitude.quarter, exponent, show e + 1 - 2 = e - 1 by omega, zpow_sub_one₀ two_ne_zero]
    ring
  -- The number is next below a power of two, whose interval reaches down by a quarter only.
  have narrow : g.lowQuarters = 2 ^ 54 - 1 := by
    have later : -1074 < e + 1 := Int.lt_add_one_iff.2 rounds.least
    rw [Magnitude.lowQuarters, mantissa, exponent, if_pos ⟨rfl, later⟩]
    rfl
  rw [full] at down
  rw [Magnitude.contains_iff, mantissa, if_pos (by decide), scaled, narrow]
  push_cast at down ⊢
  constructor
  · apply mul_le_mul_of_nonneg_right _ g.quarter_pos.le
    linarith
  · apply mul_le_mul_of_nonneg_right _ g.quarter_pos.le
    linarith

/-- A rounded number lies in the interval of its size. -/
theorem contains (rounds : Rounds g m y e) : g.interval.Contains (y * 2 ^ e) := by
  obtain ⟨up, down⟩ := abs_le.1 rounds.near
  have nonneg := rounds.nonneg
  have quarter := g.quarter_pos
  rcases rounds.form with ⟨full, mantissa, exponent⟩ | ⟨rfl, rfl⟩
  · exact rounds.contains_of_carry full mantissa exponent
  have scaled : y * 2 ^ g.exponent = 4 * y * g.quarter := by
    rw [Magnitude.quarter, zpow_sub₀ two_ne_zero]
    ring
  rw [Magnitude.contains_iff, scaled]
  split
  · have low : (g.lowQuarters : ℚ) ≤ 4 * y := by
      unfold Magnitude.lowQuarters
      split
      · rename_i narrow
        have large := rounds.normal.resolve_right narrow.2.ne'
        refine cast_sub_le ?_ (by linarith)
        rw [narrow.1]
        norm_num
        linarith
      · refine cast_sub_le ?_ (by linarith)
        push_cast
        linarith
    constructor
    · exact mul_le_mul_of_nonneg_right low quarter.le
    · apply mul_le_mul_of_nonneg_right _ quarter.le
      linarith
  · rename_i odd
    obtain ⟨up, down⟩ := abs_lt.1 (rounds.odd (by omega))
    have low : g.lowQuarters = 4 * g.mantissa - 2 := by
      apply if_neg
      intro narrow
      rw [narrow.1] at odd
      exact odd (by decide)
    rw [low, Nat.cast_sub (by omega)]
    push_cast
    constructor
    · apply mul_lt_mul_of_pos_right _ quarter
      linarith
    · apply mul_lt_mul_of_pos_right _ quarter
      linarith

end Rounds

theorem ofRatio_of_contains (negative : Bool) {num den : Nat} (some : num ≠ 0)
    (positive : 0 < den) (small : (num : ℚ) / den < overflow)
    (contains : g.interval.Contains (num / den)) : ofRatio negative num den = .finite negative g := by
  obtain ⟨g', m, y, e, found, rounds, quotient⟩ := ofRatio_rounds negative some positive small
  have within := rounds.contains
  rw [quotient] at within
  rw [found, Magnitude.eq_of_contains contains within]

theorem lt_overflow_of_contains (contains : g.interval.Contains x) : x < overflow := by
  obtain ⟨bound, _, top, _⟩ := g.fits
  have size : Nat.pow 2 53 = 9007199254740992 := rfl
  rw [size] at bound
  have quarter : g.quarter ≤ 2 ^ (969 : Int) := zpow_le_zpow_right₀ one_le_two (by omega)
  have room : ∀ q : Nat, q ≤ 2 ^ 55 - 2 → (q : ℚ) * g.quarter ≤ overflow := by
    intro q bound
    have bound' : (q : ℚ) ≤ 2 ^ 55 - 2 := by
      norm_num
      exact_mod_cast bound
    calc (q : ℚ) * g.quarter ≤ (2 ^ 55 - 2) * 2 ^ (969 : Int) :=
          mul_le_mul bound' quarter g.quarter_pos.le (by norm_num)
      _ = overflow := by
        rw [overflow, show (970 : Int) = 969 + 1 from rfl, zpow_add_one₀ two_ne_zero]
        ring
  rw [Magnitude.contains_iff] at contains
  split at contains
  -- An even mantissa is not the largest one, so that the end of its interval is below.
  · calc x ≤ (4 * g.mantissa + 2) * g.quarter := contains.2
      _ < ((4 * g.mantissa + 3 : Nat) : ℚ) * g.quarter := by
        apply mul_lt_mul_of_pos_right _ g.quarter_pos
        push_cast
        linarith
      _ ≤ overflow := room (4 * g.mantissa + 3) (by omega)
  · calc x < ((4 * g.mantissa + 2 : Nat) : ℚ) * g.quarter := by exact_mod_cast contains.2
      _ ≤ overflow := room (4 * g.mantissa + 2) (by omega)

theorem decade_lt_of_contains (positive : g.mantissa ≠ 0) (contains : g.interval.Contains x) :
    ((10 : ℚ) ^ 330)⁻¹ < x := by
  have least := g.fits.2.1
  have quarter : (2 : ℚ) ^ (-1076 : Int) ≤ g.quarter := zpow_le_zpow_right₀ one_le_two (by omega)
  have two : (2 : ℚ) ≤ g.lowQuarters := by
    have whole : 2 ≤ g.lowQuarters := by
      unfold Magnitude.lowQuarters
      split <;> omega
    exact_mod_cast whole
  have low : g.lowQuarters * g.quarter ≤ x := by
    rw [Magnitude.contains_iff] at contains
    split at contains
    · exact contains.1
    · exact contains.1.le
  have powers : (2 ^ 1075 : ℚ) < 10 ^ 330 := by
    have whole : 2 ^ 1075 < 10 ^ 330 := by decide +kernel
    exact_mod_cast whole
  calc ((10 : ℚ) ^ 330)⁻¹ < (2 ^ 1075)⁻¹ := inv_strictAnti₀ (by positivity) powers
    _ = 2 * 2 ^ (-1076 : Int) := by
      rw [← zpow_one_add₀ two_ne_zero, ← zpow_natCast, ← zpow_neg]
      rfl
    _ ≤ g.lowQuarters * g.quarter := mul_le_mul two quarter (by positivity) (by positivity)
    _ ≤ x := low

/-- Neither bound on the power of ten is met by a number that is rounded to a size. -/
theorem ofDecimal_of_contains (negative : Bool) (positive : g.mantissa ≠ 0) {n k : Nat}
    (contains : g.interval.Contains ((n : ℚ) / 10 ^ k)) :
    ofDecimal negative n (-(k : Int)) = .finite negative g := by
  have ten : (0 : ℚ) < 10 ^ k := by positivity
  have small := lt_overflow_of_contains contains
  have large := decade_lt_of_contains positive contains
  have some : n ≠ 0 := by
    rintro rfl
    rw [Nat.cast_zero, zero_div] at large
    exact absurd large (not_lt.2 (by positivity))
  obtain ⟨above, below⟩ := Magnitude.length_bounds n
  have top : ¬ (311 : Int) ≤ -(k : Int) + (Numeral.ofNat n).length := by
    intro top
    have digits : 10 ^ 309 * 10 ^ k ≤ n := by
      rw [← pow_add]
      exact (Nat.pow_le_pow_right (by decide) (by omega)).trans
        (below (Nat.pos_of_ne_zero some))
    have digits' : (10 : ℚ) ^ 309 * 10 ^ k ≤ n := by exact_mod_cast digits
    exact absurd (small.trans overflow_decade.2) (not_lt.2 ((le_div_iff₀ ten).2 digits'))
  have bottom : ¬ -(k : Int) + (Numeral.ofNat n).length ≤ -330 := by
    intro bottom
    have digits : n * 10 ^ 330 ≤ 10 ^ k := by
      calc n * 10 ^ 330 ≤ 10 ^ (Numeral.ofNat n).length * 10 ^ 330 :=
            Nat.mul_le_mul_right _ above.le
        _ = 10 ^ ((Numeral.ofNat n).length + 330) := (pow_add _ _ _).symm
        _ ≤ 10 ^ k := Nat.pow_le_pow_right (by decide) (by omega)
    have digits' : (n : ℚ) * 10 ^ 330 ≤ 10 ^ k := by exact_mod_cast digits
    refine absurd large (not_lt.2 ?_)
    rw [div_le_iff₀ ten, inv_mul_eq_div, le_div_iff₀ (by positivity)]
    exact digits'
  simp only [ofDecimal, some, if_false, top, bottom]
  cases k with
  | zero =>
    rw [pow_zero, div_one] at contains small
    exact ofRatio_of_contains negative (by simpa using some) Nat.one_pos (by simpa using small)
      (by simpa using contains)
  | succ k =>
    have cast : ((Nat.pow 10 (k + 1) : Nat) : ℚ) = 10 ^ (k + 1) := Nat.cast_pow 10 (k + 1)
    rw [if_neg (by omega), neg_neg, Int.toNat_natCast]
    exact ofRatio_of_contains negative some (Nat.pow_pos (by decide)) (cast ▸ small)
      (cast ▸ contains)

section Reading

variable {w : Written}

theorem toLower_digit {c : Char} (digit : c.isDigit = true) : c.toLower = c := by
  simp only [Char.isDigit, Bool.and_eq_true, decide_eq_true_eq] at digit
  unfold Char.toLower
  split
  · rename_i upper
    simp [UInt32.le_iff_toNat_le] at upper digit
    omega
  · rfl

theorem named_digit (negative : Bool) {c : Char} (digit : c.isDigit = true) (s : List Char) :
    named negative (c :: s) = none := by
  have apart : ∀ d rest, d.isDigit = false →
      String.ofList ((c :: s).map Char.toLower) ≠ String.ofList (d :: rest) := by
    intro d rest other same
    have first := (List.cons.inj (String.ofList_injective same)).1
    rw [toLower_digit digit] at first
    rw [first, other] at digit
    cases digit
  simp only [named]
  rw [if_neg, if_neg]
  · exact apart 'n' ['a', 'n'] rfl
  · rintro (same | same)
    · exact apart 'i' ['n', 'f'] rfl same
    · exact apart 'i' ['n', 'f', 'i', 'n', 'i', 't', 'y'] rfl same

theorem spanDigits_append {ds rest : List Char} (digits : ∀ c ∈ ds, c.isDigit = true)
    (stop : Numeral.NoDigit rest) : spanDigits (ds ++ rest) = (ds, rest) :=
  Prod.ext_iff.2 (Numeral.takeWhile_digits digits stop)

theorem readUnsigned_written (formed : Json.WellFormed w) (negative : Bool) :
    readUnsigned negative (w.whole ++ w.fractionChars)
      = some (ofDecimal negative (Numeral.value (w.whole ++ w.fraction))
          (-(w.fraction.length : Int))) := by
  have nonempty : w.whole.isEmpty = false :=
    Bool.eq_false_iff.2 fun none => formed.wholeNonempty (List.isEmpty_iff.1 none)
  have stop : Numeral.NoDigit w.fractionChars := by
    unfold Written.fractionChars
    split
    · trivial
    · exact (by decide : '.'.isDigit = false)
  have after : spanDigits w.fraction = (w.fraction, []) := by
    have read : spanDigits (w.fraction ++ []) = (w.fraction, []) :=
      spanDigits_append formed.fractionDigits trivial
    rwa [List.append_nil] at read
  unfold readUnsigned
  rw [spanDigits_append formed.wholeDigits stop]
  cases point : w.fraction with
  | nil => simp [Written.fractionChars, point, nonempty, readExponent]
  | cons c more =>
    rw [point] at after
    simp [Written.fractionChars, point, after, nonempty, readExponent]

theorem read_digit {c : Char} (digit : c.isDigit = true) (s : List Char) :
    read (c :: s) = readUnsigned false (c :: s) := by
  have unsigned : c ≠ '-' ∧ c ≠ '+' := by
    constructor <;> (rintro rfl; exact absurd digit (by decide))
  simp [read, unsigned, named_digit false digit]

theorem read_minus {c : Char} (digit : c.isDigit = true) (s : List Char) :
    read ('-' :: c :: s) = readUnsigned true (c :: s) := by
  simp [read, named_digit true digit]

/-- A number without a power of ten is read by its digits and the place of its point. -/
theorem read_written (formed : Json.WellFormed w) (plain : w.exponent = none) :
    read w.chars = some (ofDecimal w.negative (Numeral.value (w.whole ++ w.fraction))
      (-(w.fraction.length : Int))) := by
  obtain ⟨d, more, first⟩ := List.exists_cons_of_ne_nil formed.wholeNonempty
  have digit : d.isDigit = true := formed.wholeDigits d (first ▸ List.mem_cons_self)
  have chars : w.chars = (if w.negative then ['-'] else []) ++ (w.whole ++ w.fractionChars) := by
    simp [Written.chars, Written.exponentChars, plain]
  rw [← readUnsigned_written formed w.negative, chars, first, List.cons_append]
  cases w.negative with
  | true => exact read_minus digit _
  | false => exact read_digit digit _

end Reading

theorem exponent_write (negative : Bool) (g : Magnitude) :
    (plain.write negative g).exponent = none := by
  have full : plain.writtenOut = fun _ => true := rfl
  simp only [NumberStyle.write, full, if_true, NumberStyle.positional]
  split
  · rfl
  · split
    · rfl
    · split <;> rfl

/-- A finite double is read from its text as it is, down to the sign of a zero. -/
theorem read_chars {d : Double} (finite : d.isFinite = true) : read d.chars = some d := by
  cases d with
  | nan | infinite _ => cases finite
  | finite negative g =>
    have formed : Json.WellFormed (plain.write negative g) :=
      Json.wellFormed_styled (fun _ none => by cases none) negative g
    rw [chars, read_written formed (exponent_write negative g), negative_write]
    by_cases zero : g.mantissa = 0
    · have nothing : g = .zero := eq_of_mantissa_zero zero rfl
      rw [nothing]
      rfl
    · have contains : g.interval.Contains (plain.write negative g).number := by
        rw [number_write zero]
        exact (Magnitude.shortest_contains zero .larger).2
      rw [ofDecimal_of_contains negative zero contains]

end NestedBatch.Double

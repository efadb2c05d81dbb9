import Mathlib.Algebra.Order.Field.Power
import Mathlib.Algebra.Order.Ring.Rat
import Mathlib.Data.Rat.Cast.Order
import Mathlib.Tactic.FieldSimp
import Mathlib.Tactic.Linarith
import Mathlib.Tactic.Positivity
import Mathlib.Tactic.Ring
import NestedBatch.Proofs.Json.Number

/-! The numbers that are rounded to a size. The intervals of two sizes do not meet,
and each of them holds a decimal of seventeen digits at most; so the shortest decimal
of a size is not that of any other one. -/
namespace NestedBatch

/-- The number that a decimal stands for. -/
def Decimal.number (d : Decimal) : ℚ := d.digits * (10 : ℚ) ^ d.exponent

theorem Decimal.number_stripped (fuel : Nat) (d : Decimal) :
    (d.stripped fuel).number = d.number := by
  induction fuel generalizing d with
  | zero => rfl
  | succ fuel ih =>
    unfold Decimal.stripped
    split
    · rename_i round
      rw [ih]
      have tens : ((d.digits / 10 : Nat) : ℚ) * 10 = d.digits := by
        exact_mod_cast Nat.div_mul_cancel (Nat.dvd_of_mod_eq_zero round.2)
      simp only [Decimal.number, zpow_add_one₀ (show (10 : ℚ) ≠ 0 by norm_num), ← tens]
      ring
    · rfl

namespace Magnitude

variable {g h : Magnitude}

def Interval.Contains (i : Interval) (x : ℚ) : Prop :=
  if i.closed then (i.low : ℚ) ≤ x * i.unit ∧ x * i.unit ≤ i.high
  else (i.low : ℚ) < x * i.unit ∧ x * i.unit < i.high

/-- Comparisons with a multiple of a power of ten, made on whole numbers. -/
theorem number_le_iff (t unit a : Nat) (k : Int) :
    let num := if 0 ≤ k then t * Nat.pow 10 k.toNat * unit else t * unit
    let den := if 0 ≤ k then 1 else Nat.pow 10 (-k).toNat
    (a * den ≤ num ↔ (a : ℚ) ≤ Decimal.number ⟨t, k⟩ * unit) ∧
      (num ≤ a * den ↔ Decimal.number ⟨t, k⟩ * unit ≤ (a : ℚ)) := by
  dsimp only [Decimal.number]
  by_cases sign : 0 ≤ k
  · obtain ⟨n, rfl⟩ := Int.eq_ofNat_of_zero_le sign
    simp only [sign, if_true, Int.toNat_natCast, Nat.mul_one, zpow_natCast]
    constructor <;> exact_mod_cast Iff.rfl
  · obtain ⟨n, rfl⟩ : ∃ n : Nat, k = -(n : Int) := ⟨(-k).toNat, by omega⟩
    have ten : (0 : ℚ) < 10 ^ n := by positivity
    have quotient : (t : ℚ) * ((10 : ℚ) ^ n)⁻¹ * unit = t * unit / 10 ^ n := by
      rw [div_eq_mul_inv]
      ring
    simp only [sign, if_false, neg_neg, Int.toNat_natCast, zpow_neg, zpow_natCast]
    rw [quotient, le_div_iff₀ ten, div_le_iff₀ ten]
    constructor <;> exact_mod_cast Iff.rfl

theorem Interval.holds_iff {i : Interval} {t : Nat} {k : Int} :
    i.holds t k = true ↔ i.Contains (Decimal.number ⟨t, k⟩) := by
  obtain ⟨low, above⟩ := number_le_iff t i.unit i.low k
  obtain ⟨below, high⟩ := number_le_iff t i.unit i.high k
  unfold Interval.holds Interval.Contains
  cases i.closed
  · simp only [Bool.false_eq_true, if_false, Bool.and_eq_true, decide_eq_true_eq, ← not_le,
      above, below]
  · simp only [if_true, Bool.and_eq_true, decide_eq_true_eq, low, high]

/-- A quarter of the distance to the next size. -/
def quarter (g : Magnitude) : ℚ := (2 : ℚ) ^ (g.exponent - 2)

/-- The lower end of the interval, in quarters. -/
def lowQuarters (g : Magnitude) : Nat :=
  if g.mantissa = Nat.pow 2 52 ∧ -1074 < g.exponent then 4 * g.mantissa - 1
  else 4 * g.mantissa - 2

theorem quarter_pos (g : Magnitude) : 0 < g.quarter := zpow_pos (by norm_num) _

theorem interval_unit_pos (g : Magnitude) : 0 < g.interval.unit := by
  simp only [interval]
  split
  · exact Nat.one_pos
  · exact Nat.pow_pos (by decide)

theorem interval_quarters (g : Magnitude) :
    (g.interval.low : ℚ) = g.lowQuarters * g.quarter * g.interval.unit ∧
      (g.interval.middle : ℚ) = 4 * g.mantissa * g.quarter * g.interval.unit ∧
      (g.interval.high : ℚ) = (4 * g.mantissa + 2) * g.quarter * g.interval.unit := by
  have scale : (((if 2 ≤ g.exponent then Nat.pow 2 (g.exponent - 2).toNat else 1 : Nat)) : ℚ)
      = g.quarter * ((if 2 ≤ g.exponent then 1 else Nat.pow 2 (2 - g.exponent).toNat : Nat)) := by
    unfold quarter
    split
    · rename_i large
      obtain ⟨n, hn⟩ := Int.eq_ofNat_of_zero_le (sub_nonneg.2 large)
      rw [hn]
      simp
    · rename_i small
      obtain ⟨n, hn⟩ : ∃ n : Nat, 2 - g.exponent = n := ⟨(2 - g.exponent).toNat, by omega⟩
      rw [show g.exponent - 2 = -(n : Int) by omega, hn]
      simp
  simp only [interval, lowQuarters, Bool.decide_and, Bool.and_eq_true, decide_eq_true_eq]
  refine ⟨?_, ?_, ?_⟩ <;> push_cast [scale] <;> ring

theorem contains_iff {x : ℚ} : g.interval.Contains x ↔
    if g.mantissa % 2 = 0 then
      g.lowQuarters * g.quarter ≤ x ∧ x ≤ (4 * g.mantissa + 2) * g.quarter
    else g.lowQuarters * g.quarter < x ∧ x < (4 * g.mantissa + 2) * g.quarter := by
  obtain ⟨low, _, high⟩ := interval_quarters g
  have unit : (0 : ℚ) < g.interval.unit := by exact_mod_cast interval_unit_pos g
  have closed : g.interval.closed = decide (g.mantissa % 2 = 0) := rfl
  simp only [Interval.Contains, closed, decide_eq_true_eq, low, high,
    mul_le_mul_iff_left₀ unit, mul_lt_mul_iff_left₀ unit]

/-- Sizes come in the order of their exponents, and of their mantissas where those are the same. -/
def Before (g h : Magnitude) : Prop :=
  g.exponent < h.exponent ∨ g.exponent = h.exponent ∧ g.mantissa < h.mantissa

theorem eq_or_before (g h : Magnitude) : g = h ∨ g.Before h ∨ h.Before g := by
  rcases Int.lt_trichotomy g.exponent h.exponent with less | same | greater
  · exact Or.inr (Or.inl (Or.inl less))
  · rcases Nat.lt_trichotomy g.mantissa h.mantissa with less | same' | greater
    · exact Or.inr (Or.inl (Or.inr ⟨same, less⟩))
    · cases g
      cases h
      cases same
      cases same'
      exact Or.inl rfl
    · exact Or.inr (Or.inr (Or.inr ⟨same.symm, greater⟩))
  · exact Or.inr (Or.inr (Or.inl greater))

/-- An interval ends where that of any later size begins, at the latest. Where the two
meet, one of the mantissas is odd. -/
theorem Before.ends (before : g.Before h) :
    (4 * g.mantissa + 2) * g.quarter ≤ h.lowQuarters * h.quarter ∧
      ((4 * g.mantissa + 2) * g.quarter = h.lowQuarters * h.quarter →
        ¬ (g.mantissa % 2 = 0 ∧ h.mantissa % 2 = 0)) := by
  obtain ⟨bound, _, _, normal⟩ := g.fits
  obtain ⟨_, least, _, normal'⟩ := h.fits
  have size : Nat.pow 2 53 = 9007199254740992 := rfl
  have half : Nat.pow 2 52 = 4503599627370496 := rfl
  rw [size] at bound
  rw [half] at normal normal'
  rcases before with less | ⟨same, less⟩
  · have quarters : 18014398509481983 ≤ h.lowQuarters := by
      unfold lowQuarters
      rw [half]
      split <;> omega
    have double : 2 * g.quarter ≤ h.quarter := by
      have step : 2 * g.quarter = (2 : ℚ) ^ (g.exponent - 2 + 1) := by
        rw [zpow_add_one₀ (by norm_num), mul_comm, quarter]
      rw [step]
      exact zpow_le_zpow_right₀ (by norm_num) (by omega)
    have room : 2 * 18014398509481983 * g.quarter ≤ h.lowQuarters * h.quarter := by
      have atLeast : (18014398509481983 : ℚ) ≤ h.lowQuarters := by exact_mod_cast quarters
      calc 2 * 18014398509481983 * g.quarter = 18014398509481983 * (2 * g.quarter) := by ring
        _ ≤ 18014398509481983 * h.quarter := by gcongr
        _ ≤ h.lowQuarters * h.quarter := by gcongr; exact (quarter_pos h).le
    have upTo : (4 * g.mantissa + 2 : ℚ) ≤ 2 * 18014398509481983 := by
      exact_mod_cast (by omega : 4 * g.mantissa + 2 ≤ 2 * 18014398509481983)
    refine ⟨(mul_le_mul_of_nonneg_right upTo (quarter_pos g).le).trans room,
      fun meets even => ?_⟩
    have full : (2 * 18014398509481983 : ℚ) ≤ 4 * g.mantissa + 2 :=
      le_of_mul_le_mul_right (room.trans meets.ge) (quarter_pos g)
    have whole : 2 * 18014398509481983 ≤ 4 * g.mantissa + 2 := by exact_mod_cast full
    omega
  · have gaps : 4 * g.mantissa + 2 ≤ h.lowQuarters := by
      unfold lowQuarters
      rw [half]
      split <;> omega
    have quarters : h.quarter = g.quarter := by simp only [quarter, same]
    have positive := quarter_pos g
    rw [quarters]
    refine ⟨?_, fun meets => ?_⟩
    · exact mul_le_mul_of_nonneg_right (by exact_mod_cast gaps) positive.le
    · have equal := mul_right_cancel₀ positive.ne' meets
      have exact' : 4 * g.mantissa + 2 = h.lowQuarters := by exact_mod_cast equal
      unfold lowQuarters at exact'
      split at exact' <;> omega

/-- A number that is rounded to two sizes is rounded to one. -/
theorem eq_of_contains {x : ℚ} (left : g.interval.Contains x) (right : h.interval.Contains x) :
    g = h := by
  have apart : ∀ {g h : Magnitude}, g.Before h → g.interval.Contains x →
      ¬ h.interval.Contains x := by
    intro g h before left right
    obtain ⟨ends, meet⟩ := before.ends
    rw [contains_iff] at left right
    split at left <;> split at right
    · rename_i even even'
      have same := le_antisymm ends (right.1.trans left.2)
      exact meet same ⟨even, even'⟩
    · exact absurd (right.1.trans_le left.2) (not_lt.2 ends)
    · exact absurd (right.1.trans_lt left.2) (not_lt.2 ends)
    · exact absurd (right.1.trans left.2) (not_lt.2 ends)
  rcases eq_or_before g h with same | before | after
  · exact same
  · exact absurd right (apart before left)
  · exact absurd left (apart after right)

theorem length_bounds (n : Nat) :
    n < 10 ^ (Numeral.ofNat n).length ∧ (0 < n → 10 ^ ((Numeral.ofNat n).length - 1) ≤ n) := by
  have positive : 0 < (Numeral.ofNat n).length := List.length_pos_iff.2 (Numeral.ofNat_ne_nil n)
  refine ⟨(Nat.length_toDigits_le_iff (by decide) positive).1 (Nat.le_refl _), fun nonzero => ?_⟩
  by_cases single : (Numeral.ofNat n).length = 1
  · rw [single]
    exact nonzero
  · by_contra less
    have shorter := (Nat.length_toDigits_le_iff (b := 10) (n := n) (by decide)
      (show 0 < (Numeral.ofNat n).length - 1 by omega)).2 (Nat.lt_of_not_le less)
    have length : (Nat.toDigits 10 n).length = (Numeral.ofNat n).length := rfl
    omega

theorem Interval.decade_le {i : Interval} (middle : 0 < i.middle) :
    (10 : ℚ) ^ (i.decade - 1) * i.unit ≤ i.middle := by
  unfold Interval.decade
  extract_lets guess reaches
  by_cases reached : reaches = true
  · rw [if_pos reached, Int.add_sub_cancel]
    simp only [reaches] at reached
    split at reached <;> rename_i sign
    · obtain ⟨n, hn⟩ := Int.eq_ofNat_of_zero_le sign
      rw [hn] at reached ⊢
      have whole := of_decide_eq_true reached
      simp only [Int.toNat_natCast] at whole
      rw [zpow_natCast, mul_comm]
      exact_mod_cast whole
    · obtain ⟨n, hn⟩ : ∃ n : Nat, guess = -(n : Int) := ⟨(-guess).toNat, by omega⟩
      rw [hn] at reached ⊢
      have whole := of_decide_eq_true reached
      simp only [neg_neg, Int.toNat_natCast] at whole
      rw [zpow_neg, zpow_natCast, inv_mul_le_iff₀ (by positivity), mul_comm]
      exact_mod_cast whole
  · rw [if_neg reached]
    obtain ⟨below, _⟩ := length_bounds i.unit
    obtain ⟨_, above⟩ := length_bounds i.middle
    have unit : (i.unit : ℚ) ≤ 10 ^ ((Numeral.ofNat i.unit).length : Int) := by
      rw [zpow_natCast]
      exact_mod_cast below.le
    have ten : (0 : ℚ) < 10 ^ (guess - 1) := by positivity
    have length : 0 < (Numeral.ofNat i.middle).length :=
      List.length_pos_iff.2 (Numeral.ofNat_ne_nil _)
    calc (10 : ℚ) ^ (guess - 1) * i.unit
        ≤ 10 ^ (guess - 1) * 10 ^ ((Numeral.ofNat i.unit).length : Int) := by gcongr
      _ = 10 ^ (((Numeral.ofNat i.middle).length - 1 : Nat) : Int) := by
          rw [← zpow_add₀ (by norm_num)]
          congr 1
          simp only [guess]
          omega
      _ ≤ i.middle := by
          rw [zpow_natCast]
          exact_mod_cast above middle

theorem Interval.grid_bounds {i : Interval} (unit : 0 < i.unit) (k : Int) :
    let num := if 0 ≤ k then i.middle else i.middle * Nat.pow 10 (-k).toNat
    let den := if 0 ≤ k then i.unit * Nat.pow 10 k.toNat else i.unit
    Decimal.number ⟨num / den, k⟩ * i.unit ≤ i.middle ∧
      (i.middle : ℚ) ≤ Decimal.number ⟨num / den + 1, k⟩ * i.unit := by
  intro num den
  have positive : 0 < den := by
    simp only [den]
    split
    · exact Nat.mul_pos unit (Nat.pow_pos (by decide))
    · exact unit
  have below : num / den * den ≤ num := Nat.div_mul_le_self num den
  have above : num ≤ (num / den + 1) * den := by
    rw [Nat.add_mul, Nat.one_mul]
    exact (Nat.lt_div_mul_add positive).le
  refine ⟨(number_le_iff (num / den) i.unit i.middle k).2.1 ?_,
    (number_le_iff (num / den + 1) i.unit i.middle k).1.1 ?_⟩
  · simp only [num, den] at below ⊢
    split at below <;> rename_i sign <;> simp only [sign, if_true, if_false] at below ⊢
    · rw [Nat.mul_one, Nat.mul_assoc, Nat.mul_comm _ i.unit]
      exact below
    · exact below
  · simp only [num, den] at above ⊢
    split at above <;> rename_i sign <;> simp only [sign, if_true, if_false] at above ⊢
    · rw [Nat.mul_one, Nat.mul_assoc, Nat.mul_comm _ i.unit]
      exact above
    · exact above

theorem Interval.contains_of_lt {i : Interval} {x : ℚ} (low : (i.low : ℚ) < x * i.unit)
    (high : x * i.unit < i.high) : i.Contains x := by
  unfold Interval.Contains
  split
  · exact ⟨low.le, high.le⟩
  · exact ⟨low, high⟩

/-- A multiple of a power of ten lies in the interval if the power is less than its width. -/
theorem Interval.onGrid_isSome {i : Interval} (tie : Tie) {k : Int} (unit : 0 < i.unit)
    (low : i.low < i.middle) (high : i.middle < i.high)
    (width : (10 : ℚ) ^ k * i.unit < (i.high : ℚ) - i.low) : ∃ t, i.onGrid tie k = some t := by
  obtain ⟨floor, ceiling⟩ := Interval.grid_bounds unit k
  unfold Interval.onGrid
  extract_lets num den t rest upper
  change Decimal.number ⟨t, k⟩ * i.unit ≤ i.middle at floor
  change (i.middle : ℚ) ≤ Decimal.number ⟨t + 1, k⟩ * i.unit at ceiling
  have lower : (i.low : ℚ) < i.middle := by exact_mod_cast low
  have upper : (i.middle : ℚ) < i.high := by exact_mod_cast high
  have outside : ∀ {s : Nat}, i.holds s k = false → ¬ Interval.Contains i (Decimal.number ⟨s, k⟩) :=
    fun fails contains => by simp [Interval.holds_iff.2 contains] at fails
  cases below : i.holds t k <;> cases above : i.holds (t + 1) k
  · exfalso
    have left : Decimal.number ⟨t, k⟩ * i.unit ≤ i.low := by
      by_contra inside
      exact outside below (contains_of_lt (not_le.1 inside) (floor.trans_lt upper))
    have right : (i.high : ℚ) ≤ Decimal.number ⟨t + 1, k⟩ * i.unit := by
      by_contra inside
      exact outside above (contains_of_lt (lower.trans_le ceiling) (not_le.1 inside))
    have next : Decimal.number ⟨t + 1, k⟩ * i.unit
        = Decimal.number ⟨t, k⟩ * i.unit + 10 ^ k * i.unit := by
      simp only [Decimal.number, Nat.cast_add, Nat.cast_one]
      ring
    linarith
  all_goals exact ⟨_, rfl⟩

/-- Seventeen digits are enough for every size. -/
theorem onGrid_seventeen (positive : g.mantissa ≠ 0) (tie : Tie) :
    ∃ t, g.interval.onGrid tie (g.interval.decade - 17) = some t := by
  have bound := g.fits.1
  have size : Nat.pow 2 53 = 9007199254740992 := rfl
  have half : Nat.pow 2 52 = 4503599627370496 := rfl
  rw [size] at bound
  obtain ⟨low, middle, high⟩ := interval_quarters g
  have unit := interval_unit_pos g
  have unit' : (0 : ℚ) < g.interval.unit := by exact_mod_cast unit
  have quarter := mul_pos (quarter_pos g) unit'
  obtain ⟨below, wide⟩ : g.lowQuarters < 4 * g.mantissa ∧
      4 * g.mantissa + 10 ^ 16 * g.lowQuarters < 10 ^ 16 * (4 * g.mantissa + 2) := by
    unfold lowQuarters
    rw [half]
    split <;> omega
  have lower : (g.interval.low : ℚ) < g.interval.middle := by
    simp only [low, middle, mul_assoc _ g.quarter]
    exact mul_lt_mul_of_pos_right (by exact_mod_cast below) quarter
  have upper : (g.interval.middle : ℚ) < g.interval.high := by
    simp only [middle, high, mul_assoc _ g.quarter]
    exact mul_lt_mul_of_pos_right (lt_add_of_pos_right _ two_pos) quarter
  have spread : (g.interval.middle : ℚ)
      < 10 ^ 16 * ((g.interval.high : ℚ) - g.interval.low) := by
    have gaps : (4 * g.mantissa + 10 ^ 16 * g.lowQuarters : ℚ)
        < 10 ^ 16 * (4 * g.mantissa + 2) := by
      exact_mod_cast wide
    rw [low, middle, high]
    nlinarith
  refine Interval.onGrid_isSome tie unit (by exact_mod_cast lower) (by exact_mod_cast upper) ?_
  have decade := Interval.decade_le (i := g.interval) (by
    exact_mod_cast (Nat.cast_nonneg (α := ℚ) _).trans_lt lower)
  have power : (10 : ℚ) ^ (g.interval.decade - 1)
      = 10 ^ 16 * 10 ^ (g.interval.decade - 17) := by
    rw [← zpow_natCast, ← zpow_add₀ (by norm_num)]
    congr 1
    push_cast
    ring
  rw [power, mul_assoc] at decade
  exact lt_of_mul_lt_mul_left (decade.trans_lt spread) (by norm_num)

/-- The shortest decimal of a size is rounded to it. -/
theorem shortest_contains (positive : g.mantissa ≠ 0) (tie : Tie) :
    (g.shortest tie).digits ≠ 0 ∧ g.interval.Contains (g.shortest tie).number := by
  simp only [shortest, Decimal.number_stripped]
  generalize search : (List.range 17).findSome? (fun n =>
    (g.interval.onGrid tie (g.interval.decade - (n + 1 : Nat))).map fun t =>
      (⟨t, g.interval.decade - (n + 1 : Nat)⟩ : Decimal)) = found
  cases found with
  | none =>
    obtain ⟨t, last⟩ := onGrid_seventeen positive tie
    have missing := List.findSome?_eq_none_iff.1 search 16 (by decide)
    have same : g.interval.decade - ((16 + 1 : Nat) : Int) = g.interval.decade - 17 := rfl
    rw [same, last] at missing
    cases missing
  | some d =>
    obtain ⟨n, _, here⟩ := List.exists_of_findSome?_eq_some search
    obtain ⟨t, onGrid, rfl⟩ := Option.map_eq_some_iff.1 here
    have nonzero : t ≠ 0 := Interval.onGrid_ne_zero (interval_low_pos positive) onGrid
    exact ⟨Decimal.stripped_digits_ne_zero (d := ⟨t, _⟩) 20 nonzero,
      Interval.holds_iff.1 (Interval.holds_onGrid onGrid)⟩

theorem eq_of_shortest {tie : Tie} (left : g.mantissa ≠ 0) (right : h.mantissa ≠ 0)
    (same : (g.shortest tie).number = (h.shortest tie).number) : g = h :=
  eq_of_contains (shortest_contains left tie).2 (same ▸ (shortest_contains right tie).2)

end Magnitude

end NestedBatch

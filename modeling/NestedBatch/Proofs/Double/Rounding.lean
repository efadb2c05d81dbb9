import NestedBatch.Proofs.Double.Interval

/-! Rounding to the nearest size. Below the middle between the largest size and the next
power of two nothing is rounded to an infinity, and from one on the rounded size is at
most a part in `2 ^ 53` away. -/
namespace NestedBatch

/-- The number that a size stands for. -/
def Magnitude.number (g : Magnitude) : ℚ := g.mantissa * (2 : ℚ) ^ g.exponent

theorem Magnitude.number_nonneg (g : Magnitude) : 0 ≤ g.number := by
  unfold number
  positivity

theorem Magnitude.ratio_number (g : Magnitude) :
    0 < g.ratio.2 ∧ (g.ratio.1 : ℚ) / g.ratio.2 = g.number := by
  unfold ratio number
  split
  · rename_i sign
    obtain ⟨n, hn⟩ := Int.eq_ofNat_of_zero_le sign
    rw [hn]
    exact ⟨Nat.one_pos, by simp⟩
  · rename_i sign
    obtain ⟨n, hn⟩ : ∃ n : Nat, g.exponent = -(n : Int) := ⟨(-g.exponent).toNat, by omega⟩
    rw [hn]
    exact ⟨Nat.pow_pos (by decide), by simp [div_eq_mul_inv]⟩

namespace Double

/-- The middle between the largest size and the next power of two. -/
def overflow : ℚ := (2 ^ 54 - 1) * 2 ^ (970 : Int)

theorem number_lt_overflow (g : Magnitude) : g.number < overflow := by
  obtain ⟨bound, _, top, _⟩ := g.fits
  have size : Nat.pow 2 53 = 9007199254740992 := rfl
  rw [size] at bound
  have mantissa : (2 * g.mantissa : ℚ) < 2 ^ 54 - 1 := by
    norm_num
    exact_mod_cast (by omega : 2 * g.mantissa < 18014398509481983)
  have scale : (2 : ℚ) ^ g.exponent ≤ 2 * 2 ^ (970 : Int) := by
    rw [← zpow_one_add₀ two_ne_zero]
    exact zpow_le_zpow_right₀ one_le_two top
  have half : (0 : ℚ) < 2 ^ (970 : Int) := zpow_pos two_pos _
  calc g.number ≤ g.mantissa * (2 * 2 ^ (970 : Int)) :=
        mul_le_mul_of_nonneg_left scale (Nat.cast_nonneg _)
    _ = 2 * g.mantissa * 2 ^ (970 : Int) := by ring
    _ < overflow := mul_lt_mul_of_pos_right mantissa half

/-- The powers of ten next to the overflow. -/
theorem overflow_decade : (10 : ℚ) ^ 308 < overflow ∧ overflow < (10 : ℚ) ^ 309 := by
  have below : 10 ^ 308 < 18014398509481983 * 2 ^ 970 := by decide +kernel
  have above : 18014398509481983 * 2 ^ 970 < 10 ^ 309 := by decide +kernel
  have size : overflow = ((18014398509481983 * 2 ^ 970 : Nat) : ℚ) := by
    rw [overflow, show (970 : Int) = ((970 : Nat) : Int) from rfl, zpow_natCast, Nat.cast_mul,
      Nat.cast_pow]
    norm_num only
  rw [size]
  constructor
  · exact_mod_cast below
  · exact_mod_cast above

variable {num den : Nat}

theorem shifted_spec (num : Nat) (positive : 0 < den) (e : Int) :
    0 < (shifted num den e).2 ∧
      ((shifted num den e).1 : ℚ) / (shifted num den e).2 * 2 ^ e = num / den := by
  have whole : (den : ℚ) ≠ 0 := by exact_mod_cast positive.ne'
  unfold shifted
  split
  · rename_i sign
    obtain ⟨n, rfl⟩ := Int.eq_ofNat_of_zero_le sign
    refine ⟨Nat.mul_pos positive (Nat.pow_pos (by decide)), ?_⟩
    simp
    field_simp
  · rename_i sign
    obtain ⟨n, rfl⟩ : ∃ n : Nat, e = -(n : Int) := ⟨(-e).toNat, by omega⟩
    refine ⟨positive, ?_⟩
    simp
    field_simp

/-- The rounded quotient is at most a half away, and nearer than that if it is odd. -/
theorem nearestQuotient_halves (num : Nat) (positive : 0 < den) :
    let q := nearestQuotient num den
    (2 * (q * den) ≤ 2 * num + den ∧ 2 * num ≤ 2 * (q * den) + den) ∧
      (q % 2 = 1 → 2 * (q * den) < 2 * num + den ∧ 2 * num < 2 * (q * den) + den) := by
  have whole := Nat.div_add_mod' num den
  have rest := Nat.mod_lt num positive
  simp only [nearestQuotient]
  generalize num / den = q at whole ⊢
  generalize num % den = t at whole rest ⊢
  have next : (q + 1) * den = q * den + den := by ring
  split
  · omega
  · split
    · omega
    · split <;> omega

theorem nearestQuotient_spec (num : Nat) (positive : 0 < den) :
    |(nearestQuotient num den : ℚ) - num / den| ≤ 1 / 2 ∧
      (nearestQuotient num den % 2 = 1 →
        |(nearestQuotient num den : ℚ) - num / den| < 1 / 2) := by
  obtain ⟨⟨up, down⟩, strict⟩ := nearestQuotient_halves num positive
  have above : (0 : ℚ) < den := by exact_mod_cast positive
  have quotient : (num : ℚ) = num / den * den := (div_mul_cancel₀ _ above.ne').symm
  refine ⟨abs_le.2 ?_, fun odd => abs_lt.2 ?_⟩
  · have up' : (2 * (nearestQuotient num den * den) : ℚ) ≤ 2 * num + den := by exact_mod_cast up
    have down' : (2 * num : ℚ) ≤ 2 * (nearestQuotient num den * den) + den := by
      exact_mod_cast down
    constructor <;> nlinarith
  · obtain ⟨up, down⟩ := strict odd
    have up' : (2 * (nearestQuotient num den * den) : ℚ) < 2 * num + den := by exact_mod_cast up
    have down' : (2 * num : ℚ) < 2 * (nearestQuotient num den * den) + den := by
      exact_mod_cast down
    constructor <;> nlinarith

theorem two_pow_log2 {n : Nat} (positive : 0 < n) :
    (2 : ℚ) ^ (n.log2 : Int) ≤ n ∧ (n : ℚ) < 2 ^ ((n.log2 : Int) + 1) := by
  constructor
  · exact_mod_cast Nat.log2_self_le positive.ne'
  · exact_mod_cast Nat.lt_log2_self

/-- At its scale a quotient is less than `2 ^ 53`, and not less than `2 ^ 52` unless the
scale is the smallest one. -/
theorem scaleOf_spec (some : 0 < num) (positive : 0 < den) :
    -1074 ≤ scaleOf num den ∧ (num : ℚ) / den < 2 ^ 53 * 2 ^ scaleOf num den ∧
      (2 ^ 52 * 2 ^ scaleOf num den ≤ (num : ℚ) / den ∨ scaleOf num den = -1074) := by
  obtain ⟨numLow, numHigh⟩ := two_pow_log2 some
  obtain ⟨denLow, denHigh⟩ := two_pow_log2 positive
  have above : (0 : ℚ) < den := by exact_mod_cast positive
  simp only [scaleOf]
  generalize guessed : (num.log2 : Int) - (den.log2 : Int) - 53 = guess
  have low : (2 : ℚ) ^ 52 * 2 ^ guess < num / den := by
    rw [lt_div_iff₀ above]
    calc (2 : ℚ) ^ 52 * 2 ^ guess * den < 2 ^ 52 * 2 ^ guess * 2 ^ ((den.log2 : Int) + 1) := by
          gcongr
      _ = 2 ^ (num.log2 : Int) := by
          rw [← zpow_natCast, ← zpow_add₀ two_ne_zero, ← zpow_add₀ two_ne_zero]
          congr 1
          push_cast
          omega
      _ ≤ num := numLow
  have high : (num : ℚ) / den < 2 ^ 54 * 2 ^ guess := by
    rw [div_lt_iff₀ above]
    calc (num : ℚ) < 2 ^ ((num.log2 : Int) + 1) := numHigh
      _ = 2 ^ 54 * 2 ^ guess * 2 ^ (den.log2 : Int) := by
          rw [← zpow_natCast, ← zpow_add₀ two_ne_zero, ← zpow_add₀ two_ne_zero]
          congr 1
          push_cast
          omega
      _ ≤ 2 ^ 54 * 2 ^ guess * den := by gcongr
  obtain ⟨unit, quotient⟩ := shifted_spec num positive guess
  have whole : (0 : ℚ) < (shifted num den guess).2 := by exact_mod_cast unit
  have scale : (0 : ℚ) < 2 ^ guess := zpow_pos two_pos _
  have size : (Nat.pow 2 53 : ℚ) = 2 ^ 53 := by norm_num
  -- The guess is right, or one too small.
  have right : ∀ e, e = (if (shifted num den guess).1 / (shifted num den guess).2 < Nat.pow 2 53
      then guess else guess + 1) →
      (2 : ℚ) ^ 52 * 2 ^ e ≤ num / den ∧ (num : ℚ) / den < 2 ^ 53 * 2 ^ e := by
    rintro e rfl
    split
    · rename_i fits
      refine ⟨low.le, ?_⟩
      rw [← quotient]
      refine mul_lt_mul_of_pos_right ?_ scale
      rw [div_lt_iff₀ whole, ← size]
      exact_mod_cast (Nat.div_lt_iff_lt_mul unit).1 fits
    · rename_i large
      rw [zpow_add_one₀ two_ne_zero]
      refine ⟨?_, ?_⟩
      · rw [← quotient]
        have reached := (Nat.le_div_iff_mul_le unit).1 (Nat.le_of_not_lt large)
        have reached' : (2 : ℚ) ^ 53 ≤ (shifted num den guess).1 / (shifted num den guess).2 := by
          rw [le_div_iff₀ whole, ← size]
          exact_mod_cast reached
        calc (2 : ℚ) ^ 52 * (2 ^ guess * 2) = 2 ^ 53 * 2 ^ guess := by ring
          _ ≤ _ := mul_le_mul_of_nonneg_right reached' scale.le
      · calc (num : ℚ) / den < 2 ^ 54 * 2 ^ guess := high
          _ = 2 ^ 53 * (2 ^ guess * 2) := by ring
  obtain ⟨lower, upper⟩ := right _ rfl
  refine ⟨le_max_left _ _, ?_, ?_⟩
  · refine upper.trans_le (mul_le_mul_of_nonneg_left ?_ (by norm_num))
    exact zpow_le_zpow_right₀ one_le_two (le_max_right _ _)
  · rcases max_choice (-1074 : Int) (if (shifted num den guess).1 / (shifted num den guess).2
        < Nat.pow 2 53 then guess else guess + 1) with least | own
    · exact Or.inr least
    · rw [own]
      exact Or.inl lower

/-- A mantissa that was rounded up to 54 bits is taken at the next exponent. -/
theorem of?_rounded {m : Nat} {e : Int} (bits : m ≤ 2 ^ 53) (least : -1074 ≤ e)
    (normal : 2 ^ 52 ≤ m ∨ e = -1074) (top : e ≤ 971) (carry : m = 2 ^ 53 → e ≤ 970) :
    ∃ g : Magnitude, (if m = Nat.pow 2 53 then Magnitude.of? (Nat.pow 2 52) (e + 1)
        else Magnitude.of? m e) = some g ∧
      (m = 2 ^ 53 ∧ g.mantissa = 2 ^ 52 ∧ g.exponent = e + 1 ∨
        g.mantissa = m ∧ g.exponent = e) := by
  split
  · rename_i full
    have room := carry full
    exact ⟨⟨Nat.pow 2 52, e + 1, by decide, by omega, by omega, Or.inl (Nat.le_refl _)⟩,
      dif_pos ⟨by decide, by omega, by omega, Or.inl (Nat.le_refl _)⟩, Or.inl ⟨full, rfl, rfl⟩⟩
  · rename_i less
    have fits : m < Nat.pow 2 53 := Nat.lt_of_le_of_ne bits less
    exact ⟨⟨m, e, fits, least, top, normal⟩, dif_pos ⟨fits, least, top, normal⟩,
      Or.inr ⟨rfl, rfl⟩⟩

section Mantissa

variable {m : Nat} {y : ℚ} {e : Int}

theorem bits_of_near (near : |(m : ℚ) - y| ≤ 1 / 2) (fits : y < 2 ^ 53) : m ≤ 2 ^ 53 := by
  have up := (abs_le.1 near).2
  have close : (m : ℚ) < 2 ^ 53 + 1 := by linarith
  exact Nat.le_of_lt_succ (by exact_mod_cast close)

theorem normal_of_near (near : |(m : ℚ) - y| ≤ 1 / 2) (large : 2 ^ 52 ≤ y) : 2 ^ 52 ≤ m := by
  have down := (abs_le.1 near).1
  have close : (2 ^ 52 : ℚ) < m + 1 := by linarith
  exact Nat.le_of_lt_succ (by exact_mod_cast close)

theorem exponent_le (large : 2 ^ 52 ≤ y) (small : y * 2 ^ e < overflow) : e ≤ 971 := by
  have scale : (0 : ℚ) < 2 ^ e := zpow_pos two_pos _
  have less : (2 : ℚ) ^ e < 2 ^ (972 : Int) := by
    refine lt_of_mul_lt_mul_left (a := (2 : ℚ) ^ 52) ?_ (by norm_num)
    calc (2 : ℚ) ^ 52 * 2 ^ e < overflow :=
          (mul_le_mul_of_nonneg_right large scale.le).trans_lt small
      _ < 2 ^ 54 * 2 ^ (970 : Int) := mul_lt_mul_of_pos_right (by norm_num) (zpow_pos two_pos _)
      _ = 2 ^ 52 * 2 ^ (972 : Int) := by
        rw [show (972 : Int) = 970 + 1 + 1 from rfl, zpow_add_one₀ two_ne_zero,
          zpow_add_one₀ two_ne_zero]
        ring
  exact Int.le_of_lt_add_one ((zpow_lt_zpow_iff_right₀ one_lt_two).1 less)

/-- At the largest exponent nothing below the overflow is rounded up to 54 bits. -/
theorem carry_of_near (near : |(m : ℚ) - y| ≤ 1 / 2) (small : y * 2 ^ e < overflow)
    (top : e ≤ 971) (full : m = 2 ^ 53) : e ≤ 970 := by
  by_contra beyond
  obtain rfl : e = 971 := by omega
  have full' : (m : ℚ) = 2 ^ 53 := by exact_mod_cast full
  have up := (abs_le.1 near).2
  refine absurd small (not_lt.2 ?_)
  calc overflow = (2 ^ 53 - 1 / 2) * 2 ^ (970 + 1 : Int) := by
        rw [overflow, zpow_add_one₀ two_ne_zero]
        ring
    _ ≤ y * 2 ^ (971 : Int) :=
        mul_le_mul_of_nonneg_right (by linarith) (zpow_pos two_pos _).le

end Mantissa

/-- The size that `y * 2 ^ e` is rounded to, `m` being the whole number nearest to `y`. -/
structure Rounds (g : Magnitude) (m : Nat) (y : ℚ) (e : Int) : Prop where
  near : |(m : ℚ) - y| ≤ 1 / 2
  odd : m % 2 = 1 → |(m : ℚ) - y| < 1 / 2
  nonneg : 0 ≤ y
  below : y < 2 ^ 53
  least : -1074 ≤ e
  normal : 2 ^ 52 ≤ y ∨ e = -1074
  form : m = 2 ^ 53 ∧ g.mantissa = 2 ^ 52 ∧ g.exponent = e + 1 ∨ g.mantissa = m ∧ g.exponent = e

theorem Rounds.number {g : Magnitude} {m : Nat} {y : ℚ} {e : Int} (rounds : Rounds g m y e) :
    g.number = m * 2 ^ e := by
  unfold Magnitude.number
  rcases rounds.form with ⟨full, mantissa, exponent⟩ | ⟨mantissa, exponent⟩
  · rw [mantissa, exponent, full, zpow_add_one₀ (two_ne_zero (α := ℚ))]
    push_cast
    ring
  · rw [mantissa, exponent]

/-- What lies below the overflow is rounded to a size. -/
theorem ofRatio_rounds (negative : Bool) (some : num ≠ 0) (positive : 0 < den)
    (small : (num : ℚ) / den < overflow) :
    ∃ g m y e, ofRatio negative num den = .finite negative g ∧ Rounds g m y e ∧
      y * 2 ^ e = (num : ℚ) / den := by
  obtain ⟨least, below, normal⟩ := scaleOf_spec (Nat.pos_of_ne_zero some) positive
  simp only [ofRatio, some, if_false]
  generalize scaleOf num den = e at least below normal ⊢
  obtain ⟨unit, quotient⟩ := shifted_spec num positive e
  obtain ⟨near, odd⟩ := nearestQuotient_spec (shifted num den e).1 unit
  generalize nearestQuotient (shifted num den e).1 (shifted num den e).2 = m at near odd ⊢
  have nonneg : (0 : ℚ) ≤ (shifted num den e).1 / (shifted num den e).2 := by positivity
  generalize ((shifted num den e).1 : ℚ) / (shifted num den e).2 = y at quotient near odd nonneg
  rw [← quotient] at below normal small
  have scale : (0 : ℚ) < 2 ^ e := zpow_pos two_pos _
  have below' : y < 2 ^ 53 := lt_of_mul_lt_mul_right below scale.le
  have normal' : 2 ^ 52 ≤ y ∨ e = -1074 :=
    normal.imp_left fun large => le_of_mul_le_mul_right large scale
  have top : e ≤ 971 := by
    rcases normal' with large | rfl
    · exact exponent_le large small
    · decide
  obtain ⟨g, found, form⟩ := of?_rounded (bits_of_near near below') least
    (normal'.imp_left (normal_of_near near)) top (carry_of_near near small top)
  exact ⟨g, m, y, e, by simp only [found], ⟨near, odd, nonneg, below', least, normal', form⟩,
    quotient⟩

/-- The size is near unless the quotient is a part of one. -/
theorem ofRatio_finite (negative : Bool) (positive : 0 < den)
    (small : (num : ℚ) / den < overflow) :
    ∃ g : Magnitude, ofRatio negative num den = .finite negative g ∧
      (num = 0 ∨ 1 ≤ (num : ℚ) / den → |g.number - num / den| ≤ num / den / 2 ^ 53) := by
  by_cases none : num = 0
  · refine ⟨.zero, by simp only [ofRatio, none, if_true], ?_⟩
    simp [none, Magnitude.number, Magnitude.zero]
  · obtain ⟨g, m, y, e, found, rounds, quotient⟩ := ofRatio_rounds negative none positive small
    simp only [none, false_or]
    rw [← quotient]
    refine ⟨g, found, fun one => ?_⟩
    have scale : (0 : ℚ) < 2 ^ e := zpow_pos two_pos _
    have large : 2 ^ 52 ≤ y := by
      refine rounds.normal.resolve_right ?_
      rintro rfl
      have tiny : (2 : ℚ) ^ 53 * 2 ^ (-1074 : Int) ≤ 1 := by
        rw [← zpow_natCast, ← zpow_add₀ two_ne_zero]
        exact zpow_le_one_of_nonpos₀ one_le_two (by norm_num)
      exact absurd (one.trans_lt (mul_lt_mul_of_pos_right rounds.below scale)) (not_lt.2 tiny)
    have close : |(m : ℚ) - y| ≤ y / 2 ^ 53 := rounds.near.trans (by linarith)
    calc |g.number - y * 2 ^ e| = |(m : ℚ) - y| * 2 ^ e := by
          rw [rounds.number, ← sub_mul, abs_mul, abs_of_pos scale]
      _ ≤ y / 2 ^ 53 * 2 ^ e := mul_le_mul_of_nonneg_right close scale.le
      _ = y * 2 ^ e / 2 ^ 53 := by ring

/-- A product of sizes below the overflow is a size. -/
theorem timesSize_finite {g h : Magnitude} (small : g.number * h.number < overflow) :
    ∃ k, timesSize g h = .finite false k := by
  obtain ⟨unit, left⟩ := g.ratio_number
  obtain ⟨unit', right⟩ := h.ratio_number
  have product : ((g.ratio.1 * h.ratio.1 : Nat) : ℚ) / (g.ratio.2 * h.ratio.2 : Nat)
      = g.number * h.number := by
    rw [← left, ← right]
    push_cast
    exact mul_div_mul_comm _ _ _ _
  obtain ⟨k, found, _⟩ := ofRatio_finite false (Nat.mul_pos unit unit') (product ▸ small)
  exact ⟨k, found⟩

/-- A size divided by one that is not less than one is a size. -/
theorem overSize_finite {g h : Magnitude} (one : 1 ≤ h.number) :
    ∃ k, overSize g h = .finite false k := by
  obtain ⟨unit, left⟩ := g.ratio_number
  obtain ⟨unit', right⟩ := h.ratio_number
  have some : 0 < h.ratio.1 := by
    refine Nat.pos_of_ne_zero fun none => ?_
    rw [← right, none, Nat.cast_zero, zero_div] at one
    norm_num at one
  have quotient : ((g.ratio.1 * h.ratio.2 : Nat) : ℚ) / (g.ratio.2 * h.ratio.1 : Nat)
      = g.number / h.number := by
    rw [← left, ← right]
    push_cast
    rw [div_div_div_eq]
  have small : g.number / h.number < overflow :=
    (div_le_self g.number_nonneg one).trans_lt (number_lt_overflow g)
  obtain ⟨k, found, _⟩ := ofRatio_finite false (Nat.mul_pos unit some) (quotient ▸ small)
  exact ⟨k, found⟩

end Double

end NestedBatch

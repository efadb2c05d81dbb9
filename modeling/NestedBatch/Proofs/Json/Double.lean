import NestedBatch.Proofs.Double.Rounding
import NestedBatch.Proofs.Json.Record

/-! The doubles that are read back. A finite double is read as some finite double, though
not always as itself, since the reader rounds three times; the largest few come so near
to the overflow that they are looked at one by one. What is not finite is not read at all. -/
namespace NestedBatch.Json

open Double

/-- What was read before digits, and the digits that did not fit any more, are together no
more than the number. -/
theorem gather_spec {acc : Nat} (fits : acc ≤ digitLimit) (ds : List Char) :
    (gather acc ds).1 ≤ digitLimit ∧ (gather acc ds).2.length ≤ ds.length ∧
      (gather acc ds).1 * 10 ^ (gather acc ds).2.length ≤ Nat.ofDigitChars 10 ds acc := by
  induction ds generalizing acc with
  | nil => exact ⟨fits, Nat.le_refl 0, by simp [gather]⟩
  | cons c rest ih =>
    simp only [gather]
    split
    · refine ⟨fits, Nat.le_refl _, ?_⟩
      rw [Nat.ofDigitChars_eq_ofDigitChars_zero, Nat.mul_comm]
      exact Nat.le_add_right _ _
    · rename_i small
      obtain ⟨within, length, whole⟩ := ih (Nat.le_of_not_lt small)
      rw [Nat.ofDigitChars_cons, Nat.mul_comm 10]
      exact ⟨within, Nat.le_succ_of_le length, whole⟩

/-- The powers of ten in the table are near to what they stand for. -/
theorem tenTo_near {k : Nat} (table : k ≤ 308) :
    |(tenTo k).number - 10 ^ k| ≤ 10 ^ k / 2 ^ 53 := by
  have power : ((1 * Nat.pow 10 k : Nat) : ℚ) / (1 : Nat) = 10 ^ k := by simp
  have one : (1 : ℚ) ≤ 10 ^ k := one_le_pow₀ (by norm_num)
  have small : (10 : ℚ) ^ k < overflow :=
    (pow_le_pow_right₀ (by norm_num) table).trans_lt overflow_decade.1
  obtain ⟨g, rounded, near⟩ := ofRatio_finite false Nat.one_pos (power ▸ small)
  have looked : tenTo k = g := by
    have decimal : ofDecimal false 1 k = ofRatio false (1 * Nat.pow 10 k) 1 := by
      have length : (Numeral.ofNat 1).length = 1 := rfl
      simp only [ofDecimal, length, Nat.one_ne_zero, if_false, Int.toNat_natCast]
      rw [if_neg (by omega), if_neg (by omega), if_pos (by omega)]
    simp only [tenTo, decimal, rounded]
  rw [power] at near
  rw [looked]
  exact near (Or.inr one)

theorem one_le_tenTo {k : Nat} (table : k ≤ 308) (positive : k ≠ 0) : 1 ≤ (tenTo k).number := by
  have ten : (10 : ℚ) ^ 1 ≤ 10 ^ k :=
    pow_le_pow_right₀ (by norm_num) (Nat.one_le_iff_ne_zero.2 positive)
  have down := (abs_le.1 (tenTo_near table)).1
  linarith

theorem overSize_tenTo (g : Magnitude) {k : Nat} (table : k ≤ 308) (positive : k ≠ 0) :
    ∃ h, overSize g (tenTo k) = .finite false h :=
  overSize_finite (one_le_tenTo table positive)

section Shrink

-- The divisor is not to be computed.
attribute [local irreducible] overSize tenTo

theorem shrink_succ (g : Magnitude) (n : Nat) :
    shrink g (n + 1) = if g.mantissa = 0 then some g else
      match overSize g (tenTo 308) with
      | .finite _ h => shrink h n
      | _ => none := rfl

end Shrink

theorem shrink_some (g : Magnitude) (turns : Nat) : ∃ h, shrink g turns = some h := by
  have divides : ∀ g, ∃ h, overSize g (tenTo 308) = .finite false h := fun g =>
    overSize_tenTo g (Nat.le_refl _) (by decide)
  induction turns generalizing g with
  | zero => exact ⟨g, rfl⟩
  | succ n ih =>
    obtain ⟨h, divided⟩ := divides g
    rw [shrink_succ, divided]
    split
    · exact ⟨g, rfl⟩
    · exact ih h

/-- Dividing never leads out of the doubles. -/
theorem scale_negative (g : Magnitude) {e : Int} (negative : e < 0) : ∃ h, scale g e = some h := by
  obtain ⟨h, shrunk⟩ := shrink_some g (((-e).toNat - 1) / 308)
  have table : (-e).toNat - 308 * (((-e).toNat - 1) / 308) ≤ 308 := by omega
  have positive : (-e).toNat - 308 * (((-e).toNat - 1) / 308) ≠ 0 := by omega
  obtain ⟨k, divided⟩ := overSize_tenTo h table positive
  refine ⟨k, ?_⟩
  simp only [scale]
  rw [if_neg (by omega), if_neg (by omega)]
  simp only [shrunk, Option.bind_some, divided]

theorem scale_below {g : Magnitude} {k : Nat} (table : k ≤ 308)
    (below : g.number * (10 ^ k * (1 + 1 / 2 ^ 53)) < overflow) : ∃ h, scale g k = some h := by
  have near := (abs_le.1 (tenTo_near table)).2
  have power : (tenTo k).number ≤ 10 ^ k * (1 + 1 / 2 ^ 53) := by linarith
  obtain ⟨h, product⟩ := timesSize_finite (g := g) (h := tenTo k)
    ((mul_le_mul_of_nonneg_left power g.number_nonneg).trans_lt below)
  refine ⟨h, ?_⟩
  simp only [scale]
  rw [if_neg (by omega), if_pos (by omega)]
  simp only [Int.toNat_natCast, product]

/-- A power of ten beyond the table is taken times nothing, or leads beyond the overflow. -/
theorem scale_beyond {g : Magnitude} {k : Nat} (beyond : 308 < k) (zero : g.mantissa = 0) :
    scale g k = some g := by
  simp only [scale, zero, if_true]
  rw [if_pos (by omega)]

/-- An integer that JSON has is rounded to a finite double near it. -/
theorem ofInt_near {i : Int} (fits : i.natAbs ≤ digitLimit) :
    ∃ g : Magnitude, Double.ofInt i = .finite (i < 0) g ∧
      g.number ≤ i.natAbs * (1 + 1 / 2 ^ 53) := by
  have unit : ((i.natAbs : Nat) : ℚ) / (1 : Nat) = i.natAbs := by simp
  have small : (i.natAbs : ℚ) < overflow := by
    have word : (i.natAbs : ℚ) ≤ 10 ^ 20 := by
      exact_mod_cast fits.trans (by decide)
    exact word.trans_lt ((pow_lt_pow_right₀ (by norm_num) (by decide)).trans overflow_decade.1)
  obtain ⟨g, rounded, near⟩ := ofRatio_finite (i < 0) Nat.one_pos (unit.symm ▸ small)
  refine ⟨g, rounded, ?_⟩
  have whole : i.natAbs = 0 ∨ (1 : ℚ) ≤ i.natAbs := by
    refine (Nat.eq_zero_or_pos i.natAbs).imp_right fun positive => ?_
    exact_mod_cast positive
  rw [unit] at near
  have up := (abs_le.1 (near whole)).2
  linarith

theorem scale_some {v k : Nat} {g : Magnitude} (size : g.number ≤ v * (1 + 1 / 2 ^ 53))
    (below : v * (10 : ℚ) ^ k * (1 + 1 / 2 ^ 53) ^ 2 < overflow) : ∃ h, scale g k = some h := by
  rcases Nat.lt_or_ge 308 k with beyond | table
  · refine ⟨g, scale_beyond beyond ?_⟩
    have one : (1 : ℚ) ≤ (1 + 1 / 2 ^ 53) ^ 2 := by norm_num
    have power : (10 : ℚ) ^ 309 ≤ 10 ^ k := pow_le_pow_right₀ (by norm_num) beyond
    have nothing : v = 0 := by
      by_contra some
      have some' : (1 : ℚ) ≤ v := by exact_mod_cast Nat.one_le_iff_ne_zero.2 some
      refine absurd (below.trans overflow_decade.2) (not_lt.2 ?_)
      calc (10 : ℚ) ^ 309 ≤ 10 ^ k := power
        _ = 1 * 10 ^ k * 1 := by ring
        _ ≤ (v : ℚ) * 10 ^ k * (1 + 1 / 2 ^ 53) ^ 2 := by gcongr
    rw [nothing, Nat.cast_zero, zero_mul] at size
    have zero := le_antisymm size g.number_nonneg
    have positive : (2 : ℚ) ^ g.exponent ≠ 0 := (zpow_pos two_pos _).ne'
    exact_mod_cast (mul_eq_zero.1 zero).resolve_right positive
  · refine scale_below table ?_
    calc g.number * (10 ^ k * (1 + 1 / 2 ^ 53))
        ≤ (v : ℚ) * (1 + 1 / 2 ^ 53) * (10 ^ k * (1 + 1 / 2 ^ 53)) := by gcongr
      _ = (v : ℚ) * 10 ^ k * (1 + 1 / 2 ^ 53) ^ 2 := by ring
      _ < overflow := below

/-- A number is read if its digits are, and it lies far enough below the overflow for
two roundings. -/
theorem double?_some {w : Written} (digits : (significand w).1 ≤ digitLimit)
    (below : ∀ k : Nat, (significand w).2 + exponentOf w = k →
      (significand w).1 * (10 : ℚ) ^ k * (1 + 1 / 2 ^ 53) ^ 2 < overflow) :
    (double? w).isSome = true := by
  simp only [double?]
  split
  · rfl
  · generalize (significand w).1 = v at digits below ⊢
    generalize (significand w).2 + exponentOf w = e at below ⊢
    obtain ⟨g, rounded, size⟩ := ofInt_near (i := v) digits
    have scaled : ∃ h, scale g e = some h := by
      rcases lt_or_ge e 0 with negative | positive
      · exact scale_negative g negative
      · obtain ⟨k, rfl⟩ := Int.eq_ofNat_of_zero_le positive
        exact scale_some size (below k rfl)
    obtain ⟨h, scaled⟩ := scaled
    simp only [rounded, scaled]
    rfl

theorem integer?_fits {w : Written} {i : Int} (read : integer? w = some i) :
    i.natAbs ≤ digitLimit := by
  unfold integer? at read
  split at read
  · dsimp only at read
    split at read
    · split at read
      · cases read
      · rename_i inside
        cases read
        simp only [Span.long, digitLimit] at inside ⊢
        omega
    · split at read
      · rename_i inside
        cases read
        exact inside
      · cases read
  · cases read

/-- What is read is finite. -/
theorem isFinite_double? {w : Written} {d : Double} (read : double? w = some d) :
    d.isFinite = true := by
  simp only [double?] at read
  split at read
  · rename_i i whole
    obtain ⟨g, rounded, _⟩ := ofInt_near (integer?_fits whole)
    cases read
    rw [rounded]
    rfl
  · split at read
    · obtain ⟨h, _, rfl⟩ := Option.map_eq_some_iff.1 read
      rfl
    · cases read

theorem ofDigitChars_lt {ds : List Char} (digits : ∀ c ∈ ds, c.isDigit = true) (acc : Nat) :
    Nat.ofDigitChars 10 ds acc < 10 ^ ds.length * (acc + 1) := by
  induction ds generalizing acc with
  | nil => simp
  | cons c rest ih =>
    have nine : c.toNat - '0'.toNat ≤ 9 := by
      have digit := digits c List.mem_cons_self
      simp only [Char.isDigit, Bool.and_eq_true, decide_eq_true_eq, UInt32.le_iff_toNat_le]
        at digit
      exact Nat.sub_le_of_le_add digit.2
    rw [Nat.ofDigitChars_cons, List.length_cons, Nat.pow_succ]
    refine (ih (fun d later => digits d (List.mem_cons_of_mem c later)) _).trans_le ?_
    rw [Nat.mul_assoc]
    exact Nat.mul_le_mul_left _ (by omega)

theorem gather_fits {acc : Nat} {ds : List Char} (fits : Nat.ofDigitChars 10 ds acc ≤ digitLimit) :
    gather acc ds = (Nat.ofDigitChars 10 ds acc, []) := by
  induction ds generalizing acc with
  | nil => rfl
  | cons c rest ih =>
    rw [Nat.ofDigitChars_cons, Nat.mul_comm] at fits ⊢
    have most : acc * 10 + (c.toNat - '0'.toNat) ≤ digitLimit := by
      rw [Nat.ofDigitChars_eq_ofDigitChars_zero] at fits
      have one : 1 ≤ 10 ^ rest.length := Nat.one_le_pow _ _ (by decide)
      exact ((Nat.le_mul_of_pos_left _ one).trans (Nat.le_add_right _ _)).trans fits
    rw [gather, if_neg (Nat.not_lt_of_le most), ih fits]

/-- Where the digits before the point fit, only digits after it may be left out. -/
theorem significand_spec {w : Written} (digits : ∀ c ∈ w.whole, c.isDigit = true)
    (short : w.whole.length ≤ 16) :
    ∃ ignored : Nat, ignored ≤ w.fraction.length ∧ (significand w).1 ≤ digitLimit ∧
      (significand w).2 = ignored - (w.fraction.length : Int) ∧
      (significand w).1 * 10 ^ ignored ≤ Numeral.value (w.whole ++ w.fraction) := by
  have fits : Nat.ofDigitChars 10 w.whole 0 ≤ digitLimit := by
    have room : 10 ^ w.whole.length ≤ 10 ^ 16 := Nat.pow_le_pow_right (by decide) short
    exact ((ofDigitChars_lt digits 0).le.trans (Nat.mul_le_mul_right 1 room)).trans (by decide)
  obtain ⟨most, length, whole⟩ := gather_spec fits w.fraction
  refine ⟨(gather (Nat.ofDigitChars 10 w.whole 0) w.fraction).2.length, length, ?_⟩
  simp only [significand, gather_fits fits, Numeral.value, Nat.ofDigitChars_append]
  refine ⟨most, ?_, whole⟩
  rw [List.length_nil]
  omega

/-- A number without an exponent is read. -/
theorem double?_plain {w : Written} (digits : ∀ c ∈ w.whole, c.isDigit = true)
    (short : w.whole.length ≤ 16) (plain : w.exponent = none) : (double? w).isSome = true := by
  obtain ⟨ignored, few, most, exponent, _⟩ := significand_spec digits short
  refine double?_some most fun k same => ?_
  have zero : exponentOf w = 0 := by simp only [exponentOf, plain]
  obtain rfl : k = 0 := by omega
  have word : ((significand w).1 : ℚ) ≤ 10 ^ 20 := by
    exact_mod_cast most.trans (by decide)
  calc ((significand w).1 : ℚ) * 10 ^ 0 * (1 + 1 / 2 ^ 53) ^ 2
      ≤ 10 ^ 20 * 10 ^ 0 * (1 + 1 / 2 ^ 53) ^ 2 := by gcongr
    _ ≤ 10 ^ 21 := by norm_num
    _ < overflow := (pow_lt_pow_right₀ (by norm_num) (by decide)).trans overflow_decade.1

/-- The number is no more than the end of the interval that is rounded to the size. -/
theorem number_shortest_le {g : Magnitude} (positive : g.mantissa ≠ 0) (tie : Tie) :
    (g.shortest tie).number ≤ (4 * g.mantissa + 2) * g.quarter := by
  have contained := (Magnitude.shortest_contains positive tie).2
  rw [Magnitude.contains_iff] at contained
  split at contained
  · exact contained.2
  · exact contained.2.le

/-- Has the size one of the three largest mantissas, at the largest exponent? -/
def Topmost (g : Magnitude) : Prop := g.exponent = 971 ∧ 9007199254740989 ≤ g.mantissa

theorem interval_far_below {g : Magnitude} (lower : ¬ Topmost g) :
    (4 * g.mantissa + 2) * g.quarter ≤ (2 ^ 54 - 7) * 2 ^ (970 : Int) := by
  obtain ⟨bound, _, top, _⟩ := g.fits
  have size : Nat.pow 2 53 = 9007199254740992 := rfl
  rw [size] at bound
  have unit : (0 : ℚ) < 2 ^ (970 : Int) := zpow_pos two_pos _
  rcases Int.lt_or_eq_of_le top with less | last
  · have quarter : g.quarter ≤ 2 ^ (968 : Int) := zpow_le_zpow_right₀ one_le_two (by omega)
    have mantissa : (4 * g.mantissa + 2 : ℚ) ≤ 2 ^ 55 := by
      exact_mod_cast (by omega : 4 * g.mantissa + 2 ≤ 2 ^ 55)
    calc (4 * g.mantissa + 2 : ℚ) * g.quarter ≤ 2 ^ 55 * 2 ^ (968 : Int) :=
          mul_le_mul mantissa quarter g.quarter_pos.le (by norm_num)
      _ = 2 ^ 53 * 2 ^ (970 : Int) := by
          rw [show (970 : Int) = 968 + 1 + 1 from rfl, zpow_add_one₀ two_ne_zero,
            zpow_add_one₀ two_ne_zero]
          generalize (2 : ℚ) ^ (968 : Int) = unit
          ring
      _ ≤ (2 ^ 54 - 7) * 2 ^ (970 : Int) := mul_le_mul_of_nonneg_right (by norm_num) unit.le
  · have mantissa : (2 * g.mantissa + 1 : ℚ) ≤ 2 ^ 54 - 7 := by
      have small : g.mantissa ≤ 9007199254740988 := by
        by_contra large
        exact lower ⟨last, by omega⟩
      have whole : (2 * g.mantissa + 1 : ℚ) ≤ 18014398509481977 := by
        exact_mod_cast (by omega : 2 * g.mantissa + 1 ≤ 18014398509481977)
      exact whole.trans (by norm_num)
    calc (4 * g.mantissa + 2 : ℚ) * g.quarter
        = (2 * g.mantissa + 1) * 2 ^ (969 + 1 : Int) := by
          rw [zpow_add_one₀ two_ne_zero, Magnitude.quarter, last,
            show (971 : Int) - 2 = 969 from rfl]
          generalize (2 : ℚ) ^ (969 : Int) = unit
          ring
      _ ≤ (2 ^ 54 - 7) * 2 ^ (970 : Int) := mul_le_mul_of_nonneg_right mantissa unit.le

theorem number_far_below {g : Magnitude} (positive : g.mantissa ≠ 0) (lower : ¬ Topmost g)
    (tie : Tie) : (g.shortest tie).number * (1 + 1 / 2 ^ 53) ^ 2 < overflow := by
  have upTo := (number_shortest_le positive tie).trans (interval_far_below lower)
  calc (g.shortest tie).number * (1 + 1 / 2 ^ 53) ^ 2
      ≤ (2 ^ 54 - 7) * 2 ^ (970 : Int) * (1 + 1 / 2 ^ 53) ^ 2 :=
        mul_le_mul_of_nonneg_right upTo (by positivity)
    _ = (2 ^ 54 - 7) * (1 + 1 / 2 ^ 53) ^ 2 * 2 ^ (970 : Int) := by ring
    _ < overflow := mul_lt_mul_of_pos_right (by norm_num) (zpow_pos two_pos _)

theorem exponentOf_scientific_le (negative : Bool) (ds : List Char) (exponent : Int) :
    exponentOf (NumberStyle.scientific negative ds exponent) < 0 ∨
      exponentOf (NumberStyle.scientific negative ds exponent) ≤ exponent := by
  have low : (Span.int.low : Int) = 2147483648 := rfl
  simp only [exponentOf, NumberStyle.scientific, Numeral.value_ofNat, low, decide_eq_true_eq]
  split <;> omega

theorem double?_scientific {d : Decimal} (negative : Bool)
    (below : d.number * (1 + 1 / 2 ^ 53) ^ 2 < overflow) :
    (double? (NumberStyle.scientific negative (Numeral.ofNat d.digits)
      ((Numeral.ofNat d.digits).length + d.exponent - 1))).isSome = true := by
  have value := Numeral.value_ofNat d.digits
  have digits : ∀ c ∈ Numeral.ofNat d.digits, c.isDigit = true :=
    fun c here => Numeral.isDigit_of_mem_ofNat here
  have some := List.length_pos_iff.2 (Numeral.ofNat_ne_nil d.digits)
  generalize Numeral.ofNat d.digits = ds at value digits some ⊢
  have written := exponentOf_scientific_le negative ds (ds.length + d.exponent - 1)
  generalize named : NumberStyle.scientific negative ds (ds.length + d.exponent - 1) = w
    at written ⊢
  have parts : w.whole = ds.take 1 ∧ w.fraction = ds.drop 1 := by
    rw [← named]
    exact ⟨rfl, rfl⟩
  obtain ⟨ignored, few, most, point, whole⟩ := significand_spec (w := w)
    (fun c here => digits c (List.mem_of_mem_take (parts.1 ▸ here)))
    (parts.1 ▸ (List.length_take_le 1 ds).trans (by decide))
  rw [parts.2, List.length_drop] at few point
  rw [parts.1, parts.2, List.take_append_drop, value] at whole
  refine double?_some most fun k same => ?_
  have tens : (k : Int) ≤ ignored + d.exponent := by omega
  refine lt_of_le_of_lt ?_ below
  refine mul_le_mul_of_nonneg_right ?_ (by positivity)
  calc ((significand w).1 : ℚ) * 10 ^ k
      ≤ (significand w).1 * 10 ^ (ignored + d.exponent) := by
        rw [← zpow_natCast]
        gcongr
        norm_num
    _ = (significand w).1 * 10 ^ ignored * 10 ^ d.exponent := by
        rw [zpow_add₀ (by norm_num), zpow_natCast, mul_assoc]
    _ ≤ d.digits * 10 ^ d.exponent := by
        gcongr
        exact_mod_cast whole
    _ = d.number := rfl

theorem double?_positional {style : NumberStyle} (negative : Bool) {ds : List Char}
    (digits : ∀ c ∈ ds, c.isDigit = true) {places : Int} (short : places ≤ 16) :
    (double? (style.positional negative ds places)).isSome = true := by
  unfold NumberStyle.positional
  split
  · exact double?_plain (List.forall_mem_singleton.2 (by decide)) (by simp) rfl
  · dsimp only
    split
    · refine double?_plain (fun c here => ?_) ?_ rfl
      · rcases List.mem_append.1 here with digit | zero
        · exact digits c digit
        · exact Numeral.isDigit_replicate c zero
      · simp only [List.length_append, List.length_replicate]
        omega
    · refine double?_plain (fun c here => digits c (List.mem_of_mem_take here)) ?_ rfl
      simp only [List.length_take]
      omega

/-- The numbers that come too near to the overflow. -/
theorem double?_topmost (negative : Bool) {g : Magnitude} (top : Topmost g) :
    (double? (numberStyle.write negative g)).isSome = true := by
  obtain ⟨m, e, fits⟩ := g
  obtain ⟨rfl, large⟩ : e = 971 ∧ 9007199254740989 ≤ m := top
  have bound : m < 9007199254740992 := fits.1
  obtain rfl | rfl | rfl : m = 9007199254740989 ∨ m = 9007199254740990 ∨ m = 9007199254740991 := by
    omega
  all_goals
    cases negative <;> decide +kernel +revert

/-- A finite double is read back as a finite double. -/
theorem double?_write (negative : Bool) (g : Magnitude) :
    (double? (numberStyle.write negative g)).isSome = true := by
  by_cases top : Topmost g
  · exact double?_topmost negative top
  · unfold NumberStyle.write
    split
    · exact double?_plain (List.forall_mem_singleton.2 (by decide)) (by simp) rfl
    · rename_i positive
      dsimp only
      split
      · rename_i full
        have short := (Bool.and_eq_true_iff.1 full).2
        exact double?_positional negative (fun c here => Numeral.isDigit_of_mem_ofNat here)
          (Int.le_add_of_sub_right_le (of_decide_eq_true short))
      · exact double?_scientific negative (number_far_below positive top _)

end NestedBatch.Json

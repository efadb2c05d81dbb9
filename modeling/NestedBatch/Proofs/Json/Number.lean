import NestedBatch.Json.Record
import NestedBatch.Proofs.Json.RoundTrip

/-! The numbers that are written are numbers that JSON has, and integers are
read back as they were. -/
namespace NestedBatch

namespace Magnitude

theorem Interval.holds_zero {i : Interval} (positive : 0 < i.low) (k : Int) :
    i.holds 0 k = false := by
  have den : 0 < if 0 ≤ k then 1 else Nat.pow 10 (-k).toNat := by
    split
    · exact Nat.one_pos
    · exact Nat.pow_pos (by decide)
  have num : (if 0 ≤ k then 0 * Nat.pow 10 k.toNat * i.unit else 0 * i.unit) = 0 := by
    split <;> simp only [Nat.zero_mul]
  have low := Nat.mul_pos positive den
  simp only [Interval.holds, num]
  cases i.closed with
  | true => simp only [if_true, Bool.and_eq_false_iff, decide_eq_false_iff_not]; omega
  | false => simp

theorem Interval.holds_onGrid {i : Interval} {tie : Tie} {k : Int} {t : Nat}
    (found : i.onGrid tie k = some t) : i.holds t k = true := by
  have either : ∀ (upper : Bool) (s : Nat), i.holds s k = true → i.holds (s + 1) k = true →
      i.holds (if upper then s + 1 else s) k = true := by
    intro upper s below above
    cases upper
    · exact below
    · exact above
  unfold Interval.onGrid at found
  dsimp only at found
  split at found <;> rename_i below above
  · exact Option.some.inj found ▸ either _ _ below above
  · exact Option.some.inj found ▸ below
  · exact Option.some.inj found ▸ above
  · cases found

theorem Interval.onGrid_ne_zero {i : Interval} (positive : 0 < i.low) {tie : Tie} {k : Int}
    {t : Nat} (found : i.onGrid tie k = some t) : t ≠ 0 := by
  rintro rfl
  exact Bool.false_ne_true ((holds_zero positive k).symm.trans (holds_onGrid found))

theorem interval_low_pos {g : Magnitude} (positive : g.mantissa ≠ 0) : 0 < g.interval.low := by
  unfold interval
  have scale : 0 < if 2 ≤ g.exponent then Nat.pow 2 (g.exponent - 2).toNat else 1 := by
    split
    · exact Nat.pow_pos (by decide)
    · exact Nat.one_pos
  refine Nat.mul_pos ?_ scale
  split <;> omega

end Magnitude

/-- Taking zeros off the end of a number leaves more than nothing of it. -/
theorem Decimal.stripped_digits_ne_zero (fuel : Nat) {d : Decimal} (positive : d.digits ≠ 0) :
    (d.stripped fuel).digits ≠ 0 := by
  induction fuel generalizing d with
  | zero => exact positive
  | succ fuel ih =>
    unfold Decimal.stripped
    split
    · exact ih (by dsimp only; omega)
    · exact positive

theorem Decimal.stripped_zero (fuel : Nat) : Decimal.stripped fuel ⟨0, 0⟩ = ⟨0, 0⟩ := by
  cases fuel <;> simp [Decimal.stripped]

/-- The digits of a positive number are more than zero; should none be found, there is a zero. -/
theorem Magnitude.shortest_cases {g : Magnitude} (positive : g.mantissa ≠ 0) (tie : Tie) :
    (g.shortest tie).digits ≠ 0 ∨ g.shortest tie = ⟨0, 0⟩ := by
  simp only [Magnitude.shortest]
  generalize search : (List.range 17).findSome? (fun n =>
    (g.interval.onGrid tie (g.interval.decade - (n + 1 : Nat))).map fun t =>
      (⟨t, g.interval.decade - (n + 1 : Nat)⟩ : Decimal)) = found
  cases found with
  | none => exact Or.inr (Decimal.stripped_zero 20)
  | some d =>
    obtain ⟨n, _, here⟩ := List.exists_of_findSome?_eq_some search
    obtain ⟨t, onGrid, rfl⟩ := Option.map_eq_some_iff.1 here
    have nonzero : t ≠ 0 :=
      Magnitude.Interval.onGrid_ne_zero (Magnitude.interval_low_pos positive) onGrid
    exact Or.inl (Decimal.stripped_digits_ne_zero (d := ⟨t, _⟩) 20 nonzero)

namespace Json

theorem wellFormed_ofInt (n : Int) : WellFormed (.ofInt n) where
  wholeNonempty := Numeral.ofNat_ne_nil _
  wholeDigits := fun _ h => Numeral.isDigit_of_mem_ofNat h
  noLeadingZero := by
    rintro ⟨zero, long⟩
    by_cases positive : n.natAbs = 0
    · simp only [Written.ofInt, positive] at long
      exact absurd long (by decide)
    · exact Numeral.head_ofNat positive zero
  fractionDigits := fun _ h => (List.not_mem_nil h).elim
  exponentNonempty := fun _ _ h => by cases h
  exponentDigits := fun _ _ h => by cases h

structure Leading (ds : List Char) : Prop where
  nonempty : ds ≠ []
  digits : ∀ c ∈ ds, c.isDigit = true
  noZero : ds.head? ≠ some '0'

theorem leading_ofNat {n : Nat} (positive : n ≠ 0) : Leading (Numeral.ofNat n) :=
  ⟨Numeral.ofNat_ne_nil n, fun _ h => Numeral.isDigit_of_mem_ofNat h, Numeral.head_ofNat positive⟩

variable {ds fraction : List Char}

theorem wellFormed_plain (negative : Bool) {whole : List Char} (nonempty : whole ≠ [])
    (digits : ∀ c ∈ whole, c.isDigit = true)
    (noZero : ¬ (whole.head? = some '0' ∧ 1 < whole.length))
    (after : ∀ c ∈ fraction, c.isDigit = true) : WellFormed ⟨negative, whole, fraction, none⟩ :=
  ⟨nonempty, digits, noZero, after, fun _ _ h => (by cases h), fun _ _ h => (by cases h)⟩

theorem wellFormed_zero (negative : Bool) (after : ∀ c ∈ fraction, c.isDigit = true) :
    WellFormed ⟨negative, ['0'], fraction, none⟩ :=
  wellFormed_plain negative (by decide) (List.forall_mem_singleton.2 (by decide)) (by decide) after

theorem Leading.wellFormed_positional {style : NumberStyle} (leading : Leading ds)
    (after : ∀ c ∈ style.wholeFraction, c.isDigit = true) (negative : Bool) (places : Int) :
    WellFormed (style.positional negative ds places) := by
  obtain ⟨d, more, rfl⟩ := List.exists_cons_of_ne_nil leading.nonempty
  have noZero : ¬ d = '0' := fun zero => leading.noZero (zero ▸ rfl)
  unfold NumberStyle.positional
  split
  · refine wellFormed_zero negative fun c h => ?_
    rcases List.mem_append.1 h with zero | digit
    · exact Numeral.isDigit_replicate c zero
    · exact leading.digits c digit
  · dsimp only
    split
    · refine wellFormed_plain negative (by simp) (fun c h => ?_) (by simp [noZero]) after
      rcases List.mem_append.1 h with digit | zero
      · exact leading.digits c digit
      · exact Numeral.isDigit_replicate c zero
    · obtain ⟨count, positive⟩ : ∃ count, places.toNat = count + 1 := ⟨places.toNat - 1, by omega⟩
      rw [positive]
      exact wellFormed_plain negative (by simp)
        (fun c h => leading.digits c (List.mem_of_mem_take h)) (by simp [noZero])
        fun c h => leading.digits c (List.mem_of_mem_drop h)

theorem wellFormed_scientific (nonempty : ds ≠ []) (digits : ∀ c ∈ ds, c.isDigit = true)
    (negative : Bool) (exponent : Int) :
    WellFormed (NumberStyle.scientific negative ds exponent) := by
  obtain ⟨d, more, rfl⟩ := List.exists_cons_of_ne_nil nonempty
  refine ⟨by simp [NumberStyle.scientific], fun c h => digits c (List.mem_of_mem_take h),
    by simp [NumberStyle.scientific], fun c h => digits c (List.mem_of_mem_drop h), ?_, ?_⟩
  · rintro _ _ ⟨⟩
    exact Numeral.ofNat_ne_nil _
  · rintro _ _ ⟨⟩ c h
    exact Numeral.isDigit_of_mem_ofNat h

/-- A double is written as a number that JSON has, in any style. -/
theorem wellFormed_styled {style : NumberStyle}
    (after : ∀ c ∈ style.wholeFraction, c.isDigit = true) (negative : Bool) (g : Magnitude) :
    WellFormed (style.write negative g) := by
  unfold NumberStyle.write
  split
  · exact wellFormed_zero negative after
  · rename_i positive
    rcases Magnitude.shortest_cases positive style.tie with nonzero | zero
    · have leading := leading_ofNat nonzero
      dsimp only
      split
      · exact leading.wellFormed_positional after negative _
      · exact wellFormed_scientific leading.nonempty leading.digits negative _
    · rw [zero]
      dsimp only
      split
      · exact wellFormed_zero negative after
      · exact wellFormed_scientific (Numeral.ofNat_ne_nil 0)
          (fun _ h => Numeral.isDigit_of_mem_ofNat h) negative _

theorem wellFormed_write (negative : Bool) (g : Magnitude) :
    WellFormed (numberStyle.write negative g) :=
  wellFormed_styled (List.forall_mem_singleton.2 (by decide)) negative g

theorem integer?_ofInt {n : Int} (low : -9223372036854775808 ≤ n)
    (high : n ≤ 18446744073709551615) : integer? (.ofInt n) = some n := by
  unfold integer?
  simp only [Written.ofInt, List.isEmpty_nil, Option.isNone_none, Bool.and_self, if_true,
    Numeral.value_ofNat, decide_eq_true_eq, Span.long, digitLimit]
  split
  · rw [if_neg (by omega)]
    exact congrArg some (by omega)
  · rw [if_pos (by omega)]
    exact congrArg some (by omega)

/-- Does a number fit the words that ids are? -/
def IsWord (n : Nat) : Prop := n < 18446744073709551616

theorem asNat_ofNat {n : Nat} (word : IsWord n) : asNat (.ofNat n) = some n := by
  unfold IsWord at word
  have read := integer?_ofInt (n := n) (by omega) (by omega)
  simp [asNat, Json.ofNat, read]

theorem asLong_ofInt (n : Int64) : asLong (.ofInt n.toInt) = some n := by
  have low := n.le_toInt
  have high := n.toInt_lt
  have read := integer?_ofInt (n := n.toInt) (by omega) (by omega)
  have fits : n.toInt ≤ (Span.long.high : Int) := by
    have high_eq : (Span.long.high : Int) = 9223372036854775807 := rfl
    omega
  simp only [asLong, Json.ofInt, read, Option.bind_some, fits, if_true, Int64.ofInt_toInt]

end Json

end NestedBatch

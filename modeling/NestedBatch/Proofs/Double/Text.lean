import NestedBatch.Parameter.Value
import NestedBatch.Proofs.Double.Interval

/-! Finite doubles with the same text are the same. The text tells the sign and the
shortest decimal, and that decimal is rounded to one size only. -/
namespace NestedBatch

open Json

theorem Numeral.value_append_zeros (ds : List Char) (k : Nat) :
    Numeral.value (ds ++ List.replicate k '0') = Numeral.value ds * 10 ^ k := by
  unfold Numeral.value
  rw [Nat.ofDigitChars_append, Nat.ofDigitChars_replicate_zero, Nat.mul_comm]

theorem Numeral.value_zeros_append (ds : List Char) (k : Nat) :
    Numeral.value (List.replicate k '0' ++ ds) = Numeral.value ds := by
  unfold Numeral.value
  rw [Nat.ofDigitChars_append, Nat.ofDigitChars_replicate_zero, Nat.mul_zero]

/-- Two numbers that are written alike are one. -/
theorem Json.WellFormed.eq_of_chars {w v : Written} (formed : WellFormed w)
    (formed' : WellFormed v) (same : w.chars = v.chars) : w = v := by
  have read : number? (w.chars ++ []) = some (w, []) := number?_chars formed trivial
  have read' : number? (v.chars ++ []) = some (v, []) := number?_chars formed' trivial
  rw [same] at read
  exact (Prod.mk.inj (Option.some.inj (read.symm.trans read'))).1

/-- The number that is written without an exponent, its sign left out. -/
def Written.number (w : Written) : ℚ :=
  (Numeral.value (w.whole ++ w.fraction) : ℚ) / 10 ^ w.fraction.length

/-- Written out in full, a decimal is written as the number that it is. -/
theorem NumberStyle.number_positional {style : NumberStyle} (whole : style.wholeFraction = [])
    (negative : Bool) (d : Decimal) :
    (style.positional negative (Numeral.ofNat d.digits)
      ((Numeral.ofNat d.digits).length + d.exponent)).number = d.number := by
  obtain ⟨n, e⟩ := d
  dsimp only [Decimal.number]
  have value := Numeral.value_ofNat n
  generalize Numeral.ofNat n = ds at value
  unfold NumberStyle.positional
  split
  · rename_i small
    obtain ⟨m, rfl⟩ : ∃ m : Nat, e = -(m : Int) := ⟨(-e).toNat, by omega⟩
    have zero : ['0'] = List.replicate 1 '0' := rfl
    have length : (-((ds.length : Int) + -(m : Int))).toNat + ds.length = m := by omega
    simp only [Written.number, zero, Numeral.value_zeros_append, value, List.length_append,
      List.length_replicate, length, zpow_neg, zpow_natCast, div_eq_mul_inv]
  · dsimp only
    split
    · obtain ⟨m, rfl⟩ : ∃ m : Nat, e = m := ⟨e.toNat, by omega⟩
      have length : ((ds.length : Int) + (m : Int)).toNat - ds.length = m := by omega
      simp only [Written.number, whole, List.append_nil, length, Numeral.value_append_zeros, value,
        List.length_nil, pow_zero, div_one, zpow_natCast, Nat.cast_mul, Nat.cast_pow,
        Nat.cast_ofNat]
    · obtain ⟨m, rfl⟩ : ∃ m : Nat, e = -(m : Int) := ⟨(-e).toNat, by omega⟩
      have length : ds.length - ((ds.length : Int) + -(m : Int)).toNat = m := by omega
      simp only [Written.number, List.take_append_drop, value, List.length_drop, length, zpow_neg,
        zpow_natCast, div_eq_mul_inv]

theorem NumberStyle.negative_positional {style : NumberStyle} (negative : Bool) (ds : List Char)
    (places : Int) : (style.positional negative ds places).negative = negative := by
  unfold NumberStyle.positional
  split
  · rfl
  · dsimp only
    split <;> rfl

namespace Double

variable {g g' : Magnitude} {negative negative' : Bool}

theorem negative_write (negative : Bool) (g : Magnitude) :
    (plain.write negative g).negative = negative := by
  unfold NumberStyle.write
  split
  · rfl
  · exact NumberStyle.negative_positional negative _ _

theorem number_write (positive : g.mantissa ≠ 0) :
    (plain.write negative g).number = (g.shortest .larger).number := by
  have style : plain.tie = .larger := rfl
  have full : plain.writtenOut = fun _ => true := rfl
  simp only [NumberStyle.write, positive, if_false, style, full, if_true]
  exact NumberStyle.number_positional rfl negative (g.shortest .larger)

theorem number_write_zero (zero : g.mantissa = 0) : (plain.write negative g).number = 0 := by
  have nothing : Numeral.value ['0'] = 0 := rfl
  simp [NumberStyle.write, zero, Written.number, plain, nothing]

theorem number_shortest_pos (positive : g.mantissa ≠ 0) :
    0 < (g.shortest .larger).number := by
  have digits := Nat.pos_of_ne_zero (Magnitude.shortest_contains positive .larger).1
  have whole : (0 : ℚ) < (g.shortest .larger).digits := by exact_mod_cast digits
  exact mul_pos whole (zpow_pos (by norm_num) _)

theorem eq_of_mantissa_zero (zero : g.mantissa = 0) (zero' : g'.mantissa = 0) : g = g' := by
  obtain ⟨m, e, fits⟩ := g
  obtain ⟨m', e', fits'⟩ := g'
  cases zero
  cases zero'
  have least : e = -1074 := fits.2.2.2.resolve_left (by decide)
  have least' : e' = -1074 := fits'.2.2.2.resolve_left (by decide)
  subst least
  subst least'
  rfl

/-- Sizes that are written as the same number are the same. -/
theorem eq_of_number (same : (plain.write negative g).number = (plain.write negative' g').number) :
    g = g' := by
  by_cases zero : g.mantissa = 0 <;> by_cases zero' : g'.mantissa = 0
  · exact eq_of_mantissa_zero zero zero'
  · rw [number_write_zero zero, number_write zero'] at same
    exact absurd same (number_shortest_pos zero').ne
  · rw [number_write zero, number_write_zero zero'] at same
    exact absurd same (number_shortest_pos zero).ne'
  · rw [number_write zero, number_write zero'] at same
    exact Magnitude.eq_of_shortest zero zero' same

/-- The text of a finite double is its own. -/
theorem eq_of_text {d d' : Double} (finite : d.isFinite = true) (finite' : d'.isFinite = true)
    (same : d.text = d'.text) : d = d' := by
  cases d with
  | nan | infinite _ => cases finite
  | finite negative g =>
    cases d' with
    | nan | infinite _ => cases finite'
    | finite negative' g' =>
      have chars : (plain.write negative g).chars = (plain.write negative' g').chars :=
        String.ofList_injective same
      have formed : ∀ n g, WellFormed (plain.write n g) :=
        wellFormed_styled fun _ none => by cases none
      have written := (formed negative g).eq_of_chars (formed negative' g') chars
      have sign : negative = negative' := by
        rw [← negative_write negative g, written, negative_write]
      have size : g = g' := eq_of_number (congrArg Written.number written)
      rw [sign, size]

end Double

end NestedBatch

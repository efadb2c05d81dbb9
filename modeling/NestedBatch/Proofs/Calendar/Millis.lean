import NestedBatch.Proofs.Calendar.Stored

/-! What a text in milliseconds tells of an instant: all but the rest of the millisecond. -/
namespace NestedBatch

namespace Instant

/-- The instant at which the millisecond begins, also in a leap second. -/
def floor (t : Instant) : Instant where
  second := t.second
  nano := t.nano - t.nano % 1000000
  fits := by
    obtain ⟨low, high, bound⟩ := t.fits
    exact ⟨low, high, by omega⟩

/-- What is told of an instant in milliseconds: where its millisecond begins, a leap second
within a minute being the second after. -/
def cut (t : Instant) : Instant := t.settled.floor

variable {t : Instant}

theorem InPlace.floor (placed : t.InPlace) : t.floor.InPlace := by
  intro late
  have whole : 1000000000 ≤ t.nano - t.nano % 1000000 := late
  exact placed (by omega)

theorem chars_floor (t : Instant) : t.floor.chars .millis = t.chars .millis := by
  have leap : 1000000000 ≤ t.nano - t.nano % 1000000 ↔ 1000000000 ≤ t.nano := by omega
  have part : (if 1000000000 ≤ t.nano then t.nano - t.nano % 1000000 - 1000000000
      else t.nano - t.nano % 1000000) / 1000000
      = (if 1000000000 ≤ t.nano then t.nano - 1000000000 else t.nano) / 1000000 := by
    split <;> omega
  simp only [chars, floor, date, secondOfDay, leap, fractionText, part]

theorem chars_cut (t : Instant) : t.cut.chars .millis = t.chars .millis :=
  t.settled.chars_floor.trans (t.chars_settled .millis)

/-- The milliseconds that a text tells, in nanoseconds. -/
def toldNano (t : Instant) : Nat :=
  (if 1000000000 ≤ t.nano then t.nano - 1000000000 else t.nano) / 1000000 * 10 ^ (9 - 3)

theorem fraction_millis (t : Instant) :
    Calendar.fraction (fractionText
      (if 1000000000 ≤ t.nano then t.nano - 1000000000 else t.nano) .millis ++ ['Z'])
      = some (t.toldNano, ['Z']) := by
  have bound := t.fits.2.2
  have stop : Numeral.NoDigit ['Z'] := (by decide : 'Z'.isDigit = false)
  exact Calendar.fraction_padded 3 _ (by decide) (by decide) (by split <;> omega) stop

theorem instant?_millis (placed : t.InPlace) :
    Calendar.instant? t.date (t.secondOfDay / 3600) (t.secondOfDay / 60 % 60)
      (t.secondOfDay % 60 + if 1000000000 ≤ t.nano then 1 else 0) t.toldNano 0
      = some t.floor := by
  rw [← Calendar.instant?_parts placed.floor]
  have leap : 1000000000 ≤ t.nano - t.nano % 1000000 ↔ 1000000000 ≤ t.nano := by omega
  have part : t.toldNano = if 1000000000 ≤ t.nano then t.nano - t.nano % 1000000 - 1000000000
      else t.nano - t.nano % 1000000 := by
    unfold toldNano
    split <;> omega
  simp only [floor, date, secondOfDay, leap, part]

theorem readStored_millis (t : Instant) :
    Calendar.readStored (t.chars .millis) = some t.cut := by
  rw [← t.chars_settled]
  exact (Calendar.readStored_fraction t.settled t.settled.fraction_millis).trans
    (instant?_millis t.inPlace_settled)

/-- An instant of which no part is less than a millisecond is all that is told of it, unless
it has a leap second within a minute. -/
theorem cut_of_whole (whole : t.nano % 1000000 = 0) (placed : t.InPlace) : t.cut = t := by
  rw [cut, settled_of_inPlace placed]
  obtain ⟨second, nano, fits⟩ := t
  dsimp only at whole
  simp only [floor, whole, Nat.sub_zero]

/-- Two instants have the same text in milliseconds if they are in the same millisecond. -/
theorem text_millis_iff {u : Instant} : t.text .millis = u.text .millis ↔ t.cut = u.cut := by
  constructor
  · intro same
    have chars : t.chars .millis = u.chars .millis := String.ofList_injective same
    have read := readStored_millis t
    rw [chars, readStored_millis u] at read
    exact (Option.some.inj read).symm
  · intro same
    rw [text, ← chars_cut, same, chars_cut, text]

end Instant

end NestedBatch

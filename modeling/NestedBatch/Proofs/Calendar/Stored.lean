import NestedBatch.Calendar.Reading
import NestedBatch.Proofs.Calendar.Date
import NestedBatch.Proofs.Text.Blank
import NestedBatch.Proofs.Text.Digits

/-! A stored time is read back to the nanosecond, far years included, and leap seconds at
the end of a minute. A leap second within a minute is read back as the second after. -/
namespace NestedBatch

namespace Instant

/-- Is the leap second, if there is one, at the end of a minute? The calendar has none
elsewhere, and one elsewhere has the text of the second after. -/
def InPlace (t : Instant) : Prop := 1000000000 ≤ t.nano → t.second % 60 = 59

instance (t : Instant) : Decidable t.InPlace :=
  inferInstanceAs (Decidable (1000000000 ≤ t.nano → t.second % 60 = 59))

/-- What the text of an instant tells: a leap second within a minute is the second after. -/
def settled (t : Instant) : Instant :=
  if placed : t.InPlace then t
  else ⟨t.second + 1, t.nano - 1000000000, by
    unfold InPlace at placed
    obtain ⟨low, high, bound⟩ := t.fits
    omega⟩

variable {t : Instant}

theorem settled_of_inPlace (placed : t.InPlace) : t.settled = t := dif_pos placed

theorem settled_parts (within : ¬ t.InPlace) :
    t.settled.second = t.second + 1 ∧ t.settled.nano = t.nano - 1000000000 := by
  rw [settled, dif_neg within]
  exact ⟨rfl, rfl⟩

theorem inPlace_settled (t : Instant) : t.settled.InPlace := by
  by_cases placed : t.InPlace
  · rwa [settled_of_inPlace placed]
  · have bound := t.fits.2.2
    intro late
    have part := (settled_parts placed).2
    omega

theorem settled_eq_self_iff : t.settled = t ↔ t.InPlace :=
  ⟨fun same => same ▸ t.inPlace_settled, settled_of_inPlace⟩

/-- A clock that goes on by milliseconds shows no leap second. -/
theorem InPlace.plusMillis (placed : t.InPlace) (n : Nat) : (t.plusMillis n).InPlace := by
  unfold Instant.plusMillis of?
  dsimp only
  split
  · intro late
    have part : 1000000000 ≤ (t.nano % 1000000000 + n * 1000000) % 1000000000 := late
    omega
  · exact placed

/-- The second after is in the same minute. -/
theorem date_settled (t : Instant) : t.settled.date = t.date := by
  by_cases placed : t.InPlace
  · rw [settled_of_inPlace placed]
  · have second := (settled_parts placed).1
    unfold InPlace at placed
    have day : t.settled.second / 86400 = t.second / 86400 := by omega
    rw [date, day, date]

theorem chars_settled (t : Instant) (precision : Precision) :
    t.settled.chars precision = t.chars precision := by
  by_cases placed : t.InPlace
  · rw [settled_of_inPlace placed]
  · obtain ⟨second, nano⟩ := settled_parts placed
    have bound := t.fits.2.2
    have date := t.date_settled
    unfold InPlace at placed
    have late : 1000000000 ≤ t.nano := by omega
    have early : ¬ 1000000000 ≤ t.nano - 1000000000 := by omega
    have next : t.settled.secondOfDay = t.secondOfDay + 1 := by
      simp only [secondOfDay, second]
      omega
    have within : t.secondOfDay % 60 ≠ 59 := by
      unfold secondOfDay
      omega
    have hours : (t.secondOfDay + 1) / 3600 = t.secondOfDay / 3600 := by omega
    have minutes : (t.secondOfDay + 1) / 60 % 60 = t.secondOfDay / 60 % 60 := by omega
    have seconds : (t.secondOfDay + 1) % 60 + 0 = t.secondOfDay % 60 + 1 := by omega
    simp only [chars, date, next, nano, if_pos late, if_neg early, hours, minutes, seconds]

end Instant

namespace Calendar

open Numeral Text

variable {ds rest : List Char}

theorem NoDigit.take (stop : NoDigit rest) (k : Nat) : NoDigit (rest.take k) := by
  cases rest with
  | nil => simpa using stop
  | cons c rest =>
    cases k with
    | zero => trivial
    | succ k => exact stop

/-- A number in front of a text takes all its digits, if it may have so many. -/
theorem number_append {least most : Nat} (digits : ∀ c ∈ ds, c.isDigit = true)
    (enough : least ≤ ds.length) (fits : ds.length ≤ most)
    (stop : ds.length = most ∨ NoDigit rest) :
    number least most (ds ++ rest) = some (value ds, rest) := by
  have cut : (ds ++ rest).take most = ds ++ rest.take (most - ds.length) := by
    rw [List.take_append, List.take_of_length_le fits]
  have after : NoDigit (rest.take (most - ds.length)) := by
    rcases stop with full | stop
    · rw [full, Nat.sub_self, List.take_zero]
      trivial
    · exact NoDigit.take stop _
  have front := (takeWhile_digits digits after).1
  simp only [number, cut, front, if_neg (Nat.not_lt.2 enough), List.drop_left]

theorem looseField_padded {n : Nat} (fits : n < 100) :
    looseField (padded 2 n ++ rest) = some (n, rest) := by
  have length : (padded 2 n).length = 2 := length_padded (by decide) (by simpa using fits)
  have trimmed : trimLeft (padded 2 n ++ rest) = padded 2 n ++ rest := by
    obtain ⟨d, more, eq⟩ := List.exists_cons_of_length_pos (show 0 < (padded 2 n).length by omega)
    have digit : d.isDigit = true := isDigit_of_mem_padded 2 n d (eq ▸ List.mem_cons_self)
    rw [eq, List.cons_append, trimLeft_cons (isBlank_digit digit)]
  have read : number 1 2 (padded 2 n ++ rest) = some (value (padded 2 n), rest) :=
    number_append (isDigit_of_mem_padded 2 n) (by omega) (by omega) (Or.inl length)
  rw [looseField, trimmed, read, value_padded]

theorem fraction_padded (width part : Nat) (positive : 0 < width) (short : width ≤ 9)
    (fits : part < 10 ^ width) (stop : NoDigit rest) :
    fraction ('.' :: (padded width part ++ rest)) = some (part * 10 ^ (9 - width), rest) := by
  have length := length_padded positive fits
  obtain ⟨front, _⟩ := takeWhile_digits (isDigit_of_mem_padded width part) stop
  have nonempty : (padded width part).isEmpty = false := by
    rw [List.isEmpty_eq_false_iff, ← List.length_pos_iff]
    omega
  have counted : (padded width part).take 9 = padded width part :=
    List.take_of_length_le (by omega)
  simp only [fraction, front, nonempty, Bool.false_eq_true, if_false, counted, value_padded,
    List.drop_left]
  rw [length]
  rfl

theorem fraction_fractionText {nano : Nat} (below : nano < 1000000000) :
    fraction (Instant.fractionText nano .exact ++ ['Z']) = some (nano, ['Z']) := by
  have stop : NoDigit ['Z'] := (by decide : 'Z'.isDigit = false)
  unfold Instant.fractionText
  dsimp only
  split
  · rename_i zero
    subst zero
    rfl
  · split
    · rename_i millis
      have read := fraction_padded 3 (nano / 1000000) (by decide) (by decide)
        (by omega) stop
      rw [List.cons_append, read]
      exact congrArg (fun n => some (n, ['Z'])) (by omega)
    · split
      · rename_i micros
        have read := fraction_padded 6 (nano / 1000) (by decide) (by decide)
          (by omega) stop
        rw [List.cons_append, read]
        exact congrArg (fun n => some (n, ['Z'])) (by omega)
      · have read := fraction_padded 9 nano (by decide) (by decide)
          (by omega) stop
        rw [List.cons_append, read]
        exact congrArg (fun n => some (n, ['Z'])) (by omega)

theorem looseYear_yearText (year : Int) (rest : List Char) (stop : NoDigit rest) :
    looseYear (Instant.yearText year ++ rest) = some (year, rest) := by
  unfold Instant.yearText
  split
  · rename_i plain
    have length : (padded 4 year.toNat).length = 4 := length_padded (by decide) (by omega)
    obtain ⟨d, more, eq⟩ := List.exists_cons_of_length_pos
      (show 0 < (padded 4 year.toNat).length by omega)
    have digit : d.isDigit = true :=
      isDigit_of_mem_padded 4 year.toNat d (eq ▸ List.mem_cons_self)
    have minus : d ≠ '-' := by
      rintro rfl
      exact absurd digit (by decide)
    have plus : d ≠ '+' := by
      rintro rfl
      exact absurd digit (by decide)
    have read : number 1 4 (padded 4 year.toNat ++ rest)
        = some (value (padded 4 year.toNat), rest) :=
      number_append (isDigit_of_mem_padded 4 year.toNat) (by omega) (by omega) (Or.inl length)
    rw [value_padded] at read
    rw [eq, List.cons_append] at read ⊢
    simp [looseYear, trimLeft_cons (isBlank_digit digit), minus, plus, read]
    omega
  · have length := le_length_padded 4 year.natAbs
    have fits : (padded 4 year.natAbs).length ≤ (padded 4 year.natAbs ++ rest).length := by
      rw [List.length_append]
      omega
    have read : number 1 (padded 4 year.natAbs ++ rest).length (padded 4 year.natAbs ++ rest)
        = some (value (padded 4 year.natAbs), rest) :=
      number_append (isDigit_of_mem_padded 4 year.natAbs) (by omega) fits (Or.inr stop)
    rw [value_padded] at read
    split <;> rename_i sign
    · have visible : isBlank '-' = false := by decide
      rw [List.cons_append, looseYear, trimLeft_cons visible]
      simp only [read, Option.map_some]
      exact congrArg (fun y => some (y, rest)) (by omega)
    · have visible : isBlank '+' = false := by decide
      rw [List.cons_append, looseYear, trimLeft_cons visible]
      simp only [read, Option.map_some]
      exact congrArg (fun y => some (y, rest)) (by omega)

theorem looseZone_utc : looseZone (trimLeft ['Z']) = some (0, []) := by decide

/-- A valid date of a year in range with a time of day in UTC. -/
theorem instant?_utc {d : Date} {hour minute second nano : Nat} (valid : d.isValid = true)
    (first : -262143 ≤ d.year) (last : d.year ≤ 262142) (hours : hour ≤ 23)
    (minutes : minute ≤ 59) (seconds : second ≤ 60) :
    instant? d hour minute second nano 0 =
      if second = 60 then
        Instant.of? (d.number * 86400 + hour * 3600 + minute * 60 + 59) (nano + 1000000000)
      else Instant.of? (d.number * 86400 + hour * 3600 + minute * 60 + second) nano := by
  unfold instant?
  simp only [valid]
  rw [if_neg (by simp; omega), if_neg (by simp; omega)]
  by_cases leap : second = 60
  · simp only [if_pos leap, Int.sub_zero]
    rfl
  · simp only [if_neg leap, Int.sub_zero]

theorem of?_fits {second : Int} {nano : Nat} (t : Instant) (same : t.second = second)
    (part : t.nano = nano) : Instant.of? second nano = some t := by
  subst same part
  exact dif_pos t.fits

/-- An instant is made of its date and its time of day, in a leap second as well. -/
theorem instant?_parts {t : Instant} (placed : t.InPlace) :
    instant? t.date (t.secondOfDay / 3600) (t.secondOfDay / 60 % 60)
      (t.secondOfDay % 60 + if 1000000000 ≤ t.nano then 1 else 0)
      (if 1000000000 ≤ t.nano then t.nano - 1000000000 else t.nano) 0 = some t := by
  obtain ⟨low, high, bound⟩ := t.fits
  have valid : t.date.isValid = true := Date.isValid_ofNumber _
  obtain ⟨first, last⟩ : -262143 ≤ t.date.year ∧ t.date.year ≤ 262142 :=
    Date.year_ofNumber (by omega) (by omega)
  have number : t.date.number = t.second / 86400 := Date.number_ofNumber _
  have ofDay : (t.secondOfDay : Int) = t.second % 86400 := by
    unfold Instant.secondOfDay
    omega
  have short : (t.secondOfDay % 60 + if 1000000000 ≤ t.nano then 1 else 0) ≤ 60 := by
    split <;> omega
  rw [instant?_utc valid first last (by omega) (by omega) short, number]
  by_cases late : 1000000000 ≤ t.nano
  · have leap := placed late
    have ending : t.secondOfDay % 60 = 59 := by omega
    simp only [if_pos late, ending, if_true]
    exact of?_fits t (by omega) (by omega)
  · have early : ¬ t.secondOfDay % 60 = 60 := by omega
    simp only [if_neg late, Nat.add_zero, if_neg early]
    exact of?_fits t (by omega) rfl

theorem noDigit_cons {c : Char} (other : c.isDigit = false) : NoDigit (c :: rest) := other

theorem skip_trimLeft {c : Char} (visible : isBlank c = false) (rest : List Char) :
    skip c (trimLeft (c :: rest)) = some rest := by
  simp only [trimLeft_cons visible, skip, if_true]

/-- A text of an instant is read as its date and its time of day, with the part of
the second that its fraction tells. -/
theorem readStored_fraction (t : Instant) {precision : Precision} {nano : Nat}
    (told : fraction (Instant.fractionText
      (if 1000000000 ≤ t.nano then t.nano - 1000000000 else t.nano) precision ++ ['Z'])
        = some (nano, ['Z'])) :
    readStored (t.chars precision) =
      instant? t.date (t.secondOfDay / 3600) (t.secondOfDay / 60 % 60)
        (t.secondOfDay % 60 + if 1000000000 ≤ t.nano then 1 else 0) nano 0 := by
  obtain ⟨shortMonth, shortDay⟩ :=
    Date.bounds_of_isValid (show t.date.isValid = true from Date.isValid_ofNumber _)
  have ofDay : t.secondOfDay < 86400 := by
    unfold Instant.secondOfDay
    omega
  have whole : (t.secondOfDay % 60 + if 1000000000 ≤ t.nano then 1 else 0) < 100 := by
    split <;> omega
  have year := fun s => looseYear_yearText t.date.year ('-' :: s) (noDigit_cons (by decide))
  have dash := skip_trimLeft (show isBlank '-' = false by decide)
  have colon := skip_trimLeft (show isBlank ':' = false by decide)
  have separator : ∀ s, skipSeparator ('T' :: s) = some s := fun _ => rfl
  have nothing : (trimLeft []).isEmpty = true := rfl
  simp only [readStored, Instant.chars, Instant.dateText, List.append_assoc, List.cons_append,
    Option.bind_eq_bind, Option.bind_some, year, dash, colon, separator,
    looseField_padded (show t.date.month < 100 by omega),
    looseField_padded (show t.date.day < 100 by omega),
    looseField_padded (show t.secondOfDay / 3600 < 100 by omega),
    looseField_padded (show t.secondOfDay / 60 % 60 < 100 by omega),
    looseField_padded whole, told, looseZone_utc, nothing, if_true]

/-- What is read of a stored time is what its text tells. -/
theorem readStored_chars (t : Instant) : readStored (t.chars .exact) = some t.settled := by
  have bound := t.settled.fits.2.2
  rw [← t.chars_settled,
    readStored_fraction t.settled (fraction_fractionText (by split <;> omega))]
  exact instant?_parts t.inPlace_settled

/-- A stored time is read back exactly if it has no leap second within a minute. -/
theorem readStored_chars_iff {t : Instant} :
    readStored (t.chars .exact) = some t ↔ t.InPlace := by
  rw [readStored_chars, Option.some.injEq, Instant.settled_eq_self_iff]

end Calendar

end NestedBatch

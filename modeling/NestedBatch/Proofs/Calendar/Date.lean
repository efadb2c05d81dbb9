import NestedBatch.Calendar.Date

/-! The dates of the calendar and the numbers of days stand for each other. Years
begin in March here, as they do in the computation, and 400 of them make an era. -/
namespace NestedBatch.Date

/-- The days of an era before one of its years. -/
def yearStart (year : Int) : Int := 365 * year + year / 4 - year / 100 + year / 400

/-- The year of an era that one of its days falls in. -/
def yearOfEra (day : Int) : Int := (day - day / 1460 + day / 36524 - day / 146096) / 365

/-- The month, counted from March, that a day of the year falls in. -/
def monthOfYear (day : Int) : Int := (5 * day + 2) / 153

def dayOfMonth (day : Int) : Int := day - (153 * monthOfYear day + 2) / 5 + 1

theorem yearOfEra_succ (day : Int) : yearOfEra day ≤ yearOfEra (day + 1) := by
  unfold yearOfEra
  have fourYears : (day + 1) / 1460 ≤ day / 1460 + 1 := by omega
  have century : day / 36524 ≤ (day + 1) / 36524 := by omega
  have era : (day + 1) / 146096 - day / 146096 ≤ (day + 1) / 36524 - day / 36524 := by
    have now : day / 146096 = day / 36524 / 4 := by omega
    have next : (day + 1) / 146096 = (day + 1) / 36524 / 4 := by omega
    omega
  exact Int.ediv_le_ediv (by decide) (by omega)

theorem yearOfEra_mono {a b : Int} (le : a ≤ b) : yearOfEra a ≤ yearOfEra b := by
  obtain ⟨k, rfl⟩ := Int.le.dest le
  induction k with
  | zero => simp
  | succ k ih =>
    have step := yearOfEra_succ (a + k)
    have earlier := ih (by omega)
    rw [Int.add_assoc] at step
    exact Int.le_trans earlier step

theorem yearOfEra_ends : ∀ y < 400,
    yearOfEra (yearStart (y : Nat)) = y ∧ yearOfEra (yearStart ((y : Nat) + 1) - 1) = y := by
  decide +kernel

theorem exists_yearStart {day : Int} (first : 0 ≤ day) (n : Nat) (before : day < yearStart n) :
    ∃ y < n, yearStart (y : Nat) ≤ day ∧ day < yearStart ((y : Nat) + 1) := by
  induction n with
  | zero =>
    have zero : yearStart (0 : Nat) = 0 := rfl
    omega
  | succ n ih =>
    by_cases earlier : day < yearStart n
    · obtain ⟨y, below, here⟩ := ih earlier
      exact ⟨y, by omega, here⟩
    · exact ⟨n, by omega, by omega, by simpa using before⟩

/-- A day of an era falls in the year that is computed for it. -/
theorem yearOfEra_spec {day : Int} (first : 0 ≤ day) (last : day < 146097) :
    ∃ y < 400, yearOfEra day = (y : Nat) ∧ yearStart (y : Nat) ≤ day ∧
      day < yearStart ((y : Nat) + 1) := by
  obtain ⟨y, bound, start, stop⟩ := exists_yearStart first 400 last
  obtain ⟨low, high⟩ := yearOfEra_ends y bound
  have above := yearOfEra_mono start
  have below := yearOfEra_mono (show day ≤ yearStart ((y : Nat) + 1) - 1 by omega)
  exact ⟨y, bound, by omega, start, stop⟩

theorem yearStart_succ (y : Int) :
    yearStart (y + 1) = yearStart y + (if isLeapYear (y + 1) then 366 else 365) := by
  unfold yearStart isLeapYear
  simp only [Bool.and_eq_true, Bool.or_eq_true, decide_eq_true_eq]
  split <;> omega

theorem monthOfYear_spec : ∀ day < 366,
    0 ≤ monthOfYear (day : Nat) ∧ monthOfYear (day : Nat) ≤ 11 ∧ 1 ≤ dayOfMonth (day : Nat) ∧
      dayOfMonth (day : Nat) ≤
        (if monthOfYear (day : Nat) = 11 then (if day = 365 then 29 else 28)
        else if monthOfYear (day : Nat) ∈ [1, 3, 6, 8] then 30 else 31) := by
  decide +kernel

def ofYearDay (year day : Int) : Date :=
  if monthOfYear day < 10 then ⟨year, (monthOfYear day + 3).toNat, (dayOfMonth day).toNat⟩
  else ⟨year + 1, (monthOfYear day - 9).toNat, (dayOfMonth day).toNat⟩

theorem isLeapYear_era (year era : Int) : isLeapYear (year + 400 * era) = isLeapYear year := by
  unfold isLeapYear
  rw [show (year + 400 * era) % 4 = year % 4 by omega,
    show (year + 400 * era) % 100 = year % 100 by omega,
    show (year + 400 * era) % 400 = year % 400 by omega]

/-- Where a number of days lies: in which year of which era, and on which day of it. -/
theorem ofNumber_spec (n : Int) :
    ∃ era : Int, ∃ y < 400, ∃ d < 366, n + 719468 = 146097 * era + yearStart (y : Nat) + (d : Nat) ∧
      (d = 365 → isLeapYear ((y : Nat) + 1 + 400 * era) = true) ∧
      ofNumber n = ofYearDay ((y : Nat) + 400 * era) (d : Nat) := by
  have split := Int.mul_ediv_add_emod (n + 719468) 146097
  have first : 0 ≤ (n + 719468) % 146097 := Int.emod_nonneg _ (by decide)
  have last : (n + 719468) % 146097 < 146097 := Int.emod_lt_of_pos _ (by decide)
  obtain ⟨y, bound, year, start, stop⟩ := yearOfEra_spec first last
  have length := yearStart_succ y
  obtain ⟨d, day⟩ := Int.eq_ofNat_of_zero_le (show 0 ≤ (n + 719468) % 146097 - yearStart y by omega)
  refine ⟨(n + 719468) / 146097, y, bound, d, ?_, by omega, ?_, ?_⟩
  · split at length <;> omega
  · intro lastDay
    rw [isLeapYear_era]
    cases leap : isLeapYear ((y : Int) + 1) with
    | true => rfl
    | false =>
      simp only [leap, Bool.false_eq_true, if_false] at length
      omega
  · have inEra : (n + 719468) % 146097
        - (365 * (y : Int) + (y : Int) / 4 - (y : Int) / 100) = (d : Int) := by
      rw [← day]
      unfold yearStart
      omega
    unfold yearOfEra at year
    simp only [ofNumber, year, inEra]
    unfold ofYearDay dayOfMonth monthOfYear
    rw [Int.mul_comm 400]

theorem number_ofYearDay (year : Int) {d : Nat} (bound : d < 366) :
    (ofYearDay year d).number = yearStart year + d - 719468 := by
  obtain ⟨low, high, day, _⟩ := monthOfYear_spec d bound
  have position : (153 * monthOfYear d + 2) / 5 + dayOfMonth d = d + 1 := by
    unfold dayOfMonth
    omega
  unfold ofYearDay
  split
  · have month : ¬ (monthOfYear d + 3).toNat ≤ 2 := by omega
    simp only [number, if_neg month]
    unfold yearStart
    rw [show (((monthOfYear d + 3).toNat : Nat) : Int) - 3 = monthOfYear d by omega,
      show (((dayOfMonth d).toNat : Nat) : Int) = dayOfMonth d by omega]
    omega
  · have month : (monthOfYear d - 9).toNat ≤ 2 := by omega
    simp only [number, if_pos month]
    unfold yearStart
    rw [show (((monthOfYear d - 9).toNat : Nat) : Int) + 9 = monthOfYear d by omega,
      show (((dayOfMonth d).toNat : Nat) : Int) = dayOfMonth d by omega]
    rw [show year + 1 - 1 = year by omega]
    omega

@[simp] theorem number_ofNumber (n : Int) : (ofNumber n).number = n := by
  obtain ⟨era, y, bound, d, within, place, _, eq⟩ := ofNumber_spec n
  rw [eq, number_ofYearDay _ within]
  unfold yearStart at place ⊢
  omega

/-- Every day of a year is a date, the last one if it is the leap day. -/
theorem isValid_ofYearDay {year : Int} {d : Nat} (bound : d < 366)
    (leap : d = 365 → isLeapYear (year + 1) = true) : (ofYearDay year d).isValid = true := by
  obtain ⟨low, high, first, last⟩ := monthOfYear_spec d bound
  simp only [List.mem_cons, List.not_mem_nil, or_false] at last
  unfold ofYearDay
  split
  · rename_i early
    obtain ⟨m, month⟩ := Int.eq_ofNat_of_zero_le low
    have length : monthLength year (m + 3) = if m = 1 ∨ m = 3 ∨ m = 6 ∨ m = 8 then 30 else 31 := by
      have february : ¬ m + 3 = 2 := by omega
      simp only [monthLength, if_neg february]
      split <;> split <;> first | rfl | omega
    have number : (monthOfYear d + 3).toNat = m + 3 := by omega
    simp only [isValid, number, length, Bool.and_eq_true, decide_eq_true_eq]
    refine ⟨⟨⟨by omega, by omega⟩, by omega⟩, ?_⟩
    rw [if_neg (by omega)] at last
    split at last <;> split <;> omega
  · rename_i late
    by_cases february : monthOfYear d = 11
    · have number : (monthOfYear d - 9).toNat = 2 := by omega
      simp only [isValid, number, monthLength, if_true, Bool.and_eq_true, decide_eq_true_eq]
      refine ⟨⟨⟨by omega, by omega⟩, by omega⟩, ?_⟩
      rw [if_pos february] at last
      by_cases lastDay : d = 365
      · rw [leap lastDay]
        simp only [lastDay, if_true] at last ⊢
        omega
      · rw [if_neg lastDay] at last
        split <;> omega
    · have number : (monthOfYear d - 9).toNat = 1 := by omega
      have length : monthLength (year + 1) 1 = 31 := rfl
      simp only [isValid, number, length, Bool.and_eq_true, decide_eq_true_eq]
      refine ⟨⟨⟨by omega, by omega⟩, by omega⟩, ?_⟩
      rw [if_neg february] at last
      split at last <;> omega

theorem isValid_ofNumber (n : Int) : (ofNumber n).isValid = true := by
  obtain ⟨era, y, _, d, within, _, leap, eq⟩ := ofNumber_spec n
  rw [eq]
  refine isValid_ofYearDay within fun lastDay => ?_
  have long := leap lastDay
  rwa [show (y : Int) + 1 + 400 * era = y + 400 * era + 1 by omega] at long

theorem bounds_of_isValid {d : Date} (valid : d.isValid = true) : d.month ≤ 12 ∧ d.day ≤ 31 := by
  simp only [isValid, Bool.and_eq_true, decide_eq_true_eq] at valid
  have length : monthLength d.year d.month ≤ 31 := by
    unfold monthLength
    split
    · split <;> decide
    · split <;> decide
  omega

theorem yearStart_mono {a b : Int} (le : a ≤ b) : yearStart a ≤ yearStart b := by
  unfold yearStart
  omega

/-- The first and the last year that instants fall in. -/
theorem year_ofNumber {n : Int} (low : -96465292 ≤ n) (high : n ≤ 95026236) :
    -262143 ≤ (ofNumber n).year ∧ (ofNumber n).year ≤ 262142 := by
  obtain ⟨era, y, _, d, within, place, _, eq⟩ := ofNumber_spec n
  have year : yearStart (y + 400 * era) = 146097 * era + yearStart y := by
    unfold yearStart
    omega
  have earliest : yearStart (-262144) = -95746130 := by decide
  have latest : yearStart 262142 = 95745399 := by decide
  have after : -262144 ≤ y + 400 * era := by
    refine Int.not_lt.1 fun before => ?_
    have bound := yearStart_mono (show y + 400 * era ≤ -262145 by omega)
    have value : yearStart (-262145) = -95746496 := by decide
    omega
  have before : y + 400 * era ≤ 262142 := by
    refine Int.not_lt.1 fun after => ?_
    have bound := yearStart_mono (show 262143 ≤ y + 400 * era by omega)
    have value : yearStart 262143 = 95745764 := by decide
    omega
  rw [eq]
  unfold ofYearDay
  split <;> rename_i month <;> unfold monthOfYear at month
  · refine ⟨Int.not_lt.1 fun tooEarly => ?_, before⟩
    dsimp only at tooEarly
    rw [show y + 400 * era = -262144 by omega, earliest] at year
    omega
  · refine ⟨by dsimp only; omega, Int.not_lt.1 fun tooLate => ?_⟩
    dsimp only at tooLate
    rw [show y + 400 * era = 262142 by omega, latest] at year
    omega

end NestedBatch.Date

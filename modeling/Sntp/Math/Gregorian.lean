import Mathlib.Algebra.BigOperators.Group.List.Basic
import Mathlib.Algebra.GroupWithZero.Nat
import Mathlib.Data.Int.Basic
import Mathlib.Data.List.GetD

/-! # The proleptic Gregorian calendar

Dates and the days since January 1, 1970, for every year in both directions. The calendar repeats
after 400 years, which are four centuries of 25 cycles of four years, short of a leap day in three
of the centuries; the year of a day is found by dividing through these lengths.
-/

namespace Gregorian

def IsLeap (year : ℤ) : Prop := 4 ∣ year ∧ (¬ 100 ∣ year ∨ 400 ∣ year)

instance : DecidablePred IsLeap := fun year =>
  inferInstanceAs (Decidable (4 ∣ year ∧ (¬ 100 ∣ year ∨ 400 ∣ year)))

/-- The lengths of the months of a year, in days. -/
def monthLengths (year : ℤ) : List ℕ :=
  [31, if IsLeap year then 29 else 28, 31, 30, 31, 30, 31, 31, 30, 31, 30, 31]

/-- The days from January 1 of the year 1 to January 1 of a year. -/
def daysBeforeYear (year : ℤ) : ℤ :=
  365 * (year - 1) + (year - 1) / 4 - (year - 1) / 100 + (year - 1) / 400

/-- The year that a day lies in, for days counted from January 1 of the year 1. -/
def yearOfDay (day : ℤ) : ℤ :=
  let inEra := day % 146097
  let century := min (inEra / 36524) 3
  let inCentury := inEra - 36524 * century
  let inCycle := inCentury % 1461
  400 * (day / 146097) + 100 * century + 4 * (inCentury / 1461) + min (inCycle / 365) 3 + 1

/-- The stretch that a place lies in, of stretches one after the other, and its place in it. -/
def locate : List ℕ → ℕ → ℕ × ℕ
  | [], place => (0, place)
  | length :: lengths, place =>
    if place < length then (0, place)
    else ((locate lengths (place - length)).1 + 1, (locate lengths (place - length)).2)

/-- A day of the calendar, with its month and its day of the month counted from one. -/
structure Date where
  year : ℤ
  month : ℕ
  day : ℕ
  valid : 1 ≤ month ∧ 1 ≤ day ∧ day ≤ (monthLengths year).getD (month - 1) 0
deriving DecidableEq, Repr

/-- The days since January 1, 1970. -/
def Date.dayNumber (date : Date) : ℤ :=
  daysBeforeYear date.year + ((monthLengths date.year).take (date.month - 1)).sum + (date.day - 1) -
    719162

theorem sum_monthLengths (year : ℤ) :
    (monthLengths year).sum = if IsLeap year then 366 else 365 := by
  unfold monthLengths
  split <;> rfl

theorem Date.month_le (date : Date) : date.month ≤ 12 := by
  obtain ⟨-, one, within⟩ := date.valid
  by_contra late
  rw [List.getD_eq_default _ _ (show 12 ≤ date.month - 1 by omega)] at within
  omega

theorem Date.day_le (date : Date) : date.day ≤ 31 := by
  have lengths : ∀ length ∈ monthLengths date.year, length ≤ 31 := by
    unfold monthLengths
    split <;> decide
  apply date.valid.2.2.trans
  rw [List.getD_eq_getElem?_getD]
  cases found : (monthLengths date.year)[date.month - 1]? with
  | none => exact Nat.zero_le _
  | some length => exact lengths length (List.mem_of_getElem? found)

section Cycles

variable {era century cycle year : ℤ} (centuries : 0 ≤ century ∧ century ≤ 3)
  (cycles : 0 ≤ cycle ∧ cycle ≤ 24) (years : 0 ≤ year ∧ year ≤ 3)

include centuries cycles years

private theorem daysBeforeYear_cycles :
    daysBeforeYear (400 * era + 100 * century + 4 * cycle + year + 1) =
      146097 * era + 36524 * century + 1461 * cycle + 365 * year := by
  have fourth : (400 * era + 100 * century + 4 * cycle + year) / 4 =
      100 * era + 25 * century + cycle := by omega
  have hundredth : (400 * era + 100 * century + 4 * cycle + year) / 100 =
      4 * era + century := by omega
  have last : (400 * era + 100 * century + 4 * cycle + year) / 400 = era := by omega
  rw [daysBeforeYear, Int.add_sub_cancel, fourth, hundredth, last]
  omega

/-- The leap day is at the end of a cycle, and the last cycle of three centuries goes without. -/
private theorem isLeap_cycles :
    IsLeap (400 * era + 100 * century + 4 * cycle + year + 1) ↔
      year = 3 ∧ (cycle ≠ 24 ∨ century = 3) := by
  unfold IsLeap
  omega

end Cycles

/-- A day lies in its year. -/
theorem yearOfDay_bounds (day : ℤ) : daysBeforeYear (yearOfDay day) ≤ day ∧
    day < daysBeforeYear (yearOfDay day) + (monthLengths (yearOfDay day)).sum := by
  obtain ⟨era, century, cycle, year, centuries, cycles, years, same, begun, ends⟩ :
      ∃ era century cycle year : ℤ, (0 ≤ century ∧ century ≤ 3) ∧ (0 ≤ cycle ∧ cycle ≤ 24) ∧
        (0 ≤ year ∧ year ≤ 3) ∧
        yearOfDay day = 400 * era + 100 * century + 4 * cycle + year + 1 ∧
        146097 * era + 36524 * century + 1461 * cycle + 365 * year ≤ day ∧
        day < 146097 * era + 36524 * century + 1461 * cycle + 365 * year +
          if year = 3 ∧ (cycle ≠ 24 ∨ century = 3) then 366 else 365 := by
    refine ⟨day / 146097, _, _, _, ?_, ?_, ?_, rfl, ?_, ?_⟩
    · omega
    · omega
    · omega
    · omega
    · split <;> omega
  rw [same, sum_monthLengths, daysBeforeYear_cycles centuries cycles years]
  simp only [isLeap_cycles centuries cycles years]
  split at ends
  · next leap => exact ⟨begun, by rw [if_pos leap]; exact ends⟩
  · next common => exact ⟨begun, by rw [if_neg common]; exact ends⟩

/-- A place within the stretches is found in one of them. -/
theorem locate_spec {lengths : List ℕ} {place : ℕ} (within : place < lengths.sum) :
    (locate lengths place).2 < lengths.getD (locate lengths place).1 0 ∧
      (lengths.take (locate lengths place).1).sum + (locate lengths place).2 = place := by
  induction lengths generalizing place with
  | nil => simp at within
  | cons length lengths ih =>
    rw [locate]
    split
    · next here => simpa using here
    · next later =>
      rw [List.sum_cons] at within
      obtain ⟨inside, sum⟩ := ih (show place - length < lengths.sum by omega)
      refine ⟨by simpa using inside, ?_⟩
      rw [List.take_succ_cons, List.sum_cons]
      omega

/-- The place of a day in its year. -/
private def dayOfYear (day : ℤ) : ℕ := (day - daysBeforeYear (yearOfDay day)).toNat

private theorem locate_dayOfYear (day : ℤ) :
    let months := monthLengths (yearOfDay day)
    let found := locate months (dayOfYear day)
    found.2 < months.getD found.1 0 ∧ (months.take found.1).sum + found.2 = dayOfYear day := by
  obtain ⟨begun, ends⟩ := yearOfDay_bounds day
  exact locate_spec (by rw [dayOfYear]; omega)

/-- The date of a day since January 1, 1970. -/
def Date.ofDayNumber (number : ℤ) : Date :=
  let day := number + 719162
  let found := locate (monthLengths (yearOfDay day)) (day - daysBeforeYear (yearOfDay day)).toNat
  { year := yearOfDay day
    month := found.1 + 1
    day := found.2 + 1
    valid := ⟨Nat.le_add_left .., Nat.le_add_left .., (locate_dayOfYear day).1⟩ }

/-- The date of a day has the number of that day. -/
@[simp] theorem Date.dayNumber_ofDayNumber (number : ℤ) :
    (ofDayNumber number).dayNumber = number := by
  obtain ⟨begun, -⟩ := yearOfDay_bounds (number + 719162)
  have found := (locate_dayOfYear (number + 719162)).2
  simp only [dayOfYear] at found
  simp only [dayNumber, ofDayNumber, Nat.add_sub_cancel]
  omega

example : (Date.ofDayNumber 11016).month = 2 ∧ (Date.ofDayNumber 11016).day = 29 := by decide

end Gregorian

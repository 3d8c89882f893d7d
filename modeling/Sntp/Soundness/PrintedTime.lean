import Sntp.Model.HumanReadable

/-! # Printed times are local

A printed time is labelled `(+0000)`, the offset of UTC, but it is broken down by `localtime`. Read
as its label says, it denotes the transmit time shifted by the offset of the host's zone: the label
is right exactly when that offset is zero, and hosts print the same text exactly when their offsets
agree.
-/

namespace Sntp.PrintedTime

open Decimal Gregorian

/-- The time of the fields of a UTC calendar time, if they are one. -/
def ofFields (year : ℤ) : List ℕ → ℕ → Option Timeval
  | [month, day, hour, minute, second], micro =>
    if valid : (1 ≤ month ∧ 1 ≤ day ∧ day ≤ (monthLengths year).getD (month - 1) 0) ∧
        hour < 24 ∧ minute < 60 ∧ second < 60 then
      some ⟨Date.dayNumber ⟨year, month, day, valid.1⟩ * 86400 + hour * 3600 + minute * 60 + second,
        micro⟩
    else none
  | _, _ => none

/-- Read a UTC calendar time with six digits of a second from the head of a text. -/
def readUtc (text : Text) : Option (Timeval × Text) := do
  let (year, text) ← scanSigned (0 < ·) text
  let (numbers, text) ← scanFields 2 ['-', '-', ' ', ':', ':'] text
  let text ← expect '.' text
  let (micro, text) ← scan (· == 6) text
  let time ← ofFields year numbers micro
  return (time, text)

/-- A text is a UTC calendar time under its label, and denotes the given time. -/
def Denotes (text : Text) (time : Timeval) : Prop :=
  readUtc text = some (time, " (+0000)".toList)

variable {zone zone' : Zone} {time : Timeval}

/-- The text of calendar fields. -/
private theorem strftime_fields (year : ℤ) (month day hour minute second : ℕ) :
    strftime ⟨second, minute, hour, day, month - 1, year - 1900⟩ "%Y-%m-%d %H:%M:%S".toList =
      zeroPadded 4 year ++
        fields 2 [('-', month), ('-', day), (' ', hour), (':', minute), (':', second)] := by
  simp [strftime, Tm.conversion, fields]

/-- The fields behind the year, for a date and a second of the day. -/
private def fieldsBehind (date : Date) (second : ℕ) : List (Char × ℕ) :=
  [('-', date.month), ('-', date.day), (' ', second / 3600), (':', second / 60 % 60), (':', second % 60)]

/-- Each of them has two digits. -/
private theorem fieldsBehind_bounds (date : Date) {second : ℕ} (inDay : second < 86400) :
    ∀ field ∈ fieldsBehind date second, ¬ field.1.isDigit ∧ field.2 < 10 ^ 2 := by
  have month := date.month_le
  have day := date.day_le
  simp only [fieldsBehind, List.forall_mem_cons, List.not_mem_nil, false_implies, implies_true,
    and_true]
  refine ⟨⟨by decide, ?_⟩, ⟨by decide, ?_⟩, ⟨by decide, ?_⟩, ⟨by decide, ?_⟩, by decide, ?_⟩ <;> omega

/-- They are a calendar time. -/
private theorem ofFields_fieldsBehind (date : Date) {second : ℕ} (inDay : second < 86400) (micro : ℕ) :
    ofFields date.year ((fieldsBehind date second).map Prod.snd) micro =
      some ⟨date.dayNumber * 86400 + second, micro⟩ := by
  have number : Date.dayNumber ⟨date.year, date.month, date.day, date.valid⟩ = date.dayNumber := rfl
  simp only [fieldsBehind, List.map_cons, List.map_nil]
  rw [ofFields, dif_pos ⟨date.valid, by omega, by omega, by omega⟩, number]
  congr 2
  push_cast
  omega

/-- A printed time is a date and a second of the day, those of the shifted time. -/
private theorem convertEpochTime_eq (zone : Zone) (seconds : ℤ) (micro : ℕ) :
    ∃ (date : Date) (second : ℕ), second < 86400 ∧
      date.dayNumber * 86400 + second = seconds + zone seconds ∧
      convertEpochTimeToHumanReadable zone ⟨seconds, micro⟩ =
        zeroPadded 4 date.year ++ fields 2 (fieldsBehind date second) ++ '.' :: digits 6 micro := by
  refine ⟨.ofDayNumber ((seconds + zone seconds) / 86400),
    ((seconds + zone seconds) % 86400).toNat, ?_, ?_, ?_⟩
  · omega
  · rw [Date.dayNumber_ofDayNumber]
    omega
  · rw [convertEpochTimeToHumanReadable, localtime, Tm.ofSeconds, strftime_fields]
    rfl

/-- The text of a date and a second of the day is read back. -/
private theorem readUtc_fieldsBehind (date : Date) {second micro : ℕ} (inDay : second < 86400)
    (small : micro < 10 ^ 6) {rest : Text} (ends : Ends rest) :
    readUtc (zeroPadded 4 date.year ++
        (fields 2 (fieldsBehind date second) ++ '.' :: (digits 6 micro ++ rest))) =
      some (⟨date.dayNumber * 86400 + second, micro⟩, rest) := by
  let behind : Text := fields 2 (fieldsBehind date second) ++ '.' :: (digits 6 micro ++ rest)
  have year : scanSigned (0 < ·) (zeroPadded 4 date.year ++ behind) = some (date.year, behind) :=
    scanSigned_zeroPadded (ends_cons (by decide))
  have numbers : scanFields 2 ['-', '-', ' ', ':', ':'] behind =
      some ((fieldsBehind date second).map Prod.snd, '.' :: (digits 6 micro ++ rest)) :=
    scanFields_fields (by decide) (fieldsBehind_bounds date inDay) (ends_cons (by decide))
  have micros : scan (· == 6) (digits 6 micro ++ rest) = some (micro, rest) :=
    scan_digits_of_lt (by decide) small ends
  rw [readUtc, year]
  simp only [Option.bind_eq_bind, Option.bind_some, numbers, expect_cons, micros,
    ofFields_fieldsBehind date inDay]
  rfl

/-- Read as UTC, a printed time denotes the time shifted by the offset of the zone. -/
private theorem readUtc_convertEpochTime (zone : Zone) (normal : time.Normal) {rest : Text}
    (ends : Ends rest) :
    readUtc (convertEpochTimeToHumanReadable zone time ++ rest) =
      some (⟨time.tvSec + zone time.tvSec, time.tvUsec⟩, rest) := by
  obtain ⟨seconds, micros⟩ := time
  obtain ⟨micro, rfl⟩ := Int.eq_ofNat_of_zero_le normal.1
  have small : micro < 10 ^ 6 := by
    have := normal.2
    simp only at this
    omega
  obtain ⟨date, second, inDay, instant, printed⟩ := convertEpochTime_eq zone seconds micro
  rw [printed, List.append_assoc, List.append_assoc, List.cons_append,
    readUtc_fieldsBehind date inDay small ends, instant]

/-- The label ends the digits of a second. -/
private theorem ends_label : Ends " (+0000)".toList := by
  rw [show " (+0000)".toList = ' ' :: "(+0000)".toList from rfl]
  exact ends_cons (by decide)

/-- Read as its label says, a printed time denotes the transmit time exactly when the zone of the
host has no offset from UTC then; and two hosts print the same text exactly when their offsets
agree. -/
theorem printedTime_denotes_iff (zone zone' : Zone) (time : Timeval) (normal : time.Normal) :
    (Denotes (printedTime zone time) time ↔ zone time.tvSec = 0) ∧
      (printedTime zone time = printedTime zone' time ↔ zone time.tvSec = zone' time.tvSec) := by
  have read (zone : Zone) : readUtc (printedTime zone time) =
      some (⟨time.tvSec + zone time.tvSec, time.tvUsec⟩, " (+0000)".toList) :=
    readUtc_convertEpochTime zone normal ends_label
  constructor
  · rw [Denotes, read]
    constructor
    · intro same
      have seconds := congrArg Timeval.tvSec (Prod.mk.inj (Option.some.inj same)).1
      simpa using seconds
    · intro utc
      rw [utc, Int.add_zero]
  · constructor
    · intro same
      have times := (read zone).symm.trans (same ▸ read zone')
      have seconds := congrArg Timeval.tvSec (Prod.mk.inj (Option.some.inj times)).1
      exact Int.add_left_cancel seconds
    · intro same
      rw [printedTime, printedTime, convertEpochTimeToHumanReadable, convertEpochTimeToHumanReadable,
        localtime, localtime, same]

/-- The last microsecond of a leap day, on a host in UTC. -/
theorem printedTime_denotes_iff_leapDay :
    printedTime (fun _ => 0) ⟨951868799, 999999⟩ = "2000-02-29 23:59:59.999999 (+0000)".toList ∧
      Denotes (printedTime (fun _ => 0) ⟨951868799, 999999⟩) ⟨951868799, 999999⟩ := by
  refine ⟨by decide +kernel, ?_⟩
  exact (printedTime_denotes_iff _ (fun _ => 0) ⟨951868799, 999999⟩ ⟨by decide, by decide⟩).1.mpr rfl

/-- One hour east of UTC the epoch is printed as one hour later. -/
theorem printedTime_local :
    printedTime (fun _ => 3600) ⟨0, 0⟩ = "1970-01-01 01:00:00.000000 (+0000)".toList ∧
      ¬ Denotes (printedTime (fun _ => 3600) ⟨0, 0⟩) ⟨0, 0⟩ ∧
      printedTime (fun _ => 3600) ⟨0, 0⟩ ≠ printedTime (fun _ => 0) ⟨0, 0⟩ := by
  unfold Denotes
  decide +kernel

end Sntp.PrintedTime

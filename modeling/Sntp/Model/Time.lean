import Mathlib.Data.Rat.Floor

/-! # Unix and NTP time

`struct timeval` and `struct ntp_time_t` with the two conversions between them. A double is read
as the exact rational it approximates; converting one to `uint32_t` truncates toward zero, and a
value out of range is taken modulo `2 ^ 32`. The same reduction covers the narrowing of the
seconds, so a 64-bit wrap before it would change nothing.
-/

namespace Sntp

/-- `struct timeval`. -/
structure Timeval where
  tvSec : ℤ
  tvUsec : ℤ
deriving DecidableEq, Repr, Inhabited

/-- `struct ntp_time_t`. -/
@[ext]
structure NtpTime where
  second : UInt32
  fraction : UInt32
deriving DecidableEq, Repr, Inhabited

/-- The seconds from Jan 1, 1900 to Jan 1, 1970. -/
def epochOffset : UInt32 := 0x83AA7E80

/-- Truncation of a rational toward zero. -/
def truncate (value : ℚ) : ℤ := if 0 ≤ value then ⌊value⌋ else ⌈value⌉

/-- `(uint32_t)` applied to a double. -/
def doubleToUint32 (value : ℚ) : UInt32 := UInt32.ofInt (truncate value)

/-- The 32-bit `int` that a wider integer narrows to. -/
def toInt (value : ℤ) : ℤ := value.bmod (2 ^ 32)

def convertNtpTimeIntoUnixTime (ntp : NtpTime) : Timeval where
  tvSec := (ntp.second - epochOffset).toNat
  tvUsec := (doubleToUint32 (ntp.fraction.toNat * 10 ^ 6 / 2 ^ 32)).toNat

def convertUnixTimeIntoNtpTime (epoch : Timeval) : NtpTime where
  second := UInt32.ofInt (epoch.tvSec + epochOffset.toNat)
  fraction := doubleToUint32 ((epoch.tvUsec + 1 : ℤ) * 2 ^ 32 * (1 / 10 ^ 6))

/-- `get_ntp_time_of_day`, at the reading its `gettimeofday` returns. -/
def getNtpTimeOfDay (now : Timeval) : NtpTime := convertUnixTimeIntoNtpTime now

/-- `get_elapsed_time`, at the reading its `gettimeofday` returns. -/
def getElapsedTime (startTime now : Timeval) : ℤ := toInt (now.tvSec - startTime.tvSec)

namespace Timeval

/-- The instant in microseconds since the epoch. -/
def micros (t : Timeval) : ℤ := t.tvSec * 10 ^ 6 + t.tvUsec

/-- The microsecond field `gettimeofday` promises. -/
def Normal (t : Timeval) : Prop := 0 ≤ t.tvUsec ∧ t.tvUsec ≤ 999999

/-- The reading of a clock that stands at the given microsecond. -/
def ofMicros (micros : ℤ) : Timeval := ⟨micros / 10 ^ 6, micros % 10 ^ 6⟩

theorem normal_ofMicros (micros : ℤ) : (ofMicros micros).Normal := by
  simp only [Normal, ofMicros]
  omega

@[simp] theorem micros_ofMicros (micros : ℤ) : (ofMicros micros).micros = micros := by
  simp only [Timeval.micros, ofMicros]
  omega

end Timeval

end Sntp

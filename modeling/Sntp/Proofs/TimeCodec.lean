import Sntp.Model.Time
import Sntp.ToMathlib.FixedPoint
import Mathlib.Data.UInt
import Mathlib.Tactic.FieldSimp

/-! # What the time conversions compute

Both conversions are integer formulas: seconds shift by the epoch offset modulo `2 ^ 32`, and the
sub-second part is a truncating change of resolution between millionths and `2 ^ 32`-ths, biased
by one microsecond on the way up. A round trip is therefore exact except at the microseconds
before a multiple of `15625`: there it gains one microsecond, or loses the whole second's worth
when the fraction wraps at the last microsecond of a second.
-/

namespace Sntp

open FixedPoint

theorem toNat_ofInt (value : ℤ) : ((UInt32.ofInt value).toNat : ℤ) = value % 2 ^ 32 := by
  have low : 0 ≤ value % 2 ^ 32 := Int.emod_nonneg _ (by omega)
  have high : value % 2 ^ 32 < 2 ^ 32 := Int.emod_lt_of_pos _ (by omega)
  rw [UInt32.ofInt, UInt32.toNat_ofNat', Nat.mod_eq_of_lt (by omega)]
  omega

theorem truncate_div (numerator denominator : ℕ) :
    truncate (numerator / denominator) = (numerator / denominator : ℕ) := by
  have positive : (0 : ℚ) ≤ numerator / denominator := by positivity
  have floor := Rat.floor_intCast_div_natCast numerator denominator
  rw [truncate, if_pos positive]
  simpa using floor

/-- Converting a quotient of naturals truncates it and keeps the low 32 bits. -/
theorem doubleToUint32_div (numerator denominator : ℕ) :
    (doubleToUint32 (numerator / denominator)).toNat = numerator / denominator % 2 ^ 32 := by
  have value := toNat_ofInt (truncate (numerator / denominator))
  rw [truncate_div] at value
  rw [doubleToUint32, truncate_div]
  omega

theorem convertUnix_second (epoch : Timeval) :
    ((convertUnixTimeIntoNtpTime epoch).second.toNat : ℤ) = (epoch.tvSec + 0x83AA7E80) % 2 ^ 32 :=
  toNat_ofInt _

/-- The encoded fraction is the biased microsecond count in `2 ^ 32`-ths, reduced to 32 bits. -/
theorem convertUnix_fraction (epoch : Timeval) (usec : ℕ) (same : epoch.tvUsec = usec) :
    (convertUnixTimeIntoNtpTime epoch).fraction.toNat =
      rescale (2 ^ 32) (10 ^ 6) (usec + 1) % 2 ^ 32 := by
  have quotient := doubleToUint32_div ((usec + 1) * 2 ^ 32) (10 ^ 6)
  rw [convertUnixTimeIntoNtpTime, same, rescale, ← quotient]
  have product : ((((usec : ℤ) + 1 : ℤ) : ℚ) * 2 ^ 32 * (1 / 10 ^ 6)) =
      ((usec + 1) * 2 ^ 32 : ℕ) / (10 ^ 6 : ℕ) := by
    push_cast
    ring
  rw [product]

/-- The decoded microseconds are the fraction in millionths. -/
theorem convertNtp_tvUsec (ntp : NtpTime) :
    (convertNtpTimeIntoUnixTime ntp).tvUsec = rescale (10 ^ 6) (2 ^ 32) ntp.fraction.toNat := by
  have quotient := doubleToUint32_div (ntp.fraction.toNat * 10 ^ 6) (2 ^ 32)
  have small : rescale (10 ^ 6) (2 ^ 32) ntp.fraction.toNat < 10 ^ 6 :=
    rescale_lt (by omega) ntp.fraction.toNat_lt
  rw [rescale] at small ⊢
  rw [Nat.mod_eq_of_lt (by omega)] at quotient
  have product : (ntp.fraction.toNat : ℚ) * 10 ^ 6 / 2 ^ 32 =
      (ntp.fraction.toNat * 10 ^ 6 : ℕ) / (2 ^ 32 : ℕ) := by
    push_cast
    rfl
  rw [convertNtpTimeIntoUnixTime, product, quotient]

theorem convertNtp_tvSec (ntp : NtpTime) :
    (convertNtpTimeIntoUnixTime ntp).tvSec = ((ntp.second.toNat : ℤ) - 0x83AA7E80) % 2 ^ 32 := by
  have bound := ntp.second.toNat_lt
  have offset : epochOffset.toNat = 0x83AA7E80 := rfl
  simp only [convertNtpTimeIntoUnixTime, UInt32.toNat_sub, offset]
  omega

/-- The microseconds gained by encoding and decoding a reading with the given microsecond field. -/
def codecSlip (usec : ℤ) : ℤ :=
  if usec = 999999 then -999999 else if 15625 ∣ usec + 1 then 1 else 0

/-- The odd part of a million is `15625`; the even part always divides. -/
private theorem product_dvd_iff (usec : ℕ) :
    10 ^ 6 ∣ (usec + 1) * 2 ^ 32 ↔ (15625 : ℤ) ∣ usec + 1 := by
  have coprime : Nat.Coprime 15625 (2 ^ 26) := by decide
  have regroup : (usec + 1) * 2 ^ 32 = (usec + 1) * 2 ^ 26 * 64 := by ring
  rw [show 10 ^ 6 = 15625 * 64 by norm_num, regroup, Nat.mul_dvd_mul_iff_right (by omega),
    coprime.dvd_mul_right]
  omega

/-- Below the last microsecond the fraction fits, so only the truncations matter. -/
private theorem rescale_fraction {usec : ℕ} (bound : usec < 999999) :
    (rescale (10 ^ 6) (2 ^ 32) (rescale (2 ^ 32) (10 ^ 6) (usec + 1) % 2 ^ 32) : ℤ) =
      usec + codecSlip usec := by
  have fits : rescale (2 ^ 32) (10 ^ 6) (usec + 1) < 2 ^ 32 := rescale_lt (by omega) (by omega)
  rw [Nat.mod_eq_of_lt fits, codecSlip, if_neg (by omega)]
  split
  · next whole =>
    rw [rescale_rescale_of_dvd (by omega) ((product_dvd_iff usec).mpr whole)]
    omega
  · next partly =>
    rw [rescale_rescale_of_not_dvd (by omega) (by omega) (partly ∘ (product_dvd_iff usec).mp)]
    omega

/-- A reading of the first `2 ^ 32` seconds returns from NTP time with its seconds intact and its
microseconds off by the slip. -/
theorem convertNtp_convertUnix {t : Timeval} (low : 0 ≤ t.tvSec) (high : t.tvSec < 2 ^ 32)
    (normal : t.Normal) :
    convertNtpTimeIntoUnixTime (convertUnixTimeIntoNtpTime t) =
      ⟨t.tvSec, t.tvUsec + codecSlip t.tvUsec⟩ := by
  obtain ⟨usec, same⟩ := Int.eq_ofNat_of_zero_le normal.1
  have bound : usec ≤ 999999 := by have := normal.2; omega
  have seconds : (convertNtpTimeIntoUnixTime (convertUnixTimeIntoNtpTime t)).tvSec = t.tvSec := by
    rw [convertNtp_tvSec, convertUnix_second]
    omega
  have microseconds : (convertNtpTimeIntoUnixTime (convertUnixTimeIntoNtpTime t)).tvUsec =
      usec + codecSlip usec := by
    rw [convertNtp_tvUsec, convertUnix_fraction t usec same]
    rcases Nat.lt_or_ge usec 999999 with below | last
    · exact rescale_fraction below
    · obtain rfl : usec = 999999 := by omega
      rfl
  rw [same, ← seconds, ← microseconds]

theorem micros_convertNtp_convertUnix {t : Timeval} (low : 0 ≤ t.tvSec) (high : t.tvSec < 2 ^ 32)
    (normal : t.Normal) :
    (convertNtpTimeIntoUnixTime (convertUnixTimeIntoNtpTime t)).micros =
      t.micros + codecSlip t.tvUsec := by
  rw [convertNtp_convertUnix low high normal]
  simp only [Timeval.micros]
  omega

/-- The encoded fraction is zero only where it wraps, at the last microsecond of a second. -/
theorem convertUnix_fraction_eq_zero_iff {t : Timeval} (normal : t.Normal) :
    (convertUnixTimeIntoNtpTime t).fraction = 0 ↔ t.tvUsec = 999999 := by
  obtain ⟨usec, same⟩ := Int.eq_ofNat_of_zero_le normal.1
  have bound : usec ≤ 999999 := by have := normal.2; omega
  rw [← UInt32.toNat_inj, convertUnix_fraction t usec same, UInt32.toNat_zero, same]
  rcases Nat.lt_or_ge usec 999999 with below | last
  · have fits : rescale (2 ^ 32) (10 ^ 6) (usec + 1) < 2 ^ 32 := rescale_lt (by omega) (by omega)
    have positive : rescale (2 ^ 32) (10 ^ 6) 0 < rescale (2 ^ 32) (10 ^ 6) (usec + 1) :=
      rescale_lt_rescale (by omega) (by omega) (by omega)
    rw [Nat.mod_eq_of_lt fits]
    omega
  · obtain rfl : usec = 999999 := by omega
    exact iff_of_true rfl rfl

theorem convertUnix_second_eq_zero_iff (t : Timeval) :
    (convertUnixTimeIntoNtpTime t).second = 0 ↔ (t.tvSec + 0x83AA7E80) % 2 ^ 32 = 0 := by
  rw [← convertUnix_second, ← UInt32.toNat_inj, UInt32.toNat_zero]
  omega

/-- Readings less than `2 ^ 32` seconds apart differ in their encoded seconds. -/
theorem convertUnix_second_ne {t u : Timeval} (later : t.tvSec < u.tvSec)
    (near : u.tvSec - t.tvSec < 2 ^ 32) :
    (convertUnixTimeIntoNtpTime t).second ≠ (convertUnixTimeIntoNtpTime u).second := by
  intro same
  have first := convertUnix_second t
  have second := convertUnix_second u
  rw [same] at first
  omega

end Sntp

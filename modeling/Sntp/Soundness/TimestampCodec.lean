import Sntp.Model.ClientPacket
import Sntp.Proofs.TimeCodec

/-! # What timestamps keep of an instant

Decoding an NTP timestamp truncates it to microseconds and loses nothing else, in both eras.
Encoding adds a microsecond before it truncates. That makes the round trip exact except at the
microseconds before a multiple of `15625`, and it makes the last microsecond of a second overflow
the fraction: there, and only there, encoded instants fall out of order.
-/

namespace Sntp.TimestampCodec

open Machine

section RoundTrip

theorem codecSlip_eq_zero_iff {usec : ℤ} : codecSlip usec = 0 ↔ ¬ 15625 ∣ usec + 1 := by
  rw [codecSlip]
  split
  · next last => simp [last]
  · split <;> simp [*]

/-- A reading comes back from NTP time unchanged exactly when its microseconds do not precede a
multiple of `15625`. -/
theorem roundTrip_iff (t : Timeval) (low : 0 ≤ t.tvSec) (high : t.tvSec < 2 ^ 32)
    (normal : t.Normal) :
    convertNtpTimeIntoUnixTime (convertUnixTimeIntoNtpTime t) = t ↔ ¬ 15625 ∣ t.tvUsec + 1 := by
  rw [convertNtp_convertUnix low high normal, ← codecSlip_eq_zero_iff]
  cases t
  simp

/-- A reading after the rollover of 2036. -/
theorem roundTrip_iff_after_rollover :
    convertNtpTimeIntoUnixTime (convertUnixTimeIntoNtpTime ⟨2085978497, 123456⟩) =
      ⟨2085978497, 123456⟩ :=
  (roundTrip_iff ⟨2085978497, 123456⟩ (by decide) (by decide) ⟨by decide, by decide⟩).mpr (by decide)

/-- One microsecond is gained, and at the end of a second almost all of it is lost. -/
theorem roundTrip_slips :
    convertNtpTimeIntoUnixTime (convertUnixTimeIntoNtpTime ⟨0, 15624⟩) = ⟨0, 15625⟩ ∧
      convertNtpTimeIntoUnixTime (convertUnixTimeIntoNtpTime ⟨0, 999999⟩) = ⟨0, 0⟩ := by
  constructor <;> decide +kernel

end RoundTrip

section Order

/-- A timestamp as one 64-bit number. -/
def instant (ntp : NtpTime) : ℕ := ntp.second.toNat * 2 ^ 32 + ntp.fraction.toNat

/-- The value that `convert_unix_time_into_ntp_time` converts to the fraction. -/
def scaledFraction (epoch : Timeval) : ℚ := (epoch.tvUsec + 1 : ℤ) * 2 ^ 32 * (1 / 10 ^ 6)

/-- Both instants lie in the same span of `2 ^ 32` seconds counted from 1900. -/
def SameEra (a b : Timeval) : Prop :=
  (a.tvSec + 0x83AA7E80) / 2 ^ 32 = (b.tvSec + 0x83AA7E80) / 2 ^ 32

theorem scaledFraction_lt_iff {t : Timeval} (normal : t.Normal) :
    scaledFraction t < 2 ^ 32 ↔ t.tvUsec ≠ 999999 := by
  have bound := normal.2
  have whole : scaledFraction t < 2 ^ 32 ↔ t.tvUsec + 1 < 10 ^ 6 := by
    rw [scaledFraction, ← Int.cast_lt (R := ℚ)]
    push_cast
    constructor <;> intro less <;> linarith
  rw [whole]
  omega

/-- Below its last microsecond a second's encoded fractions grow from one on. -/
private theorem fraction_eq {t : Timeval} (normal : t.Normal) (below : t.tvUsec ≠ 999999) :
    ∃ usec : ℕ, t.tvUsec = usec ∧ (convertUnixTimeIntoNtpTime t).fraction.toNat =
      FixedPoint.rescale (2 ^ 32) (10 ^ 6) (usec + 1) := by
  obtain ⟨usec, same⟩ := Int.eq_ofNat_of_zero_le normal.1
  have bound := normal.2
  have fits : FixedPoint.rescale (2 ^ 32) (10 ^ 6) (usec + 1) < 2 ^ 32 :=
    FixedPoint.rescale_lt (by omega) (by omega)
  exact ⟨usec, same, by rw [convertUnix_fraction t usec same, Nat.mod_eq_of_lt fits]⟩

private theorem fraction_lt {a b : Timeval} (normalA : a.Normal) (normalB : b.Normal)
    (belowB : b.tvUsec ≠ 999999) (less : a.tvUsec < b.tvUsec) :
    (convertUnixTimeIntoNtpTime a).fraction.toNat <
      (convertUnixTimeIntoNtpTime b).fraction.toNat := by
  have := normalB.2
  obtain ⟨usecA, sameA, fractionA⟩ := fraction_eq normalA (by omega)
  obtain ⟨usecB, sameB, fractionB⟩ := fraction_eq normalB belowB
  rw [fractionA, fractionB]
  exact FixedPoint.rescale_lt_rescale (by omega) (by omega) (by omega)

private theorem fraction_overflow {t : Timeval} (normal : t.Normal) (last : t.tvUsec = 999999) :
    (convertUnixTimeIntoNtpTime t).fraction.toNat = 0 := by
  rw [(convertUnix_fraction_eq_zero_iff normal).mpr last]
  rfl

/-- Within an era the encoded seconds are as far apart as the instants. -/
private theorem second_sub {a b : Timeval} (era : SameEra a b) :
    ((convertUnixTimeIntoNtpTime b).second.toNat : ℤ) -
      (convertUnixTimeIntoNtpTime a).second.toNat = b.tvSec - a.tvSec := by
  rw [convertUnix_second, convertUnix_second]
  rw [SameEra] at era
  omega

/-- Encoded instants of an era compare by their seconds and then by their fractions. -/
private theorem instant_le_iff {a b : Timeval} (era : SameEra a b) :
    instant (convertUnixTimeIntoNtpTime a) ≤ instant (convertUnixTimeIntoNtpTime b) ↔
      a.tvSec < b.tvSec ∨ (a.tvSec = b.tvSec ∧ (convertUnixTimeIntoNtpTime a).fraction.toNat ≤
        (convertUnixTimeIntoNtpTime b).fraction.toNat) := by
  have seconds := second_sub era
  have boundA := (convertUnixTimeIntoNtpTime a).fraction.toNat_lt
  have boundB := (convertUnixTimeIntoNtpTime b).fraction.toNat_lt
  simp only [instant]
  omega

private theorem instant_lt {a b : Timeval} (normalA : a.Normal) (normalB : b.Normal)
    (less : a.micros < b.micros) (era : SameEra a b) (belowB : b.tvUsec ≠ 999999) :
    instant (convertUnixTimeIntoNtpTime a) < instant (convertUnixTimeIntoNtpTime b) := by
  have seconds := second_sub era
  have boundA := (convertUnixTimeIntoNtpTime a).fraction.toNat_lt
  have rangeA : 0 ≤ a.tvUsec ∧ a.tvUsec ≤ 999999 := normalA
  have rangeB : 0 ≤ b.tvUsec ∧ b.tvUsec ≤ 999999 := normalB
  simp only [Timeval.micros] at less
  simp only [instant]
  rcases lt_or_eq_of_le (show a.tvSec ≤ b.tvSec by omega) with later | same
  · omega
  · have fractions := fraction_lt normalA normalB belowB (show a.tvUsec < b.tvUsec by omega)
    omega

/-- Two instants of an era are encoded in range and in order exactly when neither is the last
microsecond of a second. -/
private theorem ordered_iff {a b : Timeval} (normalA : a.Normal) (normalB : b.Normal)
    (less : a.micros < b.micros) (era : SameEra a b) :
    (scaledFraction a < 2 ^ 32 ∧ scaledFraction b < 2 ^ 32 ∧
      instant (convertUnixTimeIntoNtpTime a) < instant (convertUnixTimeIntoNtpTime b)) ↔
        a.tvUsec ≠ 999999 ∧ b.tvUsec ≠ 999999 := by
  rw [scaledFraction_lt_iff normalA, scaledFraction_lt_iff normalB]
  constructor
  · exact fun ⟨belowA, belowB, _⟩ => ⟨belowA, belowB⟩
  · exact fun ⟨belowA, belowB⟩ =>
      ⟨belowA, belowB, instant_lt normalA normalB less era belowB⟩

/-- A later instant of an era is encoded below an earlier one only when it is the last microsecond
of the earlier one's second. -/
private theorem instant_le_instant_iff {a b : Timeval} (normalA : a.Normal) (normalB : b.Normal)
    (order : a.micros ≤ b.micros) (era : SameEra a b) :
    instant (convertUnixTimeIntoNtpTime a) ≤ instant (convertUnixTimeIntoNtpTime b) ↔
      ¬ (b.tvUsec = 999999 ∧ a.tvSec = b.tvSec ∧ a.tvUsec ≠ 999999) := by
  have rangeA : 0 ≤ a.tvUsec ∧ a.tvUsec ≤ 999999 := normalA
  have rangeB : 0 ≤ b.tvUsec ∧ b.tvUsec ≤ 999999 := normalB
  simp only [Timeval.micros] at order
  rw [instant_le_iff era]
  by_cases belowA : a.tvUsec = 999999
  · have zero := fraction_overflow normalA belowA
    omega
  by_cases belowB : b.tvUsec = 999999
  · -- The later fraction has wrapped to zero, and the earlier one is positive.
    have zero := fraction_overflow normalB belowB
    have positive : (convertUnixTimeIntoNtpTime a).fraction.toNat ≠ 0 := fun none =>
      belowA ((convertUnix_fraction_eq_zero_iff normalA).mp (UInt32.toNat_inj.mp none))
    omega
  rcases lt_or_eq_of_le (show a.tvSec ≤ b.tvSec by omega) with later | same
  · omega
  · rcases lt_or_eq_of_le (show a.tvUsec ≤ b.tvUsec by omega) with less | equal
    · have := fraction_lt normalA normalB belowB less
      omega
    · have : a = b := by
        cases a
        cases b
        simp_all
      subst this
      omega

/-- The receive and transmit timestamps of a reply, in host order, do not run backwards. -/
def ReplyOrdered (host : ByteOrder) (reply : NtpPacket) : Prop :=
  instant (reply.receiveTimestamp.ntoh host) ≤ instant (reply.transmitTimestamp.ntoh host)

/-- Encoding keeps two instants of an era in range and in order exactly when neither is the last
microsecond of a second; and a reply's timestamps are in order exactly when it was not transmitted
in the last microsecond of the second its request arrived in, unless that is when it arrived. -/
theorem encoding_ordered_iff (a b : Timeval) (host : ByteOrder) (cReq : SntpRequest)
    (normalA : a.Normal) (normalB : b.Normal) (order : a.micros ≤ b.micros) (era : SameEra a b) :
    (a.micros < b.micros →
      ((scaledFraction a < 2 ^ 32 ∧ scaledFraction b < 2 ^ 32 ∧
        instant (convertUnixTimeIntoNtpTime a) < instant (convertUnixTimeIntoNtpTime b)) ↔
          a.tvUsec ≠ 999999 ∧ b.tvUsec ≠ 999999)) ∧
    (ReplyOrdered host (createReplyPacket host
        { cReq with timeOfRequest := convertUnixTimeIntoNtpTime a } (getNtpTimeOfDay b)) ↔
      ¬ (b.tvUsec = 999999 ∧ a.tvSec = b.tvSec ∧ a.tvUsec ≠ 999999)) := by
  refine ⟨fun less => ordered_iff normalA normalB less era, ?_⟩
  rw [← instant_le_instant_iff normalA normalB order era, ReplyOrdered]
  simp only [createReplyPacket, NtpTime.ntoh_hton, getNtpTimeOfDay]

/-- The carry into the first second after the rollover of 2036. -/
theorem encoding_ordered_iff_carry :
    (scaledFraction ⟨2085978496, 999998⟩ < 2 ^ 32 ∧ scaledFraction ⟨2085978497, 0⟩ < 2 ^ 32 ∧
      instant (convertUnixTimeIntoNtpTime ⟨2085978496, 999998⟩) <
        instant (convertUnixTimeIntoNtpTime ⟨2085978497, 0⟩)) ∧
    ReplyOrdered .little (createReplyPacket .little
      ⟨default, NtpPacket.zero, convertUnixTimeIntoNtpTime ⟨2085978496, 999998⟩⟩
      (getNtpTimeOfDay ⟨2085978497, 0⟩)) := by
  have ordered := encoding_ordered_iff ⟨2085978496, 999998⟩ ⟨2085978497, 0⟩ .little
    ⟨default, NtpPacket.zero, default⟩ ⟨by decide, by decide⟩ ⟨by decide, by decide⟩ (by decide)
    (by rw [SameEra]; decide)
  exact ⟨(ordered.1 (by decide)).mpr ⟨by decide, by decide⟩, ordered.2.mpr (by decide)⟩

/-- A reply transmitted a microsecond after its request arrived, at the end of a second, carries
timestamps that run backwards by almost a second. -/
theorem encoding_runs_backwards :
    SameEra ⟨0, 999998⟩ ⟨0, 999999⟩ ∧ ¬ scaledFraction ⟨0, 999999⟩ < 2 ^ 32 ∧
    instant (convertUnixTimeIntoNtpTime ⟨0, 999999⟩) <
      instant (convertUnixTimeIntoNtpTime ⟨0, 999998⟩) ∧
    ¬ ReplyOrdered .little (createReplyPacket .little
      ⟨default, NtpPacket.zero, convertUnixTimeIntoNtpTime ⟨0, 999998⟩⟩
      (getNtpTimeOfDay ⟨0, 999999⟩)) := by
  have backwards : instant (convertUnixTimeIntoNtpTime ⟨0, 999999⟩) <
      instant (convertUnixTimeIntoNtpTime ⟨0, 999998⟩) := by decide +kernel
  refine ⟨rfl, ?_, backwards, ?_⟩
  · rw [scaledFraction_lt_iff ⟨by decide, by decide⟩]
    decide
  · simp only [ReplyOrdered, createReplyPacket, NtpTime.ntoh_hton, getNtpTimeOfDay]
    exact not_le.mpr backwards

end Order

section Decoding

/-- The Unix second of an NTP second, which lies in the era after the rollover when it is too small
for the era before. -/
def unixSecond (second : UInt32) : ℤ :=
  if 0x83AA7E80 ≤ second.toNat then second.toNat - 0x83AA7E80
  else second.toNat + 2 ^ 32 - 0x83AA7E80

/-- The instant a timestamp stands for, in seconds. -/
def unixInstant (ntp : NtpTime) : ℚ := unixSecond ntp.second + ntp.fraction.toNat / 2 ^ 32

theorem convertNtp_tvSec_eq (ntp : NtpTime) :
    (convertNtpTimeIntoUnixTime ntp).tvSec = unixSecond ntp.second := by
  have bound := ntp.second.toNat_lt
  rw [convertNtp_tvSec, unixSecond]
  split <;> omega

/-- Decoded microseconds are the fraction, truncated. -/
private theorem microseconds_bounds (ntp : NtpTime) :
    ((convertNtpTimeIntoUnixTime ntp).tvUsec : ℚ) ≤ ntp.fraction.toNat * 10 ^ 6 / 2 ^ 32 ∧
      (ntp.fraction.toNat * 10 ^ 6 / 2 ^ 32 : ℚ) < (convertNtpTimeIntoUnixTime ntp).tvUsec + 1 := by
  have low := Nat.div_mul_le_self (ntp.fraction.toNat * 10 ^ 6) (2 ^ 32)
  have high := Nat.lt_div_mul_add (a := ntp.fraction.toNat * 10 ^ 6) (show 0 < 2 ^ 32 by omega)
  rw [convertNtp_tvUsec, FixedPoint.rescale]
  rw [le_div_iff₀ (by norm_num), div_lt_iff₀ (by norm_num)]
  constructor
  · exact_mod_cast low
  · exact_mod_cast (by linarith : ntp.fraction.toNat * 10 ^ 6 <
      (ntp.fraction.toNat * 10 ^ 6 / 2 ^ 32 + 1) * 2 ^ 32)

private theorem tvUsec_bounds (ntp : NtpTime) :
    0 ≤ (convertNtpTimeIntoUnixTime ntp).tvUsec ∧
      (convertNtpTimeIntoUnixTime ntp).tvUsec ≤ 999999 := by
  have small : FixedPoint.rescale (10 ^ 6) (2 ^ 32) ntp.fraction.toNat < 10 ^ 6 :=
    FixedPoint.rescale_lt (by omega) ntp.fraction.toNat_lt
  rw [convertNtp_tvUsec]
  omega

private theorem tvSec_bounds (ntp : NtpTime) :
    0 ≤ (convertNtpTimeIntoUnixTime ntp).tvSec ∧
      (convertNtpTimeIntoUnixTime ntp).tvSec < 2 ^ 32 := by
  rw [convertNtp_tvSec]
  omega

/-- The decoded microsecond is the last one that does not lie after the instant. -/
private theorem micros_bounds (ntp : NtpTime) :
    ((convertNtpTimeIntoUnixTime ntp).micros : ℚ) ≤ unixInstant ntp * 10 ^ 6 ∧
      unixInstant ntp * 10 ^ 6 < (convertNtpTimeIntoUnixTime ntp).micros + 1 := by
  obtain ⟨low, high⟩ := microseconds_bounds ntp
  have regroup : unixInstant ntp * 10 ^ 6 =
      unixSecond ntp.second * 10 ^ 6 + ntp.fraction.toNat * 10 ^ 6 / 2 ^ 32 := by
    rw [unixInstant]
    ring
  rw [regroup, Timeval.micros, convertNtp_tvSec_eq]
  push_cast
  constructor <;> linarith

private theorem micros_monotone {ntp later : NtpTime}
    (order : unixInstant ntp ≤ unixInstant later) :
    (convertNtpTimeIntoUnixTime ntp).micros ≤ (convertNtpTimeIntoUnixTime later).micros := by
  have low := (micros_bounds ntp).1
  have high := (micros_bounds later).2
  have less : ((convertNtpTimeIntoUnixTime ntp).micros : ℚ) <
      (convertNtpTimeIntoUnixTime later).micros + 1 := by linarith
  exact Int.lt_add_one_iff.mp (by exact_mod_cast less)

/-- Every timestamp decodes to the microsecond it lies in, and later ones to later ones. -/
theorem decoding_exact (ntp : NtpTime) :
    let t := convertNtpTimeIntoUnixTime ntp
    (0 ≤ t.tvSec ∧ t.tvSec < 2 ^ 32) ∧ (0 ≤ t.tvUsec ∧ t.tvUsec ≤ 999999) ∧
    (t.seconds ≤ unixInstant ntp ∧ unixInstant ntp < t.seconds + 1 / 10 ^ 6) ∧
    ∀ later, unixInstant ntp ≤ unixInstant later →
      t.seconds ≤ (convertNtpTimeIntoUnixTime later).seconds := by
  obtain ⟨low, high⟩ := micros_bounds ntp
  refine ⟨tvSec_bounds ntp, tvUsec_bounds ntp, ⟨?_, ?_⟩, fun later order => ?_⟩
  · rw [seconds_eq_micros]
    linarith
  · rw [seconds_eq_micros]
    linarith
  · have monotone : ((convertNtpTimeIntoUnixTime ntp).micros : ℚ) ≤
        (convertNtpTimeIntoUnixTime later).micros := by exact_mod_cast micros_monotone order
    rw [seconds_eq_micros, seconds_eq_micros]
    linarith

/-- The last timestamp before the rollover and the first after it. -/
theorem decoding_exact_rollover :
    (convertNtpTimeIntoUnixTime ⟨0xFFFFFFFF, 0xFFFFFFFF⟩).seconds ≤
      (convertNtpTimeIntoUnixTime ⟨0, 0⟩).seconds :=
  (decoding_exact ⟨0xFFFFFFFF, 0xFFFFFFFF⟩).2.2.2 ⟨0, 0⟩ (by decide +kernel)

end Decoding

end Sntp.TimestampCodec

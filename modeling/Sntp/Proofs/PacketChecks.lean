import Sntp.Model.ClientPacket

/-! # What the two packet checks accept -/

namespace Sntp

open Machine

/-- A chain of guarded `return 1` returns zero when no guard holds. -/
private theorem guard_eq_zero_iff {guard : Prop} [Decidable guard] {rest : ℤ} :
    (if guard then 1 else rest) = 0 ↔ ¬ guard ∧ rest = 0 := by
  split <;> simp [*]

theorem checkPacket_eq_zero_iff (cReq : SntpRequest) :
    checkPacket cReq = 0 ↔ mode cReq.pkt.liVnMode = 3 ∧
      1 ≤ version cReq.pkt.liVnMode ∧ version cReq.pkt.liVnMode ≤ 4 := by
  simp only [checkPacket, guard_eq_zero_iff, ne_eq, not_not, not_or, gt_iff_lt, UInt8.not_lt,
    and_true]

theorem runSanityChecks_eq_zero_iff (reqPkt repPkt : NtpPacket) :
    runSanityChecks reqPkt repPkt = 0 ↔
      reqPkt.transmitTimestamp = repPkt.originateTimestamp ∧ repPkt.stratum ≤ 15 ∧
      repPkt.transmitTimestamp ≠ ⟨0, 0⟩ ∧ mode repPkt.liVnMode = 4 ∧
      version reqPkt.liVnMode = version repPkt.liVnMode := by
  have nonnegative : 0 ≤ repPkt.stratum := UInt8.zero_le
  simp only [runSanityChecks, guard_eq_zero_iff, ne_eq, not_not, not_or, gt_iff_lt, UInt8.not_lt,
    and_true, NtpTime.ext_iff, nonnegative, true_and]

end Sntp

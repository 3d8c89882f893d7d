import Sntp.Proofs.PacketChecks
import Sntp.Soundness.Responder

/-! # Truncated datagrams

A receive forgets how many bytes arrived, and the bytes that are missing read as zero. Neither
receiver therefore sees that a datagram is too short for a packet: the server looks at the first
byte alone, and the client at fields that end within the datagram or read as zero behind it. A
truncated datagram is rejected exactly when the bytes it does have fail these checks.
-/

namespace Sntp.Truncated

open Machine Responder

/-- The bytes there are belong to a server's reply to the request, up to a transmit timestamp that
has begun and is not zero so far. -/
def LooksLikeReply (host : ByteOrder) (request : NtpPacket) (datagram : Datagram) : Prop :=
  (datagram.bytes.drop 24).take 8 = request.transmitTimestamp.store host ∧
    datagram.bytes.getD 1 0 ≤ 15 ∧ (∃ byte ∈ datagram.bytes.drop 40, byte ≠ 0) ∧
    mode (datagram.bytes.getD 0 0) = 4 ∧ version request.liVnMode = version (datagram.bytes.getD 0 0)

/-- Wherever the client receives the datagram, its check rejects the packet it then finds. -/
def ClientRejects (host : ByteOrder) (request : NtpPacket) (datagram : Datagram) : Prop :=
  ∀ memory pkt addr destTime now, runSanityChecks request (.load host
    (recieveSntpPacket memory pkt addr destTime (some (datagram, now))).memory pkt) ≠ 0

variable (host : ByteOrder) (datagram : Datagram)

/-- A slice of the packet in memory, byte by byte. -/
private theorem slice_eq (start length : ℕ) (inside : start + length ≤ sizeofNtpPacket) :
    (((List.range sizeofNtpPacket).map fun offset => datagram.bytes.getD offset 0).drop
      start).take length = (List.range length).map fun offset =>
        datagram.bytes.getD (start + offset) 0 := by
  apply List.ext_getElem
  · simp only [List.length_take, List.length_drop, List.length_map, List.length_range]
    omega
  · intro index left right
    simp

/-- A slice that is all there is the slice of the datagram. -/
private theorem slice_eq_of_le {start length : ℕ}
    (present : start + length ≤ datagram.bytes.length) :
    ((List.range length).map fun offset => datagram.bytes.getD (start + offset) 0) =
      (datagram.bytes.drop start).take length := by
  apply List.ext_getElem
  · simp only [List.length_take, List.length_drop, List.length_map, List.length_range]
    omega
  · intro index left right
    have bound : start + index < datagram.bytes.length := by simp at left; omega
    simp [bound]

private theorem ofBytes_eq_iff {bytes : List UInt8} (length : bytes.length = 8) (t : NtpTime) :
    NtpTime.ofBytes host bytes = t ↔ bytes = t.store host := by
  constructor
  · rintro rfl
    exact (NtpTime.store_ofBytes host length).symm
  · rintro rfl
    exact NtpTime.ofBytes_store host t

/-- The originate timestamp of a datagram long enough to have one. -/
private theorem originateTimestamp_packet_eq_iff (present : 32 ≤ datagram.bytes.length)
    (t : NtpTime) : (datagram.packet host).originateTimestamp = t ↔
      (datagram.bytes.drop 24).take 8 = t.store host := by
  have slice := (slice_eq datagram 24 8 (by decide)).trans
    (slice_eq_of_le datagram present)
  rw [Datagram.packet, NtpPacket.ofBytes, slice, ofBytes_eq_iff]
  simp only [List.length_take, List.length_drop]
  omega

/-- The transmit timestamp of a truncated datagram is zero unless its bytes have begun to arrive
and one of them is not. -/
private theorem transmitTimestamp_packet_eq_zero_iff
    (short : datagram.bytes.length < sizeofNtpPacket) :
    (datagram.packet host).transmitTimestamp = ⟨0, 0⟩ ↔
      ∀ byte ∈ datagram.bytes.drop 40, byte = 0 := by
  have slice := slice_eq datagram 40 8 (by decide)
  have zero : (⟨0, 0⟩ : NtpTime).store host = List.replicate 8 0 := by cases host <;> decide
  rw [Datagram.packet, NtpPacket.ofBytes, slice, ofBytes_eq_iff _ (by simp), zero,
    List.eq_replicate_iff]
  simp only [List.length_map, List.length_range, List.forall_mem_map, true_and]
  constructor
  · intro zeros byte member
    obtain ⟨index, bound, rfl⟩ := List.mem_iff_getElem.mp member
    simp only [List.length_drop, sizeofNtpPacket] at bound short
    have := zeros index (List.mem_range.mpr (by omega))
    rw [List.getD_eq_getElem _ _ (by omega)] at this
    exact List.getElem_drop.trans this
  · intro zeros index _
    rcases Nat.lt_or_ge (40 + index) datagram.bytes.length with bound | beyond
    · rw [List.getD_eq_getElem _ _ bound]
      exact zeros _ (List.mem_iff_getElem.mpr
        ⟨index, by simp only [List.length_drop]; omega, List.getElem_drop ..⟩)
    · exact List.getD_eq_default _ _ beyond

/-- The client rejects a truncated datagram exactly when the bytes there are do not belong to a
reply. -/
theorem clientRejects_iff (request : NtpPacket) (short : datagram.bytes.length < sizeofNtpPacket) :
    ClientRejects host request datagram ↔ ¬ LooksLikeReply host request datagram := by
  have checked : ClientRejects host request datagram ↔
      runSanityChecks request (datagram.packet host) ≠ 0 := by
    simp only [ClientRejects, load_recieve, forall_const]
  have mode_byte : (datagram.packet host).liVnMode = datagram.bytes.getD 0 0 := rfl
  have stratum_byte : (datagram.packet host).stratum = datagram.bytes.getD 1 0 := rfl
  rw [checked, ne_eq, not_iff_not, runSanityChecks_eq_zero_iff, mode_byte, stratum_byte, ne_eq,
    transmitTimestamp_packet_eq_zero_iff host datagram short, LooksLikeReply]
  simp only [not_forall, exists_prop]
  -- A transmit timestamp that has begun has a whole originate timestamp before it.
  have present (begun : ∃ byte ∈ datagram.bytes.drop 40, byte ≠ 0) :
      request.transmitTimestamp = (datagram.packet host).originateTimestamp ↔
        (datagram.bytes.drop 24).take 8 = request.transmitTimestamp.store host := by
    obtain ⟨byte, member, -⟩ := begun
    have := List.length_pos_of_mem member
    rw [List.length_drop] at this
    rw [eq_comm, originateTimestamp_packet_eq_iff host datagram (by omega)]
  constructor
  · rintro ⟨originate, stratum, begun, rest⟩
    exact ⟨(present begun).mp originate, stratum, begun, rest⟩
  · rintro ⟨originate, stratum, begun, rest⟩
    exact ⟨(present begun).mpr originate, stratum, begun, rest⟩

/-- A truncated datagram is rejected by every receiver exactly when its bytes look neither like a
client request nor like a reply to the request in force. -/
theorem truncated_rejected_iff (request : NtpPacket)
    (short : datagram.bytes.length < sizeofNtpPacket) :
    (ServerIgnores host datagram ↔ ¬ LooksLikeRequest datagram) ∧
      (ClientRejects host request datagram ↔ ¬ LooksLikeReply host request datagram) :=
  ⟨serverIgnores_iff host datagram (le_of_lt short), clientRejects_iff host datagram request short⟩

/-- The request in force in the runs below. -/
def sentRequest : NtpPacket := createPacket .little (getNtpTimeOfDay ⟨0, 0⟩)

/-- A reply to it that was cut off after the first byte of its transmit timestamp. -/
def cutReply : Datagram :=
  ⟨default, ((createReplyPacket .little ⟨default, sentRequest, getNtpTimeOfDay ⟨0, 0⟩⟩
    (getNtpTimeOfDay ⟨0, 0⟩)).store .little).take 41⟩

/-- The first byte of a reply is rejected by both. -/
theorem truncated_rejected_iff_first_byte :
    ServerIgnores .little ⟨default, [0x24]⟩ ∧ ClientRejects .little sentRequest ⟨default, [0x24]⟩ := by
  have rejected := truncated_rejected_iff .little ⟨default, [0x24]⟩ sentRequest (by decide)
  refine ⟨rejected.1.mpr ?_, rejected.2.mpr ?_⟩
  · rintro ⟨first, rest, same, accepted, -⟩
    obtain ⟨rfl, -⟩ := List.cons.inj same
    exact absurd accepted (by decide)
  · rintro ⟨-, -, ⟨byte, member, -⟩, -⟩
    simp at member

/-- The server answers a single byte, and the client accepts a reply without most of its transmit
timestamp. -/
theorem truncated_accepted :
    ¬ ServerIgnores .little ⟨default, [0x23]⟩ ∧ ¬ ClientRejects .little sentRequest cutReply := by
  rw [serverIgnores_iff .little _ (by decide), clientRejects_iff .little _ _ (by decide)]
  refine ⟨not_not.mpr ⟨0x23, [], rfl, by decide, by decide, by decide⟩, not_not.mpr ?_⟩
  refine ⟨by decide +kernel, by decide +kernel, ⟨0x83, by decide +kernel, by decide⟩, ?_, ?_⟩
  · decide +kernel
  · decide +kernel

end Sntp.Truncated

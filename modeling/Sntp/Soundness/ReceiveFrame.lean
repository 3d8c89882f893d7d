import Sntp.Model.Server

/-! # Which memory a receive changes

`recvfrom` may store `MAXBUFLEN - 1` bytes behind a packet pointer that has room for 48. A receive
therefore frames the memory around the packet exactly for datagrams that fit the packet, and every
longer datagram changes what lies behind it, first of all the server's `time_of_request`.
-/

namespace Sntp.ReceiveFrame

open Machine

/-- Every byte outside the packet at `pkt` keeps its value. -/
def TouchesOnlyPacket (pkt : ℕ) (before after : Memory) : Prop :=
  ∀ query, query < pkt ∨ pkt + sizeofNtpPacket ≤ query → after query = before query

/-- The memory after a receive. -/
def after (memory : Memory) (pkt : ℕ) (addr : SockaddrIn) (destTime : Timeval)
    (answer : Option (Datagram × Timeval)) : Memory :=
  (recieveSntpPacket memory pkt addr destTime answer).memory

variable (memory : Memory) (pkt : ℕ) (addr : SockaddrIn) (destTime now : Timeval) (datagram : Datagram)

theorem after_failure_touchesOnlyPacket :
    TouchesOnlyPacket pkt memory (after memory pkt addr destTime none) :=
  fun _ outside => memory.fill_of_outside outside

/-- Behind the packet the stored bytes show, and after them the old memory. -/
theorem after_behind {offset : ℕ} (behind : sizeofNtpPacket ≤ offset) :
    after memory pkt addr destTime (some (datagram, now)) (pkt + offset) =
      datagram.stored.getD offset (memory (pkt + offset)) := by
  have kept : memory.fill pkt 0 sizeofNtpPacket (pkt + offset) = memory (pkt + offset) :=
    memory.fill_of_outside (by omega)
  change (memory.fill pkt 0 sizeofNtpPacket).write pkt datagram.stored (pkt + offset) = _
  rw [Memory.write_add, kept]

theorem after_before {query : ℕ} (low : query < pkt) :
    after memory pkt addr destTime (some (datagram, now)) query = memory query := by
  change (memory.fill pkt 0 sizeofNtpPacket).write pkt datagram.stored query = _
  rw [Memory.write_of_outside _ (Or.inl low), Memory.fill_of_outside _ (Or.inl low)]

/-- One memory is framed exactly when the bytes stored behind the packet equal the old ones. -/
theorem touchesOnlyPacket_iff :
    TouchesOnlyPacket pkt memory (after memory pkt addr destTime (some (datagram, now))) ↔
      ∀ offset, sizeofNtpPacket ≤ offset → (bound : offset < datagram.stored.length) →
        datagram.stored[offset] = memory (pkt + offset) := by
  constructor
  · intro frame offset behind bound
    have kept := frame (pkt + offset) (Or.inr (by omega))
    rwa [after_behind _ _ _ _ _ _ behind, List.getD_eq_getElem _ _ bound] at kept
  · rintro agree query (low | high)
    · exact after_before _ _ _ _ _ _ low
    · obtain ⟨offset, rfl⟩ := Nat.exists_eq_add_of_le (Nat.le_of_add_right_le high)
      have behind : sizeofNtpPacket ≤ offset := by omega
      rw [after_behind _ _ _ _ _ _ behind]
      rcases Nat.lt_or_ge offset datagram.stored.length with bound | beyond
      · rw [List.getD_eq_getElem _ _ bound, agree offset behind bound]
      · rw [List.getD_eq_default _ _ beyond]

/-- A datagram stores more than a packet exactly when it is longer than one. -/
theorem stored_length_le_iff :
    datagram.stored.length ≤ sizeofNtpPacket ↔ datagram.bytes.length ≤ sizeofNtpPacket := by
  simp only [Datagram.stored, List.length_take, maxBufLen, sizeofNtpPacket]
  omega

/-- A datagram that fits the packet frames every memory. -/
theorem touchesOnlyPacket_of_fits (fits : datagram.bytes.length ≤ sizeofNtpPacket) :
    TouchesOnlyPacket pkt memory (after memory pkt addr destTime (some (datagram, now))) := by
  rw [touchesOnlyPacket_iff]
  intro offset behind bound
  have := (stored_length_le_iff datagram).mpr fits
  omega

/-- The bytes of `time_of_request` behind the packet. -/
def timeOfRequest (memory : Memory) (pkt : ℕ) : List UInt8 :=
  memory.read (pkt + timeOfRequestOffset) 8

/-- A memory whose byte behind the packet differs from the one a longer datagram stores there. -/
private theorem exists_timeOfRequest_changed (long : sizeofNtpPacket < datagram.bytes.length) :
    ∃ memory : Memory, timeOfRequest (after memory pkt addr destTime (some (datagram, now))) pkt ≠
      timeOfRequest memory pkt := by
  have bound : sizeofNtpPacket < datagram.stored.length := by
    have := (stored_length_le_iff datagram).not
    omega
  refine ⟨fun _ => datagram.stored[sizeofNtpPacket] + 1, fun same => ?_⟩
  have first := congrArg (fun bytes : List UInt8 => bytes.getD 0 0) same
  have stored := after_behind (fun _ => datagram.stored[sizeofNtpPacket] + 1) pkt addr destTime now
    datagram (Nat.le_refl _)
  rw [List.getD_eq_getElem _ _ bound] at stored
  simp only [timeOfRequest, Memory.read, List.getD_eq_getElem?_getD, List.getElem?_map,
    List.getElem?_range, Nat.zero_lt_succ, Option.map_some, Option.getD_some, Nat.add_zero] at first
  rw [show timeOfRequestOffset = sizeofNtpPacket from rfl, stored] at first
  simp at first

theorem timeOfRequest_of_touchesOnlyPacket {before after : Memory} {pkt : ℕ}
    (frame : TouchesOnlyPacket pkt before after) :
    timeOfRequest after pkt = timeOfRequest before pkt := by
  refine List.map_congr_left fun offset _ => frame _ (Or.inr ?_)
  simp only [timeOfRequestOffset, sizeofNtpPacket]
  omega

/-- A receive touches only the packet exactly when the datagram fits it: for one memory, when the
excess bytes equal those already there; for every memory, and for the `time_of_request` behind the
packet, when there are none. A failed receive always does. -/
theorem recieve_touches_only_packet_iff :
    TouchesOnlyPacket pkt memory (after memory pkt addr destTime none) ∧
    (TouchesOnlyPacket pkt memory (after memory pkt addr destTime (some (datagram, now))) ↔
      ∀ offset, sizeofNtpPacket ≤ offset → (bound : offset < datagram.stored.length) →
        datagram.stored[offset] = memory (pkt + offset)) ∧
    ((∀ memory, TouchesOnlyPacket pkt memory
        (after memory pkt addr destTime (some (datagram, now)))) ↔
      datagram.bytes.length ≤ sizeofNtpPacket) ∧
    ((∀ memory, timeOfRequest (after memory pkt addr destTime (some (datagram, now))) pkt =
        timeOfRequest memory pkt) ↔ datagram.bytes.length ≤ sizeofNtpPacket) := by
  have long_changes (long : ¬ datagram.bytes.length ≤ sizeofNtpPacket) :=
    exists_timeOfRequest_changed pkt addr destTime now datagram (Nat.lt_of_not_le long)
  have fits_frames (fits : datagram.bytes.length ≤ sizeofNtpPacket) (memory : Memory) :=
    touchesOnlyPacket_of_fits memory pkt addr destTime now datagram fits
  refine ⟨after_failure_touchesOnlyPacket _ _ _ _, touchesOnlyPacket_iff _ _ _ _ _ _,
    ⟨fun framed => ?_, fits_frames⟩, ⟨fun kept => ?_, fun fits memory => ?_⟩⟩
  · by_contra long
    obtain ⟨memory, changed⟩ := long_changes long
    exact changed (timeOfRequest_of_touchesOnlyPacket (framed memory))
  · by_contra long
    obtain ⟨memory, changed⟩ := long_changes long
    exact changed (kept memory)
  · exact timeOfRequest_of_touchesOnlyPacket (fits_frames fits memory)

/-- A 56-byte datagram into cleared memory sets the bytes of the server's `time_of_request`. -/
theorem recieve_overwrites_time_of_request :
    ¬ (TouchesOnlyPacket 0 (fun _ => 0) (after (fun _ => 0) 0 default default
        (some (⟨default, List.replicate 56 1⟩, default))) ∧
      timeOfRequest (after (fun _ => 0) 0 default default
        (some (⟨default, List.replicate 56 1⟩, default))) 0 = timeOfRequest (fun _ => 0) 0) := by
  rintro ⟨frame, _⟩
  have kept := frame 48 (Or.inr (by decide))
  exact absurd kept (by decide)

end Sntp.ReceiveFrame

import Sntp.Math.OffsetEstimate
import Sntp.Proofs.PacketChecks
import Sntp.Proofs.TimeCodec
import Sntp.Soundness.Responder

/-! # One exchange between a client and a server

A request travels from the client's memory to the server's and its reply back, as raw bytes, with
each host using a byte order of its own. The three timestamps the client decodes are the very
pairs that were encoded, and the reply passes the client's checks except at one transmit instant
an era. The offset and the error bound computed from the exchange are sound exactly when the
delays cover the slips of the three encoded readings.
-/

namespace Sntp.Exchange

open Machine Responder

/-- The packet a host finds in memory after receiving a datagram into it. -/
def arrive (host : ByteOrder) (memory : Memory) (datagram : Datagram) : NtpPacket :=
  .load host (recieveSntpPacket memory 0 default default (some (datagram, default))).memory 0

theorem arrive_datagram (reader writer : ByteOrder) (memory : Memory) (source : SockaddrIn)
    (pkt : NtpPacket) :
    arrive reader memory (pkt.datagram writer source) = .ofBytes reader (pkt.store writer) := by
  rw [arrive, load_recieve, NtpPacket.packet_datagram]

/-- A timestamp one host converted arrives on any host as the one that host would convert. -/
theorem ofBytes_store_hton (reader writer : ByteOrder) (t : NtpTime) :
    NtpTime.ofBytes reader ((t.hton writer).store writer) = t.hton reader := by
  rw [NtpTime.store_hton, ← NtpTime.store_hton reader, NtpTime.ofBytes_store]

section Wire

variable (client server : ByteOrder) (clientMemory serverMemory : Memory)
variable (clientAddr serverAddr : SockaddrIn) (timeOfRequest transmitTsNtp : NtpTime)

/-- The reply the client holds after the server answered a request from the client's memory. -/
def reply (request : NtpPacket) : NtpPacket :=
  let cReq : SntpRequest :=
    { client := clientAddr
      pkt := arrive server serverMemory (request.datagram client clientAddr)
      timeOfRequest := timeOfRequest }
  arrive client clientMemory
    ((createReplyPacket server cReq transmitTsNtp).datagram server serverAddr)

/-- The fields of the reply that the client reads. -/
theorem reply_fields (request : NtpPacket) :
    let held := reply client server clientMemory serverMemory clientAddr serverAddr timeOfRequest
      transmitTsNtp request
    held.liVnMode = (version request.liVnMode <<< 3) ||| 4 ∧ held.stratum = 2 ∧
    held.originateTimestamp = request.transmitTimestamp ∧
    held.receiveTimestamp = timeOfRequest.hton client ∧
    held.transmitTimestamp = transmitTsNtp.hton client := by
  simp only [reply, arrive_datagram, NtpPacket.ofBytes_store_of_hosts, createReplyPacket]
  refine ⟨trivial, trivial, ?_, ofBytes_store_hton _ _ _, ofBytes_store_hton _ _ _⟩
  rw [NtpTime.store_ofBytes _ (NtpTime.length_store _ _), NtpTime.ofBytes_store]

/-- The host-order pairs in the reply to the client's own request. -/
theorem reply_hostTimestamps (originate : NtpTime) :
    (reply client server clientMemory serverMemory clientAddr serverAddr timeOfRequest
      transmitTsNtp (createPacket client originate)).hostTimestamps client =
        ⟨originate, timeOfRequest, transmitTsNtp⟩ := by
  obtain ⟨_, _, copied, received, transmitted⟩ := reply_fields client server clientMemory
    serverMemory clientAddr serverAddr timeOfRequest transmitTsNtp (createPacket client originate)
  rw [NtpPacket.hostTimestamps, copied, received, transmitted, createPacket_transmitTimestamp]
  simp only [NtpTime.ntoh_hton]

/-- The pairs the client hands to `convert_ntp_time_into_unix_time` are those of its own
`create_packet`, of the server's `time_of_request` and of the server's `get_ntp_time_of_day`. -/
theorem timestamps_survive_wire (originate : NtpTime) (ts : CoreTs) :
    let held := reply client server clientMemory serverMemory clientAddr serverAddr timeOfRequest
      transmitTsNtp (createPacket client originate)
    held.hostTimestamps client = ⟨originate, timeOfRequest, transmitTsNtp⟩ ∧
    getTimestampsFromPacketInEpochTime client held ts =
      { ts with
        originateTimestamp := convertNtpTimeIntoUnixTime originate
        receiveTimestamp := convertNtpTimeIntoUnixTime timeOfRequest
        transmitTimestamp := convertNtpTimeIntoUnixTime transmitTsNtp } := by
  intro held
  have pairs := reply_hostTimestamps client server clientMemory serverMemory clientAddr serverAddr
    timeOfRequest transmitTsNtp originate
  refine ⟨pairs, ?_⟩
  rw [getTimestampsFromPacketInEpochTime, pairs]

/-- `check_packet` on the server sees the mode and version bits of the client's request. -/
theorem checkPacket_arrive_eq_zero_iff (request : NtpPacket) :
    checkPacket ⟨clientAddr, arrive server serverMemory (request.datagram client clientAddr),
        timeOfRequest⟩ = 0 ↔
      mode request.liVnMode = 3 ∧ 1 ≤ version request.liVnMode ∧ version request.liVnMode ≤ 4 := by
  rw [checkPacket_eq_zero_iff, arrive_datagram, NtpPacket.ofBytes_store_of_hosts]

/-- Every request the client builds is accepted. -/
theorem checkPacket_createPacket (originate : NtpTime) :
    checkPacket ⟨clientAddr, arrive server serverMemory
      ((createPacket client originate).datagram client clientAddr), timeOfRequest⟩ = 0 := by
  rw [checkPacket_arrive_eq_zero_iff]
  have bits : mode ((4 : UInt8) <<< 3 ||| 3) = 3 ∧ (1 : UInt8) ≤ version ((4 : UInt8) <<< 3 ||| 3) ∧
      version ((4 : UInt8) <<< 3 ||| 3) ≤ (4 : UInt8) := by decide
  exact bits

/-- The only check a reply can fail is the one for a zero transmit timestamp. -/
theorem runSanityChecks_reply_eq_zero_iff (request : NtpPacket) :
    runSanityChecks request (reply client server clientMemory serverMemory clientAddr serverAddr
        timeOfRequest transmitTsNtp request) = 0 ↔ transmitTsNtp ≠ ⟨0, 0⟩ := by
  obtain ⟨liVnMode, stratum, copied, _, transmitted⟩ := reply_fields client server clientMemory
    serverMemory clientAddr serverAddr timeOfRequest transmitTsNtp request
  generalize reply client server clientMemory serverMemory clientAddr serverAddr timeOfRequest
    transmitTsNtp request = held at *
  obtain ⟨replyMode, replyVersion⟩ := reply_liVnMode request.liVnMode
  have zero : (⟨0, 0⟩ : NtpTime).hton client = ⟨0, 0⟩ := by cases client <;> decide +kernel
  have range : (2 : UInt8) ≤ 15 := by decide
  rw [runSanityChecks_eq_zero_iff, liVnMode, stratum, copied, replyMode, replyVersion, transmitted]
  simp only [range, ne_eq, true_and, and_true, (NtpTime.hton_injective client).eq_iff' zero]

/-- Every request has its reply accepted, except for a reply transmitted in the last microsecond
of a second whose NTP encoding is zero; and every request the client builds is accepted. -/
theorem reply_accepted_iff (request : NtpPacket) (arrival transmit now : Timeval)
    (normal : transmit.Normal) :
    checkPacket ⟨clientAddr, arrive server serverMemory
        ((createPacket client (getNtpTimeOfDay now)).datagram client clientAddr),
        convertUnixTimeIntoNtpTime arrival⟩ = 0 ∧
    (runSanityChecks request (reply client server clientMemory serverMemory clientAddr serverAddr
        (convertUnixTimeIntoNtpTime arrival) (getNtpTimeOfDay transmit) request) = 0 ↔
      ¬ ((transmit.tvSec + 0x83AA7E80) % 2 ^ 32 = 0 ∧ transmit.tvUsec = 999999)) := by
  refine ⟨checkPacket_createPacket .., ?_⟩
  rw [runSanityChecks_reply_eq_zero_iff, ne_eq, not_iff_not, NtpTime.ext_iff]
  exact and_congr (convertUnix_second_eq_zero_iff transmit) (convertUnix_fraction_eq_zero_iff normal)

/-- The request of a version 3 client with leap bits set, answered before the rollover. -/
theorem reply_accepted_iff_before_rollover :
    checkPacket ⟨default, arrive .big (fun _ => 0)
        ((createPacket .little (getNtpTimeOfDay ⟨0, 0⟩)).datagram .little default),
        convertUnixTimeIntoNtpTime ⟨5, 0⟩⟩ = 0 ∧
    (runSanityChecks { NtpPacket.zero with liVnMode := 0xDB }
        (reply .little .big (fun _ => 0) (fun _ => 0) default default
          (convertUnixTimeIntoNtpTime ⟨5, 0⟩) (getNtpTimeOfDay ⟨5, 999999⟩)
          { NtpPacket.zero with liVnMode := 0xDB }) = 0 ↔
      ¬ (((5 : ℤ) + 0x83AA7E80) % 2 ^ 32 = 0 ∧ (999999 : ℤ) = 999999)) :=
  reply_accepted_iff .little .big (fun _ => 0) (fun _ => 0) default default
    { NtpPacket.zero with liVnMode := 0xDB } ⟨5, 0⟩ ⟨5, 999999⟩ ⟨0, 0⟩
    ⟨by decide, by decide⟩

/-- A version 4 request answered in the last microsecond of the first second of NTP era 1. -/
theorem reply_rejected_at_rollover :
    checkPacket ⟨default, arrive .little (fun _ => 0)
        ((createPacket .little (getNtpTimeOfDay ⟨2085978496, 0⟩)).datagram .little default),
        convertUnixTimeIntoNtpTime ⟨2085978496, 999998⟩⟩ = 0 ∧
    runSanityChecks (createPacket .little (getNtpTimeOfDay ⟨2085978496, 0⟩))
      (reply .little .little (fun _ => 0) (fun _ => 0) default default
        (convertUnixTimeIntoNtpTime ⟨2085978496, 999998⟩) (getNtpTimeOfDay ⟨2085978496, 999999⟩)
        (createPacket .little (getNtpTimeOfDay ⟨2085978496, 0⟩))) ≠ 0 := by
  refine ⟨checkPacket_createPacket .., ?_⟩
  rw [ne_eq, runSanityChecks_reply_eq_zero_iff, not_not]
  decide +kernel

end Wire

/-- The true course of an exchange, in microseconds: the offset of the server's clock, the three
delays, and the client's clock when it sends. -/
structure Course where
  theta : ℤ
  requestDelay : ℤ
  processing : ℤ
  replyDelay : ℤ
  sendTime : ℤ
  requestDelay_nonneg : 0 ≤ requestDelay
  processing_nonneg : 0 ≤ processing
  replyDelay_nonneg : 0 ≤ replyDelay

namespace Course

variable (course : Course)

/-- The client's clock at the send. -/
def t1 : Timeval := .ofMicros course.sendTime

/-- The server's clock at the arrival of the request. -/
def t2 : Timeval := .ofMicros (course.sendTime + course.requestDelay + course.theta)

/-- The server's clock at the transmission of the reply. -/
def t3 : Timeval :=
  .ofMicros (course.sendTime + course.requestDelay + course.processing + course.theta)

/-- The client's clock at the arrival of the reply. -/
def t4 : Timeval :=
  .ofMicros (course.sendTime + course.requestDelay + course.processing + course.replyDelay)

/-- All clock readings lie in the `2 ^ 32` seconds after the epoch. -/
def InRange : Prop :=
  ∀ t ∈ [course.t1, course.t2, course.t3, course.t4], 0 ≤ t.tvSec ∧ t.tvSec < 2 ^ 32

/-- The timestamps the client computes with. -/
def report (client server : ByteOrder) (clientMemory serverMemory : Memory)
    (clientAddr serverAddr : SockaddrIn) : CoreTs :=
  getTimestampsFromPacketInEpochTime client
    (reply client server clientMemory serverMemory clientAddr serverAddr
      (convertUnixTimeIntoNtpTime course.t2) (getNtpTimeOfDay course.t3)
      (createPacket client (getNtpTimeOfDay course.t1)))
    { originateTimestamp := default
      receiveTimestamp := default
      transmitTimestamp := default
      destinationTimestamp := course.t4 }

/-- The delays make up for the slips of the three encoded readings, in both directions. -/
def SlipsCovered : Prop :=
  codecSlip course.t1.tvUsec + 3 * codecSlip course.t3.tvUsec ≤
      codecSlip course.t2.tvUsec + (course.requestDelay + 3 * course.replyDelay) ∧
    3 * codecSlip course.t1.tvUsec + codecSlip course.t3.tvUsec ≤
      3 * codecSlip course.t2.tvUsec + (3 * course.requestDelay + course.replyDelay)

/-- The report decodes the three encoded readings. -/
private theorem report_eq (client server : ByteOrder) (clientMemory serverMemory : Memory)
    (clientAddr serverAddr : SockaddrIn) :
    course.report client server clientMemory serverMemory clientAddr serverAddr =
      { originateTimestamp := convertNtpTimeIntoUnixTime (convertUnixTimeIntoNtpTime course.t1)
        receiveTimestamp := convertNtpTimeIntoUnixTime (convertUnixTimeIntoNtpTime course.t2)
        transmitTimestamp := convertNtpTimeIntoUnixTime (convertUnixTimeIntoNtpTime course.t3)
        destinationTimestamp := course.t4 } := by
  rw [report, getTimestampsFromPacketInEpochTime, reply_hostTimestamps]
  rfl

/-- A reading of the course comes back from its encoding with the slip of its microseconds. -/
private theorem seconds_decoded {micros : ℤ} {t : Timeval} (reading : t = .ofMicros micros)
    (range : 0 ≤ t.tvSec ∧ t.tvSec < 2 ^ 32) :
    (convertNtpTimeIntoUnixTime (convertUnixTimeIntoNtpTime t)).seconds =
      micros / 10 ^ 6 + codecSlip t.tvUsec / 10 ^ 6 := by
  have normal : t.Normal := reading ▸ Timeval.normal_ofMicros micros
  have same : t.micros = micros := by rw [reading, Timeval.micros_ofMicros]
  rw [seconds_eq_micros, micros_convertNtp_convertUnix range.1 range.2 normal, same]
  push_cast
  ring

/-- The readings the client computes with, in seconds. -/
theorem report_seconds (client server : ByteOrder) (clientMemory serverMemory : Memory)
    (clientAddr serverAddr : SockaddrIn) (range : course.InRange) :
    let ts := course.report client server clientMemory serverMemory clientAddr serverAddr
    ts.originateTimestamp.seconds = course.sendTime / 10 ^ 6 + codecSlip course.t1.tvUsec / 10 ^ 6 ∧
    ts.receiveTimestamp.seconds = course.sendTime / 10 ^ 6 + course.requestDelay / 10 ^ 6 +
      course.theta / 10 ^ 6 + codecSlip course.t2.tvUsec / 10 ^ 6 ∧
    ts.transmitTimestamp.seconds = course.sendTime / 10 ^ 6 + course.requestDelay / 10 ^ 6 +
      course.processing / 10 ^ 6 + course.theta / 10 ^ 6 + codecSlip course.t3.tvUsec / 10 ^ 6 ∧
    ts.destinationTimestamp.seconds = course.sendTime / 10 ^ 6 + course.requestDelay / 10 ^ 6 +
      course.processing / 10 ^ 6 + course.replyDelay / 10 ^ 6 := by
  intro ts
  simp only [InRange, List.forall_mem_cons] at range
  obtain ⟨range1, range2, range3, _⟩ := range
  simp only [ts, report_eq]
  refine ⟨seconds_decoded rfl range1, ?_, ?_, ?_⟩
  · rw [seconds_decoded (t := course.t2) rfl range2]
    push_cast
    ring
  · rw [seconds_decoded (t := course.t3) rfl range3]
    push_cast
    ring
  · rw [t4, seconds_eq_micros, Timeval.micros_ofMicros]
    push_cast
    ring

/-- The error bound is nonnegative and bounds the error of the offset exactly when the delays cover
the slips of the encodings. -/
theorem error_bound_sound_iff (client server : ByteOrder) (clientMemory serverMemory : Memory)
    (clientAddr serverAddr : SockaddrIn) (range : course.InRange) :
    let ts := course.report client server clientMemory serverMemory clientAddr serverAddr
    (0 ≤ calculateErrorBound ts ∧
      |calculateClockOffset ts - course.theta / 10 ^ 6| ≤ calculateErrorBound ts) ↔
        course.SlipsCovered := by
  intro ts
  obtain ⟨seconds1, seconds2, seconds3, seconds4⟩ :=
    course.report_seconds client server clientMemory serverMemory clientAddr serverAddr range
  change 0 ≤ OffsetEstimate.delay ts.originateTimestamp.seconds ts.receiveTimestamp.seconds
      ts.transmitTimestamp.seconds ts.destinationTimestamp.seconds ∧
    |OffsetEstimate.offset ts.originateTimestamp.seconds ts.receiveTimestamp.seconds
      ts.transmitTimestamp.seconds ts.destinationTimestamp.seconds - course.theta / 10 ^ 6| ≤
    OffsetEstimate.delay ts.originateTimestamp.seconds ts.receiveTimestamp.seconds
      ts.transmitTimestamp.seconds ts.destinationTimestamp.seconds ↔ course.SlipsCovered
  rw [seconds1, seconds2, seconds3, seconds4,
    and_iff_right_of_imp fun bounded => (abs_nonneg _).trans bounded,
    OffsetEstimate.abs_offset_sub_le_delay_iff, SlipsCovered, ← Int.cast_le (R := ℚ),
    ← Int.cast_le (R := ℚ)]
  push_cast
  constructor <;> rintro ⟨upper, lower⟩ <;> constructor <;> linarith

/-- A server five seconds ahead and delays of ten milliseconds, with readings that lose nothing. -/
def midSecond : Course where
  theta := 5000000
  requestDelay := 10000
  processing := 1
  replyDelay := 10000
  sendTime := 1000000000500000
  requestDelay_nonneg := by decide
  processing_nonneg := by decide
  replyDelay_nonneg := by decide

/-- The error bound of the course is sound. -/
theorem error_bound_sound_iff_midSecond :
    0 ≤ calculateErrorBound (midSecond.report .little .big (fun _ => 0) (fun _ => 0)
        default default) ∧
      |calculateClockOffset (midSecond.report .little .big (fun _ => 0) (fun _ => 0)
          default default) - midSecond.theta / 10 ^ 6| ≤
        calculateErrorBound (midSecond.report .little .big (fun _ => 0) (fun _ => 0)
          default default) := by
  have range : midSecond.InRange := by simp [InRange, t1, t2, t3, t4, midSecond, Timeval.ofMicros]
  exact (error_bound_sound_iff _ .little .big (fun _ => 0) (fun _ => 0) default default range).mpr
    ⟨by decide, by decide⟩

/-- Clocks that agree, delays of ten milliseconds, and a request that arrives in the last
microsecond of a second: the error bound comes out negative. -/
def lastMicrosecond : Course where
  theta := 0
  requestDelay := 10000
  processing := 1
  replyDelay := 10000
  sendTime := 1000000000989999
  requestDelay_nonneg := by decide
  processing_nonneg := by decide
  replyDelay_nonneg := by decide

/-- The delays of the course do not make up for the second its arrival reading loses. -/
theorem error_bound_sound_fails :
    lastMicrosecond.InRange ∧
    ¬ (0 ≤ calculateErrorBound (lastMicrosecond.report .little .little (fun _ => 0) (fun _ => 0)
          default default) ∧
      |calculateClockOffset (lastMicrosecond.report .little .little (fun _ => 0) (fun _ => 0)
          default default) - lastMicrosecond.theta / 10 ^ 6| ≤
        calculateErrorBound (lastMicrosecond.report .little .little (fun _ => 0) (fun _ => 0)
          default default)) := by
  have negative : calculateErrorBound (lastMicrosecond.report .little .little (fun _ => 0)
      (fun _ => 0) default default) < 0 := by
    rw [report_eq]
    decide +kernel
  refine ⟨by simp [InRange, t1, t2, t3, t4, lastMicrosecond, Timeval.ofMicros], ?_⟩
  rintro ⟨nonneg, _⟩
  exact absurd nonneg (not_le.mpr negative)

end Course

end Sntp.Exchange

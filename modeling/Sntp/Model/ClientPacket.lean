import Sntp.Model.Server

/-! # What the client does with packets

The request it builds, the checks a reply has to pass, and the offset and error bound it computes
from the four timestamps. The doubles of the computation are exact rationals.
-/

namespace Sntp

open Machine

/-- `create_packet`, at the value of its `get_ntp_time_of_day`. -/
def createPacket (host : ByteOrder) (transmitTsNtp : NtpTime) : NtpPacket :=
  { NtpPacket.zero with
    liVnMode := ((4 : UInt8) <<< 3) ||| 3
    transmitTimestamp := transmitTsNtp.hton host }

@[simp] theorem createPacket_transmitTimestamp (host : ByteOrder) (transmitTsNtp : NtpTime) :
    (createPacket host transmitTsNtp).transmitTimestamp = transmitTsNtp.hton host := rfl

/-- `run_sanity_checks`: zero when the reply is trusted. -/
def runSanityChecks (reqPkt repPkt : NtpPacket) : ℤ :=
  let repMode := mode repPkt.liVnMode
  let reqVersion := version reqPkt.liVnMode
  let repVersion := version repPkt.liVnMode
  if reqPkt.transmitTimestamp.second ≠ repPkt.originateTimestamp.second ∨
      reqPkt.transmitTimestamp.fraction ≠ repPkt.originateTimestamp.fraction then 1
  else if repPkt.stratum < 0 ∨ repPkt.stratum > 15 then 1
  else if repPkt.transmitTimestamp.second = 0 ∧ repPkt.transmitTimestamp.fraction = 0 then 1
  else if repMode ≠ 4 then 1
  else if reqVersion ≠ repVersion then 1
  else 0

/-- `struct core_ts`. -/
structure CoreTs where
  originateTimestamp : Timeval
  receiveTimestamp : Timeval
  transmitTimestamp : Timeval
  destinationTimestamp : Timeval
deriving DecidableEq, Repr

/-- The host-order locals of `get_timestamps_from_packet_in_epoch_time`. -/
structure HostTimestamps where
  originateTimestampNtp : NtpTime
  receiveTimestampNtp : NtpTime
  transmitTimestampNtp : NtpTime
deriving DecidableEq, Repr

def NtpPacket.hostTimestamps (host : ByteOrder) (pkt : NtpPacket) : HostTimestamps where
  originateTimestampNtp := pkt.originateTimestamp.ntoh host
  receiveTimestampNtp := pkt.receiveTimestamp.ntoh host
  transmitTimestampNtp := pkt.transmitTimestamp.ntoh host

/-- `get_timestamps_from_packet_in_epoch_time`; the destination timestamp is not in the packet. -/
def getTimestampsFromPacketInEpochTime (host : ByteOrder) (pkt : NtpPacket) (ts : CoreTs) : CoreTs :=
  let ntp := pkt.hostTimestamps host
  { ts with
    originateTimestamp := convertNtpTimeIntoUnixTime ntp.originateTimestampNtp
    receiveTimestamp := convertNtpTimeIntoUnixTime ntp.receiveTimestampNtp
    transmitTimestamp := convertNtpTimeIntoUnixTime ntp.transmitTimestampNtp }

/-- `tv_sec + (1.0e-6 * tv_usec)`. -/
def Timeval.seconds (t : Timeval) : ℚ := t.tvSec + 1 / 10 ^ 6 * t.tvUsec

def calculateClockOffset (ts : CoreTs) : ℚ :=
  let t1 := ts.originateTimestamp.seconds
  let t2 := ts.receiveTimestamp.seconds
  let t3 := ts.transmitTimestamp.seconds
  let t4 := ts.destinationTimestamp.seconds
  ((t2 - t1) + (t3 - t4)) / 2

def calculateErrorBound (ts : CoreTs) : ℚ :=
  let t1 := ts.originateTimestamp.seconds
  let t2 := ts.receiveTimestamp.seconds
  let t3 := ts.transmitTimestamp.seconds
  let t4 := ts.destinationTimestamp.seconds
  (t4 - t1) - (t3 - t2)

theorem seconds_eq_micros (t : Timeval) : t.seconds = t.micros / 10 ^ 6 := by
  simp only [Timeval.seconds, Timeval.micros]
  push_cast
  ring

end Sntp

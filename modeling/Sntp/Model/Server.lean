import Sntp.Model.Receive

/-! # The server

The loop of `main` keeps one `struct sntp_request` and receives every datagram into it. Its packet
and the `time_of_request` behind it are bytes of memory here, because a datagram overwrites them
from the packet's address on; a datagram that reaches past the record would overwrite memory the
model does not describe, and stops it.
-/

namespace Sntp

open Machine

/-- `struct sntp_request`, without the `client.name` that nothing reads. -/
structure SntpRequest where
  client : SockaddrIn
  pkt : NtpPacket
  timeOfRequest : NtpTime
deriving DecidableEq, Repr

/-- The bits of `li_vn_mode` that hold the mode. -/
def mode (liVnMode : UInt8) : UInt8 := liVnMode &&& 0x7

/-- The bits of `li_vn_mode` that hold the version. -/
def version (liVnMode : UInt8) : UInt8 := (liVnMode >>> 3) &&& 0x7

/-- `create_reply_packet`, at the value of its `get_ntp_time_of_day`. The originate timestamp is a
straight copy, the other two are converted. -/
def createReplyPacket (host : ByteOrder) (cReq : SntpRequest) (transmitTsNtp : NtpTime) : NtpPacket :=
  { NtpPacket.zero with
    liVnMode := (version cReq.pkt.liVnMode <<< 3) ||| 4
    stratum := 2
    poll := cReq.pkt.poll
    precision := Int8.ofInt (-(Nat.log2 32))
    originateTimestamp := cReq.pkt.transmitTimestamp
    receiveTimestamp := cReq.timeOfRequest.hton host
    transmitTimestamp := transmitTsNtp.hton host }

/-- `check_packet`: zero for a client packet of version 1 to 4. -/
def checkPacket (cReq : SntpRequest) : ℤ :=
  if mode cReq.pkt.liVnMode ≠ 3 then 1
  else if version cReq.pkt.liVnMode < 1 ∨ version cReq.pkt.liVnMode > 4 then 1
  else 0

/-- What the server loop keeps between iterations: `client_req`, with the bytes from its packet
on, and `request_t_unix`. -/
structure ServerState where
  client : SockaddrIn
  memory : Memory
  requestTUnix : Timeval

/-- The offset of `time_of_request` from the packet in `struct sntp_request`. -/
def timeOfRequestOffset : ℕ := 48

/-- The bytes of `struct sntp_request` from its packet on. -/
def requestRoom : ℕ := 56

/-- `client_req` as the functions that take it see it. -/
def ServerState.clientReq (host : ByteOrder) (state : ServerState) : SntpRequest where
  client := state.client
  pkt := .load host state.memory 0
  timeOfRequest := .ofBytes host (state.memory.read timeOfRequestOffset 8)

/-- What one iteration of the loop receives: a failure, or a datagram with the clock readings at
its arrival and at the creation of its reply. -/
inductive ServerInput where
  | failure
  | datagram (datagram : Datagram) (arrival transmit : Timeval)
deriving DecidableEq, Repr

/-- A packet passed to `send_SNTP_packet`, with its destination. -/
abbrev Sent := SockaddrIn × NtpPacket

/-- One iteration of `while(1)`. -/
def serverIteration (host : ByteOrder) (state : ServerState) :
    ServerInput → Option (ServerState × Option Sent)
  | .failure =>
    let received := recieveSntpPacket state.memory 0 state.client state.requestTUnix none
    some ({ state with memory := received.memory }, none)
  | .datagram datagram arrival transmit =>
    let received := recieveSntpPacket state.memory 0 state.client state.requestTUnix
      (some (datagram, arrival))
    if requestRoom < datagram.stored.length then none
    else
      let timeOfRequest := convertUnixTimeIntoNtpTime received.destTime
      let state : ServerState :=
        { client := received.addr
          memory := received.memory.write timeOfRequestOffset (timeOfRequest.store host)
          requestTUnix := received.destTime }
      let clientReq := state.clientReq host
      if checkPacket clientReq ≠ 0 then some (state, none)
      else some (state, some (clientReq.client,
        createReplyPacket host clientReq (getNtpTimeOfDay transmit)))

/-- The packets sent over a finite sequence of receive events, in order. -/
def serverLoop (host : ByteOrder) (state : ServerState) : List ServerInput → Option (List Sent)
  | [] => some []
  | input :: rest => do
    let (state, sent) ← serverIteration host state input
    let later ← serverLoop host state rest
    return sent.toList ++ later

end Sntp

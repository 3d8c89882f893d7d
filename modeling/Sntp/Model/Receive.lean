import Sntp.Model.Address
import Sntp.Model.Packet

/-! # Receiving a datagram into memory

`recieve_SNTP_packet` clears the packet it is given and lets `recvfrom` store up to
`MAXBUFLEN - 1` bytes from its address on. Memory is explicit, so what lies behind the packet is
part of the model; the outcome of `recvfrom` and the following clock reading are its inputs.
-/

namespace Sntp

open Machine

def maxBufLen : ℕ := 200

/-- A UDP datagram and the address it came from. -/
structure Datagram where
  source : SockaddrIn
  bytes : List UInt8
deriving DecidableEq, Repr

/-- The bytes of a datagram that `recvfrom` stores. -/
def Datagram.stored (datagram : Datagram) : List UInt8 := datagram.bytes.take (maxBufLen - 1)

/-- The return code of `recieve_SNTP_packet` and what its pointers point to afterwards. -/
structure Received where
  code : ℤ
  memory : Memory
  addr : SockaddrIn
  destTime : Timeval

/-- The receive into the packet at address `pkt`. The answer is absent when `recvfrom` fails, and
otherwise is the datagram with the clock reading after it. -/
def recieveSntpPacket (memory : Memory) (pkt : ℕ) (addr : SockaddrIn) (destTime : Timeval)
    (answer : Option (Datagram × Timeval)) : Received :=
  let cleared := memory.fill pkt 0 sizeofNtpPacket
  match answer with
  | none => { code := 1, memory := cleared, addr := addr, destTime := destTime }
  | some (datagram, now) =>
    { code := 0
      memory := cleared.write pkt datagram.stored
      addr := datagram.source
      destTime := now }

/-- The packet fields of a datagram; bytes it does not have are zero. -/
def Datagram.packet (host : ByteOrder) (datagram : Datagram) : NtpPacket :=
  .ofBytes host ((List.range sizeofNtpPacket).map fun offset => datagram.bytes.getD offset 0)

/-- The cleared and overwritten packet depends on the datagram alone. -/
theorem read_recieve (memory : Memory) (pkt : ℕ) (addr : SockaddrIn) (destTime now : Timeval)
    (datagram : Datagram) :
    (recieveSntpPacket memory pkt addr destTime (some (datagram, now))).memory.read pkt sizeofNtpPacket =
      (List.range sizeofNtpPacket).map fun offset => datagram.bytes.getD offset 0 := by
  rw [recieveSntpPacket, Memory.read_write_fill]
  apply List.map_congr_left
  intro offset member
  have bound : offset < maxBufLen - 1 := by
    have := List.mem_range.mp member
    simp only [sizeofNtpPacket, maxBufLen] at *
    omega
  rw [Datagram.stored, List.getD_eq_getElem?_getD, List.getElem?_take_of_lt bound,
    List.getD_eq_getElem?_getD]

@[simp] theorem load_recieve (host : ByteOrder) (memory : Memory) (pkt : ℕ) (addr : SockaddrIn)
    (destTime now : Timeval) (datagram : Datagram) :
    NtpPacket.load host
      (recieveSntpPacket memory pkt addr destTime (some (datagram, now))).memory pkt =
        datagram.packet host := by
  rw [NtpPacket.load, read_recieve, Datagram.packet]

/-- A datagram of a whole packet arrives as the packet its bytes hold. -/
theorem Datagram.packet_of_length (host : ByteOrder) {datagram : Datagram}
    (whole : datagram.bytes.length = sizeofNtpPacket) :
    datagram.packet host = .ofBytes host datagram.bytes := by
  have padded : (List.range sizeofNtpPacket).map (fun offset => datagram.bytes.getD offset 0) =
      datagram.bytes := by
    apply List.ext_getElem
    · simp [whole]
    · intro index leftBound rightBound
      simp [rightBound]
  rw [Datagram.packet, padded]

/-- The datagram that carries a packet in host memory. -/
def NtpPacket.datagram (host : ByteOrder) (source : SockaddrIn) (pkt : NtpPacket) : Datagram :=
  ⟨source, pkt.store host⟩

/-- The packet a reader of any byte order finds in a datagram another host filled. -/
theorem NtpPacket.packet_datagram (reader writer : ByteOrder) (source : SockaddrIn)
    (pkt : NtpPacket) :
    (pkt.datagram writer source).packet reader = .ofBytes reader (pkt.store writer) :=
  Datagram.packet_of_length reader (pkt.length_store writer)

end Sntp

import Sntp.Machine.Memory
import Sntp.Model.NetworkOrder
import Sntp.Model.Time

/-! # The NTP packet as a structure and as 48 bytes

`struct ntp_packet` has no padding: four single bytes, three words, then four timestamps of two
words each. Its fields hold raw host-memory words; no byte-order conversion happens between the
structure and its bytes.
-/

namespace Sntp

open Machine

namespace NtpTime

/-- The eight bytes of a timestamp in host memory. -/
def store (host : ByteOrder) (t : NtpTime) : List UInt8 :=
  storeWord host t.second ++ storeWord host t.fraction

/-- The timestamp that eight bytes of host memory hold. -/
def ofBytes (host : ByteOrder) (bytes : List UInt8) : NtpTime where
  second := loadWord host (bytes.take 4)
  fraction := loadWord host (bytes.drop 4)

@[simp] theorem length_store (host : ByteOrder) (t : NtpTime) : (t.store host).length = 8 := by
  simp [store]

@[simp] theorem ofBytes_store (host : ByteOrder) (t : NtpTime) : ofBytes host (t.store host) = t := by
  simp [ofBytes, store]

theorem store_ofBytes (host : ByteOrder) {bytes : List UInt8} (length : bytes.length = 8) :
    (ofBytes host bytes).store host = bytes := by
  rw [store, ofBytes, storeWord_loadWord host (by simp [length]),
    storeWord_loadWord host (by simp [length]), List.take_append_drop]

/-- Both words converted by `htonl`. -/
def hton (host : ByteOrder) (t : NtpTime) : NtpTime := ⟨htonl host t.second, htonl host t.fraction⟩

/-- Both words converted by `ntohl`. -/
def ntoh (host : ByteOrder) (t : NtpTime) : NtpTime := ⟨ntohl host t.second, ntohl host t.fraction⟩

@[simp] theorem ntoh_hton (host : ByteOrder) (t : NtpTime) : (t.hton host).ntoh host = t := by
  simp [hton, ntoh]

theorem hton_injective (host : ByteOrder) : Function.Injective (hton host) :=
  Function.LeftInverse.injective (ntoh_hton host)

/-- The memory image of a converted timestamp is the same on every host. -/
@[simp] theorem store_hton (host : ByteOrder) (t : NtpTime) :
    (t.hton host).store host = t.store .big := by
  simp [hton, store]

end NtpTime

/-- `struct ntp_packet`. -/
structure NtpPacket where
  liVnMode : UInt8
  stratum : UInt8
  poll : UInt8
  precision : Int8
  rootDelay : Int32
  rootDispersion : UInt32
  referenceIdentifier : UInt32
  referenceTimestamp : NtpTime
  originateTimestamp : NtpTime
  receiveTimestamp : NtpTime
  transmitTimestamp : NtpTime
deriving DecidableEq, Repr

/-- `sizeof(struct ntp_packet)`. -/
def sizeofNtpPacket : ℕ := 48

namespace NtpPacket

/-- All fields after `memset(pkt, 0, sizeof *pkt)`. -/
def zero : NtpPacket where
  liVnMode := 0
  stratum := 0
  poll := 0
  precision := 0
  rootDelay := 0
  rootDispersion := 0
  referenceIdentifier := 0
  referenceTimestamp := ⟨0, 0⟩
  originateTimestamp := ⟨0, 0⟩
  receiveTimestamp := ⟨0, 0⟩
  transmitTimestamp := ⟨0, 0⟩

/-- The bytes of the structure in host memory. -/
def store (host : ByteOrder) (pkt : NtpPacket) : List UInt8 :=
  [pkt.liVnMode, pkt.stratum, pkt.poll, pkt.precision.toUInt8] ++
    storeWord host pkt.rootDelay.toUInt32 ++ storeWord host pkt.rootDispersion ++
    storeWord host pkt.referenceIdentifier ++ pkt.referenceTimestamp.store host ++
    pkt.originateTimestamp.store host ++ pkt.receiveTimestamp.store host ++
    pkt.transmitTimestamp.store host

/-- The structure that host memory holds in the bytes from offset 0 on. -/
def ofBytes (host : ByteOrder) (bytes : List UInt8) : NtpPacket where
  liVnMode := bytes.getD 0 0
  stratum := bytes.getD 1 0
  poll := bytes.getD 2 0
  precision := (bytes.getD 3 0).toInt8
  rootDelay := (loadWord host ((bytes.drop 4).take 4)).toInt32
  rootDispersion := loadWord host ((bytes.drop 8).take 4)
  referenceIdentifier := loadWord host ((bytes.drop 12).take 4)
  referenceTimestamp := .ofBytes host ((bytes.drop 16).take 8)
  originateTimestamp := .ofBytes host ((bytes.drop 24).take 8)
  receiveTimestamp := .ofBytes host ((bytes.drop 32).take 8)
  transmitTimestamp := .ofBytes host ((bytes.drop 40).take 8)

/-- The structure at an address of host memory. -/
def load (host : ByteOrder) (memory : Memory) (address : ℕ) : NtpPacket :=
  .ofBytes host (memory.read address sizeofNtpPacket)

@[simp] theorem length_store (host : ByteOrder) (pkt : NtpPacket) :
    (pkt.store host).length = sizeofNtpPacket := by
  simp [store, sizeofNtpPacket]

/-- The memory image of a structure, loaded on a host of any byte order: single bytes agree and
every word keeps its bytes. -/
theorem ofBytes_store_of_hosts (reader writer : ByteOrder) (pkt : NtpPacket) :
    ofBytes reader (pkt.store writer) =
      { liVnMode := pkt.liVnMode
        stratum := pkt.stratum
        poll := pkt.poll
        precision := pkt.precision
        rootDelay := (loadWord reader (storeWord writer pkt.rootDelay.toUInt32)).toInt32
        rootDispersion := loadWord reader (storeWord writer pkt.rootDispersion)
        referenceIdentifier := loadWord reader (storeWord writer pkt.referenceIdentifier)
        referenceTimestamp := .ofBytes reader (pkt.referenceTimestamp.store writer)
        originateTimestamp := .ofBytes reader (pkt.originateTimestamp.store writer)
        receiveTimestamp := .ofBytes reader (pkt.receiveTimestamp.store writer)
        transmitTimestamp := .ofBytes reader (pkt.transmitTimestamp.store writer) } := by
  simp [ofBytes, store, List.drop_append, List.drop_eq_nil_of_le, List.take_of_length_le]

/-- Storing a structure and loading it back on the same host restores it. -/
@[simp] theorem ofBytes_store (host : ByteOrder) (pkt : NtpPacket) :
    ofBytes host (pkt.store host) = pkt := by
  simp [ofBytes_store_of_hosts]

end NtpPacket

end Sntp

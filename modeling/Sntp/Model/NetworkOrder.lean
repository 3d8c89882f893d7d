import Sntp.Machine.ByteOrder
import Mathlib.Data.UInt

/-! # 32-bit words on a host of either byte order

`htonl` yields the word whose bytes in host memory are the big-endian bytes of its argument, and
`ntohl` reads such a word back. Hence the memory image of an `htonl` result does not depend on
the host, and a word that any host loads from a network-order image is one `ntohl` away from it.
-/

namespace Sntp

open Machine

/-- The four bytes of a `uint32_t` in host memory. -/
def storeWord (host : ByteOrder) (word : UInt32) : List UInt8 := host.store 4 word.toNat

/-- The `uint32_t` that four bytes of host memory hold. -/
def loadWord (host : ByteOrder) (bytes : List UInt8) : UInt32 := UInt32.ofNat (host.load bytes)

def htonl (host : ByteOrder) (hostlong : UInt32) : UInt32 :=
  loadWord host (storeWord .big hostlong)

def ntohl (host : ByteOrder) (netlong : UInt32) : UInt32 :=
  loadWord .big (storeWord host netlong)

/-- `htons`, the 16-bit conversion. -/
def htons (host : ByteOrder) (hostshort : UInt16) : UInt16 :=
  UInt16.ofNat (host.load (ByteOrder.big.store 2 hostshort.toNat))

variable (host : ByteOrder) (word : UInt32)

@[simp] theorem length_storeWord : (storeWord host word).length = 4 := by
  simp [storeWord]

@[simp] theorem loadWord_storeWord : loadWord host (storeWord host word) = word := by
  rw [loadWord, storeWord, ByteOrder.load_store_of_lt _ word.toNat_lt, UInt32.ofNat_toNat]

theorem storeWord_loadWord {bytes : List UInt8} (length : bytes.length = 4) :
    storeWord host (loadWord host bytes) = bytes := by
  have bound : host.load bytes < 2 ^ 32 := by simpa [length] using host.load_lt bytes
  rw [storeWord, loadWord, UInt32.toNat_ofNat', Nat.mod_eq_of_lt bound, ← length, host.store_load]

/-- The memory image of a converted word is the same on every host. -/
@[simp] theorem storeWord_htonl : storeWord host (htonl host word) = storeWord .big word :=
  storeWord_loadWord host (length_storeWord .big word)

@[simp] theorem ntohl_htonl : ntohl host (htonl host word) = word := by
  rw [ntohl, storeWord_htonl, loadWord_storeWord]

end Sntp

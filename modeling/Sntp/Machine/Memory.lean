import Mathlib.Data.List.GetD
import Mathlib.Data.Nat.Notation

/-! # Byte memory and interval writes

Memory is a total map from addresses to bytes. A write replaces a consecutive interval and frames
everything outside it; a read returns a consecutive interval. Interval reads of interval writes
are determined by the overlap alone, so nothing here mentions layouts or word sizes.
-/

namespace Machine

/-- The bytes of an address space. -/
abbrev Memory := ℕ → UInt8

namespace Memory

variable (memory : Memory)

/-- Overwrite the interval that starts at `address`. -/
def write (address : ℕ) (bytes : List UInt8) : Memory := fun query =>
  if query < address then memory query else bytes.getD (query - address) (memory query)

/-- Set `length` bytes from `address` on to one value. -/
def fill (address : ℕ) (value : UInt8) (length : ℕ) : Memory :=
  memory.write address (List.replicate length value)

/-- The `length` bytes from `address` on. -/
def read (address length : ℕ) : List UInt8 :=
  (List.range length).map fun offset => memory (address + offset)

@[simp] theorem length_read (address length : ℕ) : (memory.read address length).length = length := by
  simp [read]

/-- A write frames every byte outside its interval. -/
theorem write_of_outside {address query : ℕ} {bytes : List UInt8}
    (outside : query < address ∨ address + bytes.length ≤ query) :
    memory.write address bytes query = memory query := by
  simp only [write]
  split
  · rfl
  · next above =>
    have beyond : bytes.length ≤ query - address := by omega
    rw [List.getD_eq_default _ _ beyond]

/-- At and above its address a write shows its bytes, then the old memory. -/
theorem write_add (address offset : ℕ) (bytes : List UInt8) :
    memory.write address bytes (address + offset) = bytes.getD offset (memory (address + offset)) := by
  rw [write, if_neg (by omega), Nat.add_sub_cancel_left]

theorem fill_of_outside {address query length : ℕ} {value : UInt8}
    (outside : query < address ∨ address + length ≤ query) :
    memory.fill address value length query = memory query :=
  memory.write_of_outside (by simpa using outside)

/-- A read inside a written interval sees a slice of the written bytes. -/
theorem read_write (address : ℕ) {offset length : ℕ} {bytes : List UInt8}
    (inside : offset + length ≤ bytes.length) :
    (memory.write address bytes).read (address + offset) length =
      (bytes.drop offset).take length := by
  apply List.ext_getElem
  · simp; omega
  · intro index leftBound rightBound
    rw [length_read] at leftBound
    have bound : offset + index < bytes.length := by omega
    have written := memory.write_add address (offset + index) bytes
    rw [List.getD_eq_getElem _ _ bound, ← Nat.add_assoc] at written
    simpa [read] using written

/-- A read disjoint from a written interval sees the old memory. -/
theorem read_write_of_disjoint {address query length : ℕ} {bytes : List UInt8}
    (disjoint : query + length ≤ address ∨ address + bytes.length ≤ query) :
    (memory.write address bytes).read query length = memory.read query length := by
  apply List.map_congr_left
  intro offset member
  have bound := List.mem_range.mp member
  exact memory.write_of_outside (by omega)

/-- A fully written interval reads back as the written bytes. -/
theorem read_write_self (address : ℕ) (bytes : List UInt8) :
    (memory.write address bytes).read address bytes.length = bytes := by
  have inside : 0 + bytes.length ≤ bytes.length := by omega
  simpa using memory.read_write address inside

/-- Writing `bytes` over a zero-filled interval reads back as `bytes` padded with zeros, cut to
the interval. -/
theorem read_write_fill (address length : ℕ) (bytes : List UInt8) :
    ((memory.fill address 0 length).write address bytes).read address length =
      (List.range length).map fun offset => bytes.getD offset 0 := by
  apply List.map_congr_left
  intro offset member
  have bound := List.mem_range.mp member
  have cleared : memory.fill address 0 length (address + offset) = 0 := by
    rw [fill, write_add, List.getD_eq_getElem _ _ (by simpa using bound), List.getElem_replicate]
  rw [write_add, cleared]

end Memory

end Machine

import Mathlib.Data.Nat.Digits.Lemmas

/-! # Words in memory under either byte order

A word of `width` bytes occupies consecutive addresses, least significant byte first on a
little-endian machine and last on a big-endian one. Storing and loading under one order are
inverse; network order is the big-endian layout, and the host-to-network conversion is the word
whose host layout is that one. Words that cross between machines only as network-order layouts
keep their value whatever the two byte orders are.
-/

namespace Machine

inductive ByteOrder where
  | little
  | big
deriving DecidableEq, Repr

namespace ByteOrder

/-- The low `width` base-256 digits, least significant first. -/
def digits (width value : ℕ) : List UInt8 :=
  (List.range width).map fun i => UInt8.ofNat (value / 256 ^ i)

/-- Arrange least-significant-first digits by increasing address, or back. -/
def arrange : ByteOrder → List UInt8 → List UInt8
  | little, bytes => bytes
  | big, bytes => bytes.reverse

/-- The bytes of a word by increasing address. -/
def store (order : ByteOrder) (width value : ℕ) : List UInt8 := order.arrange (digits width value)

/-- The word held by bytes at increasing addresses. -/
def load (order : ByteOrder) (bytes : List UInt8) : ℕ :=
  Nat.ofDigits 256 ((order.arrange bytes).map UInt8.toNat)

@[simp] theorem arrange_arrange (order : ByteOrder) (bytes : List UInt8) :
    order.arrange (order.arrange bytes) = bytes := by
  cases order <;> simp [arrange]

@[simp] theorem length_arrange (order : ByteOrder) (bytes : List UInt8) :
    (order.arrange bytes).length = bytes.length := by
  cases order <;> simp [arrange]

@[simp] theorem length_digits (width value : ℕ) : (digits width value).length = width := by
  simp [digits]

@[simp] theorem length_store (order : ByteOrder) (width value : ℕ) :
    (order.store width value).length = width := by
  simp [store]

private theorem ofDigits_digits (width value : ℕ) :
    Nat.ofDigits 256 ((digits width value).map UInt8.toNat) = value % 256 ^ width := by
  induction width with
  | zero => simp [digits, Nat.mod_one]
  | succ width ih =>
    rw [digits, List.range_succ, List.map_append, List.map_append, Nat.ofDigits_append,
      Nat.mod_pow_succ, ← ih]
    simp [digits]

/-- A stored word is loaded back modulo its width. -/
theorem load_store (order : ByteOrder) (width value : ℕ) :
    order.load (order.store width value) = value % 256 ^ width := by
  rw [load, store, arrange_arrange, ofDigits_digits]

theorem load_store_of_lt (order : ByteOrder) {width value : ℕ} (bound : value < 256 ^ width) :
    order.load (order.store width value) = value := by
  rw [load_store, Nat.mod_eq_of_lt bound]

theorem load_lt (order : ByteOrder) (bytes : List UInt8) :
    order.load bytes < 256 ^ bytes.length := by
  have bound := Nat.ofDigits_lt_base_pow_length (b := 256)
    (l := (order.arrange bytes).map UInt8.toNat) (by omega) ?_
  · simpa [load] using bound
  · intro digit member
    obtain ⟨byte, _, rfl⟩ := List.mem_map.mp member
    exact byte.toNat_lt

private theorem digits_ofDigits (bytes : List UInt8) :
    digits bytes.length (Nat.ofDigits 256 (bytes.map UInt8.toNat)) = bytes := by
  induction bytes with
  | nil => rfl
  | cons byte rest ih =>
    have small := byte.toNat_lt
    simp only [digits, List.length_cons, List.range_succ_eq_map, List.map_cons, List.map_map,
      Nat.ofDigits_cons, pow_zero, Nat.div_one] at ih ⊢
    congr 1
    · apply UInt8.toNat_inj.mp
      simp
    · nth_rewrite 3 [← ih]
      apply List.map_congr_left
      intro i _
      rw [Function.comp_apply, Nat.succ_eq_add_one, pow_succ', ← Nat.div_div_eq_div_mul]
      congr 2
      rw [Nat.add_mul_div_left _ _ (by omega), Nat.div_eq_of_lt small, Nat.zero_add]

/-- Storing a loaded word restores the very bytes it came from. -/
theorem store_load (order : ByteOrder) (bytes : List UInt8) :
    order.store bytes.length (order.load bytes) = bytes := by
  have restored := digits_ofDigits (order.arrange bytes)
  rw [length_arrange] at restored
  rw [store, load, restored, arrange_arrange]

end ByteOrder

end Machine

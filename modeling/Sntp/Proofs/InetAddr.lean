import Sntp.Model.InetAddr

/-! # Two readers of address texts

`inet_addr` reads every text that `inet_pton` accepts, and as the same address: it follows the scan of
the octets, where a leading zero is an octet of its own and so does not make a number octal.
-/

namespace Sntp

private theorem digitIn_ten (c : Char) : digitIn 10 c = digitValue c := by
  rw [digitIn, digitValue]
  split
  · next decimal =>
    have bound : c.toNat - '0'.toNat < 10 := by
      have upper : c.toNat ≤ '9'.toNat := decimal.2
      have nine : '9'.toNat = '0'.toNat + 9 := by decide
      omega
    rw [Option.filter_some, if_pos (decide_eq_true bound)]
  · split
    · exact Option.filter_some_neg (by simp)
    · split
      · exact Option.filter_some_neg (by simp)
      · rfl

/-- What is left of a text after an octet: nothing, or a dot and the octets after it. -/
private def Continues (octets all : List ℕ) (octet : ℕ) (rest : Text) : Prop :=
  (rest = [] ∧ all = octets ++ [octet]) ∨
    ∃ later, rest = '.' :: later ∧ scanOctets (octets ++ [octet]) none later = some all

/-- After a zero there are no more digits. -/
private theorem continues_zero {octets all : List ℕ} {text : Text}
    (scanned : scanOctets octets (some 0) text = some all) : Continues octets all 0 text := by
  cases text with
  | nil => exact .inl ⟨rfl, by simpa [scanOctets] using scanned.symm⟩
  | cons c rest =>
    cases digit : digitValue c with
    | some d => simp [scanOctets, digit] at scanned
    | none =>
      simp only [scanOctets, digit] at scanned
      split at scanned
      · next dot => exact .inr ⟨rest, by rw [dot], scanned⟩
      · simp at scanned

/-- The digits of an octet are those of its number. -/
private theorem scanDigits_of_scanOctets {octets all : List ℕ} {text : Text} {n : ℕ} (nonzero : n ≠ 0)
    (small : n ≤ 255) (scanned : scanOctets octets (some n) text = some all) :
    ∃ octet rest, scanDigits 10 n text = (octet, rest) ∧ octet ≤ 255 ∧
      Continues octets all octet rest := by
  induction text generalizing n with
  | nil => exact ⟨n, [], rfl, small, .inl ⟨rfl, by simpa [scanOctets] using scanned.symm⟩⟩
  | cons c rest ih =>
    rw [scanDigits, digitIn_ten]
    obtain ⟨k, rfl⟩ := Nat.exists_eq_succ_of_ne_zero nonzero
    cases digit : digitValue c with
    | some d =>
      simp only [scanOctets, digit] at scanned ⊢
      split at scanned
      · next bound => exact ih (by omega) bound scanned
      · simp at scanned
    | none =>
      simp only [scanOctets, digit] at scanned ⊢
      split at scanned
      · next dot => exact ⟨_, _, rfl, small, .inr ⟨rest, by rw [dot], scanned⟩⟩
      · simp at scanned

private theorem digitValue_ne_zero {c : Char} {digit : ℕ} (value : digitValue c = some digit)
    (other : c ≠ '0') : digit ≠ 0 := by
  rintro rfl
  rw [digitValue] at value
  split at value
  · next decimal =>
    have lower : '0'.toNat ≤ c.toNat := decimal.1
    have same : c.toNat - '0'.toNat = 0 := Option.some.inj value
    exact other (Char.toNat_inj.mp (by omega))
  · simp at value

/-- A text that starts with another digit than zero is read in base ten. -/
private theorem scanNumber_decimal {c : Char} (rest : Text) (other : c ≠ '0') :
    scanNumber (c :: rest) = scanDigits 10 0 (c :: rest) := by
  rw [scanNumber]
  · simp [other]
  · simp [other]
  · simp [other]

/-- An octet is a number that `strtoul` reads to its end. -/
private theorem scanNumber_of_scanOctets {octets all : List ℕ} {text : Text}
    (scanned : scanOctets octets none text = some all) :
    (text.head?.bind (digitIn 10)).isNone = false ∧ ∃ octet rest, scanNumber text = (octet, rest) ∧
      octet ≤ 255 ∧ Continues octets all octet rest := by
  cases text with
  | nil => simp [scanOctets] at scanned
  | cons c rest =>
    cases value : digitValue c with
    | none => simp [scanOctets, value] at scanned
    | some digit =>
      simp only [scanOctets, value] at scanned
      refine ⟨by simp [digitIn_ten, value], ?_⟩
      by_cases zero : c = '0'
      · subst zero
        obtain rfl : 0 = digit := Option.some.inj value
        have continues := continues_zero scanned
        obtain ⟨rfl, -⟩ | ⟨later, rfl, -⟩ := id continues
        · exact ⟨0, [], rfl, by decide, continues⟩
        · exact ⟨0, '.' :: later, rfl, by decide, continues⟩
      · have bound : digit ≤ 255 := by
          rw [digitValue] at value
          split at value
          · next decimal =>
            have upper : c.toNat ≤ '9'.toNat := decimal.2
            have nine : '9'.toNat = '0'.toNat + 9 := by decide
            have same := Option.some.inj value
            omega
          · simp at value
        obtain ⟨octet, after, read, small, continues⟩ :=
          scanDigits_of_scanOctets (digitValue_ne_zero value zero) bound scanned
        refine ⟨octet, after, ?_, small, continues⟩
        rw [scanNumber_decimal rest zero, scanDigits, digitIn_ten, value]
        simpa using read

/-- A scan that ends has found one more octet. -/
private theorem length_lt_of_scanOctets {octets all : List ℕ} {current : Option ℕ} {text : Text}
    (scanned : scanOctets octets current text = some all) : octets.length < all.length := by
  fun_induction scanOctets octets current text with
  | case1 octets current =>
    obtain ⟨octet, -, rfl⟩ := Option.map_eq_some_iff.mp scanned
    simp
  | case2 _ _ _ _ _ ih | case4 _ _ _ _ _ _ _ _ ih => exact ih scanned
  | case6 octets _ _ _ ih =>
    exact (by simp : octets.length < (octets ++ [_]).length).trans (ih scanned)
  | case3 | case5 | case7 | case8 => simp at scanned

/-- The octets of an accepted text are the numbers that `inet_addr` reads. -/
private theorem scanAddr_of_scanOctets {more : ℕ} {octets all : List ℕ} {text : Text}
    (scanned : scanOctets octets none text = some all) (few : all.length ≤ octets.length + more + 1)
    (small : ∀ octet ∈ octets, octet ≤ 255) :
    scanAddr more octets text = some all ∧ ∀ octet ∈ all, octet ≤ 255 := by
  induction more generalizing octets text with
  | zero =>
    obtain ⟨digit, octet, rest, read, bound, continues⟩ := scanNumber_of_scanOctets scanned
    have reads : ¬ 2 ^ 32 ≤ octet := by omega
    rcases continues with ⟨rfl, rfl⟩ | ⟨later, rfl, rescan⟩
    · rw [scanAddr, if_neg (Bool.eq_false_iff.mp digit), read]
      exact ⟨if_neg reads, by simpa [or_imp, forall_and] using ⟨small, bound⟩⟩
    · have longer := length_lt_of_scanOctets rescan
      rw [List.length_append, List.length_singleton] at longer
      omega
  | succ more ih =>
    obtain ⟨digit, octet, rest, read, bound, continues⟩ := scanNumber_of_scanOctets scanned
    have reads : ¬ 2 ^ 32 ≤ octet := by omega
    rcases continues with ⟨rfl, rfl⟩ | ⟨later, rfl, rescan⟩
    · rw [scanAddr, if_neg (Bool.eq_false_iff.mp digit), read]
      exact ⟨if_neg reads, by simpa [or_imp, forall_and] using ⟨small, bound⟩⟩
    · have next := ih rescan (by rw [List.length_append, List.length_singleton]; omega)
        (by simpa [or_imp, forall_and] using ⟨small, bound⟩)
      rw [scanAddr, if_neg (Bool.eq_false_iff.mp digit), read]
      simp only [if_neg reads, if_neg (not_lt.mpr bound)]
      exact next

/-- `inet_addr` agrees with `inet_pton` where that accepts. -/
theorem inetAddr_of_inetPton {text : Text} {a : InAddr} (accepted : inetPton text = some a) :
    inetAddr text = a := by
  rw [inetPton] at accepted
  split at accepted
  · next a b c d scanned =>
    have few : [a, b, c, d].length ≤ [].length + 3 + 1 := le_rfl
    obtain ⟨read, small⟩ := scanAddr_of_scanOctets scanned few (by simp)
    simp only [List.mem_cons, List.not_mem_nil, or_false, forall_eq_or_imp, forall_eq] at small
    obtain ⟨first, second, third, fourth⟩ := small
    have value : inetAddr text = .ofValue (a * 2 ^ 24 + b * 2 ^ 16 + c * 2 ^ 8 + d) := by
      rw [inetAddr, read]
      exact if_pos (by omega)
    rw [value, InAddr.ofValue, ← Option.some.inj accepted, InAddr.mk.injEq]
    simp only [← UInt8.toNat_inj, UInt8.toNat_ofNat']
    omega
  · simp at accepted

end Sntp

import Mathlib.Data.Nat.Notation

/-! # IPv4 addresses and their dotted-decimal text

`inet_ntoa` prints four octets in decimal; `inet_pton` scans such a text, one character at a time,
and rejects empty octets, leading zeros, octets above 255 and any other number of octets. Every
printed address scans back, so no two addresses print alike.
-/

namespace Sntp

/-- The characters of a C string before its terminator. -/
abbrev Text := List Char

/-- `struct in_addr`, as its four octets in network order. -/
structure InAddr where
  first : UInt8
  second : UInt8
  third : UInt8
  fourth : UInt8
deriving DecidableEq, Repr, Inhabited

/-- `struct sockaddr_in`; its family is always `AF_INET`. -/
structure SockaddrIn where
  sinPort : UInt16
  sinAddr : InAddr
deriving DecidableEq, Repr, Inhabited

/-- An octet in decimal without leading zeros. -/
def octetText (octet : UInt8) : Text :=
  let n := octet.toNat
  if n < 10 then [n.digitChar]
  else if n < 100 then [(n / 10).digitChar, (n % 10).digitChar]
  else [(n / 100).digitChar, (n / 10 % 10).digitChar, (n % 10).digitChar]

/-- The text `inet_ntoa` formats. -/
def dotted (a : InAddr) : Text :=
  octetText a.first ++ '.' :: (octetText a.second ++ '.' ::
    (octetText a.third ++ '.' :: octetText a.fourth))

/-- The value of a decimal digit. -/
def digitValue (c : Char) : Option ℕ :=
  if '0' ≤ c ∧ c ≤ '9' then some (c.toNat - '0'.toNat) else none

/-- The scan of `inet_pton`: `octets` are complete, `current` is the octet being read, absent
until its first digit. -/
def scanOctets (octets : List ℕ) (current : Option ℕ) : Text → Option (List ℕ)
  | [] => current.map fun n => octets ++ [n]
  | c :: rest =>
    match digitValue c, current with
    | some digit, none => scanOctets octets (some digit) rest
    | some _, some 0 => none
    | some digit, some n =>
      if n * 10 + digit ≤ 255 then scanOctets octets (some (n * 10 + digit)) rest else none
    | none, some n => if c = '.' then scanOctets (octets ++ [n]) none rest else none
    | none, none => none

/-- The address a text denotes under `inet_pton(AF_INET, ..)`, if it is accepted. -/
def inetPton (text : Text) : Option InAddr :=
  match scanOctets [] none text with
  | some [a, b, c, d] => some ⟨.ofNat a, .ofNat b, .ofNat c, .ofNat d⟩
  | _ => none

private theorem digitValue_digitChar {n : ℕ} (bound : n < 10) : digitValue n.digitChar = some n := by
  have all : ∀ k : Fin 10, digitValue k.val.digitChar = some k.val := by decide
  exact all ⟨n, bound⟩

private theorem scanOctets_digit {d : ℕ} (digit : d < 10) (octets : List ℕ) (rest : Text) :
    scanOctets octets none (d.digitChar :: rest) = scanOctets octets (some d) rest := by
  simp only [scanOctets, digitValue_digitChar digit]

private theorem scanOctets_next_digit {n d : ℕ} (nonzero : n ≠ 0) (digit : d < 10)
    (small : n * 10 + d ≤ 255) (octets : List ℕ) (rest : Text) :
    scanOctets octets (some n) (d.digitChar :: rest) = scanOctets octets (some (n * 10 + d)) rest := by
  obtain ⟨k, rfl⟩ := Nat.exists_eq_succ_of_ne_zero nonzero
  simp only [scanOctets, digitValue_digitChar digit]
  rw [if_pos small]

private theorem scanOctets_dot (n : ℕ) (octets : List ℕ) (rest : Text) :
    scanOctets octets (some n) ('.' :: rest) = scanOctets (octets ++ [n]) none rest := by
  have dot : digitValue '.' = none := by decide
  simp only [scanOctets, dot, ↓reduceIte]

/-- Scanning a printed octet leaves its value as the octet being read. -/
private theorem scanOctets_octetText (octets : List ℕ) (octet : UInt8) (rest : Text) :
    scanOctets octets none (octetText octet ++ rest) = scanOctets octets (some octet.toNat) rest := by
  have bound := octet.toNat_lt
  have tens : octet.toNat / 10 * 10 + octet.toNat % 10 = octet.toNat := by omega
  simp only [octetText]
  split
  · next one => exact scanOctets_digit one octets rest
  split
  · next many two =>
    rw [List.cons_append, scanOctets_digit (by omega), List.cons_append,
      scanOctets_next_digit (by omega) (by omega) (by omega), tens, List.nil_append]
  · next many most =>
    have hundreds : octet.toNat / 100 * 10 + octet.toNat / 10 % 10 = octet.toNat / 10 := by omega
    rw [List.cons_append, scanOctets_digit (by omega), List.cons_append,
      scanOctets_next_digit (by omega) (by omega) (by omega), hundreds, List.cons_append,
      scanOctets_next_digit (by omega) (by omega) (by omega), tens, List.nil_append]

/-- A printed address denotes itself. -/
@[simp] theorem inetPton_dotted (a : InAddr) : inetPton (dotted a) = some a := by
  have last := scanOctets_octetText [a.first.toNat, a.second.toNat, a.third.toNat] a.fourth []
  rw [List.append_nil] at last
  simp only [inetPton, dotted, scanOctets_octetText, scanOctets_dot, List.nil_append,
    List.cons_append, last]
  simp [scanOctets]

end Sntp

import Sntp.Model.ConfigFile

/-! # `inet_addr`

The addresses in numbers-and-dots notation: one to four numbers in decimal, octal or hexadecimal, the
last of which fills the octets that are left. A text that is none of these denotes the address of all
ones, which is also a broadcast address.
-/

namespace Sntp

/-- The value of a digit in a base up to sixteen. -/
def digitIn (base : ℕ) (c : Char) : Option ℕ :=
  let value :=
    if '0' ≤ c ∧ c ≤ '9' then some (c.toNat - '0'.toNat)
    else if 'a' ≤ c ∧ c ≤ 'f' then some (c.toNat - 'a'.toNat + 10)
    else if 'A' ≤ c ∧ c ≤ 'F' then some (c.toNat - 'A'.toNat + 10)
    else none
  value.filter (· < base)

/-- The number that the leading digits of a text continue, and the text after them. -/
def scanDigits (base value : ℕ) : Text → ℕ × Text
  | [] => (value, [])
  | c :: rest =>
    match digitIn base c with
    | some digit => scanDigits base (value * base + digit) rest
    | none => (value, c :: rest)

/-- `strtoul` in base zero, at a digit: the prefix tells the base. -/
def scanNumber : Text → ℕ × Text
  | '0' :: 'x' :: c :: rest =>
    if (digitIn 16 c).isSome then scanDigits 16 0 (c :: rest) else (0, 'x' :: c :: rest)
  | '0' :: 'X' :: c :: rest =>
    if (digitIn 16 c).isSome then scanDigits 16 0 (c :: rest) else (0, 'X' :: c :: rest)
  | '0' :: rest => scanDigits 8 0 rest
  | text => scanDigits 10 0 text

/-- The numbers of an address, of which at most `more` follow the next one. White space ends the
address. -/
def scanAddr (more : ℕ) (parts : List ℕ) (text : Text) : Option (List ℕ) :=
  if (text.head?.bind (digitIn 10)).isNone then none
  else
    let (value, rest) := scanNumber text
    if 2 ^ 32 ≤ value then none
    else
      match rest, more with
      | [], _ => some (parts ++ [value])
      | '.' :: rest, more + 1 =>
        if 255 < value then none else scanAddr more (parts ++ [value]) rest
      | '.' :: _, 0 => none
      | c :: _, _ => if isSpace c then some (parts ++ [value]) else none

/-- The address with a 32-bit value. -/
def InAddr.ofValue (value : ℕ) : InAddr :=
  ⟨.ofNat (value / 2 ^ 24), .ofNat (value / 2 ^ 16), .ofNat (value / 2 ^ 8), .ofNat value⟩

/-- `INADDR_NONE`. -/
def inaddrNone : InAddr := ⟨255, 255, 255, 255⟩

/-- `inet_addr`. -/
def inetAddr (text : Text) : InAddr :=
  match scanAddr 3 [] text with
  | some [d] => .ofValue d
  | some [a, d] => if d < 2 ^ 24 then .ofValue (a * 2 ^ 24 + d) else inaddrNone
  | some [a, b, d] =>
    if d < 2 ^ 16 then .ofValue (a * 2 ^ 24 + b * 2 ^ 16 + d) else inaddrNone
  | some [a, b, c, d] =>
    if d < 2 ^ 8 then .ofValue (a * 2 ^ 24 + b * 2 ^ 16 + c * 2 ^ 8 + d) else inaddrNone
  | _ => inaddrNone

end Sntp

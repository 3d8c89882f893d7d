import Mathlib.Algebra.Group.Nat.Defs
import Mathlib.Data.Int.Notation
import Mathlib.Data.Nat.Notation

/-! # Decimal texts

Numbers printed with leading zeros up to a width, and read back from the head of a text. A reader
takes all the digits it finds, so a printed number has to be followed by something else.
-/

namespace Decimal

/-- A natural number with leading zeros. -/
def digits (width number : ℕ) : List Char := (Nat.toDigits 10 number).leftpad width '0'

/-- An integer with leading zeros; a sign counts for the width. -/
def zeroPadded (width : ℕ) : ℤ → List Char
  | .ofNat number => digits width number
  | .negSucc number => '-' :: digits (width - 1) (number + 1)

/-- Read the number at the head of a text, if it has as many digits as the reader accepts. -/
def scan (accepts : ℕ → Bool) (text : List Char) : Option (ℕ × List Char) :=
  if accepts (text.takeWhile Char.isDigit).length then
    some (Nat.ofDigitChars 10 (text.takeWhile Char.isDigit) 0, text.dropWhile Char.isDigit)
  else none

/-- Read an integer, with its sign if it has one. -/
def scanSigned (accepts : ℕ → Bool) : List Char → Option (ℤ × List Char)
  | '-' :: text => (scan accepts text).map fun (number, rest) => (-(number : ℤ), rest)
  | text => (scan accepts text).map fun (number, rest) => ((number : ℤ), rest)

/-- Read a character. -/
def expect (c : Char) : List Char → Option (List Char)
  | [] => none
  | d :: rest => if d = c then some rest else none

/-- Numbers of one width, each behind a separator. -/
def fields (width : ℕ) (numbers : List (Char × ℕ)) : List Char :=
  numbers.flatMap fun (separator, number) => separator :: digits width number

/-- Read numbers of one width behind the given separators. -/
def scanFields (width : ℕ) : List Char → List Char → Option (List ℕ × List Char)
  | [], text => some ([], text)
  | separator :: separators, text => do
    let text ← expect separator text
    let (number, text) ← scan (· == width) text
    let (numbers, text) ← scanFields width separators text
    return (number :: numbers, text)

/-- A text that does not go on with a digit. -/
def Ends (rest : List Char) : Prop := ∀ c, rest.head? = some c → ¬ c.isDigit

variable {width number : ℕ} {accepts : ℕ → Bool} {rest : List Char}

@[simp] theorem zeroPadded_natCast : zeroPadded width (number : ℤ) = digits width number := rfl

theorem ends_cons {c : Char} (other : ¬ c.isDigit) : Ends (c :: rest) := by
  rintro d ⟨⟩
  exact other

@[simp] theorem expect_cons (c : Char) : expect c (c :: rest) = some rest := if_pos rfl

theorem isDigit_of_mem_digits {c : Char} (member : c ∈ digits width number) : c.isDigit := by
  rcases List.mem_append.mp member with zero | digit
  · rw [List.eq_of_mem_replicate zero]
    decide
  · exact Nat.isDigit_of_mem_toDigits (by decide) (by decide) digit

/-- Leading zeros do not change what a number denotes. -/
theorem ofDigitChars_digits : Nat.ofDigitChars 10 (digits width number) 0 = number := by
  rw [digits, List.leftpad, Nat.ofDigitChars_append, Nat.ofDigitChars_replicate_zero, Nat.mul_zero,
    Nat.ofDigitChars_ten_toDigits]

theorem length_digits : (digits width number).length = max width (Nat.toDigits 10 number).length :=
  List.length_leftpad

/-- A number within the width is printed in exactly the width. -/
theorem length_digits_of_lt (positive : 0 < width) (bound : number < 10 ^ width) :
    (digits width number).length = width := by
  have short := (Nat.length_toDigits_le_iff (by decide) positive).mpr bound
  rw [length_digits, Nat.max_eq_left short]

private theorem Ends.takeWhile (ends : Ends rest) : rest.takeWhile Char.isDigit = [] := by
  cases rest with
  | nil => rfl
  | cons c rest => exact List.takeWhile_cons_of_neg (ends c rfl)

private theorem Ends.dropWhile (ends : Ends rest) : rest.dropWhile Char.isDigit = rest := by
  cases rest with
  | nil => rfl
  | cons c rest => exact List.dropWhile_cons_of_neg (ends c rfl)

/-- A printed number is read back. -/
theorem scan_digits (ends : Ends rest) (accepted : accepts (digits width number).length) :
    scan accepts (digits width number ++ rest) = some (number, rest) := by
  have all : ∀ c ∈ digits width number, c.isDigit := fun c => isDigit_of_mem_digits
  have taken : (digits width number ++ rest).takeWhile Char.isDigit = digits width number := by
    rw [List.takeWhile_append_of_pos all, ends.takeWhile, List.append_nil]
  have dropped : (digits width number ++ rest).dropWhile Char.isDigit = rest := by
    rw [List.dropWhile_append_of_pos all, ends.dropWhile]
  rw [scan, taken, dropped, if_pos accepted, ofDigitChars_digits]

/-- A printed number within its width is read back by a reader of that width. -/
theorem scan_digits_of_lt (positive : 0 < width) (bound : number < 10 ^ width) (ends : Ends rest) :
    scan (· == width) (digits width number ++ rest) = some (number, rest) :=
  scan_digits ends (beq_iff_eq.mpr (length_digits_of_lt positive bound))

/-- Printed fields are read back. -/
theorem scanFields_fields (positive : 0 < width) {numbers : List (Char × ℕ)}
    (bounds : ∀ field ∈ numbers, ¬ field.1.isDigit ∧ field.2 < 10 ^ width) (ends : Ends rest) :
    scanFields width (numbers.map Prod.fst) (fields width numbers ++ rest) =
      some (numbers.map Prod.snd, rest) := by
  induction numbers with
  | nil => rfl
  | cons field numbers ih =>
    obtain ⟨⟨-, bound⟩, others⟩ := List.forall_mem_cons.mp bounds
    have next : Ends (fields width numbers ++ rest) := by
      cases numbers with
      | nil => exact ends
      | cons other _ => exact ends_cons (others other (List.mem_cons_self ..)).1
    have text : fields width (field :: numbers) ++ rest =
        field.1 :: (digits width field.2 ++ (fields width numbers ++ rest)) := by
      simp [fields]
    rw [text, List.map_cons, scanFields, expect_cons]
    simp only [Option.bind_eq_bind, Option.bind_some, scan_digits_of_lt positive bound next, ih others]
    rfl

/-- A text without a sign is read as a natural number. -/
private theorem scanSigned_of_unsigned {text : List Char} (unsigned : text.head? ≠ some '-') :
    scanSigned accepts text = (scan accepts text).map fun (number, rest) => ((number : ℤ), rest) := by
  unfold scanSigned
  split
  · exact absurd rfl unsigned
  · rfl

/-- A printed integer is read back. -/
theorem scanSigned_zeroPadded {value : ℤ} (ends : Ends rest) :
    scanSigned (0 < ·) (zeroPadded width value ++ rest) = some (value, rest) := by
  have some_digits (width number : ℕ) : 0 < (digits width number).length := by
    rw [length_digits]
    exact Nat.lt_of_lt_of_le Nat.length_toDigits_pos (Nat.le_max_right ..)
  have read (width number : ℕ) :
      scan (0 < ·) (digits width number ++ rest) = some (number, rest) :=
    scan_digits ends (decide_eq_true (some_digits width number))
  cases value with
  | ofNat number =>
    have unsigned : (digits width number ++ rest).head? ≠ some '-' := by
      obtain ⟨c, others, split⟩ := List.exists_cons_of_length_pos (some_digits width number)
      have digit : c.isDigit := isDigit_of_mem_digits (split ▸ List.mem_cons_self ..)
      rw [split]
      rintro ⟨⟩
      exact absurd digit (by decide)
    rw [zeroPadded, scanSigned_of_unsigned unsigned, read]
    rfl
  | negSucc number =>
    rw [zeroPadded, List.cons_append, scanSigned, read]
    rfl

end Decimal

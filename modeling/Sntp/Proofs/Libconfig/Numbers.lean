import Sntp.Proofs.Libconfig.Tokens

/-! # The numbers that the writer prints

What `printf` prints for an integer is read back by `atoi`, `atoll` and `strtoul`, and what the writer
makes of the text for a float is a float for the scanner.
-/

namespace Libconfig

open Sntp (Text atoi leadingNumber digitValue scanDigits digitIn isSpace)
open Machine Munch Regex

/-- A reader that takes the digits of a base one by one reads a printed number back. -/
private theorem read_toDigits {β : Type} {base : ℕ} (large : 1 < base) (read : ℕ → Text → β) (f : Char → Char)
    (step : ∀ number digit text, digit < base →
      read number (f digit.digitChar :: text) = read (number * base + digit) text)
    (number : ℕ) (text : Text) : read 0 ((Nat.toDigits base number).map f ++ text) = read number text := by
  induction number using Nat.strongRecOn generalizing text with
  | _ number ih =>
    by_cases small : number < base
    · rw [Nat.toDigits_of_lt_base small, List.map_singleton, List.singleton_append, step 0 number text small,
        Nat.zero_mul, Nat.zero_add]
    · have rest : number / base < number := Nat.div_lt_self (by omega) large
      rw [Nat.toDigits_of_base_le large (by omega), List.map_append, List.append_assoc, ih _ rest,
        List.map_singleton, List.singleton_append, step _ _ text (Nat.mod_lt _ (by omega)), Nat.mul_comm,
        Nat.div_add_mod]

section Decimals

variable {number : ℕ} {rest : Text}

theorem leadingNumber_digits : leadingNumber 0 (Decimal.digits 0 number ++ rest) = leadingNumber number rest := by
  have all : ∀ digit : Fin 10, digitValue digit.val.digitChar = some digit.val := by decide
  have same : Decimal.digits 0 number = (Nat.toDigits 10 number).map id := by simp [Decimal.digits, List.leftpad]
  rw [same]
  refine read_toDigits (by decide) leadingNumber id (fun number digit text small => ?_) number rest
  rw [leadingNumber, id, all ⟨digit, small⟩]

theorem leadingNumber_ends (ends : Decimal.Ends rest) : leadingNumber number rest = number := by
  cases rest with
  | nil => rfl
  | cons c rest =>
    have none : digitValue c = none := by
      refine if_neg fun range => ends c rfl ?_
      simpa [Char.isDigit, Char.le_def] using range
    rw [leadingNumber, none]

theorem digits_ne_nil : Decimal.digits 0 number ≠ [] := by
  rw [← List.length_pos_iff, Decimal.length_digits]
  exact Nat.lt_of_lt_of_le Nat.length_toDigits_pos (Nat.le_max_right ..)

/-- The sign that is printed before a negative number. -/
def minusOf (value : ℤ) : Text := if value < 0 then ['-'] else []

theorem isMinus_minusOf (value : ℤ) : IsMinus (minusOf value) := by
  rw [minusOf]
  split
  · exact .inr rfl
  · exact .inl rfl

theorem zeroPadded_eq (value : ℤ) :
    Decimal.zeroPadded 0 value = minusOf value ++ Decimal.digits 0 value.natAbs := by
  cases value with
  | ofNat number => rfl
  | negSucc number => simp [Decimal.zeroPadded, minusOf, Int.negSucc_lt_zero]

/-- `atoi` is `atoll`, narrowed. -/
theorem atoi_eq (text : Text) : atoi text = Sntp.toInt (atoll text) := by
  unfold atoi atoll
  cases text.dropWhile isSpace with
  | nil => rfl
  | cons c digits =>
    by_cases minus : c = '-'
    · subst minus
      rfl
    · by_cases plus : c = '+'
      · subst plus
        rfl
      · simp [minus, plus]

private theorem of_isDigit {c : Char} (digit : c.isDigit) : isSpace c = false ∧ c ≠ '-' ∧ c ≠ '+' := by
  refine ⟨decide_eq_false ?_, ?_, ?_⟩
  · rintro (rfl | ⟨-, high⟩)
    · cases digit
    · simp only [Char.isDigit, Bool.and_eq_true, decide_eq_true_eq] at digit
      exact absurd (Char.le_trans (Char.le_def.mpr digit.1) high) (by decide)
  · rintro rfl
    cases digit
  · rintro rfl
    cases digit

theorem atoll_digits {digits : Text} (some_digits : digits ≠ []) (all : ∀ c ∈ digits, c.isDigit) :
    atoll (digits ++ rest) = min (2 ^ 63 - 1) (leadingNumber 0 (digits ++ rest) : ℤ) := by
  obtain ⟨c, digits, rfl⟩ := List.exists_cons_of_ne_nil some_digits
  obtain ⟨visible, notMinus, notPlus⟩ := of_isDigit (all c List.mem_cons_self)
  unfold atoll
  rw [List.cons_append, List.dropWhile_cons_of_neg (by simp [visible])]
  split
  · next same => exact absurd (List.cons.inj same).1 notMinus
  · next same => exact absurd (List.cons.inj same).1 notPlus
  · rfl

theorem atoll_minus {text : Text} : atoll ('-' :: text) = max (-2 ^ 63) (-leadingNumber 0 text : ℤ) := by
  rw [atoll, List.dropWhile_cons_of_neg (by decide)]
  rfl

theorem atoll_zeroPadded {value : ℤ} (low : -2 ^ 63 ≤ value) (high : value < 2 ^ 63)
    (ends : Decimal.Ends rest) : atoll (Decimal.zeroPadded 0 value ++ rest) = value := by
  have read : leadingNumber 0 (Decimal.digits 0 value.natAbs ++ rest) = value.natAbs :=
    leadingNumber_digits.trans (leadingNumber_ends ends)
  rw [zeroPadded_eq, minusOf]
  split
  · next negative =>
    rw [List.singleton_append, List.cons_append, atoll_minus, read]
    omega
  · next positive =>
    rw [List.nil_append, atoll_digits digits_ne_nil (fun c => Decimal.isDigit_of_mem_digits), read]
    omega

theorem ofInt_atoi_zeroPadded (ival : Int32) : Int32.ofInt (atoi (Decimal.zeroPadded 0 ival.toInt)) = ival := by
  have low := ival.le_toInt
  have high := ival.toInt_lt
  have read := @atoll_zeroPadded [] ival.toInt (by omega) (by omega) nofun
  rw [List.append_nil] at read
  rw [atoi_eq, read, Sntp.toInt, Int.bmod_eq_of_le (by omega) (by omega), Int32.ofInt_toInt]

theorem ofInt_atoll_zeroPadded (llval : Int64) :
    Int64.ofInt (atoll (Decimal.zeroPadded 0 llval.toInt ++ ['L'])) = llval := by
  rw [atoll_zeroPadded llval.le_toInt llval.toInt_lt (Decimal.ends_cons (by decide)), Int64.ofInt_toInt]

end Decimals

section Hexadecimals

variable {number : ℕ} {rest : Text}

theorem hexText_ne_nil : hexText number ≠ [] := by
  simp [hexText]

private theorem digitIn_toUpper {digit : ℕ} (small : digit < 16) :
    digitIn 16 digit.digitChar.toUpper = some digit := by
  have all : ∀ digit : Fin 16, digitIn 16 digit.val.digitChar.toUpper = some digit.val := by decide
  exact all ⟨digit, small⟩

theorem isSome_of_mem_hexText {c : Char} (member : c ∈ hexText number) : (digitIn 16 c).isSome := by
  have one (digit : ℕ) (small : digit < 16) (same : c ∈ [digit.digitChar].map Char.toUpper) :
      (digitIn 16 c).isSome := by
    rw [List.mem_singleton.mp same, digitIn_toUpper small]
    rfl
  induction number using Nat.strongRecOn with
  | _ number ih =>
    rw [hexText] at member
    by_cases small : number < 16
    · rw [Nat.toDigits_of_lt_base small] at member
      exact one number small member
    · rw [Nat.toDigits_of_base_le (by decide) (by omega), List.map_append, List.mem_append] at member
      exact member.elim (ih _ (by omega)) (one _ (Nat.mod_lt _ (by decide)))

theorem scanDigits_hexText : scanDigits 16 0 (hexText number ++ rest) = scanDigits 16 number rest := by
  refine read_toDigits (by decide) (scanDigits 16) Char.toUpper (fun number digit text small => ?_) number rest
  rw [scanDigits, digitIn_toUpper small]

theorem fromhex_hexText (small : number < 2 ^ 64) (ends : ∀ c, rest.head? = some c → digitIn 16 c = none) :
    fromhex ('0' :: 'x' :: (hexText number ++ rest)) = number := by
  have read : (scanDigits 16 number rest).1 = number := by
    cases rest with
    | nil => rfl
    | cons c rest => rw [scanDigits, ends c rfl]
  rw [fromhex]
  change min (2 ^ 64 - 1) (scanDigits 16 0 (hexText number ++ rest)).1 = number
  rw [scanDigits_hexText, read]
  omega

theorem ofNat_fromhex (ival : Int32) :
    Int32.ofNat (fromhex ('0' :: 'x' :: hexText ival.toUInt32.toNat)) = ival := by
  have small := ival.toUInt32.toNat_lt
  have read := @fromhex_hexText ival.toUInt32.toNat [] (by omega) nofun
  rw [List.append_nil] at read
  rw [read]
  exact (Int32.ofNat_bitVecToNat ival.toBitVec).trans (Int32.ofBitVec_toBitVec ival)

theorem ofNat_fromhex64 (llval : Int64) :
    Int64.ofNat (fromhex ('0' :: 'x' :: (hexText llval.toUInt64.toNat ++ ['L']))) = llval := by
  have ends : ∀ c, ['L'].head? = some c → digitIn 16 c = none := by
    rintro _ ⟨⟩
    decide
  rw [fromhex_hexText llval.toUInt64.toNat_lt ends]
  exact (Int64.ofNat_bitVecToNat llval.toBitVec).trans (Int64.ofBitVec_toBitVec llval)

end Hexadecimals

section Floats

/-- What `snprintf` prints for a finite number. -/
def printed : Regex Char :=
  seq (optional (exactly "-")) (seq (plus digit) (seq (optional (seq (exactly ".") (plus digit)))
    (optional (seq (exactly "e") (seq (oneOf "-+") (plus digit))))))

/-- The zeros behind a point are cut off. -/
private theorem stripZeros_append {front digits : Text} (some_front : front ≠ []) :
    stripZeros (front ++ '.' :: digits) = front ++ '.' :: (digits.reverse.dropWhile (· = '0')).reverse := by
  obtain ⟨c, front, rfl⟩ := List.exists_cons_of_ne_nil some_front
  have stays : ('.' :: front.reverse).dropWhile (· = '0') = '.' :: front.reverse :=
    List.dropWhile_cons_of_neg (by decide)
  have cut : (front ++ '.' :: digits).reverse.dropWhile (· = '0') =
      digits.reverse.dropWhile (· = '0') ++ '.' :: front.reverse := by
    rw [List.reverse_append, List.reverse_cons, List.append_assoc, List.singleton_append,
      List.dropWhile_append]
    split
    · next empty => rw [stays, List.isEmpty_iff.mp empty, List.nil_append]
    · rfl
  have kept : ((front ++ '.' :: digits).reverse.dropWhile (· = '0')).reverse =
      front ++ '.' :: (digits.reverse.dropWhile (· = '0')).reverse := by
    rw [cut]
    simp
  rw [List.cons_append, stripZeros, kept]
  split
  · next empty => simp at empty
  · rfl

private theorem isDigit_of_strip {digits : Text} (all : ∀ c ∈ digits, c.isDigit) :
    ∀ c ∈ (digits.reverse.dropWhile (· = '0')).reverse, c.isDigit := fun c member =>
  all c (List.mem_reverse.mp ((List.dropWhile_sublist _).mem (List.mem_reverse.mp member)))

private theorem mem_star_digit {digits : Text} (all : ∀ c ∈ digits, c.isDigit) :
    digits ∈ (star digit).language := mem_star_one.mpr all

/-- The three shapes of what is printed: with an exponent, of digits only, and with a point. -/
private theorem cases_printed {fbuf : Text} (finite : fbuf ∈ printed.language) :
    ∃ minus digits, IsMinus minus ∧ digits ≠ [] ∧ (∀ c ∈ digits, c.isDigit) ∧
      ((∃ fraction power, fbuf = minus ++ (digits ++ (fraction ++ 'e' :: power)) ∧
          fraction ∈ (optional (seq (exactly ".") (star digit))).language ∧
          'e' :: power ∈ exponent.language) ∨
        fbuf = minus ++ digits ∨
        ∃ fraction, fbuf = minus ++ (digits ++ '.' :: fraction) ∧ ∀ c ∈ fraction, c.isDigit) := by
  obtain ⟨minus, signed, _, goes, rfl⟩ := mem_seq.mp finite
  obtain ⟨digits, whole, _, follows, rfl⟩ := mem_seq.mp goes
  obtain ⟨fraction, pointed, power, raised, rfl⟩ := mem_seq.mp follows
  obtain ⟨some_digits, all⟩ := mem_plus_one.mp whole
  have fractional : fraction = [] ∨ ∃ tail, fraction = '.' :: tail ∧ ∀ c ∈ tail, c.isDigit := by
    refine (mem_optional.mp pointed).imp_right fun pointed => ?_
    obtain ⟨point, opens, tail, ends, rfl⟩ := mem_seq.mp pointed
    rw [mem_exactly.mp opens]
    exact ⟨tail, rfl, (mem_plus_one.mp ends).2⟩
  refine ⟨minus, digits, (mem_optional.mp signed).imp_right mem_exactly.mp, some_digits, all, ?_⟩
  rcases mem_optional.mp raised with rfl | raised
  · right
    rcases fractional with rfl | ⟨tail, rfl, tail_digits⟩
    · exact .inl (by simp)
    · exact .inr ⟨tail, by simp, tail_digits⟩
  · left
    obtain ⟨mark, opens, _, moves, rfl⟩ := mem_seq.mp raised
    obtain ⟨direction, signed, size, sized, rfl⟩ := mem_seq.mp moves
    rw [mem_exactly.mp opens]
    refine ⟨fraction, direction ++ size, rfl, ?_, ?_⟩
    · rcases fractional with rfl | ⟨tail, rfl, tail_digits⟩
      · exact .inl rfl
      · exact .inr (mem_seq.mpr ⟨['.'], mem_exactly.mpr rfl, tail, mem_star_digit tail_digits, rfl⟩)
    · exact cons_mem_one_seq.mpr ⟨rfl, mem_seq.mpr ⟨direction, .inr signed, size, sized, rfl⟩⟩

private theorem notMem_of_isDigit {c : Char} {minus digits : Text} (odd : ¬ (c = '-' ∨ c.isDigit))
    (minus_ : IsMinus minus) (all : ∀ c ∈ digits, c.isDigit) : c ∉ minus ++ digits := by
  intro member
  refine odd ((List.mem_append.mp member).imp (fun among => ?_) (all c))
  rcases minus_ with rfl | rfl
  · cases among
  · exact List.mem_singleton.mp among

private theorem mem_float_of_point {minus digits fraction : Text} (minus_ : IsMinus minus)
    (all : ∀ c ∈ digits, c.isDigit) (fraction_digits : ∀ c ∈ fraction, c.isDigit) :
    minus ++ (digits ++ '.' :: fraction) ∈ float.language := by
  have tail : fraction ∈ (seq (star digit) (optional exponent)).language :=
    mem_seq.mpr ⟨fraction, mem_star_digit fraction_digits, [], .inl rfl, List.append_nil _⟩
  have pointed : '.' :: fraction ∈ (seq (exactly ".") (seq (star digit) (optional exponent))).language :=
    mem_seq.mpr ⟨['.'], mem_exactly.mpr rfl, fraction, tail, rfl⟩
  exact .inl (mem_seq.mpr ⟨minus, mem_sign minus_, _,
    mem_seq.mpr ⟨digits, .inr (mem_star_digit all), _, pointed, rfl⟩, rfl⟩)

theorem floatText_spec {fbuf : Text} (finite : fbuf ∈ printed.language) :
    floatText fbuf ∈ float.language ∧ ∃ first ∈ numberStarts, ∃ tail, floatText fbuf = first :: tail := by
  obtain ⟨minus, digits, minus_, some_digits, all, shape⟩ := cases_printed finite
  suffices cases : ∃ tail, floatText fbuf = minus ++ (digits ++ tail) ∧
      minus ++ (digits ++ tail) ∈ float.language by
    obtain ⟨tail, same, matched⟩ := cases
    rw [same]
    exact ⟨matched, exists_number_start minus_ some_digits all tail⟩
  rcases shape with ⟨fraction, power, rfl, pointed, raised⟩ | rfl | ⟨fraction, rfl, fraction_digits⟩
  · refine ⟨_, if_pos (by simp), .inr (mem_seq.mpr ⟨minus, mem_sign minus_, _, ?_, rfl⟩)⟩
    exact mem_seq.mpr ⟨digits, mem_plus_digit some_digits all, _,
      mem_seq.mpr ⟨fraction, pointed, _, raised, rfl⟩, rfl⟩
  · refine ⟨['.', '0'], ?_, mem_float_of_point minus_ all (List.forall_mem_singleton.mpr rfl)⟩
    rw [floatText, if_neg (notMem_of_isDigit (by decide) minus_ all),
      if_neg (notMem_of_isDigit (by decide) minus_ all), List.append_assoc]
  · refine ⟨_, ?_, mem_float_of_point minus_ all (isDigit_of_strip fraction_digits)⟩
    have some_front : minus ++ digits ≠ [] := by simp [some_digits]
    have plain : 'e' ∉ minus ++ (digits ++ '.' :: fraction) := by
      rw [← List.append_assoc, List.mem_append, List.mem_cons]
      rintro (front | same | back)
      · exact notMem_of_isDigit (by decide) minus_ all front
      · cases same
      · exact absurd (fraction_digits _ back) (by decide)
    rw [floatText, if_neg plain, if_pos (by simp), ← List.append_assoc, stripZeros_append some_front,
      List.append_assoc]

end Floats

end Libconfig

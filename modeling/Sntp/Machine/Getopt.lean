import Mathlib.Algebra.GroupWithZero.Nat
import Mathlib.Data.List.Basic
import Mathlib.Data.List.TakeWhile

/-! # Scanning a command line

The `getopt` of the C library, with the GNU reordering of words: options are read one by one, from
words of several options too, and words that are not options are set aside and end up behind them.
At the end of the options `optind` is the first of the words set aside, and a further call scans on
from there. A scanner is the words it has not read. The places of all others do not matter, except
that `optind` has reached the end exactly when nothing is left to read.
-/

namespace Machine.Getopt

/-- An option with its argument, if it takes one. -/
abbrev Opt := Char × Option (List Char)

/-- A word that is not an option: it does not start with a dash, or is one. -/
def isNonoption : List Char → Bool
  | '-' :: _ :: _ => false
  | _ => true

/-- A scanner: the unread characters of the current option word, the words after it, and the words
set aside before it. -/
structure Scanner where
  current : List Char
  rest : List (List Char)
  skipped : List (List Char)
  nonoptions : ∀ word ∈ skipped, isNonoption word
deriving DecidableEq, Repr

/-- What a call returns. `unknown` is the error return, with the character `optopt` holds. -/
inductive Result where
  | option (opt : Opt)
  | unknown (optopt : Char)
  | finished
deriving DecidableEq, Repr

/-- The scanner of the arguments of a program. -/
def Scanner.start (arguments : List (List Char)) : Scanner := ⟨[], arguments, [], nofun⟩

/-- `optind < argc`. -/
def Scanner.More (scanner : Scanner) : Prop := scanner.current ≠ [] ∨ scanner.rest ≠ []

instance : DecidablePred Scanner.More := fun scanner =>
  inferInstanceAs (Decidable (scanner.current ≠ [] ∨ scanner.rest ≠ []))

/-- Whether an option takes an argument, if it is one of the options of the string. -/
def wantsArgument : List Char → Char → Option Bool
  | [], _ => none
  | known :: optstring, c =>
    if c = ':' ∨ c = ';' then none
    else if known = c then some (optstring.head? = some ':')
    else wantsArgument optstring c

/-- The option `c`, with the rest of its word and the scanner behind the word. -/
def readOption (optstring : List Char) (c : Char) (more : List Char) (scanner : Scanner) :
    Result × Scanner :=
  match wantsArgument optstring c with
  | none => (.unknown c, { scanner with current := more })
  | some false => (.option (c, none), { scanner with current := more })
  | some true =>
    match more, scanner.rest with
    | _ :: _, _ => (.option (c, some more), { scanner with current := [] })
    | [], [] => (.unknown c, { scanner with current := [] })
    | [], argument :: rest =>
      (.option (c, some argument), { scanner with current := [], rest := rest })

/-- The scanner behind the words that are not options, with these words left: the others are set
aside. -/
def Scanner.passNonoptions (scanner : Scanner) (rest : List (List Char)) : Scanner where
  current := []
  rest := rest
  skipped := scanner.skipped ++ scanner.rest.takeWhile isNonoption
  nonoptions := by
    rw [List.forall_mem_append]
    exact ⟨scanner.nonoptions, fun _ => List.mem_takeWhile_imp⟩

@[simp] theorem Scanner.skipped_passNonoptions (scanner : Scanner) (rest : List (List Char)) :
    (scanner.passNonoptions rest).skipped =
      scanner.skipped ++ scanner.rest.takeWhile isNonoption := rfl

/-- A call of `getopt`. -/
def getopt (optstring : List Char) (scanner : Scanner) : Result × Scanner :=
  match scanner.current with
  | c :: more => readOption optstring c more scanner
  | [] =>
    match scanner.rest.dropWhile isNonoption with
    -- the words behind the dashes come after those set aside, and the next call starts with these
    | ['-', '-'] :: rest => (.finished, .start ((scanner.passNonoptions rest).skipped ++ rest))
    | (_ :: c :: more) :: rest => readOption optstring c more (scanner.passNonoptions rest)
    | _ => (.finished, .start (scanner.passNonoptions []).skipped)

/-- The characters of words, with one for the end of each. -/
def wordsSize (words : List (List Char)) : ℕ := (words.map fun word => word.length + 1).sum

/-- What a scanner has left to read, now or after the end of the options. -/
def Scanner.size (scanner : Scanner) : ℕ :=
  scanner.current.length + wordsSize scanner.rest + wordsSize scanner.skipped

variable {optstring : List Char} {scanner next : Scanner}

@[simp] theorem wordsSize_cons {word : List Char} {words : List (List Char)} :
    wordsSize (word :: words) = word.length + 1 + wordsSize words := by
  simp [wordsSize]

@[simp] theorem wordsSize_append {words more : List (List Char)} :
    wordsSize (words ++ more) = wordsSize words + wordsSize more := by
  simp [wordsSize]

/-- A scanner that starts has its arguments to read. -/
theorem size_start {arguments : List (List Char)} :
    (Scanner.start arguments).size = wordsSize arguments := by
  simp [Scanner.size, Scanner.start, wordsSize]

/-- The words before the next option, and those from it on. -/
private theorem wordsSize_takeWhile (words : List (List Char)) :
    wordsSize words = wordsSize (words.takeWhile isNonoption) + wordsSize (words.dropWhile isNonoption) := by
  rw [← wordsSize_append, List.takeWhile_append_dropWhile]

private theorem size_readOption {c : Char} {more : List Char} {result : Result}
    (read : readOption optstring c more scanner = (result, next)) :
    next.size ≤ more.length + wordsSize scanner.rest + wordsSize scanner.skipped := by
  unfold readOption at read
  split at read
  · obtain ⟨-, rfl⟩ := Prod.mk.inj read
    exact Nat.le_refl _
  · obtain ⟨-, rfl⟩ := Prod.mk.inj read
    exact Nat.le_refl _
  · split at read
    · obtain ⟨-, rfl⟩ := Prod.mk.inj read
      simp only [Scanner.size, List.length_nil]
      omega
    · obtain ⟨-, rfl⟩ := Prod.mk.inj read
      exact Nat.le_refl _
    · next words =>
      obtain ⟨-, rfl⟩ := Prod.mk.inj read
      simp only [Scanner.size, words, List.length_nil, wordsSize_cons]
      omega

/-- A character of an option word is not the end of the options. -/
private theorem readOption_ne_finished {c : Char} {more : List Char} :
    readOption optstring c more scanner ≠ (.finished, next) := by
  intro read
  unfold readOption at read
  split at read
  · simp at read
  · simp at read
  · split at read <;> simp at read

/-- A call that returns an option leaves less to read. -/
theorem size_lt_of_option {opt : Opt} (read : getopt optstring scanner = (.option opt, next)) :
    next.size < scanner.size := by
  rw [getopt] at read
  split at read
  · next c more current =>
    have bound := size_readOption read
    simp only [Scanner.size, current, List.length_cons] at *
    omega
  · have parts := wordsSize_takeWhile scanner.rest
    split at read
    · simp at read
    · next word =>
      have bound := size_readOption read
      rw [word] at parts
      simp only [Scanner.size, Scanner.passNonoptions, wordsSize_cons, wordsSize_append,
        List.length_cons] at *
      omega
    · simp at read

/-- A scanner with nothing but words that are not options. -/
def Scanner.Spent (scanner : Scanner) : Prop :=
  ∃ words, (∀ word ∈ words, isNonoption word) ∧ scanner = .start words

/-- Without options every call finds their end again. -/
theorem Scanner.Spent.getopt (spent : scanner.Spent) :
    getopt optstring scanner = (.finished, scanner) := by
  obtain ⟨words, nonoptions, rfl⟩ := spent
  have none : words.dropWhile isNonoption = [] := List.dropWhile_eq_nil_iff.mpr nonoptions
  have all : words.takeWhile isNonoption = words := List.takeWhile_eq_self_iff.mpr nonoptions
  simp only [Getopt.getopt, Scanner.start, Scanner.passNonoptions, none, all, List.nil_append]

/-- The end of the options is the end of all words, or a pair of dashes with more to read behind. -/
theorem spent_or_size_lt_of_finished (read : getopt optstring scanner = (.finished, next)) :
    next.Spent ∨ next.size < scanner.size := by
  rw [getopt] at read
  split at read
  · exact absurd read readOption_ne_finished
  · have parts := wordsSize_takeWhile scanner.rest
    split at read
    · next words =>
      obtain ⟨-, rfl⟩ := Prod.mk.inj read
      right
      rw [words, wordsSize_cons] at parts
      rw [size_start, Scanner.size, Scanner.passNonoptions, wordsSize_append, wordsSize_append]
      omega
    · exact absurd read readOption_ne_finished
    · obtain ⟨-, rfl⟩ := Prod.mk.inj read
      exact .inl ⟨_, (scanner.passNonoptions []).nonoptions, rfl⟩

private theorem wantsArgument_of_readOption {c : Char} {more : List Char} {opt : Opt}
    (read : readOption optstring c more scanner = (.option opt, next)) :
    wantsArgument optstring opt.1 = some opt.2.isSome := by
  unfold readOption at read
  split at read
  · simp at read
  · next known =>
    obtain ⟨same, -⟩ := Prod.mk.inj read
    obtain rfl := Result.option.inj same
    exact known
  · next known =>
    split at read
    · obtain ⟨same, -⟩ := Prod.mk.inj read
      obtain rfl := Result.option.inj same
      exact known
    · simp at read
    · obtain ⟨same, -⟩ := Prod.mk.inj read
      obtain rfl := Result.option.inj same
      exact known

/-- An option is returned with an argument exactly when it takes one. -/
theorem wantsArgument_of_option {opt : Opt} (read : getopt optstring scanner = (.option opt, next)) :
    wantsArgument optstring opt.1 = some opt.2.isSome := by
  rw [getopt] at read
  split at read
  · exact wantsArgument_of_readOption read
  · split at read
    · simp at read
    · exact wantsArgument_of_readOption read
    · simp at read

/-- The options that a scanner returns as long as there is more to read, by fuel. -/
def optionsWithin (optstring : List Char) : ℕ → Scanner → List Opt
  | 0, _ => []
  | fuel + 1, scanner =>
    if scanner.More then
      match getopt optstring scanner with
      | (.option opt, next) => opt :: optionsWithin optstring fuel next
      | (.unknown _, _) => []
      | (.finished, next) => optionsWithin optstring fuel next
    else []

/-- The options that a scanner returns as long as there is more to read, those behind an end of the
options among them. -/
def options (optstring : List Char) (scanner : Scanner) : List Opt :=
  optionsWithin optstring scanner.size scanner

theorem optionsWithin_of_not_more (fuel : ℕ) (nothing : ¬ scanner.More) :
    optionsWithin optstring fuel scanner = [] := by
  cases fuel with
  | zero => rfl
  | succ fuel => rw [optionsWithin, if_neg nothing]

private theorem optionsWithin_of_spent (fuel : ℕ) (spent : scanner.Spent) :
    optionsWithin optstring fuel scanner = [] := by
  induction fuel with
  | zero => rfl
  | succ fuel ih =>
    rw [optionsWithin, spent.getopt]
    dsimp only
    rw [ih, ite_self]

/-- What is left to read has a size. -/
theorem size_pos_of_more (more : scanner.More) : 0 < scanner.size := by
  rw [Scanner.size]
  rcases more with current | rest
  · have := List.length_pos_iff.mpr current
    omega
  · obtain ⟨word, words, rest⟩ := List.exists_cons_of_ne_nil rest
    rw [rest, wordsSize_cons]
    omega

/-- Fuel beyond the size of the scanner changes nothing. -/
theorem optionsWithin_eq {fuel : ℕ} (enough : scanner.size ≤ fuel) :
    optionsWithin optstring fuel scanner = options optstring scanner := by
  -- The induction is on the fuel that is at hand, for any other fuel that is enough.
  have agree : ∀ (first second : ℕ) (scanner : Scanner), scanner.size ≤ first →
      scanner.size ≤ second →
      optionsWithin optstring first scanner = optionsWithin optstring second scanner := by
    intro first
    induction first with
    | zero =>
      intro second scanner empty _
      have nothing : ¬ scanner.More := fun more => by
        have := size_pos_of_more more
        omega
      rw [optionsWithin_of_not_more 0 nothing, optionsWithin_of_not_more second nothing]
    | succ first ih =>
      intro second scanner enough enough'
      by_cases more : scanner.More
      · obtain ⟨second, rfl⟩ : ∃ fewer, second = fewer + 1 :=
          Nat.exists_eq_succ_of_ne_zero (by have := size_pos_of_more more; omega)
        rw [optionsWithin, optionsWithin, if_pos more, if_pos more]
        split
        · next opt next read =>
          have smaller := size_lt_of_option read
          rw [ih second next (by omega) (by omega)]
        · rfl
        · next next read =>
          rcases spent_or_size_lt_of_finished read with spent | smaller
          · rw [optionsWithin_of_spent first spent, optionsWithin_of_spent second spent]
          · exact ih second next (by omega) (by omega)
      · rw [optionsWithin_of_not_more _ more, optionsWithin_of_not_more _ more]
  exact agree fuel scanner.size scanner enough (Nat.le_refl _)

theorem options_of_not_more (nothing : ¬ scanner.More) : options optstring scanner = [] :=
  optionsWithin_of_not_more _ nothing

theorem options_of_option (more : scanner.More) {opt : Opt}
    (read : getopt optstring scanner = (.option opt, next)) :
    options optstring scanner = opt :: options optstring next := by
  have smaller := size_lt_of_option read
  rw [← optionsWithin_eq (Nat.le_succ scanner.size), optionsWithin, if_pos more]
  simp only [read]
  rw [optionsWithin_eq (Nat.le_of_lt smaller)]

/-- The end of the options is not the last option when more is to be read. -/
theorem options_of_finished (more : scanner.More)
    (read : getopt optstring scanner = (.finished, next)) :
    options optstring scanner = options optstring next := by
  rw [← optionsWithin_eq (Nat.le_succ scanner.size), optionsWithin, if_pos more]
  simp only [read]
  rcases spent_or_size_lt_of_finished read with spent | smaller
  · rw [optionsWithin_of_spent _ spent, options, optionsWithin_of_spent _ spent]
  · exact optionsWithin_eq (Nat.le_of_lt smaller)

end Machine.Getopt

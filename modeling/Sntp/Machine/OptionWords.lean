import Sntp.Machine.Getopt

/-! # The words of a command line

What a scanner will do, told from the words of a command line alone: which options words spell that
are nothing but options and their arguments, and whether the words of any command line run out with
its options. Each is stated of words and carried along the calls of `getopt`.
-/

namespace Machine.Getopt

/-- The unread characters of an option word and the words after it spell these options. An argument
is the rest of its word, or else the next word, whatever that is. -/
inductive Spells (optstring : List Char) : List Char → List (List Char) → List Opt → Prop
  | nil : Spells optstring [] [] []
  | word {c : Char} {more : List Char} {words : List (List Char)} {opts : List Opt} :
      c :: more ≠ ['-'] → Spells optstring (c :: more) words opts →
      Spells optstring [] (('-' :: c :: more) :: words) opts
  | flag {c : Char} {more : List Char} {words : List (List Char)} {opts : List Opt} :
      wantsArgument optstring c = some false → Spells optstring more words opts →
      Spells optstring (c :: more) words ((c, none) :: opts)
  | attached {c : Char} {argument : List Char} {words : List (List Char)} {opts : List Opt} :
      wantsArgument optstring c = some true → argument ≠ [] → Spells optstring [] words opts →
      Spells optstring (c :: argument) words ((c, some argument) :: opts)
  | separate {c : Char} {argument : List Char} {words : List (List Char)} {opts : List Opt} :
      wantsArgument optstring c = some true → Spells optstring [] words opts →
      Spells optstring [c] (argument :: words) ((c, some argument) :: opts)

/-- A scanner that has still to read these options, and nothing else. -/
def Scanner.Reads (optstring : List Char) (scanner : Scanner) (opts : List Opt) : Prop :=
  Spells optstring scanner.current scanner.rest opts

variable {optstring : List Char} {scanner next : Scanner} {opt : Opt} {opts : List Opt}

theorem Spells.reads_start {arguments : List (List Char)} (spelled : Spells optstring [] arguments opts) :
    (Scanner.start arguments).Reads optstring opts := spelled

section

variable {words : List (List Char)} (unread : scanner.current = [])
include unread

/-- Between two words the words that are not options are set aside. -/
private theorem getopt_option {c : Char} {more : List Char} (other : c :: more ≠ ['-'])
    (behind : scanner.rest.dropWhile isNonoption = ('-' :: c :: more) :: words) :
    getopt optstring scanner = readOption optstring c more (scanner.passNonoptions words) := by
  simp only [Getopt.getopt, unread, behind]
  split
  · next same =>
    obtain ⟨word, -⟩ := List.cons.inj same
    exact absurd (List.cons.inj word).2 other
  · next same =>
    obtain ⟨word, rfl⟩ := List.cons.inj same
    obtain ⟨rfl, rfl⟩ := List.cons.inj (List.cons.inj word).2
    rfl
  · next neither => exact absurd rfl (neither _ _ _ _)

private theorem getopt_dashes
    (behind : scanner.rest.dropWhile isNonoption = ['-', '-'] :: words) :
    getopt optstring scanner =
      (.finished, .start ((scanner.passNonoptions words).skipped ++ words)) := by
  simp only [Getopt.getopt, unread, behind]

private theorem getopt_nonoptions (behind : scanner.rest.dropWhile isNonoption = []) :
    getopt optstring scanner = (.finished, .start (scanner.passNonoptions []).skipped) := by
  simp only [Getopt.getopt, unread, behind]

end

/-- The first option of a word is read. -/
private theorem Spells.readOption {c : Char} {more : List Char}
    (spelled : Spells optstring (c :: more) scanner.rest (opt :: opts)) :
    ∃ next, readOption optstring c more scanner = (.option opt, next) ∧ next.Reads optstring opts := by
  generalize words : scanner.rest = rest at spelled
  cases spelled with
  | flag known spelled =>
    refine ⟨{ scanner with current := more }, ?_, words ▸ spelled⟩
    simp only [Getopt.readOption, known]
  | attached known nonempty spelled =>
    obtain ⟨first, more, rfl⟩ := List.exists_cons_of_ne_nil nonempty
    refine ⟨{ scanner with current := [] }, ?_, words ▸ spelled⟩
    simp only [Getopt.readOption, known]
  | @separate _ argument rest opts known spelled =>
    refine ⟨{ scanner with current := [], rest := rest }, ?_, spelled⟩
    simp only [Getopt.readOption, known, words]

/-- An option word has an option. -/
private theorem Spells.exists_cons {c : Char} {more : List Char} {words : List (List Char)}
    (spelled : Spells optstring (c :: more) words opts) : ∃ opt rest, opts = opt :: rest := by
  cases spelled <;> exact ⟨_, _, rfl⟩

theorem Scanner.Reads.not_more (reads : scanner.Reads optstring []) : ¬ scanner.More := by
  rw [Scanner.Reads] at reads
  generalize unread : scanner.current = current at reads
  generalize words : scanner.rest = rest at reads
  cases reads with
  | nil => exact fun more => more.elim (absurd unread) (absurd words)
  | word _ spelled =>
    obtain ⟨_, _, same⟩ := spelled.exists_cons
    cases same

/-- The options of a scanner are returned one by one. -/
theorem Scanner.Reads.getopt (reads : scanner.Reads optstring (opt :: opts)) :
    scanner.More ∧ ∃ next, getopt optstring scanner = (.option opt, next) ∧ next.Reads optstring opts := by
  rw [Scanner.Reads] at reads
  cases unread : scanner.current with
  | cons c more =>
    rw [unread] at reads
    rw [Scanner.More, Getopt.getopt, unread]
    exact ⟨.inl (List.cons_ne_nil c more), reads.readOption⟩
  | nil =>
    rw [unread] at reads
    generalize words : scanner.rest = rest at reads
    cases reads with
    | @word c more rest opts other spelled =>
      have option : ¬ isNonoption ('-' :: c :: more) = true := Bool.false_ne_true
      have behind : scanner.rest.dropWhile isNonoption = ('-' :: c :: more) :: rest := by
        rw [words, List.dropWhile_cons_of_neg option]
      have beyond : Spells optstring (c :: more) (scanner.passNonoptions rest).rest (opt :: opts) := spelled
      rw [Scanner.More, getopt_option unread other behind, words]
      exact ⟨.inr (List.cons_ne_nil _ rest), beyond.readOption⟩

/-- How an option word ends: with a character that is no option, with its last option or an argument
in it, or with an option whose argument is the next word. -/
inductive WordEnd where
  | unknown
  | complete
  | wanting
deriving DecidableEq, Repr

/-- The end of an option word with these unread characters. -/
def wordEnd (optstring : List Char) : List Char → WordEnd
  | [] => .complete
  | c :: more =>
    match wantsArgument optstring c with
    | none => .unknown
    | some false => wordEnd optstring more
    | some true => if more = [] then .wanting else .complete

/-- Whether the words run out with their options, or an option is wrong before. Words set aside are
left over unless an option stands behind them. A `--` is passed over, but it ends the options once, so
words set aside before the last word are left over when this is a `--`. -/
def runsOut (optstring : List Char) (aside : Bool) : List (List Char) → Bool
  | [] => true
  | word :: words =>
    if isNonoption word then !words.isEmpty && runsOut optstring true words
    else if word = ['-', '-'] then !(aside && words.isEmpty) && runsOut optstring aside words
    else
      match wordEnd optstring word.tail, words with
      | .unknown, _ => true
      | .complete, words => runsOut optstring aside words
      | .wanting, [] => true
      | .wanting, _ :: words => runsOut optstring aside words

/-- The same after a word with the given end. -/
def runsOutAfter (optstring : List Char) (aside : Bool) : WordEnd → List (List Char) → Bool
  | .unknown, _ => true
  | .complete, words => runsOut optstring aside words
  | .wanting, [] => true
  | .wanting, _ :: words => runsOut optstring aside words

/-- The same for a scanner. -/
def Scanner.runsOut (optstring : List Char) (scanner : Scanner) : Bool :=
  runsOutAfter optstring (!scanner.skipped.isEmpty) (wordEnd optstring scanner.current) scanner.rest

theorem runsOut_start (arguments : List (List Char)) :
    (Scanner.start arguments).runsOut optstring = runsOut optstring false arguments := rfl

section

variable {aside : Bool} {words : List (List Char)}

private theorem runsOut_cons_of_nonoption {word : List Char} (nonoption : isNonoption word) :
    runsOut optstring aside (word :: words) = (!words.isEmpty && runsOut optstring true words) := by
  conv_lhs => unfold runsOut
  rw [if_pos nonoption]

private theorem runsOut_cons_dashes :
    runsOut optstring aside (['-', '-'] :: words) =
      (!(aside && words.isEmpty) && runsOut optstring aside words) := by
  conv_lhs => unfold runsOut
  rw [if_neg (by decide), if_pos rfl]

private theorem runsOut_cons_option {c : Char} {more : List Char} (other : c :: more ≠ ['-']) :
    runsOut optstring aside (('-' :: c :: more) :: words) =
      runsOutAfter optstring aside (wordEnd optstring (c :: more)) words := by
  have dashes : ('-' :: c :: more) ≠ ['-', '-'] := fun same => other (List.cons.inj same).2
  conv_lhs => unfold runsOut
  rw [if_neg (by simp [isNonoption]), if_neg dashes, List.tail_cons]
  cases wordEnd optstring (c :: more) with
  | unknown => rfl
  | complete => rfl
  | wanting => cases words <;> rfl

private theorem exists_of_option {word : List Char} (option : ¬ isNonoption word) :
    ∃ c more, word = '-' :: c :: more := by
  unfold isNonoption at option
  split at option
  · exact ⟨_, _, rfl⟩
  · exact absurd rfl option

/-- Words that are not options are passed over, and have to be followed by another word. -/
private theorem runsOut_append {front : List (List Char)} (nonoptions : ∀ word ∈ front, isNonoption word) :
    runsOut optstring aside (front ++ words) =
      (!(!front.isEmpty && words.isEmpty) && runsOut optstring (aside || !front.isEmpty) words) := by
  induction front generalizing aside with
  | nil => simp
  | cons word front ih =>
    obtain ⟨first, others⟩ := List.forall_mem_cons.mp nonoptions
    rw [List.cons_append, runsOut_cons_of_nonoption first, ih others]
    cases front <;> cases words <;> simp

end

/-- Words that are not options are left over. -/
theorem Scanner.Spent.runsOut_iff (spent : scanner.Spent) :
    scanner.runsOut optstring = true ↔ ¬ scanner.More := by
  obtain ⟨words, nonoptions, rfl⟩ := spent
  rw [runsOut_start, ← List.append_nil words, runsOut_append nonoptions]
  cases words <;> simp [Getopt.runsOut, Scanner.More, Scanner.start]

/-- What the outcome of a call tells of whether the words run out before it. As long as the process
goes on, this does not change. -/
def Tells (optstring : List Char) (before : Bool) : Result × Scanner → Prop
  | (.option _, next) | (.finished, next) => next.runsOut optstring = before
  | (.unknown _, _) => before = true

private theorem tells_readOption {c : Char} {more : List Char} :
    Tells optstring
      (runsOutAfter optstring (!scanner.skipped.isEmpty) (wordEnd optstring (c :: more)) scanner.rest)
      (readOption optstring c more scanner) := by
  cases known : wantsArgument optstring c with
  | none =>
    simp only [readOption, wordEnd, known]
    rfl
  | some wants =>
    cases wants with
    | false =>
      simp only [readOption, wordEnd, known]
      rfl
    | true =>
      cases more with
      | cons first more =>
        simp only [readOption, wordEnd, known]
        rfl
      | nil =>
        cases words : scanner.rest with
        | nil =>
          simp only [readOption, wordEnd, known, words]
          rfl
        | cons argument rest =>
          simp only [readOption, wordEnd, known, words]
          rfl

theorem tells_getopt (optstring : List Char) (more : scanner.More) :
    Tells optstring (scanner.runsOut optstring) (getopt optstring scanner) := by
  rw [Scanner.runsOut]
  cases unread : scanner.current with
  | cons c tail =>
    rw [getopt, unread]
    exact tells_readOption
  | nil =>
    have words : scanner.rest ≠ [] := more.resolve_left (absurd unread)
    have split := List.takeWhile_append_dropWhile (p := isNonoption) (l := scanner.rest)
    have aside (rest : List (List Char)) : (!scanner.skipped.isEmpty ||
        !(scanner.rest.takeWhile isNonoption).isEmpty) = !(scanner.passNonoptions rest).skipped.isEmpty := by
      rw [Scanner.skipped_passNonoptions]
      cases scanner.skipped <;> rfl
    rw [wordEnd, runsOutAfter]
    conv in Getopt.runsOut _ _ _ => rw [← split]
    rw [runsOut_append fun _ => List.mem_takeWhile_imp]
    have option := List.head?_dropWhile_not isNonoption scanner.rest
    cases behind : scanner.rest.dropWhile isNonoption with
    | nil =>
      have all : scanner.rest.takeWhile isNonoption = scanner.rest := by simpa [behind] using split
      have spent : (Scanner.start (scanner.passNonoptions []).skipped).Spent :=
        ⟨_, (scanner.passNonoptions []).nonoptions, rfl⟩
      rw [getopt_nonoptions unread behind, Tells, Bool.eq_iff_iff, spent.runsOut_iff]
      simp [Scanner.More, Scanner.start, Scanner.passNonoptions, all, words]
    | cons word rest =>
      rw [behind] at option
      obtain ⟨c, tail, rfl⟩ := exists_of_option (by simpa using option)
      rw [aside rest, List.isEmpty_cons, Bool.and_false, Bool.not_false, Bool.true_and]
      by_cases dashes : c :: tail = ['-']
      · obtain ⟨rfl, rfl⟩ := List.cons.inj dashes
        rw [getopt_dashes unread behind, runsOut_cons_dashes, Tells, runsOut_start,
          runsOut_append (scanner.passNonoptions rest).nonoptions, Bool.false_or]
      · rw [getopt_option unread dashes behind, runsOut_cons_option dashes]
        exact tells_readOption

end Machine.Getopt

import Sntp.Machine.OptionWords
import Sntp.Proofs.CommandLine
import Mathlib.Data.List.Count

/-! # The meaning of a command line

A command line of nothing but options means what the last option of each kind says. It is an error
exactly when it gives a host and enables manycast, wherever the two stand, so options of different
kinds can change places.
-/

namespace Sntp.CommandLine

open Machine Getopt

/-- An option of the client, with the text of its argument. -/
inductive ClientOption where
  | host (name : Text)
  | manycast
  | port (number : Text)
  | debug
  | repeats (limit : Text)
deriving DecidableEq, Repr

namespace ClientOption

/-- The option as `getopt` returns it. -/
def opt : ClientOption → Opt
  | .host name => ('u', some name)
  | .manycast => ('m', none)
  | .port number => ('p', some number)
  | .debug => ('d', none)
  | .repeats limit => ('r', some limit)

/-- The kind of an option is its letter. -/
def letter (option : ClientOption) : Char := option.opt.1

def hostText : ClientOption → Option Text
  | .host name => some name
  | _ => none

def portText : ClientOption → Option Text
  | .port number => some number
  | _ => none

def limitText : ClientOption → Option Text
  | .repeats limit => some limit
  | _ => none

end ClientOption

/-- The words spell these options and nothing else. Arguments are attached or separate words, and
options without arguments may share a word. -/
def SpelledBy (arguments : List Text) (options : List ClientOption) : Prop :=
  Spells clientOptstring [] arguments (options.map ClientOption.opt)

/-- The letters of the options. -/
def letters (options : List ClientOption) : List Char := options.map ClientOption.letter

/-- A host is given and manycast is enabled. -/
def Conflict (options : List ClientOption) : Prop :=
  'u' ∈ letters options ∧ 'm' ∈ letters options

instance : DecidablePred Conflict := fun options =>
  inferInstanceAs (Decidable ('u' ∈ letters options ∧ 'm' ∈ letters options))

/-- What the options make of the settings: the last argument of each kind, and a one for each
switch. -/
def meaning (options : List ClientOption) (before : ClientSettings) : ClientSettings :=
  { before with
    serverHost := ((options.latest ClientOption.hostText).map .text).getD before.serverHost
    serverPort := ((options.latest ClientOption.portText).map atoi).getD before.serverPort
    debug := if 'd' ∈ letters options then 1 else before.debug
    timedRepeatUpdatesEnabled :=
      if 'r' ∈ letters options then 1 else before.timedRepeatUpdatesEnabled
    timedRepeatUpdatesLimit :=
      ((options.latest ClientOption.limitText).map atoi).getD before.timedRepeatUpdatesLimit
    manycastEnabled := if 'm' ∈ letters options then 1 else before.manycastEnabled }

/-- The same options, with those of each kind in the same order. -/
def Reordered (options options' : List ClientOption) : Prop :=
  ∀ letter : Char, options.filter (fun option => option.letter = letter) =
    options'.filter (fun option => option.letter = letter)

section

variable {options options' : List ClientOption} {arguments : List Text}

/-- The loop applies the options, one in each turn. -/
private theorem loop_parseOption (fuel : ℕ) (locals : ParseLocals) (scanner : Scanner)
    (reads : scanner.Reads clientOptstring (options.map ClientOption.opt))
    (enough : options.length < fuel) :
    ∃ final, loop .outOfFuel parseOption fuel locals scanner =
      .ok ((options.map ClientOption.opt).foldl ParseLocals.apply locals) final := by
  induction options generalizing fuel locals scanner with
  | nil =>
    obtain ⟨fuel, rfl⟩ := Nat.exists_eq_succ_of_ne_zero (Nat.ne_of_gt enough)
    exact ⟨scanner, loop_of_inr fuel (parseOption_of_not_more reads.not_more)⟩
  | cons option options ih =>
    obtain ⟨more, next, read, reads⟩ := reads.getopt
    obtain ⟨fuel, rfl⟩ := Nat.exists_eq_add_of_lt enough
    rw [loop_of_inl _ (parseOption_of_option more read), List.map_cons, List.foldl_cons]
    exact ih _ _ next reads (by simp only [List.length_cons]; omega)

/-- What the loop leaves is what the options mean. -/
private theorem foldl_apply (before : ClientSettings) :
    (options.map ClientOption.opt).foldl ParseLocals.apply ⟨before, 0, 0⟩ =
      { cSet := meaning options before
        uniSet := if 'u' ∈ letters options then 1 else 0
        manySet := if 'm' ∈ letters options then 1 else 0 } := by
  induction options using List.reverseRecOn with
  | nil => rfl
  | append_singleton options option ih =>
    rw [List.map_append, List.foldl_append, ih, List.map_singleton, List.foldl_cons, List.foldl_nil]
    cases option <;>
      simp [ParseLocals.apply, meaning, letters, ClientOption.letter, ClientOption.opt, hostOption,
        portOption, debugOption, repeatOption, limitOption, manycastOption, ClientOption.hostText,
        ClientOption.portText, ClientOption.limitText]

/-- `parse_command_line` reports the conflict, or returns what the options mean. -/
private theorem parseCommandLine_eq (spelled : SpelledBy arguments options) {fuel : ℕ}
    (enough : options.length < fuel) (before : ClientSettings) :
    parseCommandLine fuel arguments before =
      if Conflict options then .error (.exit 1) else .ok (meaning options before) := by
  obtain ⟨final, parsed⟩ :=
    loop_parseOption fuel ⟨before, 0, 0⟩ (.start arguments) spelled.reads_start enough
  rw [parseCommandLine, parsed, foldl_apply]
  dsimp only
  by_cases host : 'u' ∈ letters options
  · by_cases manycast : 'm' ∈ letters options
    · simp [Conflict, host, manycast]
    · simp [Conflict, manycast]
  · simp [Conflict, host]

theorem Reordered.perm (reordered : Reordered options options') : options.Perm options' := by
  rw [List.perm_iff_count]
  intro option
  have kept (all : List ClientOption) :
      (all.filter fun other => other.letter = option.letter).count option = all.count option :=
    List.count_filter (by simp)
  rw [← kept options, ← kept options', reordered option.letter]

/-- What selects from one kind of option does not see a reordering. -/
private theorem Reordered.latest {select : ClientOption → Option Text} {letter : Char}
    (reordered : Reordered options options')
    (kind : ∀ option, (select option).isSome → option.letter = letter) :
    options.latest select = options'.latest select := by
  have kept (all : List ClientOption) :
      (all.filter fun option => option.letter = letter).latest select = all.latest select :=
    List.latest_filter (fun option some => by simpa using kind option some) all
  rw [← kept options, ← kept options', reordered letter]

private theorem Reordered.mem_letters (reordered : Reordered options options') (letter : Char) :
    letter ∈ letters options ↔ letter ∈ letters options' :=
  (reordered.perm.map ClientOption.letter).mem_iff

private theorem Reordered.conflict_iff (reordered : Reordered options options') :
    Conflict options ↔ Conflict options' :=
  and_congr (reordered.mem_letters 'u') (reordered.mem_letters 'm')

private theorem letter_of_hostText : ∀ option : ClientOption,
    option.hostText.isSome → option.letter = 'u'
  | .host _, _ => rfl

private theorem letter_of_portText : ∀ option : ClientOption,
    option.portText.isSome → option.letter = 'p'
  | .port _, _ => rfl

private theorem letter_of_limitText : ∀ option : ClientOption,
    option.limitText.isSome → option.letter = 'r'
  | .repeats _, _ => rfl

private theorem Reordered.meaning (reordered : Reordered options options') (before : ClientSettings) :
    meaning options before = meaning options' before := by
  have host := reordered.latest letter_of_hostText
  have port := reordered.latest letter_of_portText
  have limit := reordered.latest letter_of_limitText
  simp only [CommandLine.meaning, host, port, limit, reordered.mem_letters]

end

/-- A command line of nothing but options is parsed in as many turns as it has options and one more.
It is an error exactly when it conflicts, else it means what its options mean, and reordering options
of different kinds, however they are spelled, changes nothing. -/
theorem parseCommandLine_means (options : List ClientOption) (arguments : List Text)
    (before : ClientSettings) (fuel : ℕ) (spelled : SpelledBy arguments options)
    (enough : options.length < fuel) :
    (parseCommandLine fuel arguments before = .error (.exit 1) ↔ Conflict options) ∧
    (¬ Conflict options →
      parseCommandLine fuel arguments before = .ok (meaning options before)) ∧
    ∀ options' arguments', Reordered options options' → SpelledBy arguments' options' →
      parseCommandLine fuel arguments' before = parseCommandLine fuel arguments before := by
  rw [parseCommandLine_eq spelled enough]
  refine ⟨?_, fun compatible => if_neg compatible, ?_⟩
  · by_cases conflict : Conflict options
    · simp [conflict]
    · simp [conflict]
  · intro options' arguments' reordered spelled'
    rw [parseCommandLine_eq spelled' (reordered.perm.length_eq ▸ enough), ← reordered.meaning before]
    exact if_congr reordered.conflict_iff.symm rfl rfl

/-- The words `-dr4 -p 1 -u a`, and the same options as `-ua -p1 -r 4 -d`. -/
theorem parseCommandLine_means_words :
    let options := [.debug, .repeats ['4'], .port ['1'], .host ['a']]
    let before := ClientSettings.defaults (.text []) 0
    parseCommandLine 5 [['-', 'd', 'r', '4'], ['-', 'p'], ['1'], ['-', 'u'], ['a']] before =
        .ok (meaning options before) ∧
      parseCommandLine 5 [['-', 'u', 'a'], ['-', 'p', '1'], ['-', 'r'], ['4'], ['-', 'd']] before =
        parseCommandLine 5 [['-', 'd', 'r', '4'], ['-', 'p'], ['1'], ['-', 'u'], ['a']] before := by
  intro options before
  have spelled : SpelledBy [['-', 'd', 'r', '4'], ['-', 'p'], ['1'], ['-', 'u'], ['a']] options :=
    .word (by decide) (.flag rfl (.attached rfl (by decide)
      (.word (by decide) (.separate rfl (.word (by decide) (.separate rfl .nil))))))
  have spelled' : SpelledBy [['-', 'u', 'a'], ['-', 'p', '1'], ['-', 'r'], ['4'], ['-', 'd']]
      options.reverse :=
    .word (by decide) (.attached rfl (by decide) (.word (by decide) (.attached rfl (by decide)
      (.word (by decide) (.separate rfl (.word (by decide) (.flag rfl .nil)))))))
  have reordered : Reordered options options.reverse := by
    intro letter
    rcases eq_or_ne 'd' letter with rfl | debug
    · rfl
    rcases eq_or_ne 'r' letter with rfl | repeats
    · rfl
    rcases eq_or_ne 'p' letter with rfl | port
    · rfl
    simp [options, List.filter_cons, ClientOption.letter, ClientOption.opt, debug, repeats, port]
  have means := parseCommandLine_means options _ before 5 spelled (by decide)
  exact ⟨means.2.1 (by decide), means.2.2 _ _ reordered spelled'⟩

end Sntp.CommandLine

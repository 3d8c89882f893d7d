import Sntp.Model.ClientSettings
import Sntp.ToMathlib.ListHistory

/-! # What a command line gives

The loop of `parse_command_line` folds over the options that `getopt` reads, and each option
overwrites the fields it is about. A field that the command line returns with is therefore the one
its newest option gives, or the one it had before.
-/

namespace Sntp

open Machine Getopt

/-- What an option gives for a field. -/
def hostOption : Opt → Option CharPtr
  | ('u', some optarg) => some (.text optarg)
  | _ => none

def manycastOption : Opt → Option ℤ
  | ('m', none) => some 1
  | _ => none

def portOption : Opt → Option ℤ
  | ('p', some optarg) => some (atoi optarg)
  | _ => none

def debugOption : Opt → Option ℤ
  | ('d', none) => some 1
  | _ => none

def repeatOption : Opt → Option ℤ
  | ('r', some _) => some 1
  | _ => none

def limitOption : Opt → Option ℤ
  | ('r', some optarg) => some (atoi optarg)
  | _ => none

/-- What an option does to the locals of `parse_command_line`. -/
def ParseLocals.apply (locals : ParseLocals) (opt : Opt) : ParseLocals where
  cSet := { locals.cSet with
    serverHost := (hostOption opt).getD locals.cSet.serverHost
    serverPort := (portOption opt).getD locals.cSet.serverPort
    debug := (debugOption opt).getD locals.cSet.debug
    timedRepeatUpdatesEnabled := (repeatOption opt).getD locals.cSet.timedRepeatUpdatesEnabled
    timedRepeatUpdatesLimit := (limitOption opt).getD locals.cSet.timedRepeatUpdatesLimit
    manycastEnabled := (manycastOption opt).getD locals.cSet.manycastEnabled }
  uniSet := ((hostOption opt).map fun _ => 1).getD locals.uniSet
  manySet := (manycastOption opt).getD locals.manySet

/-- The last value that the options of a command line give. -/
def given {α : Type} (select : Opt → Option α) (arguments : List Text) : Option α :=
  (options clientOptstring (.start arguments)).latest select

section

variable {locals : ParseLocals} {scanner next : Scanner}

theorem parseOption_of_not_more (nothing : ¬ scanner.More) :
    parseOption locals scanner = .ok (.inr locals) scanner := by
  rw [← wp_eq, parseOption, wp_bind, wp_get, if_neg nothing]
  rfl

/-- The five options of the client. -/
private theorem eq_of_wantsArgument {c : Char} {argument : Option Text}
    (known : wantsArgument clientOptstring c = some argument.isSome) :
    (∃ optarg, c = 'u' ∧ argument = some optarg) ∨ (c = 'm' ∧ argument = none) ∨
      (∃ optarg, c = 'p' ∧ argument = some optarg) ∨ (c = 'd' ∧ argument = none) ∨
      (∃ optarg, c = 'r' ∧ argument = some optarg) := by
  have letters : clientOptstring = ['u', ':', 'm', 'p', ':', 'd', 'r', ':'] := rfl
  rw [letters] at known
  cases argument with
  | none => simp [wantsArgument] at known ⊢; grind
  | some optarg => simp [wantsArgument] at known ⊢; grind

/-- An option is applied to the locals. -/
theorem parseOption_of_option {opt : Opt} (more : scanner.More)
    (read : getopt clientOptstring scanner = (.option opt, next)) :
    parseOption locals scanner = .ok (.inl (locals.apply opt)) next := by
  have called : nextOption scanner = .ok (.option opt) next := by rw [nextOption, read]
  rw [← wp_eq, parseOption, wp_bind, wp_get, if_pos more, wp_bind, wp_of_ok called]
  obtain ⟨c, argument⟩ := opt
  rcases eq_of_wantsArgument (wantsArgument_of_option read) with
    ⟨optarg, rfl, rfl⟩ | ⟨rfl, rfl⟩ | ⟨optarg, rfl, rfl⟩ | ⟨rfl, rfl⟩ | ⟨optarg, rfl, rfl⟩
  all_goals rfl

/-- The end of the options changes nothing. -/
theorem parseOption_of_finished (more : scanner.More)
    (read : getopt clientOptstring scanner = (.finished, next)) :
    parseOption locals scanner = .ok (.inl locals) next := by
  have called : nextOption scanner = .ok .finished next := by rw [nextOption, read]
  rw [← wp_eq, parseOption, wp_bind, wp_get, if_pos more, wp_bind, wp_of_ok called]
  rfl

/-- An option that is wrong ends the process. -/
theorem parseOption_of_unknown {optopt : Char} (locals : ParseLocals) (more : scanner.More)
    (read : getopt clientOptstring scanner = (.unknown optopt, next)) :
    ∃ halt ≠ Halt.outOfFuel, parseOption locals scanner = .error halt next := by
  have called : nextOption scanner = .ok (.unknown optopt) next := by rw [nextOption, read]
  by_cases repeats : optopt = 'r'
  · refine ⟨.exit 1, by simp, ?_⟩
    rw [← wp_eq, parseOption, wp_bind, wp_get, if_pos more, wp_bind, wp_of_ok called]
    dsimp only
    rw [if_pos repeats]
    rfl
  · refine ⟨.abort, by simp, ?_⟩
    rw [← wp_eq, parseOption, wp_bind, wp_get, if_pos more, wp_bind, wp_of_ok called]
    dsimp only
    rw [if_neg repeats]
    rfl

end

/-- The loop that returns has applied its options in order. -/
private theorem wp_parseOptions (fuel : ℕ) (locals : ParseLocals) (scanner : Scanner) :
    Wp (loop .outOfFuel parseOption fuel locals)
      (fun final _ => final = (options clientOptstring scanner).foldl ParseLocals.apply locals)
      (fun _ _ => True) scanner := by
  let target := (options clientOptstring scanner).foldl ParseLocals.apply locals
  refine wp_loop (fun locals scanner =>
    (options clientOptstring scanner).foldl ParseLocals.apply locals = target) ?_
    (fun _ _ _ => trivial) fuel locals rfl
  intro locals scanner invariant
  by_cases more : scanner.More
  · cases read : getopt clientOptstring scanner with
    | mk result next =>
      cases result with
      | option opt =>
        rw [options_of_option more read] at invariant
        exact (wp_of_ok (parseOption_of_option more read)).mpr invariant
      | unknown optopt =>
        obtain ⟨halt, -, stops⟩ := parseOption_of_unknown locals more read
        exact (wp_of_error stops).mpr trivial
      | finished =>
        rw [options_of_finished more read] at invariant
        exact (wp_of_ok (parseOption_of_finished more read)).mpr invariant
  · rw [options_of_not_more more] at invariant
    exact (wp_of_ok (parseOption_of_not_more more)).mpr invariant

/-- The settings that a command line leaves, over the settings it starts from. -/
structure ParsedAs (arguments : List Text) (before after : ClientSettings) : Prop where
  serverHost : after.serverHost = (given hostOption arguments).getD before.serverHost
  serverPort : after.serverPort = (given portOption arguments).getD before.serverPort
  debug : after.debug = (given debugOption arguments).getD before.debug
  recvUniTimeout : after.recvUniTimeout = before.recvUniTimeout
  maxUnicastRetries : after.maxUnicastRetries = before.maxUnicastRetries
  pollWait : after.pollWait = before.pollWait
  timedRepeatUpdatesEnabled : after.timedRepeatUpdatesEnabled =
    (given repeatOption arguments).getD before.timedRepeatUpdatesEnabled
  timedRepeatUpdatesLimit : after.timedRepeatUpdatesLimit =
    (given limitOption arguments).getD before.timedRepeatUpdatesLimit
  manycastEnabled : after.manycastEnabled = (given manycastOption arguments).getD before.manycastEnabled
  manycastWaitTime : after.manycastWaitTime = before.manycastWaitTime
  manycastAddress : after.manycastAddress = before.manycastAddress
  exclusive : given hostOption arguments = none ∨ given manycastOption arguments = none

/-- A field that no option is about is kept. -/
private theorem foldl_apply_kept {α : Type} {get : ParseLocals → α}
    (keeps : ∀ locals opt, get (locals.apply opt) = get locals) (opts : List Opt)
    (locals : ParseLocals) : get (opts.foldl ParseLocals.apply locals) = get locals := by
  induction opts generalizing locals with
  | nil => rfl
  | cons opt opts ih => rw [List.foldl_cons, ih, keeps]

/-- The option that enables manycast gives one. -/
theorem eq_one_of_manycastOption {arguments : List Text} {value : ℤ}
    (manycast : given manycastOption arguments = some value) : value = 1 := by
  obtain ⟨opt, -, enables⟩ := List.exists_mem_of_latest manycast
  unfold manycastOption at enables
  split at enables
  · exact (Option.some.inj enables).symm
  · simp at enables

/-- The check after the loop finds a command line that gives a host and enables manycast. -/
private theorem exclusive_of_sets {arguments : List Text} {locals : ParseLocals}
    (uniSet : locals.uniSet = ((given hostOption arguments).map fun _ => 1).getD 0)
    (manySet : locals.manySet = (given manycastOption arguments).getD 0)
    (compatible : ¬ (locals.uniSet ≠ 0 ∧ locals.manySet ≠ 0)) :
    given hostOption arguments = none ∨ given manycastOption arguments = none := by
  cases host : given hostOption arguments with
  | none => exact .inl rfl
  | some name =>
    cases manycast : given manycastOption arguments with
    | none => exact .inr rfl
    | some value =>
      rw [host] at uniSet
      rw [manycast, eq_one_of_manycastOption manycast] at manySet
      exact absurd ⟨by simp [uniSet], by simp [manySet]⟩ compatible

/-- `parse_command_line` returns with what the command line gives. -/
theorem parsedAs_of_ok {fuel : ℕ} {arguments : List Text} {before after : ClientSettings}
    (returned : parseCommandLine fuel arguments before = .ok after) :
    ParsedAs arguments before after := by
  rw [parseCommandLine] at returned
  cases parsed : loop .outOfFuel parseOption fuel ⟨before, 0, 0⟩ (Scanner.start arguments) with
  | error halt scanner => simp [parsed] at returned
  | ok locals scanner =>
    have applied := (wp_parseOptions fuel ⟨before, 0, 0⟩ (.start arguments)).of_ok parsed
    simp only [parsed] at returned
    split at returned
    · simp at returned
    · next compatible =>
      obtain rfl := Except.ok.inj returned
      have overwritten {α : Type} (get : ParseLocals → α) (select : Opt → Option α)
          (overwrites : ∀ locals opt, get (locals.apply opt) = (select opt).getD (get locals)) :
          get locals = (given select arguments).getD (get ⟨before, 0, 0⟩) := by
        rw [applied, List.get_foldl_eq_latest overwrites, given]
      have kept {α : Type} (get : ParseLocals → α)
          (keeps : ∀ locals opt, get (locals.apply opt) = get locals) :
          get locals = get ⟨before, 0, 0⟩ := by
        rw [applied, foldl_apply_kept keeps]
      exact
        { serverHost := overwritten (fun locals => locals.cSet.serverHost) _ fun _ _ => rfl
          serverPort := overwritten (fun locals => locals.cSet.serverPort) _ fun _ _ => rfl
          debug := overwritten (fun locals => locals.cSet.debug) _ fun _ _ => rfl
          recvUniTimeout := kept (fun locals => locals.cSet.recvUniTimeout) fun _ _ => rfl
          maxUnicastRetries := kept (fun locals => locals.cSet.maxUnicastRetries) fun _ _ => rfl
          pollWait := kept (fun locals => locals.cSet.pollWait) fun _ _ => rfl
          timedRepeatUpdatesEnabled :=
            overwritten (fun locals => locals.cSet.timedRepeatUpdatesEnabled) _ fun _ _ => rfl
          timedRepeatUpdatesLimit :=
            overwritten (fun locals => locals.cSet.timedRepeatUpdatesLimit) _ fun _ _ => rfl
          manycastEnabled := overwritten (fun locals => locals.cSet.manycastEnabled) _ fun _ _ => rfl
          manycastWaitTime := kept (fun locals => locals.cSet.manycastWaitTime) fun _ _ => rfl
          manycastAddress := kept (fun locals => locals.cSet.manycastAddress) fun _ _ => rfl
          exclusive := by
            have uniSet := overwritten ParseLocals.uniSet (fun opt => (hostOption opt).map fun _ => 1)
              fun _ _ => rfl
            have manySet := overwritten ParseLocals.manySet manycastOption fun _ _ => rfl
            rw [given, List.latest_map, ← given] at uniSet
            exact exclusive_of_sets uniSet manySet compatible }

/-- The settings of a configuration file; one that is not there has none. -/
def ConfigFile.settings : ConfigFile → Config
  | .valid cfg => cfg
  | _ => fun _ => none

/-- `get_client_settings` returns with what the command line gives over the configuration file. -/
theorem parsedAs_of_settings {fuel : ℕ} {file : ConfigFile} {arguments : List Text}
    {uninitialised cSet : ClientSettings}
    (returned : getClientSettings fuel file arguments uninitialised = .ok cSet) :
    ParsedAs arguments (parseConfigFile file.settings
      (.defaults uninitialised.serverHost uninitialised.manycastEnabled)) cSet := by
  cases file with
  | missing => exact parsedAs_of_ok returned
  | invalid => cases returned
  | valid cfg => exact parsedAs_of_ok returned

/-- The locals of two runs over one command line, whatever their settings are. -/
private def Alike (locals locals' : ParseLocals) : Prop :=
  locals.uniSet = locals'.uniSet ∧ locals.manySet = locals'.manySet

/-- Two runs take an option the same way. -/
private theorem parseOption_pair (locals locals' : ParseLocals) (scanner : Scanner)
    (alike : Alike locals locals') :
    Wp (parseOption locals)
      (fun next final => ∃ next', parseOption locals' scanner = .ok next' final ∧
        Sum.LiftRel Alike Alike next next')
      (fun _ _ => True) scanner := by
  by_cases more : scanner.More
  · cases read : getopt clientOptstring scanner with
    | mk result next =>
      have called : nextOption scanner = .ok result next := by rw [nextOption, read]
      rw [parseOption, wp_bind, wp_get, if_pos more, wp_bind, wp_of_ok called]
      simp only [← wp_eq, parseOption, wp_bind, wp_get, if_pos more, wp_of_ok called]
      split
      case h_1 => exact ⟨_, rfl, .inl alike⟩
      case h_2 => exact ⟨_, rfl, .inl ⟨rfl, alike.2⟩⟩
      case h_3 => exact ⟨_, rfl, .inl ⟨alike.1, rfl⟩⟩
      case h_4 => exact ⟨_, rfl, .inl alike⟩
      case h_5 => exact ⟨_, rfl, .inl alike⟩
      case h_6 => exact ⟨_, rfl, .inl alike⟩
      case h_7 => split <;> trivial
      case h_8 => trivial
  · rw [parseOption, wp_bind, wp_get, if_neg more]
    refine ⟨.inr locals', ?_, .inr alike⟩
    rw [← wp_eq, parseOption, wp_bind, wp_get, if_neg more]
    exact rfl

/-- Whether `parse_command_line` returns does not depend on the settings it starts from. -/
theorem exists_ok_of_ok {fuel : ℕ} {arguments : List Text} {before after : ClientSettings}
    (returned : parseCommandLine fuel arguments before = .ok after) (before' : ClientSettings) :
    ∃ after', parseCommandLine fuel arguments before' = .ok after' := by
  rw [parseCommandLine] at returned
  cases parsed : loop .outOfFuel parseOption fuel ⟨before, 0, 0⟩ (Scanner.start arguments) with
  | error halt scanner => simp [parsed] at returned
  | ok locals scanner =>
    simp only [parsed] at returned
    obtain ⟨locals', parsed', uniSet, manySet⟩ :=
      (wp_loop_pair Alike Alike parseOption_pair fuel ⟨before, 0, 0⟩ ⟨before', 0, 0⟩
        ⟨rfl, rfl⟩).of_ok parsed
    rw [uniSet, manySet] at returned
    split at returned
    · simp at returned
    · next compatible =>
      refine ⟨locals'.cSet, ?_⟩
      simp only [parseCommandLine, parsed', if_neg compatible]

/-- Whether `get_client_settings` returns does not depend on what its local holds at first. -/
theorem exists_settings {fuel : ℕ} {file : ConfigFile} {arguments : List Text}
    {uninitialised cSet : ClientSettings}
    (returned : getClientSettings fuel file arguments uninitialised = .ok cSet)
    (uninitialised' : ClientSettings) :
    ∃ cSet', getClientSettings fuel file arguments uninitialised' = .ok cSet' := by
  cases file with
  | missing => exact exists_ok_of_ok returned _
  | invalid => cases returned
  | valid cfg => exact exists_ok_of_ok returned _

end Sntp

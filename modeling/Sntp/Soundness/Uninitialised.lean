import Sntp.Proofs.CommandLine
import Sntp.Proofs.MainSteps

/-! # Mode and target of the client

`get_client_settings` leaves `manycast_enabled` and `server_host` to the command line, and there is
no default below it. Without `-m` the mode is what the local happens to hold, and without `-u` so is
the host. No command line has both options, so for every one of them some contents make a difference.
-/

namespace Sntp.Uninitialised

open Machine Getopt

/-- Main calls `unicast_mode` with the settings `chosen`: once, or in a turn of its repeat loop. -/
inductive CallsUnicast (env : Env) (fuel : ℕ) (cSet : ClientSettings) (ntpServers : ℕ → CharPtr)
    (world : World) (chosen : ClientSettings) : Prop
  | once {started : World} :
      chooseServer env fuel cSet ntpServers world = .ok chosen started →
      chosen.timedRepeatUpdatesEnabled ≠ 1 →
      CallsUnicast env fuel cSet ntpServers world chosen
  | repeated {started state ready : World} {turns : ℕ} {counter : ℤ} {initial totals : MainLocals} :
      chooseServer env fuel cSet ntpServers world = .ok chosen started →
      chosen.timedRepeatUpdatesEnabled = 1 →
      Turns (repeatSample env chosen fuel) turns (0, initial) started (counter, totals) state →
      counter < chosen.timedRepeatUpdatesLimit →
      loop .outOfFuel (waitPoll env chosen counter) fuel () state = .ok () ready →
      CallsUnicast env fuel cSet ntpServers world chosen

/-- The host is the first server that manycast discovery found. -/
def Discovered (env : Env) (fuel : ℕ) (cSet : ClientSettings) (ntpServers : ℕ → CharPtr)
    (world : World) (serverHost : CharPtr) : Prop :=
  cSet.manycastEnabled ≠ 0 ∧ ∃ table found,
    discoverUnicastServersWithManycast env cSet fuel ntpServers world = .ok (0, table) found ∧
    serverHost = table.ntpServers 0

/-- Every call of `unicast_mode` has its host from `-u` or from discovery. -/
def TargetGiven (arguments : List Text) (cSet : ClientSettings) : Prop :=
  ∀ env fuel ntpServers world chosen, CallsUnicast env fuel cSet ntpServers world chosen →
    given hostOption arguments = some chosen.serverHost ∨
      Discovered env fuel cSet ntpServers world chosen.serverHost

/-- Two runs get the same settings, go the same way and query a host they were given. -/
structure Determined (arguments : List Text) (cSet cSet' : ClientSettings) : Prop where
  agree : cSet = cSet'
  branch : cSet.manycastEnabled ≠ 0 ↔ cSet'.manycastEnabled ≠ 0
  target : TargetGiven arguments cSet
  target' : TargetGiven arguments cSet'

/-- The two contents agree where the command line does not overwrite them, and there is a target
unless no sample is asked for. -/
structure Settled (arguments : List Text) (uninitialised uninitialised' : ClientSettings) : Prop where
  mode : (given manycastOption arguments).isSome ∨
    uninitialised.manycastEnabled = uninitialised'.manycastEnabled
  host : (given hostOption arguments).isSome ∨ uninitialised.serverHost = uninitialised'.serverHost
  target : (given hostOption arguments).isSome ∨ (given manycastOption arguments).isSome ∨
    uninitialised.manycastEnabled ≠ 0 ∨ ∃ limit, given limitOption arguments = some limit ∧ limit ≤ 0

section

variable {env : Env} {cSet cSet' : ClientSettings} {fuel : ℕ} {arguments : List Text}
  {file : ConfigFile} {uninitialised uninitialised' : ClientSettings}

/-- Main that does not look for a server keeps its settings. -/
private theorem chosen_eq {ntpServers : ℕ → CharPtr} {world started : World} {chosen : ClientSettings}
    (unicast : cSet.manycastEnabled = 0)
    (choice : chooseServer env fuel cSet ntpServers world = .ok chosen started) : chosen = cSet := by
  have unchanged : Wp (chooseServer env fuel cSet ntpServers) (fun chosen _ => chosen = cSet)
      (fun _ _ => True) world :=
    wp_chooseServer (fun _ => rfl) fun _ _ _ manycast => absurd unicast manycast
  exact unchanged.of_ok choice

/-- Main that looks for a server goes on with one that it found. -/
private theorem discovered {ntpServers : ℕ → CharPtr} {world started : World} {chosen : ClientSettings}
    (manycast : cSet.manycastEnabled ≠ 0)
    (choice : chooseServer env fuel cSet ntpServers world = .ok chosen started) :
    Discovered env fuel cSet ntpServers world chosen.serverHost := by
  have found : Wp (chooseServer env fuel cSet ntpServers)
      (fun chosen _ => Discovered env fuel cSet ntpServers world chosen.serverHost)
      (fun _ _ => True) world :=
    wp_chooseServer (fun unicast => absurd unicast manycast) fun table found _ _ search =>
      ⟨manycast, table, found, search, rfl⟩
  exact found.of_ok choice

private theorem CallsUnicast.choice {ntpServers : ℕ → CharPtr} {world : World}
    {chosen : ClientSettings} (calls : CallsUnicast env fuel cSet ntpServers world chosen) :
    ∃ started, chooseServer env fuel cSet ntpServers world = .ok chosen started := by
  cases calls with
  | once choice => exact ⟨_, choice⟩
  | repeated choice => exact ⟨_, choice⟩

/-- A call in the repeat loop needs a limit above zero. -/
private theorem CallsUnicast.samples {ntpServers : ℕ → CharPtr} {world : World}
    {chosen : ClientSettings} (calls : CallsUnicast env fuel cSet ntpServers world chosen) :
    chosen.timedRepeatUpdatesEnabled ≠ 1 ∨ 0 < chosen.timedRepeatUpdatesLimit := by
  cases calls with
  | once _ single => exact .inl single
  | repeated _ _ run below _ =>
    have counted := counter_eq run
    simp only [zero_add] at counted
    omega

/-- Main that does not look for a server calls `unicast_mode` on some host, if it may at all. -/
private theorem exists_call (env : Env) (unicast : cSet.manycastEnabled = 0)
    (samples : cSet.timedRepeatUpdatesEnabled ≠ 1 ∨ 0 < cSet.timedRepeatUpdatesLimit)
    (ntpServers : ℕ → CharPtr) (world : World) :
    CallsUnicast env 1 cSet ntpServers world cSet := by
  have choice : chooseServer env 1 cSet ntpServers world = .ok cSet world := by
    rw [chooseServer, if_neg (not_not.mpr unicast)]
    rfl
  by_cases single : cSet.timedRepeatUpdatesEnabled = 1
  · have first : 0 < cSet.timedRepeatUpdatesLimit := samples.resolve_left (not_not.mpr single)
    have started : loop .outOfFuel (waitPoll env cSet 0) 1 () world = .ok () world := rfl
    have none : Turns (repeatSample env cSet 1) 0 (0, ⟨0, 0, 0⟩) world (0, ⟨0, 0, 0⟩) world := .none
    exact .repeated choice single none first started
  · exact .once choice single

/-- The target is given exactly when main looks for a server, has a host from the command line, or
takes no sample. -/
private theorem targetGiven_iff :
    TargetGiven arguments cSet ↔ cSet.manycastEnabled ≠ 0 ∨
      given hostOption arguments = some cSet.serverHost ∨
      (cSet.timedRepeatUpdatesEnabled = 1 ∧ cSet.timedRepeatUpdatesLimit ≤ 0) := by
  constructor
  · intro target
    by_contra! none
    obtain ⟨unicast, ungiven, samples⟩ := none
    have call := exists_call (.benign default fun _ => none) unicast
      (by rw [ne_eq, or_iff_not_imp_left, not_not]; exact samples) (fun _ => .ntoaBuffer)
      ⟨[], ⟨0, 0, default⟩, []⟩
    rcases target _ _ _ _ _ call with host | ⟨manycast, -⟩
    · exact ungiven host
    · exact manycast unicast
  · intro sources env fuel ntpServers world chosen calls
    obtain ⟨started, choice⟩ := calls.choice
    by_cases unicast : cSet.manycastEnabled = 0
    · obtain rfl := chosen_eq unicast choice
      rcases sources with manycast | host | ⟨enabled, limit⟩
      · exact absurd unicast manycast
      · exact .inl host
      · rcases calls.samples with single | first
        · exact absurd enabled single
        · exact absurd limit (not_le.mpr first)
    · exact .inr (discovered unicast choice)

/-- What two contents leave of a field that the command line may overwrite. -/
private theorem getD_eq_iff {α : Type} (commandLine : Option α) (content content' : α) :
    commandLine.getD content = commandLine.getD content' ↔
      commandLine.isSome ∨ content = content' := by
  cases commandLine <;> simp

/-- Two runs over the same inputs differ only in what the command line does not overwrite. -/
private theorem agree_iff
    (returned : getClientSettings fuel file arguments uninitialised = .ok cSet) {fuel' : ℕ}
    (returned' : getClientSettings fuel' file arguments uninitialised' = .ok cSet') :
    cSet = cSet' ↔
      ((given manycastOption arguments).isSome ∨
        uninitialised.manycastEnabled = uninitialised'.manycastEnabled) ∧
      ((given hostOption arguments).isSome ∨ uninitialised.serverHost = uninitialised'.serverHost) := by
  have parsed := parsedAs_of_settings returned
  have parsed' := parsedAs_of_settings returned'
  rw [← getD_eq_iff, ← getD_eq_iff]
  constructor
  · rintro rfl
    exact ⟨parsed.manycastEnabled.symm.trans parsed'.manycastEnabled,
      parsed.serverHost.symm.trans parsed'.serverHost⟩
  · rintro ⟨mode, host⟩
    have manycastEnabled := parsed.manycastEnabled.trans (mode.trans parsed'.manycastEnabled.symm)
    have serverHost := parsed.serverHost.trans (host.trans parsed'.serverHost.symm)
    cases cSet
    cases cSet'
    rw [ClientSettings.mk.injEq]
    exact ⟨serverHost, parsed.serverPort.trans parsed'.serverPort.symm,
      parsed.debug.trans parsed'.debug.symm,
      parsed.recvUniTimeout.trans parsed'.recvUniTimeout.symm,
      parsed.maxUnicastRetries.trans parsed'.maxUnicastRetries.symm,
      parsed.pollWait.trans parsed'.pollWait.symm,
      parsed.timedRepeatUpdatesEnabled.trans parsed'.timedRepeatUpdatesEnabled.symm,
      parsed.timedRepeatUpdatesLimit.trans parsed'.timedRepeatUpdatesLimit.symm, manycastEnabled,
      parsed.manycastWaitTime.trans parsed'.manycastWaitTime.symm,
      parsed.manycastAddress.trans parsed'.manycastAddress.symm⟩

/-- The options for the repeat mode and for its limit are the same option. -/
private theorem given_repeatOption :
    given repeatOption arguments = (given limitOption arguments).map fun _ => 1 := by
  have same : repeatOption = fun opt => (limitOption opt).map fun _ => 1 := by
    funext opt
    unfold repeatOption limitOption
    split <;> simp
  rw [same, given, List.latest_map, ← given]

/-- Where the target comes from, by the options of the command line. -/
private theorem target_iff
    (returned : getClientSettings fuel file arguments uninitialised = .ok cSet) :
    TargetGiven arguments cSet ↔ (given hostOption arguments).isSome ∨
      (given manycastOption arguments).isSome ∨ uninitialised.manycastEnabled ≠ 0 ∨
      ∃ limit, given limitOption arguments = some limit ∧ limit ≤ 0 := by
  have parsed := parsedAs_of_settings returned
  have manycastEnabled : cSet.manycastEnabled =
      (given manycastOption arguments).getD uninitialised.manycastEnabled := parsed.manycastEnabled
  have enabled : cSet.timedRepeatUpdatesEnabled = (given repeatOption arguments).getD 0 :=
    parsed.timedRepeatUpdatesEnabled
  have limit : cSet.timedRepeatUpdatesLimit = (given limitOption arguments).getD 4 :=
    parsed.timedRepeatUpdatesLimit
  have host : given hostOption arguments = some cSet.serverHost ↔
      (given hostOption arguments).isSome := by
    rw [parsed.serverHost]
    cases given hostOption arguments <;> simp
  have mode : cSet.manycastEnabled ≠ 0 ↔
      (given manycastOption arguments).isSome ∨ uninitialised.manycastEnabled ≠ 0 := by
    rw [manycastEnabled]
    cases manycast : given manycastOption arguments with
    | none => simp
    | some value => simp [eq_one_of_manycastOption manycast]
  have samples : cSet.timedRepeatUpdatesEnabled = 1 ∧ cSet.timedRepeatUpdatesLimit ≤ 0 ↔
      ∃ limit, given limitOption arguments = some limit ∧ limit ≤ 0 := by
    rw [enabled, limit, given_repeatOption]
    cases given limitOption arguments <;> simp
  rw [targetGiven_iff, host, mode, samples, or_left_comm, or_assoc]

/-- Two runs over the same inputs agree and have a target exactly when their contents are settled. -/
private theorem determined_of_settled_iff
    (returned : getClientSettings fuel file arguments uninitialised = .ok cSet) {fuel' : ℕ}
    (returned' : getClientSettings fuel' file arguments uninitialised' = .ok cSet') :
    Determined arguments cSet cSet' ↔ Settled arguments uninitialised uninitialised' := by
  constructor
  · intro determined
    obtain ⟨mode, host⟩ := (agree_iff returned returned').mp determined.agree
    exact ⟨mode, host, (target_iff returned).mp determined.target⟩
  · rintro ⟨mode, host, target⟩
    have agree := (agree_iff returned returned').mpr ⟨mode, host⟩
    have targetGiven := (target_iff returned).mpr target
    exact ⟨agree, by rw [agree], targetGiven, agree ▸ targetGiven⟩

/-- Every content has another that makes a difference. -/
private theorem exists_unsettled
    (returned : getClientSettings fuel file arguments uninitialised = .ok cSet) :
    ∃ other, ¬ Settled arguments uninitialised other := by
  rcases (parsedAs_of_settings returned).exclusive with host | manycast
  · obtain ⟨serverHost, other⟩ : ∃ serverHost, uninitialised.serverHost ≠ serverHost := by
      by_cases buffer : uninitialised.serverHost = .ntoaBuffer
      · exact ⟨.text [], by rw [buffer]; decide⟩
      · exact ⟨.ntoaBuffer, buffer⟩
    refine ⟨{ uninitialised with serverHost := serverHost }, fun settled => ?_⟩
    simpa [host, other] using settled.host
  · refine ⟨{ uninitialised with manycastEnabled := uninitialised.manycastEnabled + 1 },
      fun settled => ?_⟩
    simpa [manycast] using settled.mode

end

/-- Two runs of `get_client_settings` over the same inputs are determined exactly when the contents
of their locals are settled; and whatever these inputs are, some other content leaves the mode or
the host undetermined. -/
theorem determined_iff (fuel fuel' : ℕ) (file : ConfigFile) (arguments : List Text)
    (uninitialised uninitialised' cSet cSet' : ClientSettings)
    (returned : getClientSettings fuel file arguments uninitialised = .ok cSet)
    (returned' : getClientSettings fuel' file arguments uninitialised' = .ok cSet') :
    (Determined arguments cSet cSet' ↔ Settled arguments uninitialised uninitialised') ∧
    ∃ other cSet'', getClientSettings fuel file arguments other = .ok cSet'' ∧
      ¬ Determined arguments cSet cSet'' := by
  refine ⟨determined_of_settled_iff returned returned', ?_⟩
  obtain ⟨other, unsettled⟩ := exists_unsettled returned
  obtain ⟨cSet'', returned''⟩ := exists_settings returned other
  exact ⟨other, cSet'', returned'', (determined_of_settled_iff returned returned'').not.mpr unsettled⟩

/-- What the local may happen to hold. -/
def holding (serverHost : CharPtr) (manycastEnabled : ℤ) : ClientSettings :=
  .defaults serverHost manycastEnabled

/-- A host from the command line settles the host. -/
theorem determined_iff_host :
    Determined ["-u10.0.0.1".toList] (holding (.text "10.0.0.1".toList) 0)
      (holding (.text "10.0.0.1".toList) 0) := by
  have returned (serverHost : CharPtr) :
      getClientSettings 2 .missing ["-u10.0.0.1".toList] (holding serverHost 0) =
        .ok (holding (.text "10.0.0.1".toList) 0) := rfl
  refine (determined_iff 2 2 .missing ["-u10.0.0.1".toList] (holding .ntoaBuffer 0)
    (holding (.text []) 0) _ _ (returned _) (returned _)).1.mpr ⟨.inr rfl, .inl ?_, .inl ?_⟩
  · decide
  · decide

/-- Without options and configuration file the mode is what the local happens to hold, and so is
the host that `unicast_mode` is called with. -/
theorem not_determined_mode :
    getClientSettings 1 .missing [] (holding .ntoaBuffer 0) = .ok (holding .ntoaBuffer 0) ∧
      getClientSettings 1 .missing [] (holding .ntoaBuffer 1) = .ok (holding .ntoaBuffer 1) ∧
      ¬ Determined [] (holding .ntoaBuffer 0) (holding .ntoaBuffer 1) ∧
      ¬ TargetGiven [] (holding .ntoaBuffer 0) := by
  refine ⟨rfl, rfl, fun determined => ?_, fun target => ?_⟩
  · exact absurd determined.agree (by decide)
  · rw [targetGiven_iff] at target
    exact absurd target (by decide)

end Sntp.Uninitialised

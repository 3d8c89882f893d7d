import Sntp.Proofs.CommandLine

/-! # The precedence of settings

A setting of the client is what the command line gives, else what the configuration file gives,
else its default. `parse_config_file` does not look up three of the fields, so for these the
configuration file is ignored, which shows exactly when it gives another value than the default and
the command line gives none.
-/

namespace Sntp.Precedence

open Machine Getopt

/-- A value from the command line, else from the configuration file, else the default. -/
def layered {α : Type} (commandLine config : Option α) (default : α) : α :=
  (commandLine.or config).getD default

/-- Every field comes from the first layer that gives it. -/
structure FollowsPrecedence (file : ConfigFile) (arguments : List Text) (cSet : ClientSettings) :
    Prop where
  serverPort : cSet.serverPort = layered (given portOption arguments)
    (configLookupInt file.settings "server_port".toList) 123
  debug : cSet.debug = layered (given debugOption arguments)
    (configLookupBool file.settings "debug".toList) 0
  recvUniTimeout : cSet.recvUniTimeout = layered none
    (configLookupInt file.settings "recv_uni_timeout".toList) 10
  maxUnicastRetries : cSet.maxUnicastRetries = layered none
    (configLookupInt file.settings "max_unicast_retries".toList) 2
  pollWait : cSet.pollWait = layered none (configLookupInt file.settings "poll_wait".toList) 15
  timedRepeatUpdatesEnabled : cSet.timedRepeatUpdatesEnabled = layered (given repeatOption arguments)
    (configLookupBool file.settings "timed_repeat_updates_enabled".toList) 0
  timedRepeatUpdatesLimit : cSet.timedRepeatUpdatesLimit = layered (given limitOption arguments)
    (configLookupInt file.settings "timed_repeat_updates_limit".toList) 4
  manycastWaitTime : cSet.manycastWaitTime = layered none
    (configLookupInt file.settings "manycast_wait_time".toList) 2
  manycastAddress : cSet.manycastAddress = layered none
    (configLookupString file.settings "manycast_address".toList) "224.0.1.1".toList

/-- It makes no difference that the configuration file is ignored. -/
def Indifferent {α : Type} (commandLine config : Option α) (default : α) : Prop :=
  commandLine.isSome ∨ config = none ∨ config = some default

/-- Without the configuration file a field is as it should be if and only if the file makes no
difference. -/
private theorem getD_eq_layered_iff {α : Type} (commandLine config : Option α) (default : α) :
    commandLine.getD default = layered commandLine config default ↔
      Indifferent commandLine config default := by
  cases commandLine with
  | some value => simp [layered, Indifferent]
  | none =>
    cases config with
    | none => simp [layered, Indifferent]
    | some value => simp [layered, Indifferent, eq_comm]

/-- The settings that `get_client_settings` returns follow the precedence exactly when it makes no
difference that the configuration file is ignored for the three fields it is not asked for. -/
theorem followsPrecedence_iff (fuel : ℕ) (file : ConfigFile) (arguments : List Text)
    (uninitialised cSet : ClientSettings)
    (returned : getClientSettings fuel file arguments uninitialised = .ok cSet) :
    FollowsPrecedence file arguments cSet ↔
      Indifferent (given debugOption arguments) (configLookupBool file.settings "debug".toList) 0 ∧
      Indifferent (given repeatOption arguments)
        (configLookupBool file.settings "timed_repeat_updates_enabled".toList) 0 ∧
      Indifferent (given limitOption arguments)
        (configLookupInt file.settings "timed_repeat_updates_limit".toList) 4 := by
  have parsed := parsedAs_of_settings returned
  have layers {α : Type} (commandLine config : Option α) (default : α) :
      commandLine.getD (config.getD default) = layered commandLine config default := by
    cases commandLine <;> rfl
  constructor
  · intro follows
    refine ⟨?_, ?_, ?_⟩
    · rw [← getD_eq_layered_iff, ← follows.debug]
      exact parsed.debug.symm
    · rw [← getD_eq_layered_iff, ← follows.timedRepeatUpdatesEnabled]
      exact parsed.timedRepeatUpdatesEnabled.symm
    · rw [← getD_eq_layered_iff, ← follows.timedRepeatUpdatesLimit]
      exact parsed.timedRepeatUpdatesLimit.symm
  · rintro ⟨debug, enabled, limit⟩
    exact
      { serverPort := parsed.serverPort.trans (layers ..)
        debug := parsed.debug.trans ((getD_eq_layered_iff ..).mpr debug)
        recvUniTimeout := parsed.recvUniTimeout
        maxUnicastRetries := parsed.maxUnicastRetries
        pollWait := parsed.pollWait
        timedRepeatUpdatesEnabled :=
          parsed.timedRepeatUpdatesEnabled.trans ((getD_eq_layered_iff ..).mpr enabled)
        timedRepeatUpdatesLimit :=
          parsed.timedRepeatUpdatesLimit.trans ((getD_eq_layered_iff ..).mpr limit)
        manycastWaitTime := parsed.manycastWaitTime
        manycastAddress := parsed.manycastAddress }

/-- A configuration file that gives one setting. -/
def oneSetting (name : Text) (value : ConfigValue) : ConfigFile :=
  .valid fun path => if path = name then some value else none

/-- What the local that holds the settings may happen to hold. -/
def zeroed : ClientSettings := .defaults (.text []) 0

/-- The port of the command line comes before the port of the configuration file. -/
theorem followsPrecedence_iff_port :
    FollowsPrecedence (oneSetting "server_port".toList (.int 6001)) ["-p".toList, "7".toList]
      { zeroed with serverPort := 7 } := by
  have returned : getClientSettings 3 (oneSetting "server_port".toList (.int 6001))
      ["-p".toList, "7".toList] zeroed = .ok { zeroed with serverPort := 7 } := by
    rfl
  refine (followsPrecedence_iff _ _ _ _ _ returned).mpr ⟨.inr (.inl ?_), .inr (.inl ?_), .inr (.inl ?_)⟩
  · decide
  · decide
  · decide

/-- Debug output that the configuration file asks for is not enabled. -/
theorem debug_ignored :
    getClientSettings 1 (oneSetting "debug".toList (.bool true)) [] zeroed = .ok zeroed ∧
      ¬ FollowsPrecedence (oneSetting "debug".toList (.bool true)) [] zeroed := by
  refine ⟨rfl, fun follows => ?_⟩
  have debug := follows.debug
  have asked : layered (given debugOption [])
      (configLookupBool (oneSetting "debug".toList (.bool true)).settings "debug".toList) 0 = 1 := by
    decide
  rw [asked] at debug
  exact absurd debug (by decide)

end Sntp.Precedence

import Sntp.Machine.Getopt
import Sntp.Model.ConfigFile
import Sntp.Model.Environment

/-! # The settings of the client

`get_client_settings` fills in its defaults, then what the configuration file has, then what the
command line has. Its `struct client_settings` is a local that nothing initialises, so what it holds
at first is an argument.
-/

namespace Sntp

open Machine Getopt

/-- How the process ends before it has its settings. -/
inductive Halt where
  | outOfFuel
  | exit (code : ℤ)
  | abort
deriving DecidableEq, Repr

/-- `parse_config_file`, for a file that `setup_config_file` has read. -/
def parseConfigFile (cfg : Config) (cSet : ClientSettings) : ClientSettings :=
  { cSet with
    manycastAddress :=
      (configLookupString cfg "manycast_address".toList).getD cSet.manycastAddress
    manycastWaitTime := (configLookupInt cfg "manycast_wait_time".toList).getD cSet.manycastWaitTime
    serverPort := (configLookupInt cfg "server_port".toList).getD cSet.serverPort
    recvUniTimeout := (configLookupInt cfg "recv_uni_timeout".toList).getD cSet.recvUniTimeout
    maxUnicastRetries :=
      (configLookupInt cfg "max_unicast_retries".toList).getD cSet.maxUnicastRetries
    pollWait := (configLookupInt cfg "poll_wait".toList).getD cSet.pollWait }

/-- The option string of the client. -/
def clientOptstring : List Char := "u:mp:dr:".toList

/-- What `parse_command_line` changes as it goes. -/
structure ParseLocals where
  cSet : ClientSettings
  uniSet : ℤ
  manySet : ℤ
deriving DecidableEq, Repr

/-- The next `getopt`, at the scanner that `optind` and its other variables are. -/
def nextOption : EStateM Halt Scanner Getopt.Result := fun scanner =>
  .ok (getopt clientOptstring scanner).1 (getopt clientOptstring scanner).2

/-- The body of `while (optind < argc)`. An option of `clientOptstring` has an argument exactly when
it takes one. -/
def parseOption (locals : ParseLocals) : EStateM Halt Scanner (ParseLocals ⊕ ParseLocals) := do
  if (← get).More then
    match ← nextOption with
    | .finished => return .inl locals
    | .option ('u', some optarg) =>
      return .inl { locals with cSet := { locals.cSet with serverHost := .text optarg }, uniSet := 1 }
    | .option ('m', none) =>
      return .inl { locals with manySet := 1, cSet := { locals.cSet with manycastEnabled := 1 } }
    | .option ('p', some optarg) =>
      return .inl { locals with cSet := { locals.cSet with serverPort := atoi optarg } }
    | .option ('d', none) => return .inl { locals with cSet := { locals.cSet with debug := 1 } }
    | .option ('r', some optarg) =>
      return .inl { locals with cSet := { locals.cSet with
        timedRepeatUpdatesEnabled := 1, timedRepeatUpdatesLimit := atoi optarg } }
    | .unknown optopt => if optopt = 'r' then throw (.exit 1) else throw .abort
    | .option _ => throw .abort
  else return .inr locals

/-- `parse_command_line`, at the words after the name of the program. -/
def parseCommandLine (fuel : ℕ) (arguments : List Text) (cSet : ClientSettings) :
    Except Halt ClientSettings :=
  match loop .outOfFuel parseOption fuel ⟨cSet, 0, 0⟩ (.start arguments) with
  | .error halt _ => .error halt
  | .ok locals _ =>
    if locals.uniSet ≠ 0 ∧ locals.manySet ≠ 0 then .error (.exit 1) else .ok locals.cSet

/-- `get_client_settings`. -/
def getClientSettings (fuel : ℕ) (file : ConfigFile) (arguments : List Text)
    (uninitialised : ClientSettings) : Except Halt ClientSettings :=
  let cSet := ClientSettings.defaults uninitialised.serverHost uninitialised.manycastEnabled
  match file with
  | .missing => parseCommandLine fuel arguments cSet
  | .invalid => .error (.exit 1)
  | .valid cfg => parseCommandLine fuel arguments (parseConfigFile cfg cSet)

end Sntp

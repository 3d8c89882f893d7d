import Sntp.Model.Libconfig.Grammar
import Sntp.ToMathlib.Decimal

/-! # Setting up the configuration file

The client and the server read their configuration files with `libconfig`, and both look settings up by
name. A configuration is what its lookups find.
-/

namespace Sntp

open Libconfig (Setting ConfigT Platform autoConvert configHasOption configLookup configReadFile)

/-- `CONFIG_FILE` of the client. -/
def clientConfigFile : Text := "client_config.cfg".toList

/-- `CONFIG_FILE` of the server. -/
def serverConfigFile : Text := "server_config.cfg".toList

/-- The type and the value of a setting that points to this configuration. A float is an integer where
the configuration asks for conversion. -/
def ConfigValue.of (intOf : ℚ → Int32) (config : ConfigT ℚ) : Setting ℚ → ConfigValue
  | .bool ival => .bool (ival ≠ 0)
  | .int ival _ => .int ival
  | .int64 llval _ => .int64 llval
  | .float fval => if configHasOption config autoConvert then .int (intOf fval) else .float fval
  | .string sval => .string sval
  | .array _ | .list _ | .group _ => .aggregate

/-- What the lookups of a configuration find. The settings point to the local variable that
`setup_config_file` returned a copy of; `options` is what a lookup finds there. -/
def Config.of (platform : Platform ℚ) (options : Text → ℕ) (config : ConfigT ℚ) : Config := fun path =>
  (configLookup config path).map (ConfigValue.of platform.intOf { config with options := options path })

/-- `__io_error`. -/
def ioError : Text := "file I/O error".toList

/-- The line about a file that cannot be read. A null pointer is printed as `(null)`. -/
def readErrorLine (file : Option Text) (line : ℕ) (text : Text) : Text :=
  "error reading config file(".toList ++ file.getD "(null)".toList ++ ":".toList ++ Decimal.digits 0 line ++
    " - ".toList ++ text ++ ")\n".toList

/-- `setup_config_file`: a configuration, or the line that is printed before the program exits. -/
def setupConfigFile (platform : Platform ℚ) (fuel : ℕ) (config_file : Text) :
    Option (Except Text (ConfigT ℚ)) :=
  match configReadFile platform fuel .init config_file with
  | .outOfFuel => none
  | .ioError => some (.error (readErrorLine none 0 ioError))
  | .failed error => some (.error (readErrorLine error.errorFile error.errorLine error.errorText))
  | .ok config _ => some (.ok config)

/-- What a program finds at the path of its configuration file, which it looks for with `access`. -/
def ConfigFile.at (platform : Platform ℚ) (options : Text → ℕ) (access : Text → Bool) (fuel : ℕ)
    (path : Text) : Option ConfigFile :=
  if access path then
    match setupConfigFile platform fuel path with
    | none => none
    | some (.error _) => some .invalid
    | some (.ok config) => some (.valid (.of platform options config))
  else some .missing

end Sntp

import Sntp.Model.Time
import Sntp.Model.Address

/-! # The configuration file and numbers in text

A configuration file as `libconfig` presents it: settings under names, each of one type. A lookup
writes its out-parameter exactly when the setting exists with a type that it accepts. A float is not an
integer; one that automatic conversion makes an integer is presented as that.
-/

namespace Sntp

/-- The value of a setting. `aggregate` stands for groups, arrays and lists. -/
inductive ConfigValue where
  | int (value : Int32)
  | int64 (value : Int64)
  | float (value : ℚ)
  | string (value : Text)
  | bool (value : Bool)
  | aggregate
deriving DecidableEq, Repr

/-- `config_t`, by the names of its settings. -/
abbrev Config := Text → Option ConfigValue

/-- What the client finds at the path of its configuration file. -/
inductive ConfigFile where
  | missing
  | invalid
  | valid (cfg : Config)

/-- `config_lookup_int`: a wider integer that does not fit is zero. -/
def configLookupInt (cfg : Config) (path : Text) : Option ℤ :=
  match cfg path with
  | some (.int value) => some value.toInt
  | some (.int64 value) =>
    if 2 ^ 31 - 1 < value.toInt ∨ value.toInt < -2 ^ 31 then some 0 else some value.toInt
  | _ => none

/-- `config_lookup_bool`. -/
def configLookupBool (cfg : Config) (path : Text) : Option ℤ :=
  match cfg path with
  | some (.bool value) => some (if value then 1 else 0)
  | _ => none

/-- `config_lookup_string`. -/
def configLookupString (cfg : Config) (path : Text) : Option Text :=
  match cfg path with
  | some (.string value) => some value
  | _ => none

/-- `isspace` in the C locale. -/
def isSpace (c : Char) : Bool := c = ' ' ∨ ('\t' ≤ c ∧ c ≤ '\r')

/-- The number that the leading digits of a text denote. -/
def leadingNumber (number : ℕ) : Text → ℕ
  | [] => number
  | c :: rest =>
    match digitValue c with
    | some digit => leadingNumber (number * 10 + digit) rest
    | none => number

/-- `atoi`: `strtol` in base ten, which stops at the limits of a `long`, narrowed to `int`. -/
def atoi (text : Text) : ℤ :=
  match text.dropWhile isSpace with
  | '-' :: digits => toInt (max (-2 ^ 63) (-leadingNumber 0 digits))
  | '+' :: digits => toInt (min (2 ^ 63 - 1) (leadingNumber 0 digits))
  | digits => toInt (min (2 ^ 63 - 1) (leadingNumber 0 digits))

end Sntp

import Sntp.Model.Libconfig.Grammar
import Sntp.ToMathlib.Decimal

/-! # The writer of `libconfig`

The text of a configuration, with the layout that its options and its tab width choose. Depth 0 is the
root.
-/

namespace Libconfig

open Sntp (Text)

variable {F : Type}

/-- `CONFIG_OPTION_SEMICOLON_SEPARATORS` and the options after it. -/
def semicolonSeparators : ℕ := 0x02

def colonAssignmentForGroups : ℕ := 0x04

def colonAssignmentForNonGroups : ℕ := 0x08

def openBraceOnSeparateLine : ℕ := 0x10

/-- `config_setting_get_format`, for the format that the setting has. -/
def configSettingGetFormat (defaultFormat : Format) : Format → Format
  | .default => defaultFormat
  | .hex => .hex

/-- `"%X"`. -/
def hexText (number : ℕ) : Text := (Nat.toDigits 16 number).map Char.toUpper

/-- `__config_indent`. A text of a space is padded on the left. -/
def configIndent (depth w : ℕ) : Text :=
  if w = 0 then List.replicate (depth - 1) '\t' else [' '].leftpad ((depth - 1) * w) ' '

/-- A character of a string. -/
def escapeChar (c : Char) : Text :=
  if c = '"' ∨ c = '\\' then ['\\', c]
  else if c = '\n' then ['\\', 'n']
  else if c = '\r' then ['\\', 'r']
  else if c = '\x0c' then ['\\', 'f']
  else if c = '\t' then ['\\', 't']
  else if ' ' ≤ c then [c]
  else '\\' :: 'x' :: (hexText c.toNat).leftpad 2 '0'

/-- The text of a string. -/
def stringText (sval : Text) : Text := '"' :: (cString sval).flatMap escapeChar ++ ['"']

/-- The zeros at the end are cut off; the first character is never looked at. -/
def stripZeros : Text → Text
  | [] => []
  | c :: rest =>
    match (rest.reverse.dropWhile (· = '0')).reverse with
    | [] => c :: rest
    | kept => c :: kept

/-- The text of a float, from what `snprintf` leaves in the buffer. -/
def floatText (fbuf : Text) : Text :=
  if 'e' ∈ fbuf then fbuf else if '.' ∈ fbuf then stripZeros fbuf else fbuf ++ ['.', '0']

/-- `__config_write_setting`, around the text of its value. -/
def configWriteSetting (config : ConfigT F) (depth : ℕ) (name : Option Text) (type : SettingType)
    (value : Text) : Text :=
  let groupAssignChar := if configHasOption config colonAssignmentForGroups then ':' else '='
  let nongroupAssignChar := if configHasOption config colonAssignmentForNonGroups then ':' else '='
  (if 1 < depth then configIndent depth config.tabWidth else []) ++
    (match name with
      | some name => name ++ [' ', if type = .group then groupAssignChar else nongroupAssignChar, ' ']
      | none => []) ++
    value ++
    (if 0 < depth then
      (if configHasOption config semicolonSeparators then [';'] else []) ++ ['\n']
    else [])

section

variable (platform : Platform F) (config : ConfigT F)

mutual

/-- `__config_write_value`. -/
def configWriteValue (depth : ℕ) : Setting F → Text
  | .bool ival => if ival ≠ 0 then "true".toList else "false".toList
  | .int ival format =>
    match configSettingGetFormat config.defaultFormat format with
    | .hex => '0' :: 'x' :: hexText ival.toUInt32.toNat
    | .default => Decimal.zeroPadded 0 ival.toInt
  | .int64 llval format =>
    match configSettingGetFormat config.defaultFormat format with
    | .hex => '0' :: 'x' :: hexText llval.toUInt64.toNat ++ ['L']
    | .default => Decimal.zeroPadded 0 llval.toInt ++ ['L']
  | .float fval => floatText (platform.formatFloat fval)
  | .string sval => stringText sval
  | .list elements => '(' :: ' ' :: writeElements depth elements ++ [')']
  | .array elements => '[' :: ' ' :: writeElements depth elements ++ [']']
  | .group members =>
    (if 0 < depth then
      (if configHasOption config openBraceOnSeparateLine then
        '\n' :: (if 1 < depth then configIndent depth config.tabWidth else [])
      else []) ++ ['{', '\n']
    else []) ++
    writeMembers depth members ++
    (if 1 < depth then configIndent depth config.tabWidth else []) ++
    (if 0 < depth then ['}'] else [])

/-- The loop over the elements of a vector. -/
def writeElements (depth : ℕ) : List (Setting F) → Text
  | [] => []
  | element :: rest =>
    configWriteValue (depth + 1) element ++ (if rest.isEmpty then [] else [',']) ++
      ' ' :: writeElements depth rest

/-- The loop over the members of a group. -/
def writeMembers (depth : ℕ) : List (Text × Setting F) → Text
  | [] => []
  | (name, setting) :: rest =>
    configWriteSetting config (depth + 1) (some name) setting.type (configWriteValue (depth + 1) setting) ++
      writeMembers depth rest

end

/-- `config_write`. -/
def configWrite : Text :=
  configWriteSetting config 0 none config.root.type (configWriteValue platform config 0 config.root)

end

end Libconfig

import Sntp.Model.Libconfig.Scanner

/-! # The parser of `libconfig`

The parser takes a token at a time. Between two tokens it is in a phase of the grammar, with the groups,
arrays and lists around it on a stack. Reductions that need no token are part of the step that makes
them possible. A setting under construction is kept apart from the settings before it until its value
is complete. The stack of grammar symbols that the generated parser keeps is counted: it has a limit,
which a text with enough brackets reaches.
-/

namespace Libconfig

open Sntp (Text)
open Machine

variable {F : Type}

/-- Where a value goes: `ctx->parent`, and in a group the name of `ctx->setting`. -/
inductive Place (F : Type) where
  | member (members : List (Text × Setting F)) (name : Text)
  | array (elements : List (Setting F))
  | list (elements : List (Setting F))

/-- What the parser expects. -/
inductive Phase (F : Type) where
  /-- a setting, or the end of the group -/
  | settings (members : List (Text × Setting F))
  /-- the sign behind a name -/
  | equals (members : List (Text × Setting F)) (name : Text)
  | value (place : Place F)
  /-- a first element, or the end of the vector -/
  | first (place : Place F)
  /-- more of a string, or what comes behind it -/
  | string (place : Place F) (text : Text)
  /-- a terminator, or what comes behind the setting -/
  | terminator (members : List (Text × Setting F))
  /-- a comma, or the end of the vector -/
  | separator (place : Place F)

/-- The state of the parser, with the innermost place around the phase first. -/
structure Parse (F : Type) where
  phase : Phase F
  around : List (Place F)

/-- The message of `yyerror` for an unexpected token. -/
def errSyntax : Text := "syntax error".toList

/-- The message of `yyerror` for a stack that cannot grow. -/
def errMemoryExhausted : Text := "memory exhausted".toList

/-- `YYMAXDEPTH`, the size up to which the stack grows. -/
def yyMaxDepth : ℕ := 10000

/-- The symbols of `setting_list`, if there are settings. -/
def listed (members : List (Text × Setting F)) : ℕ := if members.isEmpty then 0 else 1

/-- The symbols before the value at a place: `setting_list TOK_NAME $@1 TOK_EQUALS` in a group, and
`value_list TOK_COMMA` or its like in a vector that has elements. -/
def Place.symbols : Place F → ℕ
  | .member members _ => listed members + 3
  | .array elements | .list elements => if elements.isEmpty then 0 else 2

/-- The symbols that the places around put on the stack. At each one a bracket is open, with the empty
symbol of its action behind it. -/
def symbolsAround (around : List (Place F)) : ℕ := (around.map fun place => place.symbols + 2).sum

/-- `yynewstate`, for this many symbols on the stack. Below them is the state of the start. -/
def yynewstate (maxDepth symbols : ℕ) : Except Text Unit :=
  if symbols + 1 < maxDepth then .ok () else .error errMemoryExhausted

/-- `err_array_elem_type`. -/
def errArrayElemType : Text := "mismatched element type in array".toList

/-- `err_duplicate_setting`. -/
def errDuplicateSetting : Text := "duplicate setting name".toList

/-- `__config_vector_checktype`, for an array. -/
def configVectorChecktype (elements : List (Setting F)) (type : SettingType) : Bool :=
  match elements with
  | [] => true
  | element :: _ => element.type = type

/-- Whether `config_setting_add` adds a setting to a group. -/
def configSettingAdd (members : List (Text × Setting F)) (name : Text) : Bool :=
  configValidateName name && (configListSearch members name).isNone

/-- The setting that a simple value gives. -/
def Token.simple : Token F → Option (Setting F)
  | .boolean ival => some (.bool ival)
  | .integer ival => some (.int ival .default)
  | .hex ival => some (.int ival .hex)
  | .integer64 llval => some (.int64 llval .default)
  | .hex64 llval => some (.int64 llval .hex)
  | .float fval => some (.float fval)
  | _ => none

/-- A value is complete. The elements of an array have one type. -/
def put (place : Place F) (value : Setting F) : Except Text (Phase F) :=
  match place with
  | .member members name => .ok (.terminator (members ++ [(name, value)]))
  | .array elements =>
    if configVectorChecktype elements value.type then .ok (.separator (.array (elements ++ [value])))
    else .error errArrayElemType
  | .list elements => .ok (.separator (.list (elements ++ [value])))

/-- A group, array or list is complete. -/
def close (value : Setting F) (around : List (Place F)) : Except Text (Parse F) :=
  match around with
  | [] => .error errSyntax
  | place :: around => do return ⟨← put place value, around⟩

section

variable (maxDepth : ℕ)

/-- `setting_list_optional` goes on or ends. For every token but a name it is reduced first. -/
def feedSettings (members : List (Text × Setting F)) (around : List (Place F)) :
    Token F → Except Text (Parse F ⊕ Setting F)
  | .name sval => do
    yynewstate maxDepth (symbolsAround around + listed members + 1)
    if configSettingAdd members sval then
      yynewstate maxDepth (symbolsAround around + listed members + 2)
      return .inl ⟨.equals members sval, around⟩
    else .error errDuplicateSetting
  | .groupEnd => do
    yynewstate maxDepth (symbolsAround around + 2)
    return .inl (← close (.group members) around)
  | .eof =>
    match around with
    | [] => .ok (.inr (.group members))
    | _ :: _ => do
      yynewstate maxDepth (symbolsAround around + 1)
      .error errSyntax
  | _ => do
    yynewstate maxDepth (symbolsAround around + 1)
    .error errSyntax

/-- `value`, and in an array `simple_value`. A bracket comes with the empty symbol of its action. -/
def feedValue (place : Place F) (around : List (Place F)) (token : Token F) : Except Text (Parse F) :=
  let before := symbolsAround around + place.symbols
  match token.simple with
  | some value => do
    yynewstate maxDepth (before + 1)
    return ⟨← put place value, around⟩
  | none =>
    match token, place with
    | .string sval, _ => do
      yynewstate maxDepth (before + 1)
      return ⟨.string place sval, around⟩
    | _, .array _ => .error errSyntax
    | .arrayStart, _ => do
      yynewstate maxDepth (before + 2)
      return ⟨.first (.array []), place :: around⟩
    | .listStart, _ => do
      yynewstate maxDepth (before + 2)
      return ⟨.first (.list []), place :: around⟩
    | .groupStart, _ => do
      yynewstate maxDepth (before + 2)
      return ⟨.settings [], place :: around⟩
    | _, _ => .error errSyntax

/-- The end of an array or list, behind `value_list_optional` or its like. -/
def feedEnd (place : Place F) (around : List (Place F)) (token : Token F) : Except Text (Parse F) :=
  match place, token with
  | .array elements, .arrayEnd => do
    yynewstate maxDepth (symbolsAround around + 2)
    close (.array elements) around
  | .list elements, .listEnd => do
    yynewstate maxDepth (symbolsAround around + 2)
    close (.list elements) around
  | _, _ => .error errSyntax

/-- A first element or the end of a vector. -/
def feedFirst (place : Place F) (around : List (Place F)) (token : Token F) : Except Text (Parse F) := do
  -- every token leads to a symbol: it is a value, or the empty list is reduced
  yynewstate maxDepth (symbolsAround around + 1)
  match token with
  | .arrayEnd | .listEnd => feedEnd maxDepth place around token
  | _ => feedValue maxDepth place around token

/-- What follows a value in a group. Behind it are `setting_list` for the settings before it,
`TOK_NAME $@1 TOK_EQUALS value` and `setting_terminator`, which may be empty. -/
def feedTerminator (members : List (Text × Setting F)) (around : List (Place F)) (token : Token F) :
    Except Text (Parse F ⊕ Setting F) := do
  yynewstate maxDepth (symbolsAround around + listed members.dropLast + 5)
  match token with
  | .semicolon | .comma => return .inl ⟨.settings members, around⟩
  | _ => feedSettings maxDepth members around token

/-- A token in a phase that no string is open in. -/
def feedPhase (phase : Phase F) (around : List (Place F)) (token : Token F) :
    Except Text (Parse F ⊕ Setting F) :=
  match phase, token with
  | .settings members, _ => feedSettings maxDepth members around token
  | .equals members name, .equals => do
    yynewstate maxDepth (symbolsAround around + listed members + 3)
    return .inl ⟨.value (.member members name), around⟩
  | .value place, _ => do return .inl (← feedValue maxDepth place around token)
  | .first place, _ => do return .inl (← feedFirst maxDepth place around token)
  | .terminator members, _ => feedTerminator maxDepth members around token
  | .separator place, .comma => do
    yynewstate maxDepth (symbolsAround around + 2)
    return .inl ⟨.value place, around⟩
  | .separator place, _ => do return .inl (← feedEnd maxDepth place around token)
  | _, _ => .error errSyntax

/-- A token. Only a string has to see the next token before it is complete; an error of the scanner is
the one that is reported. -/
def feed (parse : Parse F) (token : Token F) : Except Text (Parse F ⊕ Setting F) :=
  match token, parse.phase with
  | .error text, _ => .error text
  | .string sval, .string place text => do
    yynewstate maxDepth (symbolsAround parse.around + place.symbols + 2)
    return .inl ⟨.string place (text ++ sval), parse.around⟩
  | _, .string place text => do
    let phase ← put place (.string text)
    feedPhase maxDepth phase parse.around token
  | _, phase => feedPhase maxDepth phase parse.around token

/-- A turn of the parser. -/
def parseToken (parse : Parse F) (token : Token F) : EStateM ReadStop Scan (Parse F ⊕ Setting F) :=
  match feed maxDepth parse token with
  | .ok next => return next
  | .error text => throw (.error text)

/-- `libconfig_yyparse`, with a stack that can grow to the given size. -/
def yyparse (platform : Platform F) (includeDir : Option Text) (fuel : ℕ) :
    EStateM ReadStop Scan (Setting F) :=
  loop .outOfFuel (fun parse => do parseToken maxDepth parse (← yylex platform includeDir fuel)) fuel
    (⟨.settings [], []⟩ : Parse F)

end

/-- What an application gets when reading fails: `error_text`, `error_file`, `error_line`. -/
structure ConfigError where
  errorText : Text
  errorFile : Option Text
  errorLine : ℕ
deriving DecidableEq, Repr

/-- How `__config_read` and `config_read_file` end. -/
inductive ReadResult (F : Type) where
  | outOfFuel
  | ioError
  | failed (error : ConfigError)
  | ok (config : ConfigT F) (filenames : List Text)

/-- `__config_read`, from a text that is the file with the name `filename`, if it is a file. What the
configuration held before is gone; a new one has no default format. -/
def configRead (platform : Platform F) (fuel : ℕ) (config : ConfigT F) (filename : Option Text)
    (text : Text) : ReadResult F :=
  let scan : Scan := ⟨.initial, .create text, [], [], filename, filename.toList⟩
  match yyparse yyMaxDepth platform config.includeDir fuel scan with
  | .ok root final =>
    .ok { config with root := root, defaultFormat := .default } final.filenames
  | .error .outOfFuel _ => .outOfFuel
  | .error (.error text) final => .failed ⟨text, final.currentFilename, final.current.lineno⟩

/-- `config_read_file`, for a path that is not a directory. -/
def configReadFile (platform : Platform F) (fuel : ℕ) (config : ConfigT F) (filename : Text) :
    ReadResult F :=
  match platform.fopen filename with
  | none => .ioError
  | some text => configRead platform fuel config (some filename) text

/-- `config_init`. -/
def ConfigT.init : ConfigT F :=
  { root := .group [], options := 0x02 ||| 0x04 ||| 0x10, tabWidth := 2, defaultFormat := .default
    includeDir := none }

end Libconfig

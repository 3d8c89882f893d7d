import Sntp.Machine.Munch
import Sntp.Machine.Program
import Sntp.Model.InetAddr
import Sntp.Model.Libconfig.Setting

/-! # The scanner of `libconfig`

The rules of the scanner in their order, its start conditions and the stack of include files. A file
that is opened is read to its end as it was then. A rule without a start condition of its own belongs
to the initial one, since the others are exclusive.
-/

namespace Libconfig

open Sntp (Text atoi scanDigits leadingNumber isSpace)
open Machine Munch Regex

/-- What the library uses of its surroundings: the files, `atof`, `snprintf` with `"%.15g"`, and the
conversion to `int`, which C leaves open for a number out of range. -/
structure Platform (F : Type) where
  fopen : Text → Option Text
  atof : Text → F
  formatFloat : F → Text
  intOf : F → Int32

/-- The tokens, with the text of the error that comes with `TOK_ERROR`. -/
inductive Token (F : Type) where
  | boolean (ival : Int32)
  | integer (ival : Int32)
  | hex (ival : Int32)
  | integer64 (llval : Int64)
  | hex64 (llval : Int64)
  | float (fval : F)
  | string (sval : Text)
  | name (sval : Text)
  | equals
  | arrayStart
  | arrayEnd
  | listStart
  | listEnd
  | comma
  | groupStart
  | groupEnd
  | semicolon
  | garbage
  | error (text : Text)
  | eof

/-- The start conditions. -/
inductive StartCondition where
  | initial
  | comment
  | string
  | includePath
deriving DecidableEq, Repr

/-- The actions of the rules. The last `trailing` characters of an ignored match are only looked at. -/
inductive Action (F : Type) where
  | ignore (trailing : ℕ)
  | begin (start : StartCondition)
  | append (piece : Text → Text)
  | takeString
  | pushInclude
  | give (token : Text → Token F)

/-- A class of characters. -/
def oneOf (text : String) : Regex Char := one fun c => c ∈ text.toList

/-- All other characters. -/
def noneOf (text : String) : Regex Char := one fun c => c ∉ text.toList

/-- The characters of a text. -/
def exactly (text : String) : Regex Char := literal text.toList

/-- `[0-9]`. -/
def digit : Regex Char := one Char.isDigit

/-- `[0-9A-Fa-f]`. -/
def hexDigit : Regex Char := one fun c => (Sntp.digitIn 16 c).isSome

/-- `[-+]?`. -/
def sign : Regex Char := optional (oneOf "-+")

def trueName : Regex Char := seq (oneOf "Tt") (seq (oneOf "Rr") (seq (oneOf "Uu") (oneOf "Ee")))

def falseName : Regex Char :=
  seq (oneOf "Ff") (seq (oneOf "Aa") (seq (oneOf "Ll") (seq (oneOf "Ss") (oneOf "Ee"))))

def name : Regex Char :=
  seq (one fun c => c.isAlpha || c = '*')
    (star (one fun c => c = '-' || c.isAlpha || c.isDigit || c = '_' || c = '*'))

def integer : Regex Char := seq sign (plus digit)

def integer64 : Regex Char := seq sign (seq (plus digit) (seq (exactly "L") (optional (exactly "L"))))

def hex : Regex Char := seq (exactly "0") (seq (oneOf "Xx") (plus hexDigit))

def hex64 : Regex Char :=
  seq (exactly "0") (seq (oneOf "Xx") (seq (plus hexDigit) (seq (exactly "L") (optional (exactly "L")))))

def hexchar : Regex Char := seq (exactly "\\") (seq (oneOf "Xx") (seq hexDigit hexDigit))

/-- `[eE][-+]?[0-9]+`. -/
def exponent : Regex Char := seq (oneOf "eE") (seq sign (plus digit))

def float : Regex Char :=
  alt (seq sign (seq (optional (star digit)) (seq (exactly ".") (seq (star digit) (optional exponent)))))
    (seq sign (seq (plus digit) (seq (optional (seq (exactly ".") (star digit))) exponent)))

/-- With the end of the line that `$` looks at. -/
def comment : Regex Char := seq (alt (exactly "#") (exactly "//")) (seq (star (noneOf "\n")) (exactly "\n"))

/-- Without `^`. -/
def includeOpen : Regex Char :=
  seq (star (oneOf " \t")) (seq (exactly "@include") (seq (plus (oneOf " \t")) (exactly "\"")))

/-- `strtoul` and `strtoull` in base sixteen, at digits behind `0x`. -/
def fromhex (text : Text) : ℕ := min (2 ^ 64 - 1) (scanDigits 16 0 (text.drop 2)).1

/-- `atoll`. -/
def atoll (text : Text) : ℤ :=
  match text.dropWhile isSpace with
  | '-' :: digits => max (-2 ^ 63) (-leadingNumber 0 digits)
  | '+' :: digits => min (2 ^ 63 - 1) (leadingNumber 0 digits)
  | digits => min (2 ^ 63 - 1) (leadingNumber 0 digits)

/-- The text of a C string, which ends at its first zero. -/
def cString (text : Text) : Text := text.takeWhile (· ≠ '\x00')

variable {F : Type}

/-- A rule that gives a token without a value. -/
def symbol (text : String) (token : Token F) : Regex Char × Action F := (exactly text, .give fun _ => token)

/-- A rule that appends a character for its match. -/
def escape (text : String) (c : Char) : Regex Char × (Text → Text) := (exactly text, fun _ => [c])

/-- Rules that append a piece of text. -/
def appending (rules : List (Regex Char × (Text → Text))) : List (Regex Char × Action F) :=
  rules.map fun rule => (rule.1, .append rule.2)

def commentRules : List (Regex Char × Action F) :=
  [(exactly "*/", .begin .initial), (noneOf "\n", .ignore 0), (exactly "\n", .ignore 0)]

def stringPieces : List (Regex Char × (Text → Text)) :=
  [(plus (noneOf "\"\\"), id),
    escape "\\n" '\n', escape "\\r" '\r', escape "\\t" '\t', escape "\\f" '\x0c',
    escape "\\\\" '\\', escape "\\\"" '"',
    (hexchar, fun yytext => [Char.ofNat ((scanDigits 16 0 (yytext.drop 2)).1 % 256)]),
    escape "\\" '\\']

def stringRules : List (Regex Char × Action F) := appending stringPieces ++ [(exactly "\"", .takeString)]

def includeRules : List (Regex Char × Action F) :=
  appending [(plus (noneOf "\"\\"), id), escape "\\\\" '\\', escape "\\\"" '"'] ++
    [(exactly "\"", .pushInclude)]

def initialRules (atof : Text → F) : List (Regex Char × Action F) :=
  [(oneOf "\n\r\x0c", .ignore 0),
    (plus (oneOf " \t"), .ignore 0),
    (oneOf "=:", .give fun _ => .equals),
    symbol "," .comma, symbol "\x7b" .groupStart, symbol "\x7d" .groupEnd,
    (trueName, .give fun _ => .boolean 1),
    (falseName, .give fun _ => .boolean 0),
    (name, .give .name),
    (float, .give fun yytext => .float (atof yytext)),
    (integer, .give fun yytext => .integer (.ofInt (atoi yytext))),
    (integer64, .give fun yytext => .integer64 (.ofInt (atoll yytext))),
    (hex, .give fun yytext => .hex (.ofNat (fromhex yytext))),
    (hex64, .give fun yytext => .hex64 (.ofNat (fromhex yytext))),
    symbol "[" .arrayStart, symbol "]" .arrayEnd, symbol "(" .listStart, symbol ")" .listEnd,
    symbol ";" .semicolon,
    (comment, .ignore 1),
    (noneOf "\n", .give fun _ => .garbage)]

/-- The rules that begin something else. An include starts at the beginning of a line. -/
def openingRules (atBol : Bool) : List (Regex Char × Action F) :=
  [(exactly "/*", .begin .comment), (exactly "\"", .begin .string)] ++
    if atBol then [(includeOpen, .begin .includePath)] else []

/-- The rules that are active. -/
def activeRules (atof : Text → F) (atBol : Bool) : StartCondition → List (Regex Char × Action F)
  | .initial => openingRules atBol ++ initialRules atof
  | .comment => commentRules
  | .string => stringRules
  | .includePath => includeRules

/-- `YY_BUFFER_STATE`: what is left of a file, `yy_at_bol` and `yylineno`. -/
structure Buffer where
  text : Text
  atBol : Bool
  lineno : ℕ
deriving DecidableEq, Repr

/-- `yy_create_buffer`, and the first buffer. -/
def Buffer.create (text : Text) : Buffer := ⟨text, true, 1⟩

/-- Past a match of `length` characters. -/
def Buffer.advance (buffer : Buffer) (length : ℕ) : Buffer :=
  let yytext := buffer.text.take length
  { text := buffer.text.drop length
    atBol := if yytext = [] then buffer.atBol else yytext.getLast? = some '\n'
    lineno := buffer.lineno + yytext.count '\n' }

/-- `struct scan_context` and the state of the scanner. The innermost of the includes comes first; a
string that is not there yet is empty. -/
structure Scan where
  start : StartCondition
  current : Buffer
  includes : List (Text × Buffer)
  string : Text
  topFilename : Option Text
  filenames : List Text
deriving DecidableEq, Repr

/-- `scanctx_current_filename`. -/
def Scan.currentFilename (scan : Scan) : Option Text :=
  match scan.includes with
  | [] => scan.topFilename
  | (file, _) :: _ => some file

/-- `__scanctx_add_filename`. -/
def addFilename (filenames : List Text) (filename : Text) : List Text :=
  if filename ∈ filenames then filenames else filenames ++ [filename]

/-- `MAX_INCLUDE_DEPTH`. -/
def maxIncludeDepth : ℕ := 10

/-- `err_include_too_deep`. -/
def errIncludeTooDeep : Text := "include file nesting too deep".toList

/-- `err_bad_include`. -/
def errBadInclude : Text := "cannot open include file".toList

/-- The name under which `scanctx_push_include` opens a file. -/
def fullFile (includeDir : Option Text) (file : Text) : Text :=
  match includeDir with
  | some directory => directory ++ '/' :: file
  | none => file

/-- `scanctx_push_include`, and the switch to the buffer of the file. -/
def scanctxPushInclude (fopen : Text → Option Text) (includeDir : Option Text) (scan : Scan) :
    Except Text Scan :=
  if scan.includes.length = maxIncludeDepth then .error errIncludeTooDeep
  else
    match fopen (fullFile includeDir scan.string) with
    | none => .error errBadInclude
    | some text => .ok { scan with
        start := .initial
        current := .create text
        includes := (scan.string, scan.current) :: scan.includes
        string := []
        filenames := addFilename scan.filenames scan.string }

/-- How reading stops without a configuration. -/
inductive ReadStop where
  | outOfFuel
  | error (text : Text)
deriving DecidableEq, Repr

/-- The action of a rule that has matched `length` characters. -/
def perform (fopen : Text → Option Text) (includeDir : Option Text) (scan : Scan) (length : ℕ) :
    Action F → EStateM ReadStop Scan (Unit ⊕ Token F)
  | .ignore trailing => do
    set { scan with current := scan.current.advance (length - trailing) }
    return .inl ()
  | .begin start => do
    set { scan with current := scan.current.advance length, start := start }
    return .inl ()
  | .append piece => do
    set { scan with
      current := scan.current.advance length
      string := scan.string ++ cString (piece (scan.current.text.take length)) }
    return .inl ()
  | .takeString => do
    set { scan with current := scan.current.advance length, start := .initial, string := [] }
    return .inr (.string scan.string)
  | .pushInclude =>
    let next := { scan with current := scan.current.advance length }
    match scanctxPushInclude fopen includeDir next with
    | .error text => do
      set next
      return .inr (.error text)
    | .ok within => do
      set within
      return .inl ()
  | .give token => do
    set { scan with current := scan.current.advance length }
    return .inr (token (scan.current.text.take length))

/-- A match, or the end of a file. Where no rule matches, the default rule echoes a character. -/
def scanMatch (platform : Platform F) (includeDir : Option Text) :
    EStateM ReadStop Scan (Unit ⊕ Token F) := do
  let scan ← get
  match scan.current.text, scan.includes with
  | [], [] => return .inr .eof
  | [], (_, buffer) :: includes =>
    set { scan with current := buffer, includes := includes }
    return .inl ()
  | _ :: _, _ =>
    match munch (activeRules platform.atof scan.current.atBol scan.start) scan.current.text with
    | none =>
      set { scan with current := scan.current.advance 1 }
      return .inl ()
    | some (action, length) => perform platform.fopen includeDir scan length action

/-- `libconfig_yylex`: matches up to the next token. -/
def yylex (platform : Platform F) (includeDir : Option Text) (fuel : ℕ) : EStateM ReadStop Scan (Token F) :=
  loop .outOfFuel (fun _ => scanMatch platform includeDir) fuel ()

end Libconfig

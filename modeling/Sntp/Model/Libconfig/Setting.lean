import Sntp.Model.ConfigFile

/-! # The settings of `libconfig`

A configuration is a tree of settings. The members of a group have names; the elements of arrays and
lists have none. The type of floating-point numbers is a parameter, since nothing here computes with
them. Memory is taken to be unlimited, but the stack of the parser is not.
-/

namespace Libconfig

open Sntp (Text atoi)

/-- `CONFIG_FORMAT_DEFAULT` and `CONFIG_FORMAT_HEX`. -/
inductive Format where
  | default
  | hex
deriving DecidableEq, Repr

/-- `config_setting_t`: its type, value and format. -/
inductive Setting (F : Type) where
  | bool (ival : Int32)
  | int (ival : Int32) (format : Format)
  | int64 (llval : Int64) (format : Format)
  | float (fval : F)
  | string (sval : Text)
  | array (elements : List (Setting F))
  | list (elements : List (Setting F))
  | group (members : List (Text × Setting F))
deriving Repr

/-- `CONFIG_TYPE_GROUP` to `CONFIG_TYPE_LIST`. -/
inductive SettingType where
  | group
  | int
  | int64
  | float
  | string
  | bool
  | array
  | list
deriving DecidableEq, Repr

variable {F : Type}

/-- `config_setting_type`. -/
def Setting.type : Setting F → SettingType
  | bool _ => .bool
  | int _ _ => .int
  | int64 _ _ => .int64
  | float _ => .float
  | string _ => .string
  | array _ => .array
  | list _ => .list
  | group _ => .group

/-- A property of all settings, from the elements of vectors and the members of groups up. -/
@[elab_as_elim]
theorem Setting.induction {motive : Setting F → Prop} (bool : ∀ ival, motive (.bool ival))
    (int : ∀ ival format, motive (.int ival format))
    (int64 : ∀ llval format, motive (.int64 llval format)) (float : ∀ fval, motive (.float fval))
    (string : ∀ sval, motive (.string sval))
    (array : ∀ elements, (∀ element ∈ elements, motive element) → motive (.array elements))
    (list : ∀ elements, (∀ element ∈ elements, motive element) → motive (.list elements))
    (group : ∀ members, (∀ member ∈ members, motive member.2) → motive (.group members)) :
    ∀ setting, motive setting :=
  Setting.rec bool int int64 float string array list group (by simp)
    (fun _ _ first others => List.forall_mem_cons.mpr ⟨first, others⟩) (by simp)
    (fun _ _ first others => List.forall_mem_cons.mpr ⟨first, others⟩) fun _ _ value => value

/-- `strchr(PATH_TOKENS, c)`, for a character of a text. -/
def isPathToken (c : Char) : Bool := c = ':' ∨ c = '.' ∨ c = '/'

/-- The test `(! *p) || strchr(PATH_TOKENS, *p)`. -/
def nameEnds : Text → Bool
  | [] => true
  | c :: _ => isPathToken c

/-- Whether `__config_name_compare` gives zero: names are compared up to their first path token. -/
def configNameCompare : Text → Text → Bool
  | [], b => nameEnds b
  | p :: _, [] => isPathToken p
  | p :: a, q :: b =>
    if isPathToken p ∧ isPathToken q then true
    else if isPathToken p ∨ isPathToken q then false
    else if p = q then configNameCompare a b
    else false

/-- `__config_list_search`. -/
def configListSearch (members : List (Text × Setting F)) (name : Text) : Option (Setting F) :=
  (members.find? fun member => configNameCompare name member.1).map Prod.snd

/-- The test in the loop of `__config_validate_name`. -/
def isNameChar (c : Char) : Bool := c.isAlpha ∨ c.isDigit ∨ c = '*' ∨ c = '_' ∨ c = '-'

/-- `__config_validate_name`. -/
def configValidateName : Text → Bool
  | [] => false
  | c :: rest => (c.isAlpha || c = '*') && rest.all isNameChar

/-- `config_setting_get_member`. -/
def configSettingGetMember (setting : Setting F) (name : Text) : Option (Setting F) :=
  match setting with
  | .group members => configListSearch members name
  | _ => none

/-- `config_setting_get_elem`, whose index is an `unsigned int`. -/
def configSettingGetElem (vector : Setting F) (idx : ℤ) : Option (Setting F) :=
  match vector with
  | .array elements | .list elements => elements[(idx % 2 ^ 32).toNat]?
  | .group members => (members[(idx % 2 ^ 32).toNat]?).map Prod.snd
  | _ => none

/-- `config_setting_lookup`, in the loops that pass over path tokens or, when `inside` a step of the
path, over what is left of the step. -/
def lookupFrom (inside : Bool) (setting : Setting F) : Text → Option (Setting F)
  | [] => some setting
  | c :: p =>
    if isPathToken c then lookupFrom false setting p
    else if inside then lookupFrom true setting p
    else if c = '[' then
      match configSettingGetElem setting (atoi p) with
      | some found => lookupFrom true found p
      -- the pointer has gone past the bracket, so a path that ends there has no rest to refuse
      | none => if p = [] then some setting else none
    else
      match configSettingGetMember setting (c :: p) with
      | some found => lookupFrom true found p
      | none => none

/-- `config_setting_lookup`. -/
def configSettingLookup (setting : Setting F) (path : Text) : Option (Setting F) :=
  lookupFrom false setting path

/-- `config_t`, with what its settings are read and written with. -/
structure ConfigT (F : Type) where
  root : Setting F
  options : ℕ
  tabWidth : ℕ
  defaultFormat : Format
  includeDir : Option Text

/-- `CONFIG_OPTION_AUTOCONVERT`. -/
def autoConvert : ℕ := 0x01

/-- `__config_has_option`. -/
def configHasOption (config : ConfigT F) (option : ℕ) : Bool := config.options &&& option ≠ 0

/-- `__config_setting_get_int`, for a setting that points to this configuration. -/
def configSettingGetInt (intOf : F → Int32) (config : ConfigT F) : Setting F → Option ℤ
  | .int ival _ => some ival.toInt
  | .int64 llval _ => if 2 ^ 31 - 1 < llval.toInt ∨ llval.toInt < -2 ^ 31 then some 0 else some llval.toInt
  | .float fval => if configHasOption config autoConvert then some (intOf fval).toInt else none
  | _ => none

/-- `config_setting_get_bool`, for a setting of that type. -/
def configSettingGetBool : Setting F → Option ℤ
  | .bool ival => some ival.toInt
  | _ => none

/-- `config_setting_get_string`, for a setting of that type. -/
def configSettingGetString : Setting F → Option Text
  | .string sval => some sval
  | _ => none

/-- `config_lookup`. -/
def configLookup (config : ConfigT F) (path : Text) : Option (Setting F) :=
  configSettingLookup config.root path

end Libconfig

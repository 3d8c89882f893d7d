import Sntp.Soundness.ConfigReading
import Sntp.Soundness.ConfigRoundTrip

/-! # What has been read once

Whatever text a configuration was read from, writing and reading it again changes nothing, as long as
its floats are printed with all their digits.
-/

namespace Libconfig

open Sntp (Text)
open Machine Regex

variable {F : Type} {platform : Platform F} {setting : Setting F}

/-- A float somewhere in a tree. -/
inductive Setting.HasFloat (fval : F) : Setting F → Prop
  | float : HasFloat fval (.float fval)
  | array {elements : List (Setting F)} {element : Setting F} : element ∈ elements →
    HasFloat fval element → HasFloat fval (.array elements)
  | list {elements : List (Setting F)} {element : Setting F} : element ∈ elements →
    HasFloat fval element → HasFloat fval (.list elements)
  | group {members : List (Text × Setting F)} {member : Text × Setting F} : member ∈ members →
    HasFloat fval member.2 → HasFloat fval (.group members)

/-- A float that is printed with all its digits. -/
def Exact (platform : Platform F) (fval : F) : Prop :=
  printed.accepts (platform.formatFloat fval) ∧ platform.atof (floatText (platform.formatFloat fval)) = fval

/-- A simple setting that stays as it is. -/
def Setting.Stable (platform : Platform F) : Setting F → Prop
  | .bool ival => ival = 0 ∨ ival = 1
  | .float fval => Exact platform fval
  | .string sval => '\x00' ∉ sval
  | _ => True

private theorem stable_of_read (read : setting.Read)
    (exact_ : ∀ fval, setting.HasFloat fval → Exact platform fval) : setting.Stable platform := by
  cases setting with
  | float fval => exact exact_ fval .float
  | bool ival => exact read
  | string sval => exact read
  | _ => trivial

/-- A tree that has been read is stable when its floats are exact. -/
private theorem wellFormed_stable (formed : WellFormed Setting.Read setting)
    (exact_ : ∀ fval, setting.HasFloat fval → Exact platform fval) :
    WellFormed (Setting.Stable platform) setting := by
  induction formed with
  | simple simple read => exact .simple simple (stable_of_read read exact_)
  | array type simple elements =>
    refine .array type simple fun element member => ?_
    obtain ⟨read, same⟩ := elements element member
    exact ⟨stable_of_read read fun fval has => exact_ fval (.array member has), same⟩
  | list _ ih =>
    exact .list fun element member => ih element member fun fval has => exact_ fval (.list member has)
  | group _ valid names ih =>
    exact .group (fun member among => ih member among fun fval has => exact_ fval (.group among has)) valid
      names

private theorem writable_of_stable (stable : setting.Stable platform) : setting.Writable platform := by
  cases setting with
  | float fval => exact stable.1
  | string sval => exact stable
  | _ => trivial

private theorem reread_of_simple (simple : setting.type.isSimple) (stable : setting.Stable platform) :
    setting.reread platform .default = setting := by
  cases setting with
  | bool ival => rcases stable with rfl | rfl <;> rfl
  | int ival format => cases format <;> rfl
  | int64 llval format => cases format <;> rfl
  | float fval => rw [Setting.reread, stable.2]
  | string sval => rfl
  | _ => cases simple

private theorem map_eq_self {α : Type} {list : List α} {f : α → α} (same : ∀ a ∈ list, f a = a) :
    list.map f = list := by
  rw [List.map_congr_left same, List.map_id']

/-- Reading gives a stable tree as it is. -/
private theorem reread_of_stable (formed : WellFormed (Setting.Stable platform) setting) :
    setting.reread platform .default = setting := by
  induction formed with
  | simple simple stable => exact reread_of_simple simple stable
  | array type simple elements =>
    rw [Setting.reread, rereadElements_eq]
    refine congrArg _ (map_eq_self fun element member => ?_)
    obtain ⟨stable, same⟩ := elements element member
    exact reread_of_simple (same ▸ simple) stable
  | list _ ih =>
    rw [Setting.reread, rereadElements_eq]
    exact congrArg _ (map_eq_self ih)
  | group _ _ _ ih =>
    rw [Setting.reread, rereadMembers_eq]
    exact congrArg _ (map_eq_self fun member among => Prod.ext rfl (ih member among))

/-- What has been read is written and read again without a change, with every option and tab width. -/
theorem configRead_again {turns : ℕ} {config once : ConfigT F} {filename : Option Text} {text : Text}
    {filenames : List Text}
    (read : ∀ fuel, turns ≤ fuel → configRead platform fuel config filename text = .ok once filenames)
    (exact_ : ∀ fval, once.root.HasFloat fval → Exact platform fval) (options tabWidth : ℕ)
    (reader : ConfigT F) (filename' : Option Text) :
    ∃ enough, ∀ fuel, enough ≤ fuel →
      configRead platform fuel reader filename'
          (configWrite platform { once with options := options, tabWidth := tabWidth }) =
        .ok { reader with root := once.root, defaultFormat := .default } filename'.toList := by
  obtain ⟨enough, outcome, settled⟩ := wpTotal_yyparse (show 1 < yyMaxDepth by decide)
    (valid_create platform config.includeDir filename text)
  have last := read (max turns enough) (le_max_left ..)
  rw [configRead, settled _ (le_max_right ..)] at last
  obtain ⟨root, formed, members, group, fits, rfl⟩ : ∃ root, WellFormed Setting.Read root ∧
      ∃ members, root = .group members ∧ RootFits yyMaxDepth members ∧
        once = { config with root := root, defaultFormat := .default } := by
    cases result : yyparse yyMaxDepth platform config.includeDir enough
        ⟨.initial, .create text, [], [], filename, filename.toList⟩ with
    | ok root final =>
      obtain ⟨formed, members, group, fits⟩ := outcome.of_ok result
      rw [result] at last
      exact ⟨root, formed, members, group, fits, (ReadResult.ok.inj last).1.symm⟩
    | error stop final =>
      rw [result] at last
      cases stop <;> cases last
  have stable := wellFormed_stable formed exact_
  have written := @wpTotal_yyparse_configWrite _ platform
    { config with root := root, options := options, tabWidth := tabWidth, defaultFormat := .default } members
    yyMaxDepth (stable.mono fun _ => writable_of_stable) group fits reader.includeDir filename'
  rw [reread_of_stable stable] at written
  exact configRead_of_wpTotal written

section Sample

/-- Floats that are natural numbers. -/
private def decimals : Platform ℕ where
  fopen _ := none
  atof := Sntp.leadingNumber 0
  formatFloat := Decimal.digits 0
  intOf number := .ofNat number

private def truths : ConfigT ℕ :=
  { (ConfigT.init : ConfigT ℕ) with root := .group [("a".toList, .list [.bool 1, .float 5])] }

theorem configRead_again_truths : ∃ enough, ∀ fuel, enough ≤ fuel →
    configRead decimals fuel .init (some "copy".toList)
      (configWrite decimals { truths with options := 0, tabWidth := 0 }) = .ok truths ["copy".toList] := by
  have exact_ : ∀ fval, truths.root.HasFloat fval → Exact decimals fval := by
    intro fval has
    cases has with
    | group among has =>
      rw [List.mem_singleton.mp among] at has
      cases has with
      | list inside has =>
        rcases List.mem_pair.mp inside with rfl | rfl <;> cases has
        exact ⟨rfl, rfl⟩
  have formed : WellFormed (Setting.Writable decimals) truths.root := by
    refine .group (List.forall_mem_singleton.mpr (.list ?_)) (List.forall_mem_singleton.mpr rfl)
      (List.nodup_singleton _)
    exact List.forall_mem_cons.mpr ⟨.simple rfl trivial, List.forall_mem_singleton.mpr (.simple rfl rfl)⟩
  obtain ⟨turns, read⟩ : ∃ turns, ∀ fuel, turns ≤ fuel →
      configRead decimals fuel .init none (configWrite decimals truths) = .ok truths [] :=
    configRead_of_wpTotal (wpTotal_yyparse_configWrite formed rfl (by decide) none none)
  exact configRead_again read exact_ 0 0 .init (some "copy".toList)

end Sample

end Libconfig

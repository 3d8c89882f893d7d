import Sntp.Proofs.Libconfig.Written

/-! # Looking settings up by their paths

A place in a tree is reached by names and indices. The path that spells it out leads a lookup to the
setting that is there, and to none where the tree has no such place.
-/

namespace Libconfig

open Sntp (Text atoi)

variable {F : Type}

/-- A step to a member by its name, or to a child by its index. -/
inductive Step where
  | member (name : Text)
  | child (idx : ℕ)
deriving DecidableEq, Repr

/-- The children of a setting in their order. -/
def Setting.children : Setting F → List (Setting F)
  | .array elements | .list elements => elements
  | .group members => members.map Prod.snd
  | _ => []

/-- The setting that a step leads to. -/
def Setting.after (setting : Setting F) : Step → Option (Setting F)
  | .child idx => setting.children[idx]?
  | .member name =>
    match setting with
    | .group members => members.lookup name
    | _ => none

/-- The setting at a place. -/
def Setting.at? : List Step → Setting F → Option (Setting F)
  | [], setting => some setting
  | step :: steps, setting => (setting.after step).bind (Setting.at? steps)

/-- A step that can be spelled out: names are valid, and an index is an `unsigned int`. -/
def Step.Plain : Step → Prop
  | .member name => configValidateName name
  | .child idx => idx < 2 ^ 32

def Step.text : Step → Text
  | .member name => name
  | .child idx => '[' :: Decimal.digits 0 idx ++ [']']

/-- The path to a place. -/
def pathText (steps : List Step) : Text := steps.flatMap fun step => '.' :: step.text

variable {setting found : Setting F} {leaf : Setting F → Prop} {steps : List Step} {step : Step}
  {members : List (Text × Setting F)} {name word rest : Text} {idx : ℕ}

section Trees

private theorem mem_of_lookup (finds : members.lookup name = some found) : (name, found) ∈ members := by
  induction members with
  | nil => cases finds
  | cons member members ih =>
    obtain ⟨first, value⟩ := member
    rw [List.lookup_cons] at finds
    split at finds
    · next same =>
      rw [beq_iff_eq.mp same, ← Option.some.inj finds]
      exact List.mem_cons_self
    · exact List.mem_cons_of_mem _ (ih finds)

/-- All of a well-formed tree is well formed. -/
private theorem wellFormed_after (formed : WellFormed leaf setting) (leads : setting.after step = some found) :
    WellFormed leaf found := by
  have child (idx : ℕ) (leads : setting.children[idx]? = some found) : WellFormed leaf found := by
    have among := List.mem_of_getElem? leads
    cases formed with
    | simple simple holds => cases setting <;> cases simple <;> cases among
    | array type simple elements =>
      obtain ⟨holds, same⟩ := elements found among
      exact .simple (same ▸ simple) holds
    | list elements => exact elements found among
    | group all _ _ =>
      obtain ⟨member, inside, rfl⟩ := List.mem_map.mp among
      exact all member inside
  cases step with
  | child idx => exact child idx leads
  | member name =>
    cases setting with
    | group members =>
      obtain ⟨idx, at_⟩ := List.getElem?_of_mem (mem_of_lookup leads)
      exact child idx (by rw [Setting.children, List.getElem?_map, at_]; rfl)
    | _ => cases leads

end Trees

section Names

private theorem configListSearch_append (valid : configValidateName name)
    (valids : ∀ other ∈ members.map Prod.fst, configValidateName other) (ends : nameEnds rest) :
    configListSearch members (name ++ rest) = members.lookup name := by
  induction members with
  | nil => rfl
  | cons member members ih =>
    obtain ⟨first, value⟩ := member
    obtain ⟨valid', valids⟩ := List.forall_mem_cons.mp valids
    have compare : configNameCompare (name ++ rest) first ↔ name = first :=
      configNameCompare_append_iff (isPathToken_eq_false valid) (isPathToken_eq_false valid') ends
    rw [configListSearch, List.find?_cons, List.lookup_cons]
    by_cases same : name = first
    · rw [compare.mpr same, beq_iff_eq.mpr same]
      rfl
    · rw [Bool.eq_false_iff.mpr (fun equal => same (compare.mp equal)), beq_false_of_ne same]
      exact ih valids

end Names

section Paths

/-- What is left of a step is passed over. -/
private theorem lookupFrom_inside (clean : ∀ c ∈ word, isPathToken c = false) :
    lookupFrom true setting (word ++ rest) = lookupFrom true setting rest := by
  induction word with
  | nil => rfl
  | cons c word ih =>
    obtain ⟨first, others⟩ := List.forall_mem_cons.mp clean
    rw [List.cons_append, lookupFrom, if_neg (by simp [first]), if_pos rfl, ih others]

private theorem lookupFrom_pathText (inside : Bool) :
    lookupFrom inside setting (pathText steps) = lookupFrom false setting (pathText steps) := by
  cases steps with
  | nil => rfl
  | cons step steps => rfl

private theorem nameEnds_pathText : nameEnds (pathText steps) := by
  cases steps <;> rfl

private theorem configSettingGetElem_eq (small : idx < 2 ^ 32) :
    configSettingGetElem setting (atoi (Decimal.digits 0 idx ++ ']' :: rest)) = setting.children[idx]? := by
  have read : atoi (Decimal.digits 0 idx ++ ']' :: rest) = Sntp.toInt idx := by
    have ends : Decimal.Ends (']' :: rest) := Decimal.ends_cons (by decide)
    rw [atoi_eq, atoll_digits digits_ne_nil fun _ => Decimal.isDigit_of_mem_digits, leadingNumber_digits,
      leadingNumber_ends ends, min_eq_right (by omega)]
  have same : (Sntp.toInt idx % 2 ^ 32).toNat = idx := by
    have wraps : Sntp.toInt idx % (2 ^ 32 : ℕ) = idx % (2 ^ 32 : ℕ) := Int.bmod_emod
    omega
  rw [read]
  cases setting <;>
    simp only [configSettingGetElem, Setting.children, same, List.getElem?_map, List.getElem?_nil]

private theorem lookupFrom_child (small : idx < 2 ^ 32) :
    lookupFrom false setting (Step.text (.child idx) ++ pathText steps) =
      (setting.after (.child idx)).bind fun found => lookupFrom false found (pathText steps) := by
  have some_rest : Decimal.digits 0 idx ++ ']' :: pathText steps ≠ [] := by simp
  have clean : ∀ c ∈ Decimal.digits 0 idx ++ [']'], isPathToken c = false := by
    intro c member
    rcases List.mem_append.mp member with digit | bracket
    · have digit : c.isDigit := Decimal.isDigit_of_mem_digits digit
      refine decide_eq_false fun path => ?_
      rcases path with rfl | rfl | rfl <;> cases digit
    · rw [List.mem_singleton.mp bracket]
      decide
  have text : Step.text (.child idx) ++ pathText steps =
      '[' :: (Decimal.digits 0 idx ++ ']' :: pathText steps) := by
    simp [Step.text]
  rw [text, lookupFrom, if_neg (by decide), if_neg (by decide), if_pos rfl, configSettingGetElem_eq small,
    Setting.after]
  cases setting.children[idx]? with
  | none => exact if_neg some_rest
  | some found =>
    have passed := @lookupFrom_inside _ found _ (pathText steps) clean
    rw [List.append_assoc, List.singleton_append, lookupFrom_pathText] at passed
    exact passed

theorem lookupFrom_member (valid : configValidateName name)
    (valids : ∀ members, setting = .group members → ∀ other ∈ members.map Prod.fst, configValidateName other) :
    lookupFrom false setting (name ++ pathText steps) =
      (setting.after (.member name)).bind fun found => lookupFrom false found (pathText steps) := by
  have clean := isPathToken_eq_false valid
  have searched : configSettingGetMember setting (name ++ pathText steps) = setting.after (.member name) := by
    cases setting with
    | group members => exact configListSearch_append valid (valids members rfl) nameEnds_pathText
    | _ => rfl
  cases name with
  | nil => cases valid
  | cons c more =>
    obtain ⟨first, others⟩ := List.forall_mem_cons.mp clean
    have bracket : c ≠ '[' := by
      rintro rfl
      cases valid
    rw [List.cons_append] at searched ⊢
    rw [lookupFrom, if_neg (by simp [first]), if_neg (by decide), if_neg bracket, searched]
    cases setting.after (.member (c :: more)) with
    | none => rfl
    | some found =>
      have passed := @lookupFrom_inside _ found _ (pathText steps) others
      rwa [lookupFrom_pathText] at passed

end Paths

/-- A lookup by the path of a place finds what is at the place. -/
theorem configSettingLookup_pathText (formed : WellFormed leaf setting) (plain : ∀ step ∈ steps, step.Plain) :
    configSettingLookup setting (pathText steps) = setting.at? steps := by
  rw [configSettingLookup]
  induction steps generalizing setting with
  | nil => rfl
  | cons step steps ih =>
    obtain ⟨first, others⟩ := List.forall_mem_cons.mp plain
    have split : lookupFrom false setting (pathText (step :: steps)) =
        lookupFrom false setting (step.text ++ pathText steps) := rfl
    have goes : (setting.after step).bind (fun found => lookupFrom false found (pathText steps)) =
        (setting.after step).bind (Setting.at? steps) := by
      cases leads : setting.after step with
      | none => rfl
      | some found => exact ih (wellFormed_after formed leads) others
    rw [split, Setting.at?, ← goes]
    cases step with
    | child idx => exact lookupFrom_child first
    | member name =>
      refine lookupFrom_member first ?_
      rintro members rfl other among
      obtain ⟨member, inside, rfl⟩ := List.mem_map.mp among
      cases formed with
      | simple simple _ => cases simple
      | group _ valids _ => exact configValidateName_of_isName (valids member inside)

theorem configSettingLookup_pathText_port :
    configSettingLookup (.group [("ports".toList, .array [.int 7 .default])] : Setting ℕ) ".ports.[0]".toList =
      some (.int 7 .default) := by
  have ports : WellFormed (fun _ => True) (.array [.int 7 .default] : Setting ℕ) :=
    .array .int rfl (List.forall_mem_singleton.mpr ⟨trivial, rfl⟩)
  exact configSettingLookup_pathText (.group (List.forall_mem_singleton.mpr ports)
    (List.forall_mem_singleton.mpr rfl) (List.nodup_singleton _))
    (show ∀ step ∈ [Step.member "ports".toList, Step.child 0], step.Plain from
      List.forall_mem_cons.mpr ⟨rfl, List.forall_mem_singleton.mpr (show 0 < 2 ^ 32 by decide)⟩)

end Libconfig

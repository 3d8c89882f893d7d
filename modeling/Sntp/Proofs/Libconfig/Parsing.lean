import Sntp.Proofs.Libconfig.Scanning
import Sntp.Proofs.Libconfig.StackDepth

/-! # What the parser builds

A tree is well formed when its groups have distinct names that are no booleans and its arrays have
simple elements of one type. The parser keeps this of all that it has built so far.
-/

namespace Libconfig

open Sntp (Text)

variable {F : Type}

/-- The types that an array can have. -/
def SettingType.isSimple : SettingType → Bool
  | .group | .array | .list => false
  | _ => true

/-- A well-formed tree whose simple settings have a property. -/
inductive WellFormed (leaf : Setting F → Prop) : Setting F → Prop
  | simple {setting : Setting F} : setting.type.isSimple → leaf setting → WellFormed leaf setting
  | array {elements : List (Setting F)} (type : SettingType) : type.isSimple →
    (∀ element ∈ elements, leaf element ∧ element.type = type) → WellFormed leaf (.array elements)
  | list {elements : List (Setting F)} : (∀ element ∈ elements, WellFormed leaf element) →
    WellFormed leaf (.list elements)
  | group {members : List (Text × Setting F)} :
    (∀ member ∈ members, WellFormed leaf member.2) → (∀ member ∈ members, isName member.1) →
    (members.map Prod.fst).Nodup → WellFormed leaf (.group members)

/-- What reading guarantees of a simple setting. -/
def Setting.Read : Setting F → Prop
  | .bool ival => ival = 0 ∨ ival = 1
  | .string sval => '\x00' ∉ sval
  | _ => True

theorem WellFormed.mono {leaf leaf' : Setting F → Prop} {setting : Setting F}
    (formed : WellFormed leaf setting) (weaker : ∀ setting, leaf setting → leaf' setting) :
    WellFormed leaf' setting := by
  induction formed with
  | simple type holds => exact .simple type (weaker _ holds)
  | array type simple elements =>
    exact .array type simple fun element member => (elements element member).imp_left (weaker element)
  | list _ ih => exact .list ih
  | group _ valid names ih => exact .group ih valid names

section Trees

variable {leaf : Setting F → Prop} {elements : List (Setting F)} {members : List (Text × Setting F)}
  {value : Setting F} {name : Text}

theorem wellFormed_array_nil : WellFormed leaf (.array []) := .array .int rfl nofun

theorem wellFormed_list_nil : WellFormed leaf (.list []) := .list nofun

theorem wellFormed_group_nil : WellFormed leaf (.group []) := .group nofun nofun .nil

theorem WellFormed.array_concat (formed : WellFormed leaf (.array elements))
    (same : configVectorChecktype elements value.type) (simple : value.type.isSimple) (holds : leaf value) :
    WellFormed leaf (.array (elements ++ [value])) := by
  refine .array value.type simple fun element member => ?_
  cases formed with
  | simple no => cases no
  | array type _ all =>
    rcases List.mem_append.mp member with before | last
    · refine ⟨(all element before).1, (all element before).2.trans ?_⟩
      cases elements with
      | nil => cases before
      | cons first rest =>
        rw [← (all first List.mem_cons_self).2]
        exact of_decide_eq_true same
    · rw [List.mem_singleton.mp last]
      exact ⟨holds, rfl⟩

theorem WellFormed.list_concat (formed : WellFormed leaf (.list elements)) (last : WellFormed leaf value) :
    WellFormed leaf (.list (elements ++ [value])) := by
  cases formed with
  | simple no => cases no
  | list all =>
    refine .list fun element member => ?_
    rcases List.mem_append.mp member with before | same
    · exact all element before
    · rwa [List.mem_singleton.mp same]

theorem WellFormed.group_concat (formed : WellFormed leaf (.group members)) (valid : isName name)
    (fresh : name ∉ members.map Prod.fst) (last : WellFormed leaf value) :
    WellFormed leaf (.group (members ++ [(name, value)])) := by
  cases formed with
  | simple no => cases no
  | group all valids names =>
    refine .group (fun member among => ?_) (fun member among => ?_) ?_
    · rcases List.mem_append.mp among with before | same
      · exact all member before
      · rwa [List.mem_singleton.mp same]
    · rcases List.mem_append.mp among with before | same
      · exact valids member before
      · rwa [List.mem_singleton.mp same]
    · rw [List.map_append]
      exact names.append (List.nodup_singleton _) (by simpa using fresh)

/-- A name is the same as itself. -/
theorem configNameCompare_self (name : Text) : configNameCompare name name := by
  induction name with
  | nil => rfl
  | cons c rest ih =>
    rw [configNameCompare]
    by_cases token : isPathToken c <;> simp [token, ih]

/-- No path token is part of a valid name. -/
theorem isPathToken_eq_false (valid : configValidateName name) : ∀ c ∈ name, isPathToken c = false := by
  have other (d : Char) (path : isPathToken d) : (d.isAlpha || d = '*') = false ∧ isNameChar d = false := by
    simp only [isPathToken, decide_eq_true_eq] at path
    rcases path with rfl | rfl | rfl <;> decide
  cases name with
  | nil => nofun
  | cons first rest =>
    obtain ⟨start, more⟩ := Bool.and_eq_true_iff.mp valid
    refine List.forall_mem_cons.mpr ⟨?_, fun c member => ?_⟩
    · by_contra path
      rw [(other first (eq_true_of_ne_false path)).1] at start
      cases start
    · by_contra path
      have allowed := List.all_eq_true.mp more c member
      rw [(other c (eq_true_of_ne_false path)).2] at allowed
      cases allowed

/-- A name is compared up to the end of the step that it is. -/
theorem configNameCompare_append_iff {a b rest : Text} (clean : ∀ c ∈ a, isPathToken c = false)
    (clean' : ∀ c ∈ b, isPathToken c = false) (ends : nameEnds rest) :
    configNameCompare (a ++ rest) b ↔ a = b := by
  induction a generalizing b with
  | nil =>
    cases rest with
    | nil => cases b <;> simp_all [configNameCompare, nameEnds]
    | cons p rest => cases b <;> simp_all [configNameCompare, nameEnds]
  | cons p a ih =>
    obtain ⟨first, others⟩ := List.forall_mem_cons.mp clean
    cases b with
    | nil => simp [configNameCompare, first]
    | cons q b =>
      obtain ⟨first', others'⟩ := List.forall_mem_cons.mp clean'
      rw [List.cons_append, configNameCompare, if_neg (by simp [first]), if_neg (by simp [first, first'])]
      by_cases same : p = q
      · rw [if_pos same, ih others others', same]
        simp
      · simp [same]

theorem configSettingAdd_of_notMem (valid : configValidateName name)
    (valids : ∀ other ∈ members.map Prod.fst, configValidateName other)
    (fresh : name ∉ members.map Prod.fst) :
    configSettingAdd members name := by
  have absent : configListSearch members name = none := by
    rw [configListSearch, Option.map_eq_none_iff, List.find?_eq_none]
    intro member among same
    refine fresh (List.mem_map.mpr ⟨member, among, ?_⟩)
    rw [← List.append_nil name] at same
    exact ((configNameCompare_append_iff (isPathToken_eq_false valid)
      (isPathToken_eq_false (valids _ (List.mem_map_of_mem among))) rfl).mp same).symm
  rw [configSettingAdd, valid, absent]
  rfl

theorem notMem_of_configSettingAdd (adds : configSettingAdd members name) :
    name ∉ members.map Prod.fst := by
  intro among
  obtain ⟨member, inside, rfl⟩ := List.mem_map.mp among
  have absent := (Bool.and_eq_true_iff.mp adds).2
  rw [configListSearch, Option.isNone_map, Option.isNone_iff_eq_none, List.find?_eq_none] at absent
  exact absent member inside (configNameCompare_self _)

end Trees

/-- The errors of reading. -/
def readErrors : List Text :=
  [errSyntax, errArrayElemType, errDuplicateSetting, errIncludeTooDeep, errBadInclude, errMemoryExhausted]

/-- What has been built at a place. -/
def Place.Valid : Place F → Prop
  | .member members name =>
    WellFormed Setting.Read (.group members) ∧ isName name ∧ name ∉ members.map Prod.fst
  | .array elements => WellFormed Setting.Read (.array elements)
  | .list elements => WellFormed Setting.Read (.list elements)

/-- Any value can go to the place. -/
def Place.TakesAny : Place F → Prop
  | .array _ => False
  | _ => True

def Phase.Valid : Phase F → Prop
  | .settings members | .terminator members => WellFormed Setting.Read (.group members)
  | .equals members name => Place.Valid (.member members name)
  | .value place | .first place | .separator place => place.Valid
  | .string place text => place.Valid ∧ '\x00' ∉ text

/-- All that the parser has built. Only simple values are read inside an array. -/
structure Parse.Valid (parse : Parse F) : Prop where
  phase : parse.phase.Valid
  around : ∀ place ∈ parse.around, place.Valid ∧ place.TakesAny

/-- What a token leads to, when it is not the end of the text. -/
def Fed : Except Text (Parse F) → Prop := Meets Parse.Valid (· ∈ readErrors)

/-- What a token leads to in a phase. -/
def Led (token : Token F) : Except Text (Parse F ⊕ Setting F) → Prop :=
  Meets (fun next => next.elim (fun next => next.Valid ∧ token ≠ .eof)
    fun root => WellFormed Setting.Read root ∧ ∃ members, root = .group members) (· ∈ readErrors)

section Steps

variable {place : Place F} {phase : Phase F} {around : List (Place F)} {value : Setting F}
  {members : List (Text × Setting F)} {token : Token F} {maxDepth : ℕ}

private theorem syntax_mem : errSyntax ∈ readErrors := by simp [readErrors]

private theorem exhausted_mem : errMemoryExhausted ∈ readErrors := by simp [readErrors]

private theorem duplicate_mem : errDuplicateSetting ∈ readErrors := by simp [readErrors]

private theorem arrayElem_mem : errArrayElemType ∈ readErrors := by simp [readErrors]

private theorem tooDeep_mem : errIncludeTooDeep ∈ readErrors := by simp [readErrors]

private theorem badInclude_mem : errBadInclude ∈ readErrors := by simp [readErrors]

private theorem fed_put (valid : place.Valid) (outside : ∀ place ∈ around, place.Valid ∧ place.TakesAny)
    (formed : WellFormed Setting.Read value) (fits : place.TakesAny ∨ value.type.isSimple) :
    Fed (do return ⟨← put place value, around⟩) := by
  cases place with
  | member members name => exact ⟨valid.1.group_concat valid.2.1 valid.2.2 formed, outside⟩
  | array elements =>
    have simple := fits.resolve_left id
    have holds : value.Read := by
      cases formed with
      | simple _ holds => exact holds
      | _ => cases simple
    rw [put]
    split
    · next same => exact ⟨valid.array_concat same simple holds, outside⟩
    · exact arrayElem_mem
  | list elements => exact ⟨valid.list_concat formed, outside⟩

private theorem fed_close (outside : ∀ place ∈ around, place.Valid ∧ place.TakesAny)
    (formed : WellFormed Setting.Read value) : Fed (close value around) := by
  cases around with
  | nil => exact syntax_mem
  | cons place around =>
    obtain ⟨⟨valid, any⟩, outside⟩ := List.forall_mem_cons.mp outside
    exact fed_put valid outside formed (.inl any)

private theorem led_of_fed {outcome : Except Text (Parse F)} (fed : Fed outcome) (going : token ≠ .eof) :
    Led token (do return .inl (← outcome)) := by
  cases outcome with
  | ok next => exact ⟨fed, going⟩
  | error text => exact fed

private theorem simple_of_token (valid : token.Valid) (simple : token.simple = some value) :
    value.type.isSimple ∧ value.Read := by
  cases token <;> cases simple <;> exact ⟨rfl, valid⟩

private theorem led_settings (formed : WellFormed Setting.Read (.group members))
    (outside : ∀ place ∈ around, place.Valid ∧ place.TakesAny) (valid : token.Valid) :
    Led token (feedSettings maxDepth members around token) := by
  unfold feedSettings
  split
  · refine meets_yynewstate exhausted_mem fun _ => ?_
    split
    · next sval adds =>
      refine meets_yynewstate exhausted_mem fun _ => ?_
      exact ⟨⟨⟨formed, valid, notMem_of_configSettingAdd adds⟩, outside⟩, nofun⟩
    · exact duplicate_mem
  · exact meets_yynewstate exhausted_mem fun _ => led_of_fed (fed_close outside formed) nofun
  · cases around with
    | nil => exact ⟨formed, members, rfl⟩
    | cons place around => exact meets_yynewstate exhausted_mem fun _ => syntax_mem
  · exact meets_yynewstate exhausted_mem fun _ => syntax_mem

private theorem fed_value (fits : place.Valid) (outside : ∀ place ∈ around, place.Valid ∧ place.TakesAny)
    (valid : token.Valid) : Fed (feedValue maxDepth place around token) := by
  unfold feedValue
  split
  · next value simple =>
    obtain ⟨type, read⟩ := simple_of_token valid simple
    exact meets_yynewstate exhausted_mem fun _ => fed_put fits outside (.simple type read) (.inr type)
  · have nested (any : place.TakesAny) : ∀ other ∈ place :: around, other.Valid ∧ other.TakesAny :=
      List.forall_mem_cons.mpr ⟨⟨fits, any⟩, outside⟩
    have any (other : ∀ elements, place ≠ .array elements) : place.TakesAny := by
      cases place with
      | array elements => exact other elements rfl
      | _ => trivial
    split
    · exact meets_yynewstate exhausted_mem fun _ => ⟨⟨fits, valid⟩, outside⟩
    · exact syntax_mem
    · next other =>
      exact meets_yynewstate exhausted_mem fun _ => ⟨wellFormed_array_nil, nested (any other)⟩
    · next other =>
      exact meets_yynewstate exhausted_mem fun _ => ⟨wellFormed_list_nil, nested (any other)⟩
    · next other =>
      exact meets_yynewstate exhausted_mem fun _ => ⟨wellFormed_group_nil, nested (any other)⟩
    · exact syntax_mem

private theorem fed_end (fits : place.Valid) (outside : ∀ place ∈ around, place.Valid ∧ place.TakesAny) :
    Fed (feedEnd maxDepth place around token) := by
  unfold feedEnd
  split
  · exact meets_yynewstate exhausted_mem fun _ => fed_close outside fits
  · exact meets_yynewstate exhausted_mem fun _ => fed_close outside fits
  · exact syntax_mem

private theorem fed_first (fits : place.Valid) (outside : ∀ place ∈ around, place.Valid ∧ place.TakesAny)
    (valid : token.Valid) : Fed (feedFirst maxDepth place around token) := by
  refine meets_yynewstate exhausted_mem fun _ => ?_
  split
  · exact fed_end fits outside
  · exact fed_end fits outside
  · exact fed_value fits outside valid

private theorem feedValue_eof : feedValue maxDepth place around .eof = .error errSyntax := by
  cases place <;> rfl

private theorem feedEnd_eof : feedEnd maxDepth place around .eof = .error errSyntax := by
  cases place <;> rfl

/-- The end of the text does not go on from a value. -/
private theorem led_of_eof {outcome : Except Text (Parse F)} (fed : Fed outcome)
    (ends : token = .eof → Meets (fun _ => False) (· ∈ readErrors) outcome) :
    Led token (do return .inl (← outcome)) := by
  by_cases same : token = .eof
  · have stops := ends same
    cases outcome with
    | ok next => exact stops.elim
    | error text => exact fed
  · exact led_of_fed fed same

private theorem led_phase (fits : phase.Valid) (outside : ∀ place ∈ around, place.Valid ∧ place.TakesAny)
    (valid : token.Valid) : Led token (feedPhase maxDepth phase around token) := by
  unfold feedPhase
  split
  · exact led_settings fits outside valid
  · exact meets_yynewstate exhausted_mem fun _ => ⟨⟨fits, outside⟩, nofun⟩
  · refine led_of_eof (fed_value fits outside valid) ?_
    rintro rfl
    rw [feedValue_eof]
    exact syntax_mem
  · refine led_of_eof (fed_first fits outside valid) ?_
    rintro rfl
    refine meets_yynewstate exhausted_mem fun _ => ?_
    dsimp only
    rw [feedValue_eof]
    exact syntax_mem
  · refine meets_yynewstate exhausted_mem fun _ => ?_
    split
    · exact ⟨⟨fits, outside⟩, nofun⟩
    · exact ⟨⟨fits, outside⟩, nofun⟩
    · exact led_settings fits outside valid
  · exact meets_yynewstate exhausted_mem fun _ => ⟨⟨fits, outside⟩, nofun⟩
  · refine led_of_eof (fed_end fits outside) ?_
    rintro rfl
    rw [feedEnd_eof]
    exact syntax_mem
  · exact syntax_mem

/-- A token keeps what has been built well formed, and the end of the text ends the parse. -/
theorem led_feed {parse : Parse F} (built : parse.Valid) (valid : token.Valid) :
    Led token (feed maxDepth parse token) := by
  obtain ⟨phase, around⟩ := parse
  obtain ⟨fits, outside⟩ := built
  unfold feed
  split
  · next text =>
    rcases valid with rfl | rfl
    · exact tooDeep_mem
    · exact badInclude_mem
  · next sval place text same =>
    obtain rfl : phase = .string place text := same
    refine meets_yynewstate exhausted_mem fun _ => ?_
    exact ⟨⟨⟨fits.1, fun among => (List.mem_append.mp among).elim fits.2 valid⟩, outside⟩, nofun⟩
  · next place text _ _ same =>
    obtain rfl : phase = .string place text := same
    have formed : WellFormed Setting.Read (.string text : Setting F) := .simple rfl fits.2
    have fed := fed_put fits.1 outside formed (.inr rfl)
    cases complete : put place (.string text) with
    | error text =>
      rw [complete] at fed
      exact fed
    | ok phase =>
      rw [complete] at fed
      exact led_phase fed.phase outside valid
  · exact led_phase fits outside valid

end Steps

end Libconfig

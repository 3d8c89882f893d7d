import Sntp.Proofs.Libconfig.Lexing

/-! # Reading what was written

A written value is read where a value is expected, and the parser then stands behind the value as
reading gives it. This goes up the tree: elements are read one by one into a vector, members into a
group.
-/

namespace Libconfig

open Sntp (Text)

variable {F : Type}

section Reread

variable (platform : Platform F) (defaultFormat : Format)

mutual

/-- What reading makes of a setting that was written: booleans are normal, formats are explicit, and
floats have the precision that is printed. -/
def Setting.reread : Setting F → Setting F
  | .bool ival => .bool (if ival ≠ 0 then 1 else 0)
  | .int ival format => .int ival (configSettingGetFormat defaultFormat format)
  | .int64 llval format => .int64 llval (configSettingGetFormat defaultFormat format)
  | .float fval => .float (platform.atof (floatText (platform.formatFloat fval)))
  | .string sval => .string sval
  | .array elements => .array (rereadElements elements)
  | .list elements => .list (rereadElements elements)
  | .group members => .group (rereadMembers members)

def rereadElements : List (Setting F) → List (Setting F)
  | [] => []
  | element :: rest => element.reread :: rereadElements rest

def rereadMembers : List (Text × Setting F) → List (Text × Setting F)
  | [] => []
  | (name, setting) :: rest => (name, setting.reread) :: rereadMembers rest

end

/-- What can be written so that it can be read. -/
def Setting.Writable : Setting F → Prop
  | .float fval => printed.accepts (platform.formatFloat fval)
  | .string sval => '\x00' ∉ sval
  | _ => True

end Reread

variable {platform : Platform F} {defaultFormat : Format} {setting : Setting F}
  {elements : List (Setting F)} {members : List (Text × Setting F)}

@[simp] theorem type_reread : (setting.reread platform defaultFormat).type = setting.type := by
  cases setting <;> rfl

theorem rereadElements_eq :
    rereadElements platform defaultFormat elements = elements.map (·.reread platform defaultFormat) := by
  induction elements with
  | nil => rfl
  | cons element elements ih => rw [rereadElements, ih, List.map_cons]

theorem rereadMembers_eq : rereadMembers platform defaultFormat members =
    members.map fun member => (member.1, member.2.reread platform defaultFormat) := by
  induction members with
  | nil => rfl
  | cons member members ih => rw [rereadMembers, ih, List.map_cons]

@[simp] theorem isEmpty_rereadElements :
    (rereadElements platform defaultFormat elements).isEmpty = elements.isEmpty := by
  cases elements <;> rfl

@[simp] theorem listed_rereadMembers :
    listed (rereadMembers platform defaultFormat members) = listed members := by
  cases members <;> rfl

private theorem elementsHeight_reread {before : ℕ} (same : ∀ element ∈ elements,
      (element.reread platform defaultFormat).stackHeight = element.stackHeight) :
    elementsHeight before (rereadElements platform defaultFormat elements) =
      elementsHeight before elements := by
  induction elements generalizing before with
  | nil => rfl
  | cons element elements ih =>
    obtain ⟨first, others⟩ := List.forall_mem_cons.mp same
    rw [rereadElements, elementsHeight, elementsHeight, first, ih others]

private theorem membersHeight_reread {before : ℕ} (same : ∀ member ∈ members,
      (member.2.reread platform defaultFormat).stackHeight = member.2.stackHeight) :
    membersHeight before (rereadMembers platform defaultFormat members) =
      membersHeight before members := by
  induction members generalizing before with
  | nil => rfl
  | cons member members ih =>
    obtain ⟨first, others⟩ := List.forall_mem_cons.mp same
    rw [rereadMembers, membersHeight, membersHeight, first, ih others]

/-- What is reread takes as much room as what was written. -/
theorem stackHeight_reread : (setting.reread platform defaultFormat).stackHeight = setting.stackHeight := by
  induction setting using Setting.induction with
  | array elements ih =>
    rw [Setting.reread, Setting.stackHeight, Setting.stackHeight, elementsHeight_reread ih]
  | list elements ih =>
    rw [Setting.reread, Setting.stackHeight, Setting.stackHeight, elementsHeight_reread ih]
  | group members ih =>
    rw [Setting.reread, Setting.stackHeight, Setting.stackHeight, membersHeight_reread ih]
  | _ => simp only [Setting.reread, Setting.stackHeight]

theorem rootFits_reread {maxDepth : ℕ} :
    RootFits maxDepth (rereadMembers platform defaultFormat members) ↔ RootFits maxDepth members := by
  rw [RootFits, membersHeight_reread fun _ _ => stackHeight_reread, RootFits]

section Feeding

variable {maxDepth : ℕ} {parse : Parse F} {place : Place F} {around : List (Place F)} {phase : Phase F}
  {token : Token F} {value : Setting F}

/-- The parser expects a value. -/
def Awaits (parse : Parse F) (place : Place F) (around : List (Place F)) : Prop :=
  parse = ⟨.value place, around⟩ ∨ parse = ⟨.first place, around⟩

/-- A token that leaves a string before it and is no error. -/
def Token.Plain : Token F → Prop
  | .string _ | .error _ => False
  | _ => True

/-- The parser stands behind a value, though a string may still be open. -/
def Settled (maxDepth : ℕ) (parse : Parse F) (phase : Phase F) (around : List (Place F)) : Prop :=
  ∀ token : Token F, token.Plain → feed maxDepth parse token = feedPhase maxDepth phase around token

/-- The parser expects a setting or the end of a group, though there may be a value before it. -/
def AtSettings (maxDepth : ℕ) (parse : Parse F) (members : List (Text × Setting F))
    (around : List (Place F)) : Prop :=
  ∀ token : Token F, (∃ name, token = .name name) ∨ token = .groupEnd ∨ token = .eof →
    feed maxDepth parse token = feedSettings maxDepth members around token

/-- The parser takes the end of a vector. -/
def Closable (maxDepth : ℕ) (parse : Parse F) (place : Place F) (around : List (Place F)) : Prop :=
  ∀ token : Token F, token = .arrayEnd ∨ token = .listEnd →
    feed maxDepth parse token = do return .inl (← feedEnd maxDepth place around token)

/-- A token of a value is taken when there is room for a value. -/
private theorem feed_of_awaits {next : Parse F} (awaits : Awaits parse place around)
    (room : symbolsAround around + 1 + 1 < maxDepth) (plain : ∀ text, token ≠ .error text)
    (begins : token ≠ .arrayEnd ∧ token ≠ .listEnd) (fed : feedValue maxDepth place around token = .ok next) :
    feed maxDepth parse token = .ok (.inl next) := by
  have going : (do return .inl (← feedValue maxDepth place around token) :
      Except Text (Parse F ⊕ Setting F)) = .ok (.inl next) := by
    rw [fed]
    rfl
  have first : feedFirst maxDepth place around token = feedValue maxDepth place around token := by
    unfold feedFirst
    rw [yynewstate_of_room room]
    cases token <;> first | rfl | cases begins.1 rfl | cases begins.2 rfl
  rcases awaits with rfl | rfl
  · cases token <;> first | exact going | cases plain _ rfl
  · rw [← first] at going
    cases token <;> first | exact going | cases plain _ rfl

theorem feed_simple (awaits : Awaits parse place around) (simple : token.simple = some value)
    (room : symbolsAround around + place.symbols + 1 + 1 < maxDepth)
    (complete : put place value = .ok phase) :
    feed maxDepth parse token = .ok (.inl ⟨phase, around⟩) := by
  have fed : feedValue maxDepth place around token = .ok ⟨phase, around⟩ := by
    simp only [feedValue, simple, yynewstate_of_room room, complete]
    rfl
  refine feed_of_awaits awaits (by omega) ?_ ?_ fed
  · rintro text rfl
    cases simple
  · constructor <;> rintro rfl <;> cases simple

theorem feed_string {sval : Text} (awaits : Awaits parse place around)
    (room : symbolsAround around + place.symbols + 1 + 1 < maxDepth) :
    feed maxDepth parse (.string sval) = .ok (.inl ⟨.string place sval, around⟩) := by
  refine feed_of_awaits awaits (by omega) nofun ⟨nofun, nofun⟩ ?_
  simp only [feedValue, Token.simple, yynewstate_of_room room]
  rfl

section Brackets

variable (awaits : Awaits parse place around) (any : place.TakesAny)
  (room : symbolsAround (place :: around) + 1 < maxDepth)
include awaits any room

private theorem feed_start {start : Token F} {next : Phase F} (plain : ∀ text, start ≠ .error text)
    (begins : start ≠ .arrayEnd ∧ start ≠ .listEnd)
    (fed : ∀ place : Place F, place.TakesAny → feedValue maxDepth place around start = do
      yynewstate maxDepth (symbolsAround around + place.symbols + 2)
      return ⟨next, place :: around⟩) :
    feed maxDepth parse start = .ok (.inl ⟨next, place :: around⟩) := by
  rw [symbolsAround_cons] at room
  refine feed_of_awaits awaits (by omega) plain begins ?_
  rw [fed place any, yynewstate_of_room (by omega)]
  rfl

theorem feed_groupStart :
    feed maxDepth parse .groupStart = .ok (.inl ⟨.settings [], place :: around⟩) :=
  feed_start awaits any room nofun ⟨nofun, nofun⟩ fun place any => by cases place <;> first | rfl | cases any

theorem feed_arrayStart :
    feed maxDepth parse .arrayStart = .ok (.inl ⟨.first (.array []), place :: around⟩) :=
  feed_start awaits any room nofun ⟨nofun, nofun⟩ fun place any => by cases place <;> first | rfl | cases any

theorem feed_listStart :
    feed maxDepth parse .listStart = .ok (.inl ⟨.first (.list []), place :: around⟩) :=
  feed_start awaits any room nofun ⟨nofun, nofun⟩ fun place any => by cases place <;> first | rfl | cases any

end Brackets

theorem settled_of_put (complete : put place value = .ok phase) :
    Settled maxDepth ⟨phase, around⟩ phase around := by
  have behind : (∃ members, phase = .terminator members) ∨ ∃ place, phase = .separator place := by
    cases place with
    | member members name => exact .inl ⟨_, (Except.ok.inj complete).symm⟩
    | array elements =>
      rw [put] at complete
      split at complete
      · exact .inr ⟨_, (Except.ok.inj complete).symm⟩
      · cases complete
    | list elements => exact .inr ⟨_, (Except.ok.inj complete).symm⟩
  intro token plain
  rcases behind with ⟨members, rfl⟩ | ⟨place, rfl⟩ <;> cases token <;> cases plain <;> rfl

theorem settled_of_string {sval : Text} (complete : put place (.string sval) = .ok phase) :
    Settled maxDepth ⟨.string place sval, around⟩ phase around := by
  intro token plain
  have going : (do feedPhase maxDepth (← put place (.string sval)) around token) =
      feedPhase maxDepth phase around token := by
    rw [complete]
    rfl
  cases token <;> cases plain <;> exact going

end Feeding

end Libconfig

import Sntp.Model.Libconfig.Grammar

/-! # How deep the stack of the parser gets

The symbols that a tree puts on the stack while it is read are counted from the tree alone. Whatever
text a tree was read from, the stack had room for them; and a stack with more room reads the same, or
goes on where a smaller one was exhausted.
-/

namespace Libconfig

open Sntp (Text)
open Machine

variable {F : Type}

mutual

/-- The most symbols that a setting puts on the stack while it is read: the one it ends as, or its
bracket, the empty symbol of the action, and then what is between the brackets or the last two. -/
def Setting.stackHeight : Setting F → ℕ
  | .bool _ | .int _ _ | .int64 _ _ | .float _ | .string _ => 1
  | .array elements => 2 + max 2 (elementsHeight 0 elements)
  | .list elements => 2 + max 2 (elementsHeight 0 elements)
  | .group members => 2 + max 2 (membersHeight 0 members)

/-- The same for elements with a number of symbols before the first. All others come behind the list of
those before them and a comma. -/
def elementsHeight (before : ℕ) : List (Setting F) → ℕ
  | [] => 0
  | element :: rest => max (before + element.stackHeight) (elementsHeight 2 rest)

/-- The same for members. A member is a name, the empty symbol of its action, a sign, a value and a
terminator. -/
def membersHeight (before : ℕ) : List (Text × Setting F) → ℕ
  | [] => 0
  | (_, setting) :: rest => max (before + max 5 (3 + setting.stackHeight)) (membersHeight 1 rest)

end

/-- There is room for the symbols of a root with these members. -/
def RootFits (maxDepth : ℕ) (members : List (Text × Setting F)) : Prop :=
  membersHeight 0 members + 1 < maxDepth

instance (maxDepth : ℕ) (members : List (Text × Setting F)) : Decidable (RootFits maxDepth members) :=
  inferInstanceAs (Decidable (membersHeight 0 members + 1 < maxDepth))

variable {maxDepth : ℕ} {place : Place F} {around : List (Place F)} {value : Setting F} {name : Text}
  {elements : List (Setting F)} {members : List (Text × Setting F)} {token : Token F}

theorem stackHeight_pos : 0 < value.stackHeight := by
  cases value <;> rw [Setting.stackHeight] <;> omega

theorem stackHeight_of_simple (simple : token.simple = some value) : value.stackHeight = 1 := by
  cases token <;> cases simple <;> rw [Setting.stackHeight]

theorem elementsHeight_concat {before : ℕ} : elementsHeight before (elements ++ [value]) =
    max (elementsHeight before elements)
      ((if elements.isEmpty then before else 2) + value.stackHeight) := by
  induction elements generalizing before with
  | nil => simp [elementsHeight]
  | cons element elements ih =>
    rw [List.cons_append, elementsHeight, elementsHeight, ih, max_assoc, List.isEmpty_cons, ite_self,
      if_neg Bool.false_ne_true]

theorem membersHeight_concat {before : ℕ} : membersHeight before (members ++ [(name, value)]) =
    max (membersHeight before members)
      ((if members.isEmpty then before else 1) + max 5 (3 + value.stackHeight)) := by
  induction members generalizing before with
  | nil => simp [membersHeight]
  | cons member members ih =>
    rw [List.cons_append, membersHeight, membersHeight, ih, max_assoc, List.isEmpty_cons, ite_self,
      if_neg Bool.false_ne_true]

/-- Lists within lists. -/
def nestedLists : ℕ → Setting F
  | 0 => .list []
  | depth + 1 => .list [nestedLists depth]

private theorem stackHeight_nestedLists {depth : ℕ} :
    (nestedLists depth : Setting F).stackHeight = 2 * depth + 4 := by
  induction depth with
  | zero => rfl
  | succ depth ih =>
    rw [nestedLists, Setting.stackHeight, elementsHeight, elementsHeight, ih]
    omega

/-- Each list takes two symbols. -/
theorem rootFits_nestedLists {depth : ℕ} :
    RootFits maxDepth [(name, (nestedLists depth : Setting F))] ↔ 2 * depth + 8 < maxDepth := by
  rw [RootFits, membersHeight, membersHeight, stackHeight_nestedLists]
  omega

example : RootFits yyMaxDepth [("a".toList, (nestedLists 4995 : Setting ℕ))] ∧
    ¬ RootFits yyMaxDepth [("a".toList, (nestedLists 4996 : Setting ℕ))] := by
  rw [rootFits_nestedLists, rootFits_nestedLists]
  decide

@[simp] theorem symbolsAround_cons :
    symbolsAround (place :: around) = place.symbols + 2 + symbolsAround around := by
  rw [symbolsAround, List.map_cons, List.sum_cons, symbolsAround]

section States

variable {symbols : ℕ} {α β : Type} {next : Except Text α} {returned : α → Prop} {refused : Text → Prop}

/-- What is required of a value, or of the text of an error. -/
def Meets (returned : α → Prop) (refused : Text → Prop) : Except Text α → Prop
  | .ok value => returned value
  | .error text => refused text

theorem meets_bind {program : Except Text β} {next : β → Except Text α}
    (meets : Meets (fun value => Meets returned refused (next value)) refused program) :
    Meets returned refused (program >>= next) := by
  cases program with
  | ok value => exact meets
  | error text => exact meets

theorem yynewstate_of_room (room : symbols + 1 < maxDepth) : yynewstate maxDepth symbols = .ok () :=
  if_pos room

/-- What follows a new state may rely on the room for it. -/
theorem meets_yynewstate (full : refused errMemoryExhausted)
    (meets : symbols + 1 < maxDepth → Meets returned refused next) :
    Meets returned refused (do yynewstate maxDepth symbols; next) := by
  refine meets_bind ?_
  rw [yynewstate]
  split
  · next room => exact meets room
  · exact full

end States

section Room

/-- There was room for what has been built at a place. -/
def Place.Fits (maxDepth : ℕ) (around : List (Place F)) : Place F → Prop
  | .member members _ => symbolsAround around + membersHeight 0 members + 1 < maxDepth
  | .array elements | .list elements => symbolsAround around + elementsHeight 0 elements + 1 < maxDepth

/-- There was room at all places. -/
def FitAround (maxDepth : ℕ) : List (Place F) → Prop
  | [] => True
  | place :: around => place.Fits maxDepth around ∧ FitAround maxDepth around

def Phase.Fits (maxDepth : ℕ) (around : List (Place F)) : Phase F → Prop
  | .settings members => symbolsAround around + membersHeight 0 members + 1 < maxDepth
  | .equals members name => Place.Fits maxDepth around (.member members name)
  | .value place | .first place | .separator place => place.Fits maxDepth around
  | .string place _ => place.Fits maxDepth around ∧ symbolsAround around + place.symbols + 1 + 1 < maxDepth
  -- the last setting has no terminator yet
  | .terminator members => symbolsAround around + listed members.dropLast + 5 + 1 < maxDepth →
    symbolsAround around + membersHeight 0 members + 1 < maxDepth

/-- There was room for all that the parser has built. -/
structure Parse.Fits (maxDepth : ℕ) (parse : Parse F) : Prop where
  phase : parse.phase.Fits maxDepth parse.around
  around : FitAround maxDepth parse.around

/-- There was room for what a token leads to. -/
def Fitted (maxDepth : ℕ) : Parse F ⊕ Setting F → Prop
  | .inl next => next.Fits maxDepth
  | .inr root => ∃ members, root = .group members ∧ RootFits maxDepth members

variable {phase : Phase F}

private theorem fits_put (fits : place.Fits maxDepth around)
    (room : symbolsAround around + place.symbols + value.stackHeight + 1 < maxDepth) :
    Meets (Phase.Fits maxDepth around) (fun _ => True) (put place value) := by
  cases place with
  | member members name =>
    intro ended
    rw [List.dropLast_concat] at ended
    rw [membersHeight_concat]
    simp only [Place.Fits, Place.symbols, listed] at fits room ended ⊢
    omega
  | array elements =>
    rw [put]
    split
    · simp only [Meets, Phase.Fits, Place.Fits, Place.symbols, elementsHeight_concat] at fits room ⊢
      omega
    · trivial
  | list elements =>
    simp only [put, Meets, Phase.Fits, Place.Fits, Place.symbols, elementsHeight_concat] at fits room ⊢
    omega

private theorem fits_put_around (fits : place.Fits maxDepth around) (outside : FitAround maxDepth around)
    (room : symbolsAround around + place.symbols + value.stackHeight + 1 < maxDepth) :
    Meets (Parse.Fits maxDepth) (fun _ => True) (do return ⟨← put place value, around⟩) := by
  have outcome := fits_put fits room
  cases complete : put place value with
  | ok phase =>
    rw [complete] at outcome
    exact ⟨outcome, outside⟩
  | error text => trivial

/-- What stood between two brackets, with the closing one. -/
private theorem fits_close {height : ℕ} (outside : FitAround maxDepth around)
    (total : value.stackHeight = 2 + max 2 height) (inner : symbolsAround around + height + 1 < maxDepth)
    (ended : symbolsAround around + 2 + 1 < maxDepth) :
    Meets (Parse.Fits maxDepth) (fun _ => True) (close value around) := by
  cases around with
  | nil => trivial
  | cons place around =>
    rw [symbolsAround_cons] at inner ended
    exact fits_put_around outside.1 outside.2 (by omega)

private theorem fitted_of_fits {outcome : Except Text (Parse F)}
    (fits : Meets (Parse.Fits maxDepth) (fun _ => True) outcome) :
    Meets (Fitted maxDepth) (fun _ => True) (do return .inl (← outcome)) := by
  cases outcome with
  | ok next => exact fits
  | error text => trivial

private theorem fitted_settings
    (fits : symbolsAround around + membersHeight 0 members + 1 < maxDepth)
    (outside : FitAround maxDepth around) :
    Meets (Fitted maxDepth) (fun _ => True) (feedSettings maxDepth members around token) := by
  unfold feedSettings
  split
  · refine meets_yynewstate trivial fun _ => ?_
    split
    · exact meets_yynewstate trivial fun _ => ⟨fits, outside⟩
    · trivial
  · exact meets_yynewstate trivial fun ended =>
      fitted_of_fits (fits_close outside (by rw [Setting.stackHeight]) fits ended)
  · split
    · refine ⟨members, rfl, ?_⟩
      simpa [symbolsAround, RootFits] using fits
    · exact meets_yynewstate trivial fun _ => trivial
  · exact meets_yynewstate trivial fun _ => trivial

private theorem fits_value (fits : place.Fits maxDepth around) (outside : FitAround maxDepth around) :
    Meets (Parse.Fits maxDepth) (fun _ => True) (feedValue maxDepth place around token) := by
  unfold feedValue
  split
  · next simple =>
    refine meets_yynewstate trivial fun room => fits_put_around fits outside ?_
    rwa [stackHeight_of_simple simple]
  · have opened (room : symbolsAround around + place.symbols + 2 + 1 < maxDepth) :
        symbolsAround (place :: around) + 0 + 1 < maxDepth := by
      rw [symbolsAround_cons]
      omega
    split
    · exact meets_yynewstate trivial fun room => ⟨⟨fits, room⟩, outside⟩
    · trivial
    · exact meets_yynewstate trivial fun room => ⟨opened room, fits, outside⟩
    · exact meets_yynewstate trivial fun room => ⟨opened room, fits, outside⟩
    · exact meets_yynewstate trivial fun room => ⟨opened room, fits, outside⟩
    · trivial

private theorem fits_end (fits : place.Fits maxDepth around) (outside : FitAround maxDepth around) :
    Meets (Parse.Fits maxDepth) (fun _ => True) (feedEnd maxDepth place around token) := by
  unfold feedEnd
  split
  · exact meets_yynewstate trivial fun ended => fits_close outside (by rw [Setting.stackHeight]) fits ended
  · exact meets_yynewstate trivial fun ended => fits_close outside (by rw [Setting.stackHeight]) fits ended
  · trivial

private theorem fitted_phase (fits : phase.Fits maxDepth around)
    (outside : FitAround maxDepth around) :
    Meets (Fitted maxDepth) (fun _ => True) (feedPhase maxDepth phase around token) := by
  unfold feedPhase
  split
  · exact fitted_settings fits outside
  · exact meets_yynewstate trivial fun _ => ⟨fits, outside⟩
  · exact fitted_of_fits (fits_value fits outside)
  · refine fitted_of_fits (meets_yynewstate trivial fun _ => ?_)
    split
    · exact fits_end fits outside
    · exact fits_end fits outside
    · exact fits_value fits outside
  · refine meets_yynewstate trivial fun ended => ?_
    split
    · exact ⟨fits ended, outside⟩
    · exact ⟨fits ended, outside⟩
    · exact fitted_settings (fits ended) outside
  · exact meets_yynewstate trivial fun _ => ⟨fits, outside⟩
  · exact fitted_of_fits (fits_end fits outside)
  · trivial

/-- A token that is taken had room on the stack, with all that was built before it. -/
theorem fitted_feed {parse : Parse F} (fits : parse.Fits maxDepth) :
    Meets (Fitted maxDepth) (fun _ => True) (feed maxDepth parse token) := by
  obtain ⟨phase, around⟩ := parse
  obtain ⟨fits, outside⟩ := fits
  unfold feed
  split
  · trivial
  · next sval place text same =>
    obtain rfl : phase = .string place text := same
    exact meets_yynewstate trivial fun _ => ⟨fits, outside⟩
  · next place text _ _ same =>
    obtain rfl : phase = .string place text := same
    refine meets_bind ?_
    have outcome := @fits_put _ _ _ _ (.string text) fits.1 fits.2
    cases complete : put place (.string text) with
    | error text => trivial
    | ok phase =>
      rw [complete] at outcome
      exact fitted_phase outcome outside
  · exact fitted_phase fits outside

end Room

section Growing

/-- What happens with a stack that can grow less: the same, or the stack is exhausted. -/
def SameOrExhausted {α : Type} (small large : Except Text α) : Prop :=
  small = large ∨ small = .error errMemoryExhausted

private theorem SameOrExhausted.bind {α β : Type} {small large : Except Text α}
    {next next' : α → Except Text β} (same : SameOrExhausted small large)
    (rest : ∀ value, SameOrExhausted (next value) (next' value)) :
    SameOrExhausted (small >>= next) (large >>= next') := by
  rcases same with rfl | exhausted
  · cases small with
    | ok value => exact rest value
    | error text => exact .inl rfl
  · rw [exhausted]
    exact .inr rfl

private theorem sameOrExhausted_refl {α : Type} {outcome : Except Text α} :
    SameOrExhausted outcome outcome := .inl rfl

variable {larger : ℕ} {phase : Phase F}

private theorem sameOrExhausted_yynewstate {symbols : ℕ} (grows : maxDepth ≤ larger) :
    SameOrExhausted (yynewstate maxDepth symbols) (yynewstate larger symbols) := by
  by_cases room : symbols + 1 < maxDepth
  · rw [yynewstate_of_room room, yynewstate_of_room (by omega)]
    exact .inl rfl
  · exact .inr (if_neg room)

private theorem sameOrExhausted_settings (grows : maxDepth ≤ larger) :
    SameOrExhausted (feedSettings maxDepth members around token)
      (feedSettings larger members around token) := by
  have state {symbols : ℕ} := @sameOrExhausted_yynewstate maxDepth larger symbols grows
  unfold feedSettings
  split
  · refine state.bind fun _ => ?_
    split
    · exact state.bind fun _ => sameOrExhausted_refl
    · exact sameOrExhausted_refl
  · exact state.bind fun _ => sameOrExhausted_refl
  · split
    · exact sameOrExhausted_refl
    · exact state.bind fun _ => sameOrExhausted_refl
  · exact state.bind fun _ => sameOrExhausted_refl

private theorem sameOrExhausted_value (grows : maxDepth ≤ larger) :
    SameOrExhausted (feedValue maxDepth place around token) (feedValue larger place around token) := by
  have state {symbols : ℕ} := @sameOrExhausted_yynewstate maxDepth larger symbols grows
  unfold feedValue
  split
  · exact state.bind fun _ => sameOrExhausted_refl
  · split
    · exact state.bind fun _ => sameOrExhausted_refl
    · exact sameOrExhausted_refl
    · exact state.bind fun _ => sameOrExhausted_refl
    · exact state.bind fun _ => sameOrExhausted_refl
    · exact state.bind fun _ => sameOrExhausted_refl
    · exact sameOrExhausted_refl

private theorem sameOrExhausted_end (grows : maxDepth ≤ larger) :
    SameOrExhausted (feedEnd maxDepth place around token) (feedEnd larger place around token) := by
  have state {symbols : ℕ} := @sameOrExhausted_yynewstate maxDepth larger symbols grows
  unfold feedEnd
  split
  · exact state.bind fun _ => sameOrExhausted_refl
  · exact state.bind fun _ => sameOrExhausted_refl
  · exact sameOrExhausted_refl

private theorem sameOrExhausted_phase (grows : maxDepth ≤ larger) :
    SameOrExhausted (feedPhase maxDepth phase around token) (feedPhase larger phase around token) := by
  have state {symbols : ℕ} := @sameOrExhausted_yynewstate maxDepth larger symbols grows
  unfold feedPhase
  split
  · exact sameOrExhausted_settings grows
  · exact state.bind fun _ => sameOrExhausted_refl
  · exact (sameOrExhausted_value grows).bind fun _ => sameOrExhausted_refl
  · refine SameOrExhausted.bind (state.bind fun _ => ?_) fun _ => sameOrExhausted_refl
    split
    · exact sameOrExhausted_end grows
    · exact sameOrExhausted_end grows
    · exact sameOrExhausted_value grows
  · refine state.bind fun _ => ?_
    split
    · exact sameOrExhausted_refl
    · exact sameOrExhausted_refl
    · exact sameOrExhausted_settings grows
  · exact state.bind fun _ => sameOrExhausted_refl
  · exact (sameOrExhausted_end grows).bind fun _ => sameOrExhausted_refl
  · exact sameOrExhausted_refl

/-- A stack that can grow less takes a token the same way or is exhausted. -/
theorem sameOrExhausted_feed {parse : Parse F} (grows : maxDepth ≤ larger) :
    SameOrExhausted (feed maxDepth parse token) (feed larger parse token) := by
  have state {symbols : ℕ} := @sameOrExhausted_yynewstate maxDepth larger symbols grows
  unfold feed
  split
  · exact sameOrExhausted_refl
  · exact state.bind fun _ => sameOrExhausted_refl
  · exact sameOrExhausted_refl.bind fun _ => sameOrExhausted_phase grows
  · exact sameOrExhausted_phase grows

end Growing

end Libconfig

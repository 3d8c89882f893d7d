import Sntp.Proofs.Libconfig.Rereading

/-! # Written settings are legible

What is written of a setting can be read wherever the setting is expected, at every depth of the layout
and for every choice of its options. Elements are read into a vector one by one, members into a group.
-/

namespace Libconfig

open Sntp (Text)
open Machine Regex

variable {F : Type}

/-- Reading goes on well behind a complete value, whether it was a string or not. -/
def ReadsBehind (maxDepth : ℕ) (platform : Platform F) (includeDir : Option Text) (filenames : List Text)
    (phase : Phase F) (around : List (Place F)) (text : Text) (root : Setting F) : Prop :=
  ∀ behind, Settled maxDepth behind phase around →
    ReadsFrom maxDepth platform includeDir filenames behind text root

/-- What is written of a setting is read as the setting reread where the stack has room for it, and no
indentation runs into it. -/
structure Legible (platform : Platform F) (config : ConfigT F) (setting : Setting F) : Prop where
  unblank (depth : ℕ) (rest : Text) : 0 < depth →
    Unblank (configWriteValue platform config depth setting ++ rest)
  reads {maxDepth depth : ℕ} {includeDir : Option Text} {filenames : List Text} {parse : Parse F}
    {place : Place F} {around : List (Place F)} {phase : Phase F} {follow : Char} {rest : Text}
    {root : Setting F} :
    0 < depth → follow ∈ valueEnds →
    Awaits parse place around → place.TakesAny ∨ setting.type.isSimple →
    symbolsAround around + place.symbols + setting.stackHeight + 1 < maxDepth →
    put place (setting.reread platform config.defaultFormat) = .ok phase →
    ReadsBehind maxDepth platform includeDir filenames phase around (follow :: rest) root →
    ReadsFrom maxDepth platform includeDir filenames parse
      (configWriteValue platform config depth setting ++ follow :: rest) root

variable {maxDepth : ℕ} {platform : Platform F} {config : ConfigT F} {includeDir : Option Text}
  {filenames : List Text} {parse : Parse F} {place : Place F} {around : List (Place F)}
  {setting root : Setting F} {word rest : Text}

private theorem isEmpty_concat {α : Type} {front : List α} {last : α} : (front ++ [last]).isEmpty = false := by
  simp

theorem unblank_cons {c : Char} (solid : ¬ isBlank c ∧ c ≠ '@') : Unblank (c :: rest) := by
  rintro _ ⟨⟩
  exact solid

section Scalars

private theorem solid_of_numberStarts {c : Char} (start : c ∈ numberStarts) : ¬ isBlank c ∧ c ≠ '@' := by
  have all : numberStarts.all fun c => decide (¬ isBlank c ∧ c ≠ '@') := by decide
  exact of_decide_eq_true (List.all_eq_true.mp all c start)

private theorem legible_of_token {give : Text → Token F} {first : Char} {tail : Text}
    (written : ∀ depth, configWriteValue platform config depth setting = word)
    (split : word = first :: tail) (solid : ¬ isBlank first ∧ first ≠ '@')
    (takes : ∀ follow ∈ valueEnds, ∀ rest, Takes platform.atof word (follow :: rest) (.give give))
    (simple : (give word).simple = some (setting.reread platform config.defaultFormat)) :
    Legible platform config setting where
  unblank depth rest _ := by
    rw [written, split]
    exact unblank_cons solid
  reads {_ _ _ _ _ _ _ _ follow rest _} _ ends awaits _ room complete behind := by
    have positive := @stackHeight_pos _ setting
    rw [written]
    exact reads_give (takes follow ends rest) (by simp [split])
      (feed_simple awaits simple (by omega) complete) (behind _ (settled_of_put complete))

private theorem legible_bool (ival : Int32) : Legible platform config (.bool ival) := by
  by_cases zero : ival = 0
  · have split : "false".toList = 'f' :: "alse".toList := rfl
    exact legible_of_token (fun depth => by rw [configWriteValue, if_neg (not_not.mpr zero)]) split
      (by decide) (fun _ ends _ => takes_false ends)
      (by rw [Token.simple, Setting.reread, if_neg (not_not.mpr zero)])
  · have split : "true".toList = 't' :: "rue".toList := rfl
    exact legible_of_token (fun depth => by rw [configWriteValue, if_pos zero]) split
      (by decide) (fun _ ends _ => takes_true ends) (by rw [Token.simple, Setting.reread, if_pos zero])

private theorem isDigit_of_mem {value : ℤ} : ∀ c ∈ Decimal.digits 0 value.natAbs, c.isDigit :=
  fun _ => Decimal.isDigit_of_mem_digits

private theorem legible_int (ival : Int32) (format : Format) : Legible platform config (.int ival format) := by
  cases chosen : configSettingGetFormat config.defaultFormat format with
  | default =>
    obtain ⟨first, start, tail, split⟩ :=
      exists_number_start (isMinus_minusOf ival.toInt) digits_ne_nil isDigit_of_mem []
    rw [List.append_nil] at split
    refine legible_of_token (fun depth => by rw [configWriteValue, chosen, ← zeroPadded_eq]) split
      (solid_of_numberStarts start)
      (fun _ ends _ => takes_integer (isMinus_minusOf _) digits_ne_nil isDigit_of_mem ends) ?_
    rw [Token.simple, ← zeroPadded_eq, ofInt_atoi_zeroPadded, Setting.reread, chosen]
  | hex =>
    refine legible_of_token (fun depth => by rw [configWriteValue, chosen]) rfl (by decide)
      (fun _ ends _ => takes_hex hexText_ne_nil (fun _ => isSome_of_mem_hexText) ends) ?_
    rw [Token.simple, ofNat_fromhex, Setting.reread, chosen]

private theorem legible_int64 (llval : Int64) (format : Format) :
    Legible platform config (.int64 llval format) := by
  cases chosen : configSettingGetFormat config.defaultFormat format with
  | default =>
    obtain ⟨first, start, tail, split⟩ :=
      exists_number_start (isMinus_minusOf llval.toInt) digits_ne_nil isDigit_of_mem ['L']
    have parts : Decimal.zeroPadded 0 llval.toInt ++ ['L'] =
        minusOf llval.toInt ++ (Decimal.digits 0 llval.toInt.natAbs ++ ['L']) := by
      rw [zeroPadded_eq, List.append_assoc]
    refine legible_of_token (fun depth => by rw [configWriteValue, chosen, ← parts]) split
      (solid_of_numberStarts start)
      (fun _ ends _ => takes_integer64 (isMinus_minusOf _) digits_ne_nil isDigit_of_mem ends) ?_
    rw [Token.simple, ← parts, ofInt_atoll_zeroPadded, Setting.reread, chosen]
  | hex =>
    have split : '0' :: 'x' :: hexText llval.toUInt64.toNat ++ ['L'] =
        '0' :: 'x' :: (hexText llval.toUInt64.toNat ++ ['L']) := rfl
    refine legible_of_token (fun depth => by rw [configWriteValue, chosen, ← split]) rfl (by decide)
      (fun _ ends _ => takes_hex64 hexText_ne_nil (fun _ => isSome_of_mem_hexText) ends) ?_
    rw [Token.simple, ofNat_fromhex64, Setting.reread, chosen]

private theorem legible_float {fval : F} (finite : printed.accepts (platform.formatFloat fval)) :
    Legible platform config (.float fval) := by
  obtain ⟨matched, first, start, tail, split⟩ := floatText_spec (accepts_iff.mp finite)
  rw [split] at matched
  refine legible_of_token (fun depth => by rw [configWriteValue, split]) rfl (solid_of_numberStarts start)
    (fun _ ends _ => takes_float start ends matched) ?_
  rw [Token.simple, Setting.reread, split]

private theorem legible_string {sval : Text} (clean : '\x00' ∉ sval) :
    Legible platform config (.string sval) where
  unblank depth rest _ := by
    rw [configWriteValue]
    exact unblank_cons (by decide)
  reads {_ _ _ _ _ _ _ _ follow rest _} _ ends awaits _ room complete behind := by
    rw [Setting.stackHeight] at room
    rw [configWriteValue]
    exact reads_string clean (feed_string awaits room) (behind _ (settled_of_string complete))

/-- A simple setting. -/
theorem legible_simple (simple : setting.type.isSimple) (writable : setting.Writable platform) :
    Legible platform config setting := by
  cases setting with
  | bool ival => exact legible_bool ival
  | int ival format => exact legible_int ival format
  | int64 llval format => exact legible_int64 llval format
  | float fval => exact legible_float writable
  | string sval => exact legible_string writable
  | array elements => cases simple
  | list elements => cases simple
  | group members => cases simple

end Scalars

section Layout

variable {next : Parse F} {c : Char} {token : Token F}

theorem reads_blanks (blank : ∀ c ∈ word, isBlank c) (unblank : Unblank rest)
    (reads : ReadsFrom maxDepth platform includeDir filenames parse rest root) :
    ReadsFrom maxDepth platform includeDir filenames parse (word ++ rest) root := by
  cases word with
  | nil => exact reads
  | cons c word =>
    have some_blanks := List.cons_ne_nil c word
    exact reads_ignore (takes_blanks some_blanks blank unblank) some_blanks reads

theorem reads_space (unblank : Unblank rest)
    (reads : ReadsFrom maxDepth platform includeDir filenames parse rest root) :
    ReadsFrom maxDepth platform includeDir filenames parse (' ' :: rest) root :=
  @reads_blanks _ _ _ _ _ _ _ [' '] _ (List.forall_mem_singleton.mpr rfl) unblank reads

theorem reads_newline (reads : ReadsFrom maxDepth platform includeDir filenames parse rest root) :
    ReadsFrom maxDepth platform includeDir filenames parse ('\n' :: rest) root :=
  reads_ignore takes_newline (List.cons_ne_nil '\n' []) reads

theorem reads_symbol (takes : Takes platform.atof [c] rest (.give fun _ => token))
    (fed : feed maxDepth parse token = .ok (.inl next))
    (reads : ReadsFrom maxDepth platform includeDir filenames next rest root) :
    ReadsFrom maxDepth platform includeDir filenames parse (c :: rest) root :=
  reads_give takes (List.cons_ne_nil c []) fed reads

/-- The indentation that is written before a line. -/
theorem isBlank_of_mem_indent {depth w : ℕ} {c : Char}
    (member : c ∈ if 1 < depth then configIndent depth w else []) : isBlank c := by
  split at member
  · rw [configIndent] at member
    split at member
    · rw [(List.mem_replicate.mp member).2]
      decide
    · rcases List.mem_append.mp member with padding | last
      · rw [(List.mem_replicate.mp padding).2]
        decide
      · rw [List.mem_singleton.mp last]
        decide
  · cases member

end Layout

section Vectors

variable {vector : List (Setting F) → Place F} {elements before whole : List (Setting F)} {depth : ℕ}

private theorem unblank_elements (legible : ∀ element ∈ elements, Legible platform config element)
    (unblank : Unblank rest) : Unblank (writeElements platform config depth elements ++ rest) := by
  cases elements with
  | nil => exact unblank
  | cons element elements =>
    rw [writeElements, List.append_assoc, List.append_assoc]
    exact (legible element List.mem_cons_self).unblank _ _ (Nat.succ_pos depth)

/-- The elements that are left are read behind those before them. -/
private theorem reads_elements (split : before ++ elements = whole)
    (symbols : ∀ elements, (vector elements).symbols = if elements.isEmpty then 0 else 2)
    (room : symbolsAround around + elementsHeight (if before.isEmpty then 0 else 2) elements + 1 < maxDepth)
    (ended : symbolsAround around + 2 + 1 < maxDepth)
    (legible : ∀ element ∈ whole, Legible platform config element)
    (fits : ∀ element ∈ whole, (∀ elements, (vector elements).TakesAny) ∨ element.type.isSimple)
    (puts : ∀ front element back, front ++ element :: back = whole →
      put (vector (rereadElements platform config.defaultFormat front))
        (element.reread platform config.defaultFormat) =
      .ok (.separator (vector (rereadElements platform config.defaultFormat (front ++ [element])))))
    (awaits : elements ≠ [] →
      Awaits parse (vector (rereadElements platform config.defaultFormat before)) around)
    (closes : elements = [] →
      Closable maxDepth parse (vector (rereadElements platform config.defaultFormat before)) around)
    (unblank : Unblank rest)
    (reads : ∀ behind,
      Closable maxDepth behind (vector (rereadElements platform config.defaultFormat whole)) around →
        ReadsFrom maxDepth platform includeDir filenames behind rest root) :
    ReadsFrom maxDepth platform includeDir filenames parse
      (writeElements platform config depth elements ++ rest) root := by
  induction elements generalizing before parse with
  | nil =>
    rw [List.append_nil] at split
    exact reads parse (split ▸ closes rfl)
  | cons element elements ih =>
    have among : element ∈ whole := split ▸ List.mem_append_right _ List.mem_cons_self
    have next : before ++ [element] ++ elements = whole := by rw [List.append_assoc]; exact split
    have any := (fits element among).imp_left fun any =>
      any (rereadElements platform config.defaultFormat before)
    have complete := puts before element elements split
    have positive := Nat.succ_pos depth
    have behind_before : (if (before ++ [element]).isEmpty then 0 else 2) = 2 := by
      rw [isEmpty_concat, if_neg Bool.false_ne_true]
    rw [elementsHeight] at room
    have first : symbolsAround around +
        (vector (rereadElements platform config.defaultFormat before)).symbols + element.stackHeight + 1 <
          maxDepth := by
      rw [symbols, isEmpty_rereadElements]
      omega
    rw [writeElements, List.append_assoc, List.append_assoc]
    cases elements with
    | nil =>
      refine (legible element among).reads positive (by decide) (awaits (List.cons_ne_nil _ _)) any first
        complete fun behind settled => ?_
      refine reads_space unblank (ih next (by rw [behind_before]; omega) (absurd rfl) fun _ => ?_)
      rintro token (rfl | rfl) <;> exact settled _ trivial
    | cons second elements =>
      refine (legible element among).reads positive (by decide) (awaits (List.cons_ne_nil _ _)) any first
        complete fun behind settled => ?_
      have comma : feed maxDepth behind .comma = .ok (.inl ⟨.value (vector
          (rereadElements platform config.defaultFormat (before ++ [element]))), around⟩) := by
        rw [settled .comma trivial, feedPhase, yynewstate_of_room ended]
        rfl
      refine reads_symbol (@takes_symbol _ _ _ _ _ 3 ',' rfl rfl rfl rfl) comma ?_
      have later : ∀ element ∈ second :: elements, Legible platform config element := fun element member =>
        legible element (next ▸ List.mem_append_right _ member)
      exact reads_space (unblank_elements later unblank)
        (ih next (by rw [behind_before]; omega) (fun _ => .inl rfl)
          fun same => absurd same (List.cons_ne_nil second elements))

/-- A vector is read between its brackets. -/
private theorem legible_vector {opens closes : Char} {opening closing : Token F}
    (written : ∀ depth, configWriteValue platform config depth setting =
      opens :: ' ' :: writeElements platform config depth elements ++ [closes])
    (solid : ¬ isBlank opens ∧ opens ≠ '@') (solid' : ¬ isBlank closes ∧ closes ≠ '@')
    (takes : ∀ rest, Takes platform.atof [opens] rest (.give fun _ => opening))
    (takes' : ∀ rest, Takes platform.atof [closes] rest (.give fun _ => closing))
    (feeds : ∀ {maxDepth parse place around}, Awaits parse place around → place.TakesAny →
      symbolsAround (place :: around) + 1 < maxDepth →
      feed maxDepth parse opening = .ok (.inl ⟨.first (vector []), place :: around⟩))
    (ends : closing = .arrayEnd ∨ closing = .listEnd)
    (feedEnds : ∀ maxDepth around,
      feedEnd maxDepth (vector (rereadElements platform config.defaultFormat elements)) around closing = do
        yynewstate maxDepth (symbolsAround around + 2)
        close (setting.reread platform config.defaultFormat) around)
    (symbols : ∀ elements, (vector elements).symbols = if elements.isEmpty then 0 else 2)
    (height : setting.stackHeight = 2 + max 2 (elementsHeight 0 elements))
    (nested : ¬ setting.type.isSimple) (legible : ∀ element ∈ elements, Legible platform config element)
    (fits : ∀ element ∈ elements, (∀ elements, (vector elements).TakesAny) ∨ element.type.isSimple)
    (puts : ∀ front element back, front ++ element :: back = elements →
      put (vector (rereadElements platform config.defaultFormat front))
        (element.reread platform config.defaultFormat) =
      .ok (.separator (vector (rereadElements platform config.defaultFormat (front ++ [element]))))) :
    Legible platform config setting where
  unblank depth rest _ := by
    rw [written]
    exact unblank_cons solid
  reads {maxDepth depth includeDir _ parse place around phase follow rest root} _ _ awaits fits_place room
      complete behind := by
    have any := fits_place.resolve_right nested
    have inside := @symbolsAround_cons _ place around
    rw [height] at room
    have ended : symbolsAround (place :: around) + 2 + 1 < maxDepth := by omega
    have text : configWriteValue platform config depth setting ++ follow :: rest =
        opens :: ' ' :: (writeElements platform config depth elements ++ closes :: follow :: rest) := by
      simp [written]
    rw [text]
    refine reads_symbol (takes _) (feeds awaits any (by omega))
      (reads_space (unblank_elements legible (unblank_cons solid')) ?_)
    refine reads_elements (List.nil_append elements) symbols (by simp; omega) ended legible fits puts
      (fun _ => .inr rfl) ?_ (unblank_cons solid') fun closable closes => ?_
    · have first : yynewstate maxDepth (symbolsAround (place :: around) + 1) = .ok () :=
        yynewstate_of_room (by omega)
      rintro _ token (rfl | rfl)
      · simp only [feed, feedPhase, feedFirst, first]
        rfl
      · simp only [feed, feedPhase, feedFirst, first]
        rfl
    · have fed : feed maxDepth closable closing = .ok (.inl ⟨phase, around⟩) := by
        rw [closes closing ends, feedEnds, yynewstate_of_room ended, close, complete]
        rfl
      exact reads_symbol (takes' _) fed (behind _ (settled_of_put complete))

private theorem rereadElements_concat {defaultFormat : Format} {front : List (Setting F)}
    {element : Setting F} : rereadElements platform defaultFormat (front ++ [element]) =
      rereadElements platform defaultFormat front ++ [element.reread platform defaultFormat] := by
  simp only [rereadElements_eq, List.map_append, List.map_cons, List.map_nil]

theorem legible_list (legible : ∀ element ∈ elements, Legible platform config element) :
    Legible platform config (.list elements) := by
  refine @legible_vector _ _ _ _ .list _ '(' ')' .listStart .listEnd (fun depth => by rw [configWriteValue])
    (by decide) (by decide) (fun rest => @takes_symbol _ _ _ _ _ 16 '(' rfl rfl rfl rfl)
    (fun rest => @takes_symbol _ _ _ _ _ 17 ')' rfl rfl rfl rfl) feed_listStart (.inr rfl)
    (fun _ around => by rw [feedEnd, Setting.reread]) (fun _ => rfl) (by rw [Setting.stackHeight]) nofun
    legible (fun _ _ => .inl fun _ => trivial) ?_
  intro front element back split
  rw [put, rereadElements_concat]

theorem legible_array {type : SettingType} (simple : type.isSimple)
    (same : ∀ element ∈ elements, Legible platform config element ∧ element.type = type) :
    Legible platform config (.array elements) := by
  refine @legible_vector _ _ _ _ .array _ '[' ']' .arrayStart .arrayEnd (fun depth => by rw [configWriteValue])
    (by decide) (by decide) (fun rest => @takes_symbol _ _ _ _ _ 14 '[' rfl rfl rfl rfl)
    (fun rest => @takes_symbol _ _ _ _ _ 15 ']' rfl rfl rfl rfl) feed_arrayStart (.inl rfl)
    (fun _ around => by rw [feedEnd, Setting.reread]) (fun _ => rfl) (by rw [Setting.stackHeight]) nofun
    (fun element member => (same element member).1)
    (fun element member => .inr ((same element member).2 ▸ simple)) ?_
  rintro front element back rfl
  have checked : configVectorChecktype (rereadElements platform config.defaultFormat front)
      (element.reread platform config.defaultFormat).type := by
    cases front with
    | nil => rfl
    | cons first front =>
      rw [rereadElements, configVectorChecktype, type_reread, type_reread, (same first (by simp)).2,
        (same element (by simp)).2, decide_eq_true_eq]
  rw [put, if_pos checked, rereadElements_concat]

end Vectors

section Groups

variable {members before whole : List (Text × Setting F)} {name : Text} {depth : ℕ}

theorem configValidateName_of_isName (valid : isName name) : configValidateName name := by
  rw [isName, Bool.and_eq_true, Bool.and_eq_true] at valid
  exact valid.1.1

private theorem unblank_name (valid : isName name) : Unblank (name ++ rest) := by
  have valid := configValidateName_of_isName valid
  cases name with
  | nil => cases valid
  | cons first more =>
    obtain ⟨start, -⟩ := Bool.and_eq_true_iff.mp valid
    refine unblank_cons ⟨fun blank => ?_, ?_⟩
    · have blank : first = ' ' ∨ first = '\t' := by simpa [isBlank] using blank
      rcases blank with rfl | rfl <;> cases start
    · rintro rfl
      cases start

/-- A member, its layout and what ends it. -/
private theorem configWriteSetting_append (type : SettingType) (value : Text) :
    ∃ sign ∈ "=:".toList, configWriteSetting config (depth + 1) (some name) type value ++ rest =
      (if 1 < depth + 1 then configIndent (depth + 1) config.tabWidth else []) ++ (name ++ ' ' :: sign :: ' ' ::
        (value ++ ((if configHasOption config semicolonSeparators then [';'] else []) ++ '\n' :: rest))) := by
  refine ⟨if type = .group then if configHasOption config colonAssignmentForGroups then ':' else '='
    else if configHasOption config colonAssignmentForNonGroups then ':' else '=', ?_, ?_⟩
  · split_ifs <;> decide
  · rw [configWriteSetting, if_pos (Nat.succ_pos depth)]
    simp only [List.append_assoc, List.cons_append, List.nil_append]

theorem atSettings_settings : AtSettings maxDepth ⟨.settings members, around⟩ members around := by
  rintro token (⟨name, rfl⟩ | rfl | rfl) <;> rfl

section Terminators

variable {value : Setting F} (room : symbolsAround around + listed members + 5 + 1 < maxDepth)
include room

/-- There is room for the terminator of a further setting. -/
private theorem feedTerminator_concat {token : Token F} :
    feedTerminator maxDepth (members ++ [(name, value)]) around token =
      match token with
      | .semicolon | .comma => .ok (.inl ⟨.settings (members ++ [(name, value)]), around⟩)
      | _ => feedSettings maxDepth (members ++ [(name, value)]) around token := by
  unfold feedTerminator
  rw [List.dropLast_concat, yynewstate_of_room room]
  rfl

private theorem atSettings_of_settled
    (settled : Settled maxDepth parse (.terminator (members ++ [(name, value)])) around) :
    AtSettings maxDepth parse (members ++ [(name, value)]) around := by
  rintro token (⟨name, rfl⟩ | rfl | rfl)
  · rw [settled (.name name) trivial, feedPhase, feedTerminator_concat room]
  · rw [settled .groupEnd trivial, feedPhase, feedTerminator_concat room]
  · rw [settled .eof trivial, feedPhase, feedTerminator_concat room]

end Terminators

private theorem reads_member (legible : Legible platform config setting) (valid : isName name)
    (adds : configSettingAdd members name) (expects : AtSettings maxDepth parse members around)
    (room : symbolsAround around + (listed members + max 5 (3 + setting.stackHeight)) + 1 < maxDepth)
    (reads : ∀ behind,
      AtSettings maxDepth behind (members ++ [(name, setting.reread platform config.defaultFormat)]) around →
        ReadsFrom maxDepth platform includeDir filenames behind rest root) :
    ReadsFrom maxDepth platform includeDir filenames parse
      (configWriteSetting config (depth + 1) (some name) setting.type
        (configWriteValue platform config (depth + 1) setting) ++ rest) root := by
  obtain ⟨sign, among, text⟩ := @configWriteSetting_append _ config rest name depth setting.type
    (configWriteValue platform config (depth + 1) setting)
  have named : feed maxDepth parse (.name name) = .ok (.inl ⟨.equals members name, around⟩) := by
    rw [expects _ (.inl ⟨name, rfl⟩), feedSettings, if_pos adds, yynewstate_of_room (by omega),
      yynewstate_of_room (by omega)]
    rfl
  have signed : feed maxDepth ⟨.equals members name, around⟩ .equals =
      .ok (.inl ⟨.value (.member members name), around⟩) := by
    have third : yynewstate maxDepth (symbolsAround around + listed members + 3) = .ok () :=
      yynewstate_of_room (by omega)
    simp only [feed, feedPhase, third]
    rfl
  have value_room : symbolsAround around + (Place.member members name).symbols + setting.stackHeight + 1 <
      maxDepth := by
    rw [Place.symbols]
    omega
  have terminated : symbolsAround around + listed members + 5 + 1 < maxDepth := by omega
  obtain ⟨takes_sign, solid⟩ : (∀ rest, Takes platform.atof [sign] rest (.give fun _ => .equals)) ∧
      (¬ isBlank sign ∧ sign ≠ '@') := by
    obtain rfl | rfl : sign = '=' ∨ sign = ':' := by simpa using among
    · exact ⟨fun rest => @takes_symbol _ _ _ _ _ 2 '=' rfl rfl rfl rfl, by decide⟩
    · exact ⟨fun rest => @takes_symbol _ _ _ _ _ 2 ':' rfl rfl rfl rfl, by decide⟩
  rw [text]
  refine reads_blanks (fun _ => isBlank_of_mem_indent) (unblank_name valid) ?_
  refine reads_give (takes_name valid) (by rintro rfl; cases valid) named ?_
  refine reads_space (unblank_cons solid) (reads_symbol (takes_sign _) signed ?_)
  refine reads_space (legible.unblank _ _ (Nat.succ_pos depth)) ?_
  cases configHasOption config semicolonSeparators with
  | true =>
    refine legible.reads (Nat.succ_pos depth) (by decide) (.inl rfl) (.inl trivial) value_room rfl
      fun behind settled => ?_
    have semicolon := settled .semicolon trivial
    rw [feedPhase, feedTerminator_concat terminated] at semicolon
    refine reads_symbol (@takes_symbol _ _ _ _ _ 18 ';' rfl rfl rfl rfl) semicolon ?_
    exact reads_newline (reads _ atSettings_settings)
  | false =>
    refine legible.reads (Nat.succ_pos depth) (by decide) (.inl rfl) (.inl trivial) value_room rfl
      fun behind settled => ?_
    exact reads_newline (reads _ (atSettings_of_settled terminated settled))

private theorem rereadMembers_concat {defaultFormat : Format} :
    rereadMembers platform defaultFormat (before ++ [(name, setting)]) =
      rereadMembers platform defaultFormat before ++ [(name, setting.reread platform defaultFormat)] := by
  simp only [rereadMembers_eq, List.map_append, List.map_cons, List.map_nil]

theorem fst_rereadMembers {defaultFormat : Format} :
    (rereadMembers platform defaultFormat members).map Prod.fst = members.map Prod.fst := by
  rw [rereadMembers_eq, List.map_map]
  rfl

/-- The members that are left are read behind those before them. -/
theorem reads_members (split : before ++ members = whole)
    (room : symbolsAround around + membersHeight (listed before) members + 1 < maxDepth)
    (legible : ∀ member ∈ whole, Legible platform config member.2)
    (valid : ∀ member ∈ whole, isName member.1) (names : (whole.map Prod.fst).Nodup)
    (expects : AtSettings maxDepth parse (rereadMembers platform config.defaultFormat before) around)
    (reads : ∀ behind,
      AtSettings maxDepth behind (rereadMembers platform config.defaultFormat whole) around →
        ReadsFrom maxDepth platform includeDir filenames behind rest root) :
    ReadsFrom maxDepth platform includeDir filenames parse
      (writeMembers platform config depth members ++ rest) root := by
  induction members generalizing before parse with
  | nil =>
    rw [List.append_nil] at split
    exact reads parse (split ▸ expects)
  | cons member members ih =>
    obtain ⟨name, setting⟩ := member
    have among : (name, setting) ∈ whole := split ▸ List.mem_append_right _ List.mem_cons_self
    have next : before ++ [(name, setting)] ++ members = whole := by rw [List.append_assoc]; exact split
    have fresh : name ∉ before.map Prod.fst := by
      rw [← split, List.map_append, List.map_cons] at names
      exact fun member => List.disjoint_of_nodup_append names member List.mem_cons_self
    have adds : configSettingAdd (rereadMembers platform config.defaultFormat before) name := by
      refine configSettingAdd_of_notMem (configValidateName_of_isName (valid _ among)) ?_ ?_
      · rw [fst_rereadMembers, List.forall_mem_map]
        exact fun member inside =>
          configValidateName_of_isName (valid _ (split ▸ List.mem_append_left _ inside))
      · rwa [fst_rereadMembers]
    rw [membersHeight] at room
    have first : symbolsAround around + (listed (rereadMembers platform config.defaultFormat before) +
        max 5 (3 + setting.stackHeight)) + 1 < maxDepth := by
      rw [listed_rereadMembers]
      omega
    have later : listed (before ++ [(name, setting)]) = 1 := by
      rw [listed, isEmpty_concat, if_neg Bool.false_ne_true]
    rw [writeMembers, List.append_assoc]
    refine reads_member (legible _ among) (valid _ among) adds expects first fun behind expects' =>
      ih next (by rw [later]; omega) ?_
    rwa [rereadMembers_concat]

theorem legible_group (legible : ∀ member ∈ members, Legible platform config member.2)
    (valid : ∀ member ∈ members, isName member.1) (names : (members.map Prod.fst).Nodup) :
    Legible platform config (.group members) := by
  have text {depth : ℕ} (positive : 0 < depth) (rest : Text) :
      configWriteValue platform config depth (.group members) ++ rest =
        (if configHasOption config openBraceOnSeparateLine then
          '\n' :: (if 1 < depth then configIndent depth config.tabWidth else []) else []) ++ '{' :: '\n' ::
        (writeMembers platform config depth members ++
          ((if 1 < depth then configIndent depth config.tabWidth else []) ++ '}' :: rest)) := by
    rw [configWriteValue, if_pos positive, if_pos positive]
    simp only [List.append_assoc, List.cons_append, List.nil_append]
  refine ⟨fun depth rest positive => ?_, ?_⟩
  · rw [text positive]
    split <;> exact unblank_cons (by decide)
  · intro maxDepth depth includeDir filenames parse place around phase follow rest root positive _ awaits fits
      room complete behind
    have inside := @symbolsAround_cons _ place around
    rw [Setting.stackHeight] at room
    have first : symbolsAround (place :: around) +
        membersHeight (listed ([] : List (Text × Setting F))) members + 1 < maxDepth := by
      rw [listed, List.isEmpty_nil, if_pos rfl]
      omega
    have ending : ReadsFrom maxDepth platform includeDir filenames parse
        ('{' :: '\n' :: (writeMembers platform config depth members ++
          ((if 1 < depth then configIndent depth config.tabWidth else []) ++ '}' :: follow :: rest))) root := by
      refine reads_symbol (@takes_symbol _ _ _ _ _ 4 '{' rfl rfl rfl rfl)
        (feed_groupStart awaits (fits.resolve_right Bool.false_ne_true) (by omega)) (reads_newline ?_)
      refine reads_members (List.nil_append members) first legible valid names atSettings_settings
        fun closing expects => ?_
      refine reads_blanks (fun _ => isBlank_of_mem_indent) (unblank_cons (by decide)) ?_
      have fed : feed maxDepth closing .groupEnd = .ok (.inl ⟨phase, around⟩) := by
        rw [expects _ (.inr (.inl rfl)), feedSettings, yynewstate_of_room (by omega), close]
        rw [Setting.reread] at complete
        rw [complete]
        rfl
      exact reads_symbol (@takes_symbol _ _ _ _ _ 5 '}' rfl rfl rfl rfl) fed
        (behind _ (settled_of_put complete))
    rw [text positive]
    split
    · exact reads_newline (reads_blanks (fun _ => isBlank_of_mem_indent) (unblank_cons (by decide)) ending)
    · exact ending

end Groups

/-- Every well-formed tree that can be written can be read. -/
theorem legible_of_wellFormed (formed : WellFormed (Setting.Writable platform) setting) :
    Legible platform config setting := by
  induction formed with
  | simple simple writable => exact legible_simple simple writable
  | array type simple elements =>
    refine legible_array simple fun element member => ?_
    obtain ⟨writable, same⟩ := elements element member
    exact ⟨legible_simple (same ▸ simple) writable, same⟩
  | list _ ih => exact legible_list ih
  | group _ valid names ih => exact legible_group ih valid names

end Libconfig

import Sntp.Model.Libconfig.Grammar
import Mathlib.Data.List.TakeWhile
import Sntp.ToMathlib.ListLex

/-! # What a match of the scanner does

A match takes at least a character, keeps the buffers of the files in step with their contents and
gives a token that is well formed. The heights of the stack of buffers go down lexicographically.
-/

namespace Libconfig

open Sntp (Text)
open Machine Munch Regex

variable {F : Type}

/-- A name that the scanner does not take for a boolean. -/
def isName (sval : Text) : Bool :=
  configValidateName sval && !trueName.accepts sval && !falseName.accepts sval

/-- What a token promises about its value. -/
def Token.Valid : Token F → Prop
  | .boolean ival => ival = 0 ∨ ival = 1
  | .string sval => '\x00' ∉ sval
  | .name sval => isName sval
  | .error text => text = errIncludeTooDeep ∨ text = errBadInclude
  | _ => True

/-- A buffer has come through a part of the contents of its file, and counts its lines. -/
def Buffer.Of (buffer : Buffer) (contents : Text) : Prop :=
  ∃ past, past ++ buffer.text = contents ∧ buffer.lineno = 1 + past.count '\n'

/-- The contents of the file with a name: the first file, or an include that was opened. -/
def Source (platform : Platform F) (includeDir filename : Option Text) (text : Text) (file : Option Text)
    (contents : Text) : Prop :=
  (file = filename ∧ contents = text) ∨
    ∃ name, file = some name ∧ platform.fopen (fullFile includeDir name) = some contents

variable {platform : Platform F} {includeDir : Option Text} {scan : Scan} {buffer : Buffer}
  {contents text : Text} {length : ℕ}

section Matches

variable {start : StartCondition} {atBol : Bool} {action : Action F}

/-- What an action can rely on when its rule matches a word. -/
def Action.Fits (action : Action F) (word : Text) : Prop :=
  match action with
  | .ignore trailing => trailing < word.length
  | .give token => (token word).Valid
  | _ => True

theorem mem_name {sval : Text} : sval ∈ name.language ↔ configValidateName sval := by
  cases sval with
  | nil => exact iff_of_false nil_notMem_one_seq Bool.false_ne_true
  | cons c rest =>
    have same (d : Char) :
        (d = '-' || d.isAlpha || d.isDigit || d = '_' || d = '*') = isNameChar d := by
      rw [isNameChar]
      grind
    simp only [name, cons_mem_one_seq, mem_star_one, same, configValidateName, Bool.and_eq_true,
      List.all_eq_true]

private theorem lt_length_of_mem_comment {word : Text} (matched : word ∈ comment.language) :
    1 < word.length := by
  obtain ⟨mark, begins, rest, goes, rfl⟩ := mem_seq.mp matched
  obtain ⟨line, -, ending, ends, rfl⟩ := mem_seq.mp goes
  have positive := length_pos_of_mem rfl begins
  rw [exactly, mem_literal] at ends
  rw [ends]
  simp only [List.length_append]
  change 1 < mark.length + (line.length + 1)
  omega

private theorem fits_opening : ∀ rule ∈ (openingRules atBol : List (Regex Char × Action F)), ∀ word,
    rule.2.Fits word := by
  cases atBol <;> simp [openingRules, Action.Fits]

/-- The rules before the one for names. -/
private theorem fits_before (atof : Text → F) :
    ∀ rule ∈ (initialRules atof).take 8, ∀ word ∈ rule.1.language, rule.2.Fits word := by
  simp only [initialRules, symbol, List.take, List.forall_mem_cons, Action.Fits, Token.Valid]
  simp only [implies_true, List.not_mem_nil, false_implies, and_true, or_true, true_or]
  exact ⟨fun word => length_pos_of_mem rfl, fun word => length_pos_of_mem rfl⟩

/-- The rules from the one for names on, at a word that is no boolean. -/
private theorem fits_after (atof : Text → F) {word : Text} (notTrue : trueName.accepts word = false)
    (notFalse : falseName.accepts word = false) :
    ∀ rule ∈ (initialRules atof).drop 8, word ∈ rule.1.language → rule.2.Fits word := by
  simp only [initialRules, symbol, List.drop, List.forall_mem_cons, Action.Fits, Token.Valid]
  simp only [implies_true, List.not_mem_nil, false_implies, and_true, true_and]
  refine ⟨fun matched => ?_, lt_length_of_mem_comment⟩
  rw [isName, notTrue, notFalse, mem_name.mp matched]
  rfl

private theorem fits_others (atof : Text → F) (other : start ≠ .initial) :
    ∀ rule ∈ activeRules atof atBol start, ∀ word ∈ rule.1.language, rule.2.Fits word := by
  cases start with
  | initial => exact absurd rfl other
  | comment =>
    simp only [activeRules, commentRules, List.forall_mem_cons, Action.Fits]
    exact ⟨fun _ _ => trivial, fun word => length_pos_of_mem rfl, fun word => length_pos_of_mem rfl, nofun⟩
  | string => simp [activeRules, stringRules, stringPieces, appending, escape, Action.Fits]
  | includePath => simp [activeRules, includeRules, appending, escape, Action.Fits]

private theorem fits_of_mem {rules : List (Regex Char × Action F)} (wins : Wins text action length rules)
    (fits : ∀ rule ∈ rules, text.take length ∈ rule.1.language → rule.2.Fits (text.take length)) :
    action.Fits (text.take length) := by
  obtain ⟨regex, member, matched⟩ := wins.exists_mem
  exact fits _ member ((mem_lengths_iff (le_of_mem_lengths matched)).mp matched)

private theorem fits_of_wins {atof : Text → F}
    (wins : Wins text action length (activeRules atof atBol start)) : action.Fits (text.take length) := by
  by_cases other : start = .initial
  · subst other
    have bound : length ≤ text.length := by
      obtain ⟨regex, -, matched⟩ := wins.exists_mem
      exact le_of_mem_lengths matched
    rw [activeRules, ← List.take_append_drop 8 (initialRules atof), ← List.append_assoc] at wins
    rcases wins.of_append with wins | ⟨wins, others⟩
    · refine fits_of_mem wins fun rule member => ?_
      rcases List.mem_append.mp member with opening | later
      · exact fun _ => fits_opening rule opening _
      · exact fits_before atof rule later _
    · have differs (regex : Regex Char) (token : Text → Token F)
          (member : (regex, .give token) ∈ (initialRules atof).take 8) :
          regex.accepts (text.take length) = false := by
        have := others _ (List.mem_append_right _ member)
        rwa [mem_lengths_iff bound, ← accepts_iff, Bool.not_eq_true] at this
      exact fits_of_mem wins (fits_after atof (differs trueName (fun _ => .boolean 1) (by simp [initialRules]))
        (differs falseName (fun _ => .boolean 0) (by simp [initialRules])))
  · exact fits_of_mem wins fun rule member => fits_others atof other rule member _

private theorem not_nullable {atof : Text → F} :
    ∀ rule ∈ activeRules atof atBol start, rule.1.nullable = false := by
  have all : (activeRules atof atBol start).all (fun rule => !rule.1.nullable) = true := by
    cases start <;> cases atBol <;> rfl
  simpa using all

/-- What is known of a match. -/
theorem munch_activeRules {atof : Text → F}
    (found : munch (activeRules atof atBol start) text = some (action, length)) :
    0 < length ∧ length ≤ text.length ∧ action.Fits (text.take length) := by
  have wins := munch_eq_some.mp found
  obtain ⟨regex, member, matched⟩ := wins.exists_mem
  have bound := le_of_mem_lengths matched
  refine ⟨?_, bound, fits_of_wins wins⟩
  have positive := length_pos_of_mem (not_nullable _ member) ((mem_lengths_iff bound).mp matched)
  rwa [List.length_take_of_le bound] at positive

end Matches

section Steps

theorem Buffer.Of.advance (of : buffer.Of contents) (length : ℕ) : (buffer.advance length).Of contents := by
  obtain ⟨past, rfl, lines⟩ := of
  refine ⟨past ++ buffer.text.take length, ?_, ?_⟩
  · simp [Buffer.advance]
  · simp only [Buffer.advance, lines, List.count_append]
    omega

theorem Buffer.of_create : (Buffer.create contents).Of contents := ⟨[], rfl, rfl⟩

/-- The buffer of each include, and that of the first file under them all. -/
def Sources (platform : Platform F) (includeDir : Option Text) (text : Text) :
    List (Text × Buffer) → Buffer → Prop
  | [], current => current.Of text
  | (file, outer) :: includes, current =>
    (∃ contents, platform.fopen (fullFile includeDir file) = some contents ∧ current.Of contents) ∧
      Sources platform includeDir text includes outer

/-- What holds between two matches. -/
structure Scan.Valid (platform : Platform F) (includeDir filename : Option Text) (text : Text)
    (scan : Scan) : Prop where
  sources : Sources platform includeDir text scan.includes scan.current
  depth : scan.includes.length ≤ maxIncludeDepth
  string : '\x00' ∉ scan.string
  top : scan.topFilename = filename

/-- What is left of the files that are open, from the first one up. -/
def Scan.heights (scan : Scan) : List ℕ :=
  scan.includes.reverse.map (fun include_ => include_.2.text.length) ++ [scan.current.text.length]

/-- There is less left to read. -/
def Descends (final scan : Scan) : Prop :=
  List.BoundedLex (· < ·) (maxIncludeDepth + 1) final.heights scan.heights

variable {filename : Option Text} {final : Scan}

theorem sources_advance (sources : Sources platform includeDir text scan.includes scan.current)
    (length : ℕ) : Sources platform includeDir text scan.includes (scan.current.advance length) := by
  cases includes : scan.includes with
  | nil =>
    rw [includes] at sources
    exact Buffer.Of.advance sources length
  | cons top includes' =>
    rw [includes] at sources
    obtain ⟨⟨contents, opened, of⟩, others⟩ := sources
    exact ⟨⟨contents, opened, of.advance length⟩, others⟩

/-- The file that is being read. -/
theorem Scan.Valid.source (valid : scan.Valid platform includeDir filename text) :
    ∃ contents, Source platform includeDir filename text scan.currentFilename contents ∧
      scan.current.Of contents := by
  obtain ⟨sources, -, -, top⟩ := valid
  rw [Scan.currentFilename]
  cases includes : scan.includes with
  | nil =>
    rw [includes] at sources
    exact ⟨text, .inl ⟨top, rfl⟩, sources⟩
  | cons include_ includes' =>
    rw [includes] at sources
    obtain ⟨⟨contents, opened, of⟩, -⟩ := sources
    exact ⟨contents, .inr ⟨_, rfl, opened⟩, of⟩

private theorem length_heights : scan.heights.length = scan.includes.length + 1 := by
  simp [Scan.heights]

private theorem descends_of_shorter (depth : final.includes.length ≤ maxIncludeDepth)
    (same : final.includes = scan.includes)
    (shorter : final.current.text.length < scan.current.text.length) : Descends final scan := by
  refine ⟨by simpa only [length_heights, Nat.succ_le_succ_iff], ?_⟩
  rw [Scan.heights, Scan.heights, same]
  exact List.Lex.append_left _ (.rel shorter) _

private theorem descends_of_pop {file : Text} (depth : final.includes.length ≤ maxIncludeDepth)
    (popped : (file, final.current) :: final.includes = scan.includes) : Descends final scan := by
  refine ⟨by simpa only [length_heights, Nat.succ_le_succ_iff], ?_⟩
  rw [Scan.heights, Scan.heights, ← popped, List.reverse_cons, List.map_append]
  have longer := List.Lex.append_left (· < ·) (List.Lex.nil (a := scan.current.text.length) (l := []))
    final.heights
  simpa [Scan.heights] using longer

private theorem descends_of_push {file : Text} {outer : Buffer}
    (depth : final.includes.length ≤ maxIncludeDepth)
    (pushed : final.includes = (file, outer) :: scan.includes)
    (shorter : outer.text.length < scan.current.text.length) : Descends final scan := by
  refine ⟨by simpa only [length_heights, Nat.succ_le_succ_iff], ?_⟩
  rw [Scan.heights, Scan.heights, pushed, List.reverse_cons, List.map_append, List.append_assoc]
  exact List.Lex.append_left _ (.rel shorter) _

private theorem notMem_cString : '\x00' ∉ cString text := fun member => by
  simpa using List.mem_takeWhile_imp member

private theorem wp_set {ε σ : Type} {returned : PUnit → σ → Prop} {stopped : ε → σ → Prop} {state : σ}
    (next : σ) : Wp (set next : EStateM ε σ PUnit) returned stopped state ↔ returned ⟨⟩ next := Iff.rfl

private theorem length_advance_lt (some_text : buffer.text ≠ []) (positive : 0 < length) :
    (buffer.advance length).text.length < buffer.text.length := by
  have := List.length_pos_iff.mpr some_text
  rw [Buffer.advance, List.length_drop]
  omega

theorem eq_or_of_push_error {error : Text}
    (failed : scanctxPushInclude platform.fopen includeDir scan = .error error) :
    error = errIncludeTooDeep ∨ error = errBadInclude := by
  rw [scanctxPushInclude] at failed
  split at failed
  · exact .inl (Except.error.inj failed).symm
  · split at failed
    · exact .inr (Except.error.inj failed).symm
    · cases failed

theorem valid_of_push_ok {within : Scan} (valid : scan.Valid platform includeDir filename text)
    (opened : scanctxPushInclude platform.fopen includeDir scan = .ok within) :
    within.Valid platform includeDir filename text ∧
      within.includes = (scan.string, scan.current) :: scan.includes := by
  obtain ⟨sources, depth, string, top⟩ := valid
  rw [scanctxPushInclude] at opened
  split at opened
  · cases opened
  · next shallow =>
    split at opened
    · cases opened
    · next contents found =>
      obtain rfl := Except.ok.inj opened
      refine ⟨⟨⟨⟨contents, found, Buffer.of_create⟩, sources⟩, ?_, List.not_mem_nil, top⟩, rfl⟩
      exact Nat.lt_of_le_of_ne depth shallow

/-- The scanner starts in order. -/
theorem valid_create (platform : Platform F) (includeDir filename : Option Text) (text : Text) :
    Scan.Valid platform includeDir filename text
      ⟨.initial, .create text, [], [], filename, filename.toList⟩ :=
  ⟨Buffer.of_create, Nat.zero_le _, List.not_mem_nil, rfl⟩

/-- What a turn of the scanner keeps. Only the end of all files leaves nothing less to read. -/
def Turned (platform : Platform F) (includeDir filename : Option Text) (text : Text) (scan : Scan)
    (item : Unit ⊕ Token F) (final : Scan) : Prop :=
  final.Valid platform includeDir filename text ∧
    match item with
    | .inl () => Descends final scan
    | .inr token => token.Valid ∧ (token = .eof ∨ Descends final scan)

/-- The action of a rule that has matched. -/
private theorem wp_perform {action : Action F} {length : ℕ}
    (valid : scan.Valid platform includeDir filename text) (some_text : scan.current.text ≠ [])
    (found : munch (activeRules platform.atof scan.current.atBol scan.start) scan.current.text =
      some (action, length)) :
    Wp (perform platform.fopen includeDir scan length action)
      (Turned platform includeDir filename text scan) (fun _ _ => False) scan := by
  obtain ⟨sources, depth, string, top⟩ := valid
  obtain ⟨positive, bound, fits⟩ := munch_activeRules found
  have further (length : ℕ) : Scan.Valid platform includeDir filename text
      { scan with current := scan.current.advance length } :=
    ⟨sources_advance sources length, depth, string, top⟩
  have shorter {length : ℕ} (positive : 0 < length) := length_advance_lt some_text positive
  have valid := further length
  have descends (final : Scan) (same : final.includes = scan.includes)
      (moved : final.current = scan.current.advance length) : Descends final scan :=
    descends_of_shorter (same ▸ depth) same (moved ▸ shorter positive)
  cases action with
  | ignore trailing =>
    rw [Action.Fits, List.length_take_of_le bound] at fits
    rw [perform, wp_bind, wp_set, wp_pure]
    exact ⟨further _, descends_of_shorter depth rfl (shorter (Nat.sub_pos_of_lt fits))⟩
  | begin start =>
    rw [perform, wp_bind, wp_set, wp_pure]
    exact ⟨⟨valid.sources, depth, string, top⟩, descends _ rfl rfl⟩
  | append piece =>
    rw [perform, wp_bind, wp_set, wp_pure]
    refine ⟨⟨valid.sources, depth, ?_, top⟩, descends _ rfl rfl⟩
    exact fun member => (List.mem_append.mp member).elim string notMem_cString
  | takeString =>
    rw [perform, wp_bind, wp_set, wp_pure]
    exact ⟨⟨valid.sources, depth, List.not_mem_nil, top⟩, string, .inr (descends _ rfl rfl)⟩
  | pushInclude =>
    rw [perform]
    split
    · next error failed =>
      rw [wp_bind, wp_set, wp_pure]
      exact ⟨valid, eq_or_of_push_error failed, .inr (descends _ rfl rfl)⟩
    · next within opened =>
      obtain ⟨valid, pushed⟩ := valid_of_push_ok valid opened
      rw [wp_bind, wp_set, wp_pure]
      exact ⟨valid, descends_of_push valid.depth pushed (shorter positive)⟩
  | give token =>
    rw [perform, wp_bind, wp_set, wp_pure]
    exact ⟨valid, fits, .inr (descends _ rfl rfl)⟩

/-- A match, or the end of a file. -/
theorem wp_scanMatch (valid : scan.Valid platform includeDir filename text) :
    Wp (scanMatch platform includeDir) (Turned platform includeDir filename text scan)
      (fun _ _ => False) scan := by
  have valid' := valid
  obtain ⟨sources, depth, string, top⟩ := valid
  rw [scanMatch, wp_bind, wp_get]
  split
  · exact ⟨valid', trivial, .inl rfl⟩
  · next file outer includes empty more =>
    rw [wp_bind, wp_set, wp_pure]
    rw [more] at sources depth
    have shallow : includes.length ≤ maxIncludeDepth := Nat.le_of_succ_le depth
    exact ⟨⟨sources.2, shallow, string, top⟩, descends_of_pop shallow more.symm⟩
  · next c rest some_text =>
    have nonempty : scan.current.text ≠ [] := by simp [some_text]
    split
    · rw [wp_bind, wp_set, wp_pure]
      exact ⟨⟨sources_advance sources 1, depth, string, top⟩,
        descends_of_shorter depth rfl (length_advance_lt nonempty Nat.one_pos)⟩
    · next action length found => exact wp_perform valid' nonempty found

end Steps

end Libconfig

import Sntp.Model.Libconfig.Writer
import Sntp.Proofs.Libconfig.Parsing

/-! # The words that the writer uses

For each word that can stand in a written configuration, the rule of the scanner that takes it. A rule
is ruled out by its first character, or because what follows the word cannot stand inside a match.
-/

namespace Libconfig

open Sntp (Text)
open Machine Munch Regex

variable {F : Type}

/-- The expressions of the initial rules at the beginning of a line, the includes among them. -/
def patterns : List (Regex Char) :=
  (activeRules (F := Unit) (fun _ => ()) true .initial).map Prod.fst

/-- The scanner takes a word with an action, at the beginning of a line and elsewhere. -/
def Takes (atof : Text → F) (word rest : Text) (action : Action F) : Prop :=
  ∀ atBol, munch (activeRules atof atBol .initial) (word ++ rest) = some (action, word.length)

/-- No initial rule matches a longer word. -/
def Quiet (word rest : Text) : Prop :=
  ∀ regex ∈ patterns, ∀ a more, a :: more <+: rest → word ++ a :: more ∉ regex.language

variable {atof : Text → F} {word rest : Text} {regex : Regex Char} {action : Action F}

private theorem patterns_eq (atof : Text → F) :
    patterns = (openingRules true ++ initialRules atof).map Prod.fst := rfl

private theorem mem_openingRules {atBol : Bool} {rule : Regex Char × Action F}
    (member : rule ∈ openingRules atBol) : rule ∈ openingRules true := by
  cases atBol with
  | true => exact member
  | false => exact List.mem_append_left _ (by simpa [openingRules] using member)

private theorem mem_patterns {atBol : Bool} {rule : Regex Char × Action F}
    (member : rule ∈ activeRules atof atBol .initial) : rule.1 ∈ patterns := by
  rw [patterns_eq atof]
  refine List.mem_map_of_mem ((List.mem_append.mp member).elim ?_ (List.mem_append_right _))
  exact fun opening => List.mem_append_left _ (mem_openingRules opening)

/-- The rule with a place among the initial rules that are always active. -/
theorem takes {place : ℕ} (rule : (initialRules atof)[place]? = some (regex, action))
    (matched : word ∈ regex.language)
    (earlier : ∀ regex ∈ patterns.take (3 + place), word ∉ regex.language) (quiet : Quiet word rest) :
    Takes atof word rest action := by
  intro atBol
  obtain ⟨inside, rule⟩ := List.getElem?_eq_some_iff.mp rule
  have split : activeRules atof atBol .initial =
      (openingRules atBol ++ (initialRules atof).take place) ++
        (regex, action) :: (initialRules atof).drop (place + 1) := by
    rw [← rule, ← List.drop_eq_getElem_cons, List.append_assoc, List.take_append_drop, activeRules]
  have front : patterns.take (3 + place) =
      (openingRules true ++ (initialRules atof).take place).map Prod.fst := by
    have three : (openingRules true : List (Regex Char × Action F)).length = 3 := rfl
    rw [patterns_eq atof, ← List.map_take, ← three, List.take_length_add_append]
  rw [split]
  refine munch_append matched (fun rule member => earlier _ ?_) fun rule member => quiet _ ?_
  · rw [front]
    refine List.mem_map_of_mem ((List.mem_append.mp member).elim ?_ (List.mem_append_right _))
    exact fun opening => List.mem_append_left _ (mem_openingRules opening)
  · rw [← split] at member
    exact mem_patterns member

theorem quiet_of_isDone (done : patterns.all fun regex => (regex.after word).isDone) : Quiet word rest :=
  fun regex member a more _ => append_notMem_of_isDone (List.all_eq_true.mp done regex member)
    (List.cons_ne_nil a more)

/-- No initial rule goes on from a first character to a word that something stands behind. -/
def endsAt (first follow : Char) : Bool :=
  patterns.all fun regex => (regex.derive first).isNever || regex.stops follow

theorem quiet_of_endsAt {first follow : Char} (ends : endsAt first follow) :
    Quiet (first :: word) (follow :: rest) := by
  intro regex member a more front
  obtain ⟨rfl, -⟩ := List.cons_prefix_cons.mp front
  rcases Bool.or_eq_true_iff.mp (List.all_eq_true.mp ends regex member) with never | stops
  · exact notMem_of_derive never
  · exact fun matched => List.cons_ne_nil _ _ (eq_nil_of_stops stops matched)

private theorem notMem_of_rejects {regexes : List (Regex Char)}
    (rejected : regexes.all fun regex => !regex.accepts word) :
    ∀ regex ∈ regexes, word ∉ regex.language := by
  intro regex member matched
  have rejects := List.all_eq_true.mp rejected regex member
  rw [accepts_iff.mpr matched] at rejects
  cases rejects

/-- A character that is a match by itself. -/
theorem takes_symbol {place : ℕ} {c : Char} (rule : (initialRules atof)[place]? = some (regex, action))
    (matched : regex.accepts [c]) (earlier : (patterns.take (3 + place)).all fun regex => !regex.accepts [c])
    (done : patterns.all fun regex => (regex.after [c]).isDone) : Takes atof [c] rest action :=
  takes rule (accepts_iff.mp matched) (notMem_of_rejects earlier) (quiet_of_isDone done)

theorem takes_newline : Takes atof ['\n'] rest (.ignore 0) := @takes_symbol _ _ _ _ _ 0 '\n' rfl rfl rfl rfl

section Names

/-- The first character of a name. -/
private def startsName (c : Char) : Bool := c.isAlpha || c = '*'

private theorem toNat_lt_of_startsName {c : Char} (start : startsName c) : c.toNat < 128 := by
  rcases Bool.or_eq_true_iff.mp start with alpha | star
  · rcases Bool.or_eq_true_iff.mp alpha with upper | lower
    · have high : c.val ≤ 'Z'.val := (of_decide_eq_true upper).2
      exact (UInt32.le_iff_toNat_le.mp high).trans_lt (by decide)
    · have high : c.val ≤ 'z'.val := of_decide_eq_true (Bool.and_eq_true_iff.mp lower).2
      exact (UInt32.le_iff_toNat_le.mp high).trans_lt (by decide)
  · rw [of_decide_eq_true star]
    decide

/-- The rules before those for booleans and names, and all rules behind a name. -/
private theorem patterns_startsName {c : Char} (start : startsName c) :
    (patterns.take 9).all (fun regex => (regex.derive c).isNever) ∧ endsAt c ' ' := by
  have all : ∀ n : Fin 128, startsName (Char.ofNat n) →
      (patterns.take 9).all (fun regex => (regex.derive (Char.ofNat n)).isNever) ∧
        endsAt (Char.ofNat n) ' ' := by decide
  have bound := toNat_lt_of_startsName start
  rw [← Char.ofNat_toNat c] at start ⊢
  exact all ⟨c.toNat, bound⟩ start

theorem takes_name {sval : Text} (valid : isName sval) : Takes atof sval (' ' :: rest) (.give .name) := by
  obtain ⟨⟨valid, notTrue⟩, notFalse⟩ : (configValidateName sval ∧ !trueName.accepts sval) ∧
      !falseName.accepts sval := by simpa [isName] using valid
  cases sval with
  | nil => cases valid
  | cons c sval =>
    have start : startsName c := (Bool.and_eq_true_iff.mp valid).1
    obtain ⟨never, ends⟩ := patterns_startsName start
    refine @takes _ _ _ _ _ _ 8 rfl (mem_name.mpr valid) (fun regex member => ?_) (quiet_of_endsAt ends)
    have split : patterns.take (3 + 8) = patterns.take 9 ++ [trueName, falseName] := rfl
    rw [split, List.mem_append, List.mem_cons, List.mem_singleton] at member
    rcases member with others | rfl | rfl
    · exact notMem_of_derive (List.all_eq_true.mp never regex others)
    · simpa [← accepts_iff] using notTrue
    · simpa [← accepts_iff] using notFalse

end Names

section Numbers

/-- The characters that a number can start with. -/
def numberStarts : Text := "-0123456789".toList

/-- The characters that can stand behind a value. -/
def valueEnds : Text := " ,;\n".toList

private theorem patterns_number {first : Char} (start : first ∈ numberStarts) :
    (patterns.take 12).all (fun regex => (regex.derive first).isNever) ∧ valueEnds.all (endsAt first) := by
  have all : numberStarts.all fun first =>
      (patterns.take 12).all (fun regex => (regex.derive first).isNever) && valueEnds.all (endsAt first) := by
    decide
  exact Bool.and_eq_true_iff.mp (List.all_eq_true.mp all first start)

/-- A number is taken by the first of the rules for numbers that matches it. -/
theorem takes_number {place : ℕ} {first follow : Char} (start : first ∈ numberStarts)
    (ends : follow ∈ valueEnds) (rule : (initialRules atof)[9 + place]? = some (regex, action))
    (matched : first :: word ∈ regex.language)
    (earlier : ∀ regex ∈ (patterns.drop 12).take place, first :: word ∉ regex.language) :
    Takes atof (first :: word) (follow :: rest) action := by
  obtain ⟨never, closed⟩ := patterns_number start
  refine takes rule matched (fun regex member => ?_)
    (quiet_of_endsAt (List.all_eq_true.mp closed follow ends))
  rw [← Nat.add_assoc, List.take_add, List.mem_append] at member
  rcases member with others | member
  · exact notMem_of_derive (List.all_eq_true.mp never regex others)
  · exact earlier regex member

/-- The numbers before the rule cannot have a character of the word. -/
theorem takes_number_of_avoids {place : ℕ} {first follow mark : Char} (start : first ∈ numberStarts)
    (ends : follow ∈ valueEnds) (rule : (initialRules atof)[9 + place]? = some (regex, action))
    (matched : first :: word ∈ regex.language)
    (avoid : ((patterns.drop 12).take place).all (·.avoids mark)) (marked : mark ∈ first :: word) :
    Takes atof (first :: word) (follow :: rest) action :=
  takes_number start ends rule matched fun regex member matched =>
    notMem_of_avoids (List.all_eq_true.mp avoid regex member) matched marked

theorem mem_exactly {text : String} : word ∈ (exactly text).language ↔ word = text.toList := mem_literal

/-- A float has a point or an exponent. -/
private theorem float_needs : float.Needs fun c => ¬ (c = '-' ∨ c.isDigit) :=
  .alt (.seq_right (.seq_right (.seq_left
      (show (literal ['.']).Needs _ from needs_literal (by decide)))))
    (.seq_right (.seq_right (.seq_right (.seq_left (needs_one (by simp))))))

variable {minus digits : Text} {follow : Char}

/-- What a written number starts with. -/
def IsMinus (minus : Text) : Prop := minus = [] ∨ minus = ['-']

theorem mem_sign (minus_ : IsMinus minus) : minus ∈ sign.language := by
  rcases minus_ with rfl | rfl
  · exact .inl rfl
  · exact .inr (mem_one.mpr ⟨'-', rfl, rfl⟩)

theorem mem_plus_digit (some_digits : digits ≠ []) (all : ∀ c ∈ digits, c.isDigit) :
    digits ∈ (plus digit).language := mem_plus_one.mpr ⟨some_digits, all⟩

private theorem isDigit_mem_numberStarts {c : Char} (digit : c.isDigit) : c ∈ numberStarts := by
  have all : ∀ n : Fin 128, (Char.ofNat n).isDigit → Char.ofNat n ∈ numberStarts := by decide
  have bound : c.toNat < 128 := by
    have same : c.toNat = c.val.toNat := rfl
    simp only [Char.isDigit, Bool.and_eq_true, decide_eq_true_eq, ge_iff_le, UInt32.le_iff_toNat_le] at digit
    exact digit.2.trans_lt (by decide)
  rw [← Char.ofNat_toNat c] at digit ⊢
  exact all ⟨c.toNat, bound⟩ digit

/-- A number with its sign starts as numbers do. -/
theorem exists_number_start (minus_ : IsMinus minus) (some_digits : digits ≠ [])
    (all : ∀ c ∈ digits, c.isDigit) (rest : Text) :
    ∃ first ∈ numberStarts, ∃ tail, minus ++ (digits ++ rest) = first :: tail := by
  rcases minus_ with rfl | rfl
  · obtain ⟨c, tail, rfl⟩ := List.exists_cons_of_ne_nil some_digits
    exact ⟨c, isDigit_mem_numberStarts (all c List.mem_cons_self), tail ++ rest, rfl⟩
  · exact ⟨'-', by decide, digits ++ rest, rfl⟩

theorem takes_integer (minus_ : IsMinus minus) (some_digits : digits ≠ [])
    (all : ∀ c ∈ digits, c.isDigit) (ends : follow ∈ valueEnds) :
    Takes atof (minus ++ digits) (follow :: rest)
      (.give fun yytext => .integer (.ofInt (Sntp.atoi yytext))) := by
  obtain ⟨first, start, tail, split⟩ := exists_number_start minus_ some_digits all []
  rw [List.append_nil] at split
  have matched : minus ++ digits ∈ integer.language :=
    mem_seq.mpr ⟨_, mem_sign minus_, _, mem_plus_digit some_digits all, rfl⟩
  rw [split] at matched ⊢
  refine @takes_number _ _ _ _ _ _ 1 _ _ start ends rfl matched fun regex member => ?_
  rw [List.mem_singleton.mp (show regex ∈ [float] from member), ← split]
  intro matched
  obtain ⟨c, among, odd⟩ := float_needs _ matched
  refine odd ((List.mem_append.mp among).imp (fun among => ?_) (all c))
  rcases minus_ with rfl | rfl
  · cases among
  · exact List.mem_singleton.mp among

theorem takes_integer64 (minus_ : IsMinus minus) (some_digits : digits ≠ [])
    (all : ∀ c ∈ digits, c.isDigit) (ends : follow ∈ valueEnds) :
    Takes atof (minus ++ (digits ++ ['L'])) (follow :: rest)
      (.give fun yytext => .integer64 (.ofInt (atoll yytext))) := by
  obtain ⟨first, start, tail, split⟩ := exists_number_start minus_ some_digits all ['L']
  have ending : ['L'] ∈ (seq (exactly "L") (optional (exactly "L"))).language :=
    mem_seq.mpr ⟨['L'], mem_exactly.mpr rfl, [], .inl rfl, rfl⟩
  have matched : minus ++ (digits ++ ['L']) ∈ integer64.language :=
    mem_seq.mpr ⟨_, mem_sign minus_, _, mem_seq.mpr ⟨_, mem_plus_digit some_digits all, _, ending, rfl⟩, rfl⟩
  have marked : 'L' ∈ minus ++ (digits ++ ['L']) := by simp
  rw [split] at matched marked ⊢
  exact @takes_number_of_avoids _ _ _ _ _ _ 2 _ _ 'L' start ends rfl matched rfl marked

variable {hexDigits : Text}

private theorem mem_hex (some_digits : hexDigits ≠ []) (all : ∀ c ∈ hexDigits, (Sntp.digitIn 16 c).isSome) :
    hexDigits ∈ (plus hexDigit).language := mem_plus_one.mpr ⟨some_digits, all⟩

theorem takes_hex (some_digits : hexDigits ≠ []) (all : ∀ c ∈ hexDigits, (Sntp.digitIn 16 c).isSome)
    (ends : follow ∈ valueEnds) :
    Takes atof ('0' :: 'x' :: hexDigits) (follow :: rest)
      (.give fun yytext => .hex (.ofNat (fromhex yytext))) := by
  have matched : '0' :: 'x' :: hexDigits ∈ hex.language :=
    mem_seq.mpr ⟨['0'], mem_exactly.mpr rfl, _, cons_mem_one_seq.mpr ⟨rfl, mem_hex some_digits all⟩, rfl⟩
  exact @takes_number_of_avoids _ _ _ _ _ _ 3 _ _ 'x' (by decide) ends rfl matched rfl (by simp)

theorem takes_hex64 (some_digits : hexDigits ≠ []) (all : ∀ c ∈ hexDigits, (Sntp.digitIn 16 c).isSome)
    (ends : follow ∈ valueEnds) :
    Takes atof ('0' :: 'x' :: (hexDigits ++ ['L'])) (follow :: rest)
      (.give fun yytext => .hex64 (.ofNat (fromhex yytext))) := by
  have ending : ['L'] ∈ (seq (exactly "L") (optional (exactly "L"))).language :=
    mem_seq.mpr ⟨['L'], mem_exactly.mpr rfl, [], .inl rfl, rfl⟩
  have matched : '0' :: 'x' :: (hexDigits ++ ['L']) ∈ hex64.language :=
    mem_seq.mpr ⟨['0'], mem_exactly.mpr rfl, _,
      cons_mem_one_seq.mpr ⟨rfl, mem_seq.mpr ⟨_, mem_hex some_digits all, _, ending, rfl⟩⟩, rfl⟩
  refine @takes_number _ _ _ _ _ _ 4 _ _ (by decide) ends rfl matched fun regex member => ?_
  have split : (patterns.drop 12).take 4 = (patterns.drop 12).take 3 ++ [hex] := rfl
  rw [split] at member
  rcases List.mem_append.mp member with plain | same
  · have avoid : ((patterns.drop 12).take 3).all (·.avoids 'x') := rfl
    exact fun matched => notMem_of_avoids (List.all_eq_true.mp avoid regex plain) matched (by simp)
  · have avoid : hex.avoids 'L' := rfl
    rw [List.mem_singleton.mp same]
    exact fun matched => notMem_of_avoids avoid matched (by simp)

theorem takes_float {first : Char} (start : first ∈ numberStarts) (ends : follow ∈ valueEnds)
    (matched : first :: word ∈ float.language) :
    Takes atof (first :: word) (follow :: rest) (.give fun yytext => .float (atof yytext)) :=
  @takes_number _ _ _ _ _ _ 0 _ _ start ends rfl matched nofun

end Numbers

section Booleans

variable {follow : Char}

private theorem endsAt_booleans : ['t', 'f'].all fun first => valueEnds.all (endsAt first) := by
  decide

private theorem quiet_of_boolean {first : Char} (start : first ∈ ['t', 'f']) (ends : follow ∈ valueEnds) :
    Quiet (first :: word) (follow :: rest) :=
  quiet_of_endsAt (List.all_eq_true.mp (List.all_eq_true.mp endsAt_booleans first start) follow ends)

theorem takes_true (ends : follow ∈ valueEnds) :
    Takes atof "true".toList (follow :: rest) (.give fun _ => .boolean 1) :=
  @takes _ _ _ _ _ _ 6 rfl (accepts_iff.mp rfl) (notMem_of_rejects rfl)
    (@quiet_of_boolean _ _ _ 't' (by decide) ends)

theorem takes_false (ends : follow ∈ valueEnds) :
    Takes atof "false".toList (follow :: rest) (.give fun _ => .boolean 0) :=
  @takes _ _ _ _ _ _ 7 rfl (accepts_iff.mp rfl) (notMem_of_rejects rfl)
    (@quiet_of_boolean _ _ _ 'f' (by decide) ends)

end Booleans

section Blanks

/-- The characters of an indentation. -/
def isBlank (c : Char) : Bool := c ∈ " \t".toList

/-- What can stand behind an indentation: no more of it, and no include. -/
def Unblank (rest : Text) : Prop := ∀ c, rest.head? = some c → ¬ isBlank c ∧ c ≠ '@'

private theorem patterns_before_blanks {first : Char} (blank : first ∈ " \t".toList) (place : Fin 4) :
    place = 2 ∨ (((patterns.take 4).get place).derive first).isNever := by
  have all : " \t".toList.all fun first => decide (∀ place : Fin 4, place = 2 ∨
      (((patterns.take 4).get place).derive first).isNever) := by
    decide
  exact of_decide_eq_true (List.all_eq_true.mp all first blank) place

private theorem patterns_blank {first : Char} (blank : first ∈ " \t".toList) (place : Fin 24) :
    place = 2 ∨ place = 4 ∨ ((patterns.get place).derive first).isDone := by
  have all : " \t".toList.all fun first => decide (∀ place : Fin 24, place = 2 ∨ place = 4 ∨
      ((patterns.get place).derive first).isDone) := by
    decide
  exact of_decide_eq_true (List.all_eq_true.mp all first blank) place

/-- A word with an include starts with blanks that an include sign ends. -/
private theorem eq_of_mem_includeOpen (matched : word ∈ includeOpen.language) :
    ∃ blanks more, word = blanks ++ '@' :: more ∧ ∀ c ∈ blanks, isBlank c := by
  obtain ⟨blanks, all, line, goes, rfl⟩ := mem_seq.mp matched
  obtain ⟨sign, opens, more, -, rfl⟩ := mem_seq.mp goes
  rw [mem_exactly.mp opens]
  exact ⟨blanks, _, rfl, mem_star_one.mp all⟩

private theorem append_notMem_includeOpen {a : Char} {more : Text} (all : ∀ c ∈ word, isBlank c)
    (other : ¬ isBlank a ∧ a ≠ '@') : word ++ a :: more ∉ includeOpen.language := by
  intro matched
  obtain ⟨blanks, tail, same, blank⟩ := eq_of_mem_includeOpen matched
  rcases List.append_eq_append_iff.mp same with ⟨middle, rfl, split⟩ | ⟨middle, rfl, split⟩
  · cases middle with
    | nil => exact other.2 (List.cons.inj split).1
    | cons b middle =>
      obtain ⟨rfl, -⟩ := List.cons.inj split
      exact other.1 (blank _ (by simp))
  · cases middle with
    | nil => exact other.2 (List.cons.inj split).1.symm
    | cons b middle =>
      obtain ⟨rfl, -⟩ := List.cons.inj split
      exact absurd (all '@' (by simp)) (by decide)

theorem takes_blanks (some_blanks : word ≠ []) (all : ∀ c ∈ word, isBlank c) (unblank : Unblank rest) :
    Takes atof word rest (.ignore 0) := by
  obtain ⟨first, word, rfl⟩ := List.exists_cons_of_ne_nil some_blanks
  have blank : first ∈ " \t".toList := by simpa [isBlank] using all first List.mem_cons_self
  refine @takes _ _ _ _ _ _ 1 rfl (mem_plus_one.mpr ⟨some_blanks, all⟩) (fun regex member => ?_) ?_
  · obtain ⟨place, rfl⟩ := List.get_of_mem member
    rcases patterns_before_blanks blank place with same | never
    · have pattern : (patterns.take (3 + 1)).get place = includeOpen := same ▸ rfl
      rw [pattern]
      intro matched
      obtain ⟨blanks, more, same, -⟩ := eq_of_mem_includeOpen matched
      exact absurd (all '@' (by simp [same])) (by decide)
    · exact notMem_of_derive never
  · intro regex member a more front
    have other : ¬ isBlank a ∧ a ≠ '@' := by
      obtain ⟨tail, rfl⟩ := front
      exact unblank a rfl
    obtain ⟨place, rfl⟩ := List.get_of_mem member
    rcases patterns_blank blank place with same | same | done
    · have pattern : patterns.get place = includeOpen := same ▸ rfl
      rw [pattern]
      exact append_notMem_includeOpen all other
    · have pattern : patterns.get place = plus (oneOf " \t") := same ▸ rfl
      rw [pattern]
      exact fun matched => other.1 ((mem_plus_one.mp matched).2 a (by simp))
    · have done : ((patterns.get place).after [first]).isDone := done
      have longer : word ++ a :: more ≠ [] := by simp
      exact append_notMem_of_isDone done longer

end Blanks

section Strings

/-- A quote begins a string. -/
theorem munch_quote {atBol : Bool} :
    munch (activeRules atof atBol .initial) ('"' :: rest) = some (.begin .string, 1) := by
  have split : activeRules atof atBol .initial = [(exactly "/*", .begin .comment)] ++
      (exactly "\"", .begin .string) ::
        ((if atBol then [(includeOpen, .begin .includePath)] else []) ++ initialRules atof) := rfl
  have quiet : Quiet ['"'] rest := quiet_of_isDone rfl
  rw [split]
  refine @munch_append _ _ _ _ _ _ ['"'] rest (accepts_iff.mp rfl) (by simp [mem_exactly]) fun rule member => ?_
  rw [← split] at member
  exact quiet _ (mem_patterns member)

/-- The character is written as an escape. -/
def isEscaped (c : Char) : Bool := c = '"' || c = '\\' || c < ' '

private theorem toNat_lt_of_isEscaped {c : Char} (escaped : isEscaped c) : c.toNat < 128 := by
  simp only [isEscaped, Bool.or_eq_true, decide_eq_true_eq] at escaped
  rcases escaped with (rfl | rfl) | control
  · decide
  · decide
  · exact Nat.lt_trans (UInt32.lt_iff_toNat_lt.mp control) (by decide)

/-- The scanner is done after an escape, and the rule for it appends the character. -/
private def reads (c : Char) : Bool :=
  stringPieces.all (fun rule => (rule.1.after (escapeChar c)).isDone) &&
    ((exactly "\"").after (escapeChar c)).isDone &&
    match stringPieces.find? (·.1.accepts (escapeChar c)) with
    | some (_, piece) => piece (escapeChar c) = [c]
    | none => false

private theorem reads_of_isEscaped {c : Char} (escaped : isEscaped c) : reads c := by
  have all : ∀ n : Fin 128, isEscaped (Char.ofNat n) → reads (Char.ofNat n) := by decide +kernel
  have bound := toNat_lt_of_isEscaped escaped
  rw [← Char.ofNat_toNat c] at escaped ⊢
  exact all ⟨c.toNat, bound⟩ escaped

theorem munch_escape {c : Char} (escaped : isEscaped c) : ∃ piece, piece (escapeChar c) = [c] ∧
    munch (stringRules : List (Regex Char × Action F)) (escapeChar c ++ rest) =
      some (.append piece, (escapeChar c).length) := by
  have checked := reads_of_isEscaped escaped
  simp only [reads, Bool.and_eq_true] at checked
  obtain ⟨⟨pieces, quote⟩, found⟩ := checked
  cases first : stringPieces.find? (·.1.accepts (escapeChar c)) with
  | none => simp [first] at found
  | some winner =>
    obtain ⟨regex, piece⟩ := winner
    obtain ⟨matched, before, after, split, earlier⟩ := List.find?_eq_some_iff_append.mp first
    refine ⟨piece, by simpa [first] using found, ?_⟩
    have rules : (stringRules : List (Regex Char × Action F)) = appending before ++
        (regex, .append piece) :: (appending after ++ [(exactly "\"", .takeString)]) := by
      simp [stringRules, split, appending]
    rw [rules]
    refine munch_append (accepts_iff.mp matched) (fun rule member => ?_) fun rule member a more _ => ?_
    · obtain ⟨other, among, rfl⟩ := List.mem_map.mp member
      rw [← accepts_iff]
      simpa using earlier other among
    · rw [← rules] at member
      have done : (rule.1.after (escapeChar c)).isDone := by
        rcases List.mem_append.mp member with among | last
        · obtain ⟨other, inside, rfl⟩ := List.mem_map.mp among
          exact List.all_eq_true.mp pieces other inside
        · rwa [List.mem_singleton.mp last]
      exact append_notMem_of_isDone done (List.cons_ne_nil a more)

/-- Only a run starts with another character. -/
private theorem isNever_of_plain {c : Char} (plain : c ∉ "\"\\".toList) :
    ∀ rule ∈ (stringRules : List (Regex Char × Action F)).tail, (rule.1.derive c).isNever := by
  obtain ⟨quote, backslash⟩ : c ≠ '"' ∧ c ≠ '\\' := by simpa using plain
  simp [stringRules, stringPieces, appending, escape, exactly, literal, hexchar, derive, followedBy,
    nullable, isNever, quote, backslash]

/-- The other characters are taken together. -/
theorem munch_run (some_word : word ≠ []) (all : ∀ c ∈ word, c ∉ "\"\\".toList)
    (ends : ∀ c, rest.head? = some c → c ∈ "\"\\".toList) :
    munch (stringRules : List (Regex Char × Action F)) (word ++ rest) = some (.append id, word.length) := by
  have split : (stringRules : List (Regex Char × Action F)) =
      [] ++ (plus (noneOf "\"\\"), .append id) :: stringRules.tail := rfl
  have among : word ∈ (plus (noneOf "\"\\")).language :=
    mem_plus_one.mpr ⟨some_word, fun c member => by simpa using all c member⟩
  rw [split]
  refine munch_append among nofun fun rule member a more front => ?_
  rcases List.mem_cons.mp member with rfl | later
  · intro matched
    obtain ⟨tail, rfl⟩ := front
    have outside := (mem_plus_one.mp matched).2 a (by simp)
    exact of_decide_eq_true outside (ends a rfl)
  · obtain ⟨c, word, rfl⟩ := List.exists_cons_of_ne_nil some_word
    exact notMem_of_derive (isNever_of_plain (all c List.mem_cons_self) rule later)

theorem munch_string_end :
    munch (stringRules : List (Regex Char × Action F)) ('"' :: rest) = some (.takeString, 1) := by
  have split : (stringRules : List (Regex Char × Action F)) =
      appending stringPieces ++ (exactly "\"", .takeString) :: [] := rfl
  have rejected : (stringPieces.map Prod.fst).all fun regex => !regex.accepts ['"'] := rfl
  have done : (stringPieces.map Prod.fst ++ [exactly "\""]).all fun regex => (regex.after ['"']).isDone := rfl
  have fst_mem {rule : Regex Char × Action F} (member : rule ∈ appending stringPieces) :
      rule.1 ∈ stringPieces.map Prod.fst := by
    obtain ⟨piece, inside, rfl⟩ := List.mem_map.mp member
    exact List.mem_map_of_mem inside
  rw [split]
  refine @munch_append _ _ _ _ _ _ ['"'] rest (accepts_iff.mp rfl)
    (fun rule member => notMem_of_rejects rejected _ (fst_mem member)) fun rule member a more _ => ?_
  have among : rule.1 ∈ stringPieces.map Prod.fst ++ [exactly "\""] :=
    List.mem_append.mpr ((List.mem_append.mp member).imp fst_mem fun last => by
      rw [List.mem_singleton.mp last]
      exact List.mem_singleton_self _)
  exact append_notMem_of_isDone (List.all_eq_true.mp done _ among) (List.cons_ne_nil a more)

end Strings

end Libconfig

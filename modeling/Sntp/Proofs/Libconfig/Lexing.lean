import Sntp.Machine.Coroutine
import Sntp.Proofs.Libconfig.Numbers

/-! # Reading word by word

A text is read from its head: a word that the scanner takes leaves the rest of the text, and either
leaves the parser alone or gives it a token.
-/

namespace Libconfig

open Sntp (Text)
open Machine Munch Regex

variable {F : Type}

/-- The parser and the scanner come to the end of the text with a tree. -/
def Reads (maxDepth : ℕ) (platform : Platform F) (includeDir : Option Text) (filenames : List Text)
    (parse : Parse F) (scan : Scan) (root : Setting F) : Prop :=
  WpTotal
    (fun fuel => loop .outOfFuel (feedTurn (scanMatch platform includeDir) (parseToken maxDepth)) fuel parse)
    (fun value final => value = root ∧ final.filenames = filenames) (fun _ _ => False) scan

/-- The scanner is in the first file, with a text before it and a string begun. -/
structure At (start : StartCondition) (text string : Text) (filenames : List Text) (scan : Scan) : Prop where
  start : scan.start = start
  text : scan.current.text = text
  string : scan.string = string
  includes : scan.includes = []
  filenames : scan.filenames = filenames

/-- Reading goes well from every position that has a text before it. -/
def ReadsFrom (maxDepth : ℕ) (platform : Platform F) (includeDir : Option Text) (filenames : List Text)
    (parse : Parse F) (text : Text) (root : Setting F) : Prop :=
  ∀ scan, At .initial text [] filenames scan → Reads maxDepth platform includeDir filenames parse scan root

variable {maxDepth : ℕ} {platform : Platform F} {includeDir : Option Text} {filenames : List Text}
  {parse next : Parse F} {scan scan' : Scan} {root : Setting F} {word rest : Text} {token : Token F}

section Turns

private theorem reads_of_skip (turn : scanMatch platform includeDir scan = .ok (.inl ()) scan')
    (reads : Reads maxDepth platform includeDir filenames parse scan' root) :
    Reads maxDepth platform includeDir filenames parse scan root :=
  wpTotal_loop_inl (feedTurn_of_inl turn) reads

private theorem parseToken_eq (fed : feed maxDepth parse token = .ok (.inl next)) (scan : Scan) :
    parseToken maxDepth parse token scan = .ok (.inl next) scan := by
  rw [parseToken, fed]
  rfl

private theorem reads_of_token (turn : scanMatch platform includeDir scan = .ok (.inr token) scan')
    (fed : feed maxDepth parse token = .ok (.inl next))
    (reads : Reads maxDepth platform includeDir filenames next scan' root) :
    Reads maxDepth platform includeDir filenames parse scan root :=
  wpTotal_loop_inl ((feedTurn_of_inr turn).trans (parseToken_eq fed scan')) reads

private theorem scanMatch_of_munch {action : Action F} {length : ℕ} (some_text : scan.current.text ≠ [])
    (found : munch (activeRules platform.atof scan.current.atBol scan.start) scan.current.text =
      some (action, length)) :
    scanMatch platform includeDir scan = perform platform.fopen includeDir scan length action scan := by
  rw [← wp_eq, scanMatch, wp_bind, wp_get]
  split
  · next empty _ => exact absurd empty some_text
  · next empty _ => exact absurd empty some_text
  · rw [found, wp_eq]

end Turns

section Words

private theorem advance_text (text : scan.current.text = word ++ rest) :
    (scan.current.advance word.length).text = rest := by
  rw [Buffer.advance, text, List.drop_left]

/-- A word that is passed over. -/
theorem reads_ignore (takes : Takes platform.atof word rest (.ignore 0)) (some_word : word ≠ [])
    (reads : ReadsFrom maxDepth platform includeDir filenames parse rest root) :
    ReadsFrom maxDepth platform includeDir filenames parse (word ++ rest) root := by
  rintro scan ⟨start, text, string, includes, names⟩
  have found := takes scan.current.atBol
  rw [← start, ← text] at found
  refine reads_of_skip ((scanMatch_of_munch (by simp [text, some_word]) found).trans rfl) ?_
  exact reads _ ⟨start, advance_text text, string, includes, names⟩

/-- A word that is a token. -/
theorem reads_give {give : Text → Token F} (takes : Takes platform.atof word rest (.give give))
    (some_word : word ≠ []) (fed : feed maxDepth parse (give word) = .ok (.inl next))
    (reads : ReadsFrom maxDepth platform includeDir filenames next rest root) :
    ReadsFrom maxDepth platform includeDir filenames parse (word ++ rest) root := by
  rintro scan ⟨start, text, string, includes, names⟩
  have found := takes scan.current.atBol
  rw [← start, ← text] at found
  have yytext : scan.current.text.take word.length = word := by rw [text, List.take_left]
  refine reads_of_token ((scanMatch_of_munch (by simp [text, some_word]) found).trans rfl) (yytext ▸ fed) ?_
  exact reads _ ⟨start, advance_text text, string, includes, names⟩

/-- The end of the text. -/
theorem reads_eof (fed : feed maxDepth parse .eof = .ok (.inr root)) :
    ReadsFrom maxDepth platform includeDir filenames parse [] root := by
  rintro scan ⟨start, text, string, includes, names⟩
  have ends : scanMatch platform includeDir scan = .ok (.inr .eof) scan := by
    rw [← wp_eq, scanMatch, wp_bind, wp_get, text, includes, wp_pure]
  have turn : feedTurn (scanMatch platform includeDir) (parseToken maxDepth) parse scan =
      .ok (.inr root) scan := by
    rw [feedTurn_of_inr ends, parseToken, fed]
    rfl
  exact wpTotal_loop_inr turn ⟨rfl, names⟩

end Words

section Strings

variable {string chars run : Text}

/-- What is left of a string in the text. -/
private def stringRest (chars rest : Text) : Text := chars.flatMap escapeChar ++ '"' :: rest

private theorem escapeChar_of_plain {c : Char} (plain : isEscaped c = false) : escapeChar c = [c] := by
  simp only [isEscaped, Bool.or_eq_false_iff, decide_eq_false_iff_not] at plain
  obtain ⟨⟨quote, backslash⟩, visible⟩ := plain
  have other (d : Char) (control : d < ' ') : c ≠ d := fun same => visible (same ▸ control)
  rw [escapeChar, if_neg (by simp [quote, backslash]), if_neg (other _ (by decide)),
    if_neg (other _ (by decide)), if_neg (other _ (by decide)), if_neg (other _ (by decide)),
    if_pos (Char.not_lt.mp visible)]

private theorem notMem_of_plain {c : Char} (plain : isEscaped c = false) : c ∉ "\"\\".toList := by
  simp only [isEscaped, Bool.or_eq_false_iff, decide_eq_false_iff_not] at plain
  simpa using plain.1

private theorem exists_escapeChar {c : Char} (escaped : isEscaped c) : ∃ tail, escapeChar c = '\\' :: tail := by
  rw [escapeChar]
  split_ifs with quote newline carriage feed tab visible
  · exact ⟨_, rfl⟩
  · exact ⟨_, rfl⟩
  · exact ⟨_, rfl⟩
  · exact ⟨_, rfl⟩
  · exact ⟨_, rfl⟩
  · simp only [isEscaped, Bool.or_eq_true, decide_eq_true_eq] at escaped
    exact (escaped.resolve_left quote |> Char.not_lt.mpr visible).elim
  · exact ⟨_, rfl⟩

private theorem cString_of_notMem (clean : '\x00' ∉ chars) : cString chars = chars :=
  List.takeWhile_eq_self_iff.mpr fun _ member => decide_eq_true fun same => clean (same ▸ member)

private theorem flatMap_of_plain (plain : ∀ c ∈ run, isEscaped c = false) : run.flatMap escapeChar = run := by
  induction run with
  | nil => rfl
  | cons c run ih =>
    obtain ⟨first, others⟩ := List.forall_mem_cons.mp plain
    rw [List.flatMap_cons, escapeChar_of_plain first, ih others, List.singleton_append]

/-- A string ends, or starts with an escape, where a run of other characters ends. -/
private theorem head_stringRest (escaped : ∀ c, chars.head? = some c → isEscaped c) :
    ∀ c, (stringRest chars rest).head? = some c → c ∈ "\"\\".toList := by
  cases chars with
  | nil =>
    rintro _ ⟨⟩
    decide
  | cons c chars =>
    obtain ⟨tail, same⟩ := exists_escapeChar (escaped c rfl)
    rw [stringRest, List.flatMap_cons, same]
    rintro _ ⟨⟩
    decide

/-- A piece of a string is read. -/
private theorem reads_append {piece : Text → Text}
    (at_ : At .string (word ++ rest) string filenames scan) (some_word : word ≠ [])
    (found : munch (stringRules : List (Regex Char × Action F)) (word ++ rest) =
      some (.append piece, word.length))
    (reads : ∀ scan', At .string rest (string ++ cString (piece word)) filenames scan' →
      Reads maxDepth platform includeDir filenames parse scan' root) :
    Reads maxDepth platform includeDir filenames parse scan root := by
  obtain ⟨start, text, begun, includes, names⟩ := at_
  have found : munch (activeRules platform.atof scan.current.atBol scan.start) scan.current.text =
      some (.append piece, word.length) := by rwa [start, text]
  have yytext : scan.current.text.take word.length = word := by rw [text, List.take_left]
  refine reads_of_skip ((scanMatch_of_munch (by simp [text, some_word]) found).trans rfl) ?_
  exact reads _ ⟨start, advance_text text, by rw [begun, yytext], includes, names⟩

/-- The characters up to the next escape. -/
private theorem exists_run {c : Char} (plain : isEscaped c = false) :
    ∃ run back, run ++ back = c :: chars ∧ run ≠ [] ∧ (∀ d ∈ run, isEscaped d = false) ∧
      ∀ d, back.head? = some d → isEscaped d := by
  refine ⟨(c :: chars).takeWhile (!isEscaped ·), (c :: chars).dropWhile (!isEscaped ·),
    List.takeWhile_append_dropWhile, by simp [plain], fun d member => ?_, fun d first => ?_⟩
  · simpa using List.mem_takeWhile_imp member
  · have stops := List.head?_dropWhile_not (!isEscaped ·) (c :: chars)
    rw [first] at stops
    simpa using stops

private theorem reads_chars (clean : '\x00' ∉ chars)
    (fed : feed maxDepth parse (.string (string ++ chars)) = .ok (.inl next))
    (reads : ReadsFrom maxDepth platform includeDir filenames next rest root)
    (at_ : At .string (stringRest chars rest) string filenames scan) :
    Reads maxDepth platform includeDir filenames parse scan root := by
  induction length : chars.length using Nat.strongRecOn generalizing chars string scan with
  | _ length ih =>
    subst length
    -- a run or an escape is read, and what is left is shorter
    have step {front back : Text} (split : front ++ back = chars) (shorter : front ≠ [])
        {later : Scan} (behind : At .string (stringRest back rest) (string ++ cString front) filenames later) :
        Reads maxDepth platform includeDir filenames parse later root := by
      subst split
      have positive := List.length_pos_iff.mpr shorter
      obtain ⟨front_clean, back_clean⟩ : '\x00' ∉ front ∧ '\x00' ∉ back := by simpa using clean
      refine ih back.length (by simp; omega) back_clean ?_ behind rfl
      rwa [cString_of_notMem front_clean, List.append_assoc]
    cases chars with
    | nil =>
      obtain ⟨start, text, begun, includes, names⟩ := at_
      have found : munch (activeRules platform.atof scan.current.atBol scan.start) scan.current.text =
          some (.takeString, 1) := by
        rw [start, text]
        exact munch_string_end
      have turn : scanMatch platform includeDir scan = _ :=
        scanMatch_of_munch (by simp [text, stringRest]) found
      have behind : (scan.current.advance 1).text = rest := by rw [Buffer.advance, text]; rfl
      rw [List.append_nil, ← begun] at fed
      exact reads_of_token (turn.trans rfl) fed (reads _ ⟨rfl, behind, rfl, includes, names⟩)
    | cons c chars =>
      cases escaped : isEscaped c with
      | true =>
        obtain ⟨piece, same, found⟩ := @munch_escape F (stringRest chars rest) c escaped
        obtain ⟨tail, backslash⟩ := exists_escapeChar escaped
        have split : stringRest (c :: chars) rest = escapeChar c ++ stringRest chars rest := by
          simp [stringRest]
        refine reads_append (split ▸ at_) (by simp [backslash]) found fun scan' at_ => ?_
        rw [same] at at_
        exact step (List.singleton_append ..) (List.cons_ne_nil c []) at_
      | false =>
        obtain ⟨run, back, split, some_run, run_plain, back_escaped⟩ := exists_run escaped
        have parts : stringRest (c :: chars) rest = run ++ stringRest back rest := by
          rw [stringRest, ← split, List.flatMap_append, flatMap_of_plain run_plain, List.append_assoc,
            stringRest]
        have found : munch (stringRules : List (Regex Char × Action F)) (run ++ stringRest back rest) =
            some (.append id, run.length) :=
          munch_run some_run (fun d member => notMem_of_plain (run_plain d member))
            (head_stringRest back_escaped)
        exact reads_append (parts ▸ at_) some_run found fun scan' behind => step split some_run behind

/-- A string that has no zero. -/
theorem reads_string {sval : Text} (clean : '\x00' ∉ sval)
    (fed : feed maxDepth parse (.string sval) = .ok (.inl next))
    (reads : ReadsFrom maxDepth platform includeDir filenames next rest root) :
    ReadsFrom maxDepth platform includeDir filenames parse (stringText sval ++ rest) root := by
  rintro scan ⟨start, text, string, includes, names⟩
  have found : munch (activeRules platform.atof scan.current.atBol scan.start) scan.current.text =
      some (.begin .string, 1) := by
    rw [start, text]
    exact munch_quote
  have turn : scanMatch platform includeDir scan = _ :=
    scanMatch_of_munch (by simp [text, stringText]) found
  have behind : (scan.current.advance 1).text = stringRest sval rest := by
    rw [Buffer.advance, text, stringText, cString_of_notMem clean]
    simp [stringRest]
  exact reads_of_skip (turn.trans rfl)
    (reads_chars clean (show feed maxDepth parse (.string ([] ++ sval)) = _ from fed) reads
      ⟨rfl, behind, string, includes, names⟩)

end Strings

end Libconfig

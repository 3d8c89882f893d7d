import Sntp.Machine.Coroutine
import Sntp.Proofs.Libconfig.Parsing

/-! # Reading a configuration

Reading comes to an end for every text, also when include files include each other. Then there is a
well-formed tree of settings that had room on the stack of the parser, or one of six errors at a line
of a file that was read. A stack that can grow less reads the same or is exhausted.
-/

namespace Libconfig

open Sntp (Text)
open Machine

variable {F : Type}

/-- What the parser gives: a well-formed group that had room on the stack. -/
def ReadRoot (maxDepth : ℕ) (root : Setting F) : Prop :=
  WellFormed Setting.Read root ∧ ∃ members, root = .group members ∧ RootFits maxDepth members

/-- What an application can rely on. -/
def SoundResult (platform : Platform F) (config : ConfigT F) (filename : Option Text) (text : Text) :
    ReadResult F → Prop
  | .outOfFuel | .ioError => False
  | .failed error => error.errorText ∈ readErrors ∧
    ∃ contents, Source platform config.includeDir filename text error.errorFile contents ∧
      ∃ past, past <+: contents ∧ error.errorLine = 1 + past.count '\n'
  | .ok read _ => ReadRoot yyMaxDepth read.root ∧
    read = { config with root := read.root, defaultFormat := .default }

variable {maxDepth : ℕ} {platform : Platform F} {includeDir filename : Option Text} {text : Text}

private theorem wp_feedTurn {parse : Parse F} {scan : Scan} (built : parse.Valid)
    (fits : parse.Fits maxDepth) (valid : scan.Valid platform includeDir filename text) :
    Wp (feedTurn (scanMatch platform includeDir) (parseToken maxDepth) parse)
      (fun next final => next.elim
        (fun next => (next.Valid ∧ next.Fits maxDepth ∧ final.Valid platform includeDir filename text) ∧
          Descends final scan)
        (ReadRoot maxDepth))
      (fun stop final => final.Valid platform includeDir filename text ∧
        ∃ error ∈ readErrors, stop = .error error) scan := by
  rw [feedTurn, wp_bind]
  refine (wp_scanMatch valid).mono ?_ fun _ _ => False.elim
  rintro (_ | token) final ⟨valid', rest⟩
  · exact ⟨⟨built, fits, valid'⟩, rest⟩
  · obtain ⟨token_valid, moves⟩ := rest
    have led : Led token (feed maxDepth parse token) := led_feed built token_valid
    have fitted := @fitted_feed _ _ token _ fits
    simp only [parseToken]
    cases outcome : feed maxDepth parse token with
    | error error =>
      rw [outcome] at led
      exact ⟨valid', error, led, rfl⟩
    | ok next =>
      rw [outcome] at led fitted
      cases next with
      | inl next => exact ⟨⟨led.1, fitted, valid'⟩, moves.resolve_left led.2⟩
      | inr root => exact ⟨led.1, fitted⟩

/-- `yyparse` with `yylex` ends. -/
theorem wpTotal_yyparse {scan : Scan} (room : 1 < maxDepth)
    (valid : scan.Valid platform includeDir filename text) :
    WpTotal (yyparse maxDepth platform includeDir)
      (fun root _ => ReadRoot maxDepth root)
      (fun stop final => final.Valid platform includeDir filename text ∧
        ∃ error ∈ readErrors, stop = .error error) scan := by
  have empty : Parse.Valid (⟨.settings [], []⟩ : Parse F) := ⟨wellFormed_group_nil, nofun⟩
  have fits : Parse.Fits maxDepth (⟨.settings [], []⟩ : Parse F) :=
    ⟨by simpa [Phase.Fits, symbolsAround, membersHeight] using room, trivial⟩
  have single : WpTotal
      (fun fuel => loop .outOfFuel (feedTurn (scanMatch platform includeDir) (parseToken maxDepth)) fuel
        ⟨.settings [], []⟩)
      (fun root _ => ReadRoot maxDepth root)
      (fun stop final => final.Valid platform includeDir filename text ∧
        ∃ error ∈ readErrors, stop = .error error) scan := by
    refine wpTotal_loop
      (fun parse scan => parse.Valid ∧ parse.Fits maxDepth ∧ scan.Valid platform includeDir filename text)
      (InvImage.wf (fun position : Parse F × Scan => position.2.heights)
        (List.wellFounded_boundedLex Nat.lt_wfRel.wf (maxIncludeDepth + 1))) ?_ _ ⟨empty, fits, valid⟩
    intro parse scan holds
    exact wpTotal_const (wp_feedTurn holds.1 holds.2.1 holds.2.2)
  refine wpTotal_consume single ?_
  rintro final ⟨-, error, -, same⟩
  cases same

/-- With a stack that can grow less, `yyparse` does the same or reports that the stack is exhausted. -/
theorem yyparse_eq_or_exhausted {larger : ℕ} (grows : maxDepth ≤ larger) (fuel : ℕ) (scan : Scan) :
    yyparse maxDepth platform includeDir fuel scan = yyparse larger platform includeDir fuel scan ∨
      ∃ final, yyparse maxDepth platform includeDir fuel scan =
        .error (.error errMemoryExhausted) final := by
  refine loop_eq_or_stops (fun parse scan => ?_) fuel _ scan
  cases lexed : yylex platform includeDir fuel scan with
  | error stop final =>
    have stops (depth : ℕ) :
        (do parseToken depth parse (← yylex platform includeDir fuel)) scan = .error stop final := by
      rw [← wp_eq, wp_bind, wp_of_error lexed]
    exact .inl ((stops maxDepth).trans (stops larger).symm)
  | ok token final =>
    have gives (depth : ℕ) : (do parseToken depth parse (← yylex platform includeDir fuel)) scan =
        parseToken depth parse token final := by
      rw [← wp_eq, wp_bind, wp_of_ok lexed, wp_eq]
    have same : SameOrExhausted (feed maxDepth parse token) (feed larger parse token) :=
      sameOrExhausted_feed grows
    rw [gives, gives, parseToken, parseToken]
    rcases same with same | exhausted
    · exact .inl (by rw [same])
    · exact .inr ⟨final, by rw [exhausted]; rfl⟩

/-- Reading ends, and ends well. -/
theorem configRead_sound (platform : Platform F) (config : ConfigT F) (filename : Option Text)
    (text : Text) : ∃ enough,
      SoundResult platform config filename text (configRead platform enough config filename text) ∧
      ∀ fuel, enough ≤ fuel → configRead platform fuel config filename text =
        configRead platform enough config filename text := by
  obtain ⟨enough, outcome, settled⟩ := wpTotal_yyparse (show 1 < yyMaxDepth by decide)
    (valid_create platform config.includeDir filename text)
  refine ⟨enough, ?_, fun fuel more => by rw [configRead, configRead, settled fuel more]⟩
  rw [configRead]
  cases result : yyparse yyMaxDepth platform config.includeDir enough
      ⟨.initial, .create text, [], [], filename, filename.toList⟩ with
  | ok root final => exact ⟨outcome.of_ok result, rfl⟩
  | error stop final =>
    obtain ⟨valid, error, among, rfl⟩ := outcome.of_error result
    obtain ⟨contents, source, past, rfl, lines⟩ := valid.source
    exact ⟨among, _, source, past, List.prefix_append .., lines⟩

end Libconfig

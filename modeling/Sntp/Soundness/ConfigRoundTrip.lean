import Sntp.Soundness.ConfigReading
import Sntp.Proofs.Libconfig.Written

/-! # Writing a configuration and reading it back

A tree whose floats are finite and whose strings have no zero survives being written and read, with
every layout, exactly when it has room on the stack of the parser. A tree that has none is refused with
the error for an exhausted stack: with a larger stack it would be read, so no other error comes first.
-/

namespace Libconfig

open Sntp (Text)
open Machine Regex

variable {F : Type} {platform : Platform F} {config : ConfigT F} {members : List (Text × Setting F)}
  {includeDir : Option Text} {filenames : List Text} {maxDepth : ℕ}

private theorem configWrite_group (group : config.root = .group members) :
    configWrite platform config = writeMembers platform config 0 members := by
  rw [configWrite, configWriteSetting, group, configWriteValue]
  simp

/-- The text is read from its beginning to its end. -/
private theorem readsFrom_configWrite (formed : WellFormed (Setting.Writable platform) config.root)
    (group : config.root = .group members) (fits : RootFits maxDepth members) :
    ReadsFrom maxDepth platform includeDir filenames ⟨.settings [], []⟩ (configWrite platform config)
      (config.root.reread platform config.defaultFormat) := by
  rw [configWrite_group group]
  rw [group] at formed ⊢
  have room : symbolsAround ([] : List (Place F)) +
      membersHeight (listed ([] : List (Text × Setting F))) members + 1 < maxDepth := by
    simpa [symbolsAround, listed, RootFits] using fits
  cases formed with
  | simple no => cases no
  | group formed valid names =>
    have legible : ∀ member ∈ members, Legible platform config member.2 := fun member among =>
      legible_of_wellFormed (formed member among)
    rw [← List.append_nil (writeMembers platform config 0 members)]
    refine reads_members (List.nil_append members) room legible valid names atSettings_settings
      fun behind expects => reads_eof ?_
    rw [expects _ (.inr (.inr rfl)), feedSettings, Setting.reread]

theorem wpTotal_yyparse_configWrite (formed : WellFormed (Setting.Writable platform) config.root)
    (group : config.root = .group members) (fits : RootFits maxDepth members)
    (includeDir filename : Option Text) :
    WpTotal (yyparse maxDepth platform includeDir)
      (fun root final => root = config.root.reread platform config.defaultFormat ∧
        final.filenames = filename.toList) (fun _ _ => False)
      ⟨.initial, .create (configWrite platform config), [], [], filename, filename.toList⟩ :=
  wpTotal_consume (readsFrom_configWrite formed group fits _ ⟨rfl, rfl, rfl, rfl, rfl⟩) fun _ => id

/-- A reader that comes to the end of its text gives what it has read. -/
theorem configRead_of_wpTotal {reader : ConfigT F} {filename : Option Text} {text : Text} {root : Setting F}
    (total : WpTotal (yyparse yyMaxDepth platform reader.includeDir)
      (fun read final => read = root ∧ final.filenames = filename.toList) (fun _ _ => False)
      ⟨.initial, .create text, [], [], filename, filename.toList⟩) :
    ∃ enough, ∀ fuel, enough ≤ fuel → configRead platform fuel reader filename text =
      .ok { reader with root := root, defaultFormat := .default } filename.toList := by
  obtain ⟨enough, outcome, settled⟩ := total
  refine ⟨enough, fun fuel more => ?_⟩
  rw [configRead, settled fuel more]
  cases result : yyparse yyMaxDepth platform reader.includeDir enough
      ⟨.initial, .create text, [], [], filename, filename.toList⟩ with
  | ok read final =>
    obtain ⟨rfl, names⟩ := outcome.of_ok result
    rw [← names]
  | error stop final => exact (outcome.of_error result).elim

/-- A tree that is too large for the stack is refused. -/
private theorem configRead_exhausted (formed : WellFormed (Setting.Writable platform) config.root)
    (group : config.root = .group members) (exceeds : ¬ RootFits yyMaxDepth members) (reader : ConfigT F)
    (filename : Option Text) :
    ∃ enough, ∀ fuel, enough ≤ fuel → ∃ error, error.errorText = errMemoryExhausted ∧
      configRead platform fuel reader filename (configWrite platform config) = .failed error := by
  -- a stack that is large enough for the tree
  have fits : RootFits (max yyMaxDepth (membersHeight 0 members + 2)) members := by
    rw [RootFits]
    omega
  obtain ⟨enough, outcome, settled⟩ :=
    wpTotal_yyparse_configWrite formed group fits reader.includeDir filename
  obtain ⟨enough', outcome', settled'⟩ := wpTotal_yyparse (show 1 < yyMaxDepth by decide)
    (valid_create platform reader.includeDir filename (configWrite platform config))
  refine ⟨max enough enough', fun fuel more => ?_⟩
  have room := settled fuel (le_of_max_le_left more)
  have small := settled' fuel (le_of_max_le_right more)
  rcases yyparse_eq_or_exhausted (le_max_left yyMaxDepth (membersHeight 0 members + 2)) fuel
    ⟨.initial, .create (configWrite platform config), [], [], filename, filename.toList⟩ with same | stops
  · cases result : yyparse (max yyMaxDepth (membersHeight 0 members + 2)) platform reader.includeDir enough
        ⟨.initial, .create (configWrite platform config), [], [], filename, filename.toList⟩ with
    | error stop final => exact (outcome.of_error result).elim
    | ok root final =>
      obtain ⟨rfl, -⟩ := outcome.of_ok result
      obtain ⟨-, read, is_group, read_fits⟩ :=
        outcome'.of_ok (small.symm.trans (same.trans (room.trans result)))
      rw [group, Setting.reread, Setting.group.injEq] at is_group
      exact absurd (rootFits_reread.mp (is_group ▸ read_fits)) exceeds
  · obtain ⟨final, stops⟩ := stops
    exact ⟨_, rfl, by rw [configRead, stops]⟩

/-- What is written of a configuration is read back, for every option and tab width, exactly when the
stack has room for it. -/
theorem configRead_configWrite (formed : WellFormed (Setting.Writable platform) config.root)
    (group : config.root = .group members) (reader : ConfigT F) (filename : Option Text) :
    ∃ enough, ∀ fuel, enough ≤ fuel →
      (RootFits yyMaxDepth members →
        configRead platform fuel reader filename (configWrite platform config) =
          .ok { reader with
            root := config.root.reread platform config.defaultFormat
            defaultFormat := .default } filename.toList) ∧
      (¬ RootFits yyMaxDepth members → ∃ error, error.errorText = errMemoryExhausted ∧
        configRead platform fuel reader filename (configWrite platform config) = .failed error) := by
  by_cases fits : RootFits yyMaxDepth members
  · obtain ⟨enough, reads⟩ :=
      configRead_of_wpTotal (wpTotal_yyparse_configWrite formed group fits reader.includeDir filename)
    exact ⟨enough, fun fuel more => ⟨fun _ => reads fuel more, absurd fits⟩⟩
  · obtain ⟨enough, refuses⟩ := configRead_exhausted formed group fits reader filename
    exact ⟨enough, fun fuel more => ⟨fun room => absurd room fits, fun _ => refuses fuel more⟩⟩

section Sample

/-- Floats that are natural numbers. -/
private def naturals : Platform ℕ where
  fopen _ := none
  atof := Sntp.leadingNumber 0
  formatFloat := Decimal.digits 0
  intOf number := .ofNat number

private def sampleMembers : List (Text × Setting ℕ) :=
  [("server".toList, .string "time\n\"one\"".toList),
    ("ports".toList, .array [.int 123 .default, .int (-4) .hex]),
    ("limits".toList, .list [.float 30, .group [("strict".toList, .bool 7)], .list []])]

private def sample : ConfigT ℕ :=
  { (ConfigT.init : ConfigT ℕ) with root := .group sampleMembers, defaultFormat := .hex, tabWidth := 0 }

private theorem sample_formed : WellFormed (Setting.Writable naturals) sample.root := by
  have strict : WellFormed (Setting.Writable naturals) (.group [("strict".toList, .bool 7)]) :=
    .group (List.forall_mem_singleton.mpr (.simple rfl trivial)) (List.forall_mem_singleton.mpr rfl) (by decide)
  have limits : WellFormed (Setting.Writable naturals)
      (.list [.float 30, .group [("strict".toList, .bool 7)], .list []]) :=
    .list (by simpa using ⟨.simple rfl rfl, strict, .list nofun⟩)
  have ports : WellFormed (Setting.Writable naturals) (.array [.int 123 .default, .int (-4) .hex]) :=
    .array .int rfl (by simp [Setting.Writable, Setting.type])
  have server : WellFormed (Setting.Writable naturals) (.string "time\n\"one\"".toList) :=
    .simple rfl (show '\x00' ∉ "time\n\"one\"".toList by decide)
  refine @WellFormed.group _ _ sampleMembers ?_ ?_ (by decide)
  · exact List.forall_mem_cons.mpr ⟨server, List.forall_mem_cons.mpr ⟨ports,
      List.forall_mem_singleton.mpr limits⟩⟩
  · exact List.forall_mem_cons.mpr ⟨rfl, List.forall_mem_cons.mpr ⟨rfl, List.forall_mem_singleton.mpr rfl⟩⟩

theorem sample_configRead_configWrite : ∃ enough, ∀ fuel, enough ≤ fuel →
    configRead naturals fuel ConfigT.init none (configWrite naturals sample) =
      .ok { (ConfigT.init : ConfigT ℕ) with
        root := .group [("server".toList, .string "time\n\"one\"".toList),
          ("ports".toList, .array [.int 123 .hex, .int (-4) .hex]),
          ("limits".toList, .list [.float 30, .group [("strict".toList, .bool 1)], .list []])] } [] := by
  obtain ⟨enough, reads⟩ := configRead_configWrite sample_formed rfl ConfigT.init none
  exact ⟨enough, fun fuel more => (reads fuel more).1 (by decide)⟩

end Sample

end Libconfig

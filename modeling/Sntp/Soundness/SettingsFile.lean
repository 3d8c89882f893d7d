import Sntp.Model.SetupConfigFile
import Sntp.Model.ClientSettings
import Sntp.Model.ServerMain
import Sntp.Soundness.ConfigReading
import Sntp.Soundness.ConfigRoundTrip
import Sntp.Soundness.ConfigLookup

/-! # Settings from a file

The configuration that the programs start from is what `libconfig` finds in the file. Whether a float
counts as a number depends on the options that its lookup finds, which can be any.
-/

namespace Sntp.SettingsFile

open Machine
open Libconfig hiding name integer float comment sign digit hex

variable {platform : Platform ℚ} {options : Text → ℕ} {config : ConfigT ℚ} {leaf : Setting ℚ → Prop}
  {setting found : Setting ℚ} {path : Text}

private theorem wellFormed_getMember (formed : WellFormed leaf setting) {name : Text}
    (finds : configSettingGetMember setting name = some found) : WellFormed leaf found := by
  cases formed with
  | group all _ _ =>
    obtain ⟨member, searched, rfl⟩ := Option.map_eq_some_iff.mp finds
    exact all member (List.mem_of_find?_eq_some searched)
  | simple simple _ => cases setting <;> cases simple <;> cases finds
  | _ => cases finds

private theorem wellFormed_getElem (formed : WellFormed leaf setting) {idx : ℤ}
    (finds : configSettingGetElem setting idx = some found) : WellFormed leaf found := by
  cases formed with
  | group all _ _ =>
    obtain ⟨member, at_, rfl⟩ := Option.map_eq_some_iff.mp finds
    exact all member (List.mem_of_getElem? at_)
  | simple simple _ => cases setting <;> cases simple <;> cases finds
  | array type simple all =>
    obtain ⟨holds, same⟩ := all found (List.mem_of_getElem? finds)
    exact .simple (same ▸ simple) holds
  | list all => exact all found (List.mem_of_getElem? finds)

/-- A lookup stays in the tree. -/
theorem wellFormed_lookupFrom (formed : WellFormed leaf setting) (inside : Bool)
    (finds : lookupFrom inside setting path = some found) : WellFormed leaf found := by
  induction path generalizing inside setting with
  | nil => rwa [← Option.some.inj finds]
  | cons c path ih =>
    rw [lookupFrom] at finds
    split at finds
    · exact ih formed _ finds
    · split at finds
      · exact ih formed _ finds
      · split at finds
        · split at finds
          · next element => exact ih (wellFormed_getElem formed element) _ finds
          · split at finds
            · rwa [← Option.some.inj finds]
            · cases finds
        · split at finds
          · next member => exact ih (wellFormed_getMember formed member) _ finds
          · cases finds

section Lookups

variable {name : Text}

private theorem configLookupInt_of : configLookupInt (.of platform options config) name =
    (configLookup config name).bind
      (configSettingGetInt platform.intOf { config with options := options name }) := by
  rw [configLookupInt, Config.of]
  cases configLookup config name with
  | none => rfl
  | some found =>
    cases found with
    | float fval =>
      by_cases converts : configHasOption { config with options := options name } autoConvert <;>
        simp [ConfigValue.of, configSettingGetInt, converts]
    | _ => rfl

private theorem configLookupString_of : configLookupString (.of platform options config) name =
    (configLookup config name).bind configSettingGetString := by
  rw [configLookupString, Config.of]
  cases configLookup config name with
  | none => rfl
  | some found =>
    cases found with
    | float fval =>
      by_cases converts : configHasOption { config with options := options name } autoConvert <;>
        simp [ConfigValue.of, configSettingGetString, converts]
    | _ => rfl

private theorem configLookupBool_of (formed : WellFormed Setting.Read config.root) :
    configLookupBool (.of platform options config) name =
      (configLookup config name).bind configSettingGetBool := by
  rw [configLookupBool, Config.of]
  cases finds : configLookup config name with
  | none => rfl
  | some found =>
    cases found with
    | bool ival =>
      cases wellFormed_lookupFrom formed false finds with
      | simple _ read => rcases read with rfl | rfl <;> rfl
    | float fval =>
      by_cases converts : configHasOption { config with options := options name } autoConvert <;>
        simp [ConfigValue.of, configSettingGetBool, converts]
    | _ => rfl

end Lookups

/-- What a program can rely on about the file that it finds. -/
def Faithful (platform : Platform ℚ) (options : Text → ℕ) (access : Text → Bool) (fuel : ℕ) (path : Text) :
    ConfigFile → Prop
  | .missing => ¬ access path
  | .invalid => access path ∧ ∃ file line, ∃ text ∈ ioError :: readErrors,
    setupConfigFile platform fuel path = some (.error (readErrorLine file line text))
  | .valid cfg => access path ∧ ∃ config, setupConfigFile platform fuel path = some (.ok config) ∧
    WellFormed Setting.Read config.root ∧ ∀ name,
      configLookupInt cfg name = (configLookup config name).bind
        (configSettingGetInt platform.intOf { config with options := options name }) ∧
      configLookupBool cfg name = (configLookup config name).bind configSettingGetBool ∧
      configLookupString cfg name = (configLookup config name).bind configSettingGetString

private theorem setupConfigFile_settles (platform : Platform ℚ) (path : Text) : ∃ enough,
    (∀ fuel, enough ≤ fuel → setupConfigFile platform fuel path = setupConfigFile platform enough path) ∧
    ((∃ file line, ∃ text ∈ ioError :: readErrors,
        setupConfigFile platform enough path = some (.error (readErrorLine file line text))) ∨
      ∃ config, setupConfigFile platform enough path = some (.ok config) ∧
        WellFormed Setting.Read config.root) := by
  cases opened : platform.fopen path with
  | none =>
    have refused (fuel : ℕ) :
        setupConfigFile platform fuel path = some (.error (readErrorLine none 0 ioError)) := by
      rw [setupConfigFile, configReadFile, opened]
    exact ⟨0, fun fuel _ => (refused fuel).trans (refused 0).symm,
      .inl ⟨_, _, _, List.mem_cons_self, refused 0⟩⟩
  | some text =>
    obtain ⟨enough, outcome, settled⟩ :=
      wpTotal_yyparse (show 1 < yyMaxDepth by decide)
        (valid_create platform (ConfigT.init (F := ℚ)).includeDir (some path) text)
    rw [Option.toList_some] at outcome settled
    refine ⟨enough, fun fuel more => ?_, ?_⟩
    · simp only [setupConfigFile, configReadFile, opened, configRead, Option.toList_some, settled fuel more]
    · simp only [setupConfigFile, configReadFile, opened, configRead, Option.toList_some]
      cases result : yyparse yyMaxDepth platform (ConfigT.init (F := ℚ)).includeDir enough
          ⟨.initial, .create text, [], [], some path, [path]⟩ with
      | ok root final => exact .inr ⟨_, rfl, (outcome.of_ok result).1⟩
      | error stop final =>
        obtain ⟨-, error, among, rfl⟩ := outcome.of_error result
        exact .inl ⟨_, _, _, List.mem_cons_of_mem _ among, rfl⟩

/-- The file that a program starts from is the file that `libconfig` reads. -/
theorem configFile_at_faithful (platform : Platform ℚ) (options : Text → ℕ) (access : Text → Bool)
    (path : Text) :
    ∃ enough file, (∀ fuel, enough ≤ fuel → ConfigFile.at platform options access fuel path = some file) ∧
      Faithful platform options access enough path file := by
  obtain ⟨enough, settled, outcome⟩ := setupConfigFile_settles platform path
  by_cases exists_ : access path
  · rcases outcome with ⟨file, line, text, among, failed⟩ | ⟨config, read, formed⟩
    · refine ⟨enough, .invalid, fun fuel more => ?_, exists_, file, line, text, among, failed⟩
      rw [ConfigFile.at, if_pos exists_, settled fuel more, failed]
    · refine ⟨enough, .valid (.of platform options config), fun fuel more => ?_, exists_, config, read,
        formed, fun name => ⟨configLookupInt_of, configLookupBool_of formed, configLookupString_of⟩⟩
      rw [ConfigFile.at, if_pos exists_, settled fuel more, read]
  · exact ⟨0, .missing, fun fuel _ => by rw [ConfigFile.at, if_neg exists_], exists_⟩

section Written

variable {members : List (Text × Setting ℚ)} {written : ConfigT ℚ} {name : Text}

/-- The number, text or truth that is read under a name, when a tree has been written. -/
def intAt (platform : Platform ℚ) (options : Text → ℕ) (members : List (Text × Setting ℚ)) (name : String) :
    Option ℤ :=
  let pointed : ConfigT ℚ := { ConfigT.init with options := options name.toList }
  (members.lookup name.toList).bind fun setting =>
    configSettingGetInt platform.intOf pointed (setting.reread platform .default)

def stringAt (members : List (Text × Setting ℚ)) (name : String) : Option Text :=
  (members.lookup name.toList).bind configSettingGetString

def boolAt (members : List (Text × Setting ℚ)) (name : String) : Option ℤ :=
  ((members.lookup name.toList).bind configSettingGetBool).map fun ival => if ival ≠ 0 then 1 else 0

private theorem lookup_rereadMembers {format : Format} :
    (rereadMembers platform format members).lookup name =
      (members.lookup name).map (·.reread platform format) := by
  induction members with
  | nil => rfl
  | cons member members ih =>
    obtain ⟨first, value⟩ := member
    rw [rereadMembers, List.lookup_cons, List.lookup_cons]
    split
    · rfl
    · exact ih

private theorem configLookup_reread {format : Format} (valid : configValidateName name)
    (valids : ∀ other ∈ members.map Prod.fst, configValidateName other)
    (root : config.root = (Setting.group members).reread platform format) :
    configLookup config name = (members.lookup name).map (·.reread platform format) := by
  have finds := @lookupFrom_member ℚ config.root [] name valid fun others same other among => by
    rw [root, Setting.reread] at same
    cases same
    rw [fst_rereadMembers] at among
    exact valids other among
  rw [pathText, List.flatMap_nil, List.append_nil] at finds
  rw [configLookup, configSettingLookup, finds, root, Setting.reread, Setting.after, lookup_rereadMembers]
  cases members.lookup name <;> rfl

/-- What the lookups of the programs find in what was written. -/
private theorem lookups_of_written {format : Format} {name : String}
    (valid : configValidateName name.toList)
    (valids : ∀ other ∈ members.map Prod.fst, configValidateName other)
    (root : config.root = (Setting.group members).reread platform format) :
    configLookupInt (.of platform options config) name.toList = intAt platform options members name ∧
      configLookupString (.of platform options config) name.toList = stringAt members name ∧
      configLookupBool (.of platform options config) name.toList = boolAt members name := by
  have finds := configLookup_reread valid valids root
  refine ⟨?_, ?_, ?_⟩
  · rw [configLookupInt_of, finds, intAt]
    cases members.lookup name.toList with
    | none => rfl
    | some found => cases found <;> rfl
  · rw [configLookupString_of, finds, stringAt]
    cases members.lookup name.toList with
    | none => rfl
    | some found => cases found <;> rfl
  · rw [configLookupBool, Config.of, finds, boolAt]
    cases members.lookup name.toList with
    | none => rfl
    | some found =>
      cases found with
      | bool ival =>
        by_cases zero : ival = 0
        · subst zero
          rfl
        · have some_int : ival.toInt ≠ 0 := fun same => zero (Int32.toInt_inj.mp same)
          simp [Setting.reread, ConfigValue.of, configSettingGetBool, zero, some_int]
      | float fval =>
        by_cases converts : configHasOption { config with options := options name.toList } autoConvert <;>
          simp [Setting.reread, ConfigValue.of, configSettingGetBool, converts]
      | _ => rfl

private theorem setupConfigFile_written (formed : WellFormed (Setting.Writable platform) written.root)
    (group : written.root = .group members) (fits : RootFits yyMaxDepth members)
    (opened : platform.fopen path = some (configWrite platform written)) :
    ∃ enough config, config.root = (Setting.group members).reread platform written.defaultFormat ∧
      ∀ fuel, enough ≤ fuel → setupConfigFile platform fuel path = some (.ok config) := by
  obtain ⟨enough, reads⟩ := @configRead_of_wpTotal _ _ ConfigT.init _ _ _
    (wpTotal_yyparse_configWrite formed group fits none (some path))
  rw [group] at reads
  refine ⟨enough, { (ConfigT.init : ConfigT ℚ) with
    root := (Setting.group members).reread platform written.defaultFormat }, rfl, fun fuel more => ?_⟩
  simp only [setupConfigFile, configReadFile, opened, reads fuel more]
  rfl

/-- The programs have the settings that were written to their file. -/
theorem settings_of_written {access : Text → Bool}
    (formed : WellFormed (Setting.Writable platform) written.root) (group : written.root = .group members)
    (fits : RootFits yyMaxDepth members)
    (opened : platform.fopen path = some (configWrite platform written)) (exists_ : access path)
    (options : Text → ℕ) :
    ∃ enough cfg,
      (∀ fuel, enough ≤ fuel → ConfigFile.at platform options access fuel path = some (.valid cfg)) ∧
      (∀ cSet, parseConfigFile cfg cSet =
        let int := intAt platform options members
        { cSet with
          manycastAddress := (stringAt members "manycast_address").getD cSet.manycastAddress
          manycastWaitTime := (int "manycast_wait_time").getD cSet.manycastWaitTime
          serverPort := (int "server_port").getD cSet.serverPort
          recvUniTimeout := (int "recv_uni_timeout").getD cSet.recvUniTimeout
          maxUnicastRetries := (int "max_unicast_retries").getD cSet.maxUnicastRetries
          pollWait := (int "poll_wait").getD cSet.pollWait }) ∧
      ∀ sSet, parseServerConfigFile cfg sSet =
        let manycastEnabled := (boolAt members "manycast_enabled").getD sSet.manycastEnabled
        { manycastEnabled := manycastEnabled
          manycastAddress := if manycastEnabled ≠ 0 then
            (stringAt members "manycast_address").getD sSet.manycastAddress else sSet.manycastAddress
          serverPort := (intAt platform options members "server_port").getD sSet.serverPort
          debug := (boolAt members "debug").getD sSet.debug } := by
  have valids : ∀ other ∈ members.map Prod.fst, configValidateName other := by
    rintro other among
    obtain ⟨member, inside, rfl⟩ := List.mem_map.mp among
    rw [group] at formed
    cases formed with
    | simple simple _ => cases simple
    | group _ valids _ => exact configValidateName_of_isName (valids member inside)
  obtain ⟨enough, config, root, reads⟩ := setupConfigFile_written formed group fits opened
  have finds (name : String) (valid : configValidateName name.toList) :=
    @lookups_of_written platform options config members _ name valid valids root
  refine ⟨enough, .of platform options config, fun fuel more => ?_, fun cSet => ?_, fun sSet => ?_⟩
  · rw [ConfigFile.at, if_pos exists_, reads fuel more]
  · rw [parseConfigFile, (finds _ rfl).2.1, (finds _ rfl).1, (finds _ rfl).1, (finds _ rfl).1,
      (finds _ rfl).1, (finds _ rfl).1]
  · rw [parseServerConfigFile, (finds _ rfl).2.2, (finds _ rfl).2.2, (finds _ rfl).2.1, (finds _ rfl).1]

/-- A host whose every file is this one. -/
private def portHost : Platform ℚ where
  fopen _ := some ("server_port = 7000;\npoll_wait = 30L;\nrecv_uni_timeout = 2.5;\n".toList ++
    "manycast_address = \"239.1.2.3\";\n".toList)
  atof _ := 5 / 2
  formatFloat _ := "2.5".toList
  intOf _ := 2

private def portMembers : List (Text × Setting ℚ) :=
  [("server_port".toList, .int 7000 .default), ("poll_wait".toList, .int64 30 .default),
    ("recv_uni_timeout".toList, .float (5 / 2)), ("manycast_address".toList, .string "239.1.2.3".toList)]

private theorem port_formed : WellFormed (Setting.Writable portHost) (.group portMembers) := by
  have address : WellFormed (Setting.Writable portHost) (.string "239.1.2.3".toList) :=
    .simple rfl (show '\x00' ∉ "239.1.2.3".toList by decide)
  refine .group ?_ ?_ (by decide)
  · exact List.forall_mem_cons.mpr ⟨.simple rfl trivial, List.forall_mem_cons.mpr ⟨.simple rfl trivial,
      List.forall_mem_cons.mpr ⟨.simple rfl rfl, List.forall_mem_singleton.mpr address⟩⟩⟩
  · exact List.forall_mem_cons.mpr ⟨rfl, List.forall_mem_cons.mpr ⟨rfl, List.forall_mem_cons.mpr
      ⟨rfl, List.forall_mem_singleton.mpr rfl⟩⟩⟩

/-- The client finds the option for conversions where it looks, the server does not look up a float. -/
theorem settings_of_written_port :
    (∃ enough cfg,
      (∀ fuel, enough ≤ fuel →
        ConfigFile.at portHost (fun _ => 1) (fun _ => true) fuel clientConfigFile = some (.valid cfg)) ∧
      ∀ cSet, parseConfigFile cfg cSet = { cSet with
        manycastAddress := "239.1.2.3".toList, serverPort := 7000, recvUniTimeout := 2, pollWait := 30 }) ∧
    ∃ enough cfg,
      (∀ fuel, enough ≤ fuel →
        ConfigFile.at portHost (fun _ => 0) (fun _ => true) fuel serverConfigFile = some (.valid cfg)) ∧
      ∀ sSet, parseServerConfigFile cfg sSet = { sSet with
        manycastAddress := if sSet.manycastEnabled ≠ 0 then "239.1.2.3".toList else sSet.manycastAddress
        serverPort := 7000 } := by
  have settings (path : Text) (options : Text → ℕ) := @settings_of_written portHost path portMembers
    { (ConfigT.init : ConfigT ℚ) with root := .group portMembers } (fun _ => true) port_formed rfl
    (by decide) rfl rfl options
  obtain ⟨enough, cfg, file, client, -⟩ := settings clientConfigFile fun _ => 1
  obtain ⟨enough', cfg', file', -, server⟩ := settings serverConfigFile fun _ => 0
  exact ⟨⟨enough, cfg, file, client⟩, enough', cfg', file', server⟩

end Written

end Sntp.SettingsFile

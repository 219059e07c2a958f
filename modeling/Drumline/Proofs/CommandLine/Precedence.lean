/-
Which value of an option counts. A command line that is read gives values to some options, its configuration file to
some, perhaps the same, and the others keep their defaults; only what comes of all three has to be within bounds. A
configuration is whatever mapping a reader gives, and may hold values of any kind.

`settings_eq` says so of the settings of a command line: they are those of the options resolved in this order, if these
are accepted, and otherwise there is an error of the options. What a configuration has for an option that the command
line gives is never looked at.

Main result: `settings_precedence`.

Premise: the reader of the configuration is lawful (`Yaml.Reader.Lawful`).
-/
import Drumline.CommandLine.Run
import Drumline.Proofs.CommandLine.Reading
import Drumline.Proofs.Number.Numeral
import Drumline.Proofs.Options.Loading

namespace Drumline.CommandLine

open Options (Configuration)

variable {words : List String} {a : Arguments} {reader : Yaml.Reader} {σ : Session} {config : List (String × Value)}

/-- the options of a command line and a configuration, before they are checked -/
def resolved (words : List String) (config : List (String × Value)) : Options :=
  Options.merged (given? words) (Options.configured? config)

/-! ## The command line -/

/-- a value that an effect gives is no null, and a whole number has no more digits than are written -/
theorem Effect.value_of_gives? {e : Effect} {entry : OptionName × Value} (h : e.gives? = some entry) :
    entry.2.isNull = false ∧ entry.2.Writable := by
  cases e with
  | flag switch name =>
    cases switch with
    | option option =>
      cases h
      exact ⟨rfl, .bool _⟩
    | _ => cases h
  | valued switch text =>
    have hwhole {option : OptionName}
        (h : ((readInteger 10 text).toOption.map fun n => (option, Value.int n)) = some entry) :
        entry.2.isNull = false ∧ entry.2.Writable := by
      obtain ⟨n, hn, rfl⟩ := Option.map_eq_some_iff.1 h
      cases hread : readInteger 10 text with
      | error error =>
        rw [hread] at hn
        cases hn
      | ok m =>
        rw [hread] at hn
        cases hn
        exact ⟨rfl, .int (natAbs_lt_of_readInteger hread)⟩
    cases switch with
    | option option =>
      cases option with
      | bpm =>
        obtain ⟨x, -, rfl⟩ := Option.map_eq_some_iff.1 h
        exact ⟨rfl, .double x⟩
      | _ => exact hwhole h
    | _ => cases h

theorem value_of_mem_options (hwords : readArguments words = .ok a) {entry : OptionName × Value}
    (hentry : entry ∈ a.options) : entry.2.isNull = false ∧ entry.2.Writable := by
  obtain ⟨read, -, hoptions⟩ := options_of_readArguments hwords
  rw [hoptions] at hentry
  obtain ⟨e, -, he⟩ := List.mem_filterMap.1 hentry
  exact Effect.value_of_gives? he

theorem given?_eq (hwords : readArguments words = .ok a) (option : OptionName) :
    given? words option = (a.options.filter (·.1 = option)).getLast?.map Prod.snd := by
  obtain ⟨read, hread, hoptions⟩ := options_of_readArguments hwords
  simp only [given?, hread, hoptions]

theorem writable_of_given? (hwords : readArguments words = .ok a) {option : OptionName} {value : Value}
    (h : given? words option = some value) : value.Writable := by
  rw [given?_eq hwords] at h
  obtain ⟨entry, hentry, rfl⟩ := Option.map_eq_some_iff.1 h
  exact (value_of_mem_options hwords (List.mem_of_mem_filter (List.mem_of_getLast? hentry))).2

/-- the overrides of a command line set what it gives -/
theorem setting?_overrides (hwords : readArguments words = .ok a) (option : OptionName) :
    Options.setting? a.overrides option = given? words option := by
  have hsets : ∀ entry ∈ a.options, Options.sets option (entry.1.name, entry.2) = decide (entry.1 = option) := by
    intro entry hentry
    simp [Options.sets, (value_of_mem_options hwords hentry).1, OptionName.name_inj]
  have hfilter : a.overrides.filter (Options.sets option) =
      (a.options.filter (·.1 = option)).map fun set => (set.1.name, set.2) := by
    rw [Arguments.overrides, List.filter_map]
    exact congrArg _ (List.filter_congr hsets)
  rw [given?_eq hwords, Options.setting?, hfilter, List.getLast?_map, Option.map_map]
  rfl

theorem unknownNames_overrides (a : Arguments) : Options.unknownNames a.overrides = [] := by
  rw [Options.unknownNames_eq_nil]
  intro entry hentry
  obtain ⟨set, -, rfl⟩ := List.mem_map.1 hentry
  exact ⟨set.1, rfl⟩

/-! ## Settings -/

/-- the configuration of a command line names options, and each at most once -/
theorem configuration_of_loadConfig (hlawful : reader.Lawful) (h : (a.loadConfig reader).Returns σ config) :
    Configuration config := by
  obtain ⟨σ', h⟩ := h
  unfold Arguments.loadConfig at h
  split at h
  · cases h
    exact configuration_nil
  · split at h
    · cases h
      exact configuration_nil
    · exact configuration_of_loadOptions hlawful h

/-- what is given counts before what is configured, and that before the defaults -/
theorem mergeOptions_eq (hwords : readArguments words = .ok a) (hconfig : Configuration config) :
    a.mergeOptions config = .ok (resolved words config) := by
  unfold Arguments.mergeOptions
  rw [Options.withOverrides_eq_ok hconfig.known]
  apply (Options.withOverrides_eq_ok (unknownNames_overrides a)).trans
  rw [Except.ok.injEq]
  apply Options.ext_get
  intro option
  rw [Options.get_overridden, Options.get_overridden, setting?_overrides hwords,
    Options.setting?_eq_configured? hconfig.nodup, resolved, Options.merged, Options.get_ofValues]
  cases given? words option <;> rfl

/-- **Settings of a command line.** They are those of the resolved options, or there is the error of these. -/
theorem settings_eq (hlawful : reader.Lawful) (hwords : readArguments words = .ok a)
    (hconfig : (a.loadConfig reader).Returns σ config) :
    ((a.settings reader).runOn σ).1 = (resolved words config).check.mapError .options := by
  have hmerge := mergeOptions_eq hwords (configuration_of_loadConfig hlawful hconfig)
  obtain ⟨σ', hload⟩ := hconfig
  unfold Arguments.settings
  rw [Action.runOn_bind, Action.runOn_adapt, hload]
  simp only [Except.mapError]
  rw [Action.runOn_bind, hmerge, Action.runOn_ofExcept]
  simp only [Except.mapError]
  rw [Action.runOn_ofExcept]
  rfl

theorem returns_settings_iff (hlawful : reader.Lawful) (hwords : readArguments words = .ok a)
    (hconfig : (a.loadConfig reader).Returns σ config) {settings : Settings} :
    (a.settings reader).Returns σ settings ↔ (resolved words config).check = .ok settings := by
  rw [Action.returns_iff, settings_eq hlawful hwords hconfig, mapError_eq_ok]

/-- the values that resolved options can have: those of the configuration, numbers that were read, and the defaults -/
theorem writable_resolved (hwords : readArguments words = .ok a) (hwritable : ∀ entry ∈ config, entry.2.Writable)
    (option : OptionName) : ((resolved words config).get option).Writable := by
  rw [resolved, Options.merged, Options.get_ofValues]
  cases hgiven : given? words option with
  | some value => exact writable_of_given? hwords hgiven
  | none =>
    cases hconfigured : Options.configured? config option with
    | some value =>
      have hlookup := (Option.filter_eq_some_iff.1 hconfigured).1
      obtain ⟨before, after, hconfig, -⟩ := List.lookup_eq_some_iff.1 hlookup
      exact hwritable (option.name, value) (hconfig ▸ List.mem_append_right _ List.mem_cons_self)
    | none => exact Options.writable_default option

/-- **Precedence of options.** The settings of a command line are there if and only if the resolved options are
accepted, and then each option has the value that the command line gives it, or else the one of the configuration if
there is one and it is no null, or else its default; the switch of the grace notes gives its negation. Otherwise the
options are refused with a report. What the configuration has for an option that the command line gives does not matter,
and overrides after overrides are one set of overrides, in which the second come before the first. -/
theorem settings_precedence (hlawful : reader.Lawful) (hwords : readArguments words = .ok a)
    (hconfig : (a.loadConfig reader).Returns σ config) (hwritable : ∀ entry ∈ config, entry.2.Writable) :
    (∀ settings, (a.settings reader).Returns σ settings ↔ (resolved words config).check = .ok settings) ∧
    (∀ settings, (a.settings reader).Returns σ settings → ∀ option, settings.value option =
      ((given? words option).or (Options.configured? config option)).getD (Options.get {} option)) ∧
    ((∀ settings, (resolved words config).check ≠ .ok settings) → ∃ e : OptionsError,
      ((a.settings reader).runOn σ).1 = .error (.options e) ∧ (RunError.options e).isReport = true) ∧
    (∀ σ' other, (a.loadConfig reader).Returns σ' other →
      (∀ option, given? words option = none → Options.configured? other option = Options.configured? config option) →
      ((a.settings reader).runOn σ').1 = ((a.settings reader).runOn σ).1) ∧
    ∀ (o : Options) (first second : List (String × Value)), Options.unknownNames first = [] →
      Options.unknownNames second = [] → ∃ result,
        (o.withOverrides first >>= (·.withOverrides second)) = .ok result ∧
        o.withOverrides (Options.overlay first second) = .ok result := by
  refine ⟨fun settings => returns_settings_iff hlawful hwords hconfig, ?_, ?_, ?_, ?_⟩
  · intro settings hsettings option
    rw [Options.value_of_check ((returns_settings_iff hlawful hwords hconfig).1 hsettings), resolved, Options.merged,
      Options.get_ofValues]
  · intro hrefused
    cases hcheck : (resolved words config).check with
    | ok settings => exact (hrefused settings hcheck).elim
    | error e =>
      refine ⟨e, ?_, ?_⟩
      · rw [settings_eq hlawful hwords hconfig, hcheck]
        rfl
      · cases e with
        | unwritable e => exact (Options.check_ne_unwritable (writable_resolved hwords hwritable) e hcheck).elim
        | _ => rfl
  · intro σ' other hother hagree
    have hresolved : resolved words other = resolved words config := by
      apply Options.ext_get
      intro option
      simp only [resolved, Options.merged, Options.get_ofValues]
      cases hgiven : given? words option with
      | some value => rfl
      | none => rw [hagree option hgiven]
    rw [settings_eq hlawful hwords hother, settings_eq hlawful hwords hconfig, hresolved]
  · intro o first second hfirst hsecond
    exact Options.withOverrides_overlay o hfirst hsecond

/-! ## A kit -/

/-- a configuration: a date for a tempo, and steps no longer than the usual grace note -/
def kitBytes : List UInt8 :=
  Text.encode "bpm: 2001-09-09\nnote_duration: 64\nnormal_velocity: null\nno_flams: false\n".toList

def kitSettings : List (OptionName × Value) :=
  [(.bpm, .other ⟨.ok "datetime.date(2001, 9, 9)", .ok "2001-09-09", true⟩), (.noteDuration, .int 64),
    (.normalVelocity, .null), (.noFlams, .bool false)]

def kitConfig : List (String × Value) := kitSettings.map fun setting => (setting.1.name, setting.2)

/-- a reader that knows the date in that configuration -/
def kitReader : Yaml.Reader := fun raw =>
  if raw = kitBytes then .ok (.mapping (kitSettings.map fun setting => (.text setting.1.name, setting.2)))
  else Yaml.reader raw

/-- a disk with the configuration in a file -/
def cabinet : Session where
  tree := FileTree.empty.put ["kit.yaml".toList] (.file kitBytes)
  workingDirectory := []

/-- a command line that gives another tempo and shorter grace notes, and turns these off -/
def kitWords : List String :=
  ["a.pat", "--config", "kit.yaml", "--no-flams", "--bpm", "90", "--flam-duration", "128"]

theorem lawful_kitReader : kitReader.Lawful where
  distinct {raw pairs} h := by
    unfold kitReader at h
    split at h
    · cases h
      simp [Yaml.Distinct, kitSettings, OptionName.name]
    · exact Yaml.lawful_reader.distinct h
  decodes {raw value} h := by
    unfold kitReader at h
    split at h
    · rename_i hraw
      rw [hraw]
      exact ⟨_, Text.decodeFrom_encode _ 0⟩
    · exact Yaml.lawful_reader.decodes h
  undecodable {raw error} h := by
    unfold kitReader at h
    split at h
    · cases h
    · exact Yaml.lawful_reader.undecodable h

theorem loadOptions_kit : (loadOptions kitReader "kit.yaml").Returns cabinet kitConfig := by
  have hraw : cabinet.tree.read cabinet.workingDirectory (.ofText "kit.yaml".toList) = .ok kitBytes := by
    decide +kernel
  exact returns_of_sets ⟨kitBytes, hraw, if_pos rfl⟩ (.options kitSettings)

theorem writable_kit : ∀ entry ∈ kitConfig, entry.2.Writable := by
  have hpow : 10 ^ 3 ≤ 10 ^ maxDigits := Nat.pow_le_pow_right (by omega) (by decide)
  intro entry hentry
  simp only [kitConfig, kitSettings, List.map_cons, List.map_nil, List.mem_cons, List.not_mem_nil, or_false] at hentry
  rcases hentry with rfl | rfl | rfl | rfl
  · exact .other ⟨_, rfl⟩
  · exact .int (by omega)
  · exact .null
  · exact .bool false

/-- the configuration is refused by itself, for a date is no tempo, and accepted under this command line -/
theorem settings_precedence_kit :
    ∃ a, readArguments kitWords = .ok a ∧ (a.loadConfig kitReader).Returns cabinet kitConfig ∧
      (resolved [] kitConfig).check =
        .error (.outOfRange .bpm Tempo.slowest Tempo.fastest "datetime.date(2001, 9, 9)") ∧
      (a.settings kitReader).Returns cabinet
        ⟨.double (.finite 90), .int 64, .int 100, .int 80, .int 128, .int 60, true⟩ := by
  have hread : (readArguments kitWords).map Arguments.config = .ok (some "kit.yaml") := by decide +kernel
  obtain ⟨a, hwords, hpath⟩ := map_eq_ok.1 hread
  have hconfig : (a.loadConfig kitReader).Returns cabinet kitConfig := by
    unfold Arguments.loadConfig
    rw [hpath]
    simp only
    rw [if_neg (by decide)]
    exact loadOptions_kit
  obtain ⟨hiff, -⟩ := settings_precedence lawful_kitReader hwords hconfig writable_kit
  refine ⟨a, hwords, hconfig, ?_, (hiff _).2 ?_⟩
  · decide +kernel
  · decide +kernel

end Drumline.CommandLine

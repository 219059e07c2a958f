/-
How a command line ends: with a stop before it starts, with status 0 after its work, with status 1 and one notice of an
error, or with an error that is passed on.

Settings are read first (`settings_error`), and then the target is converted under them (`convert_error`). Both fail
with a report, or with an error that `Leaves` lists with what brings it about. What a configuration file is refused for
is up to its reader; the rest is the program's own.

Main result: `perform_status`. That no error is ever passed on is refuted by a target without characters
(`perform_empty`).
-/
import Drumline.Proofs.CommandLine.Run
import Drumline.Proofs.Options.Loading
import Drumline.Proofs.Session.Closure
import Drumline.Proofs.Session.Notices

namespace Drumline.CommandLine

namespace Arguments

/-! ## Model -/

/-- whether a command line, from one session to the other, has converted its target under some settings: the one
pattern file, or all those directly inside a directory -/
inductive Done (a : Arguments) (settings : Settings) (σ σ' : Session) : Prop where
  | file {bytes : List UInt8} (hfile : a.isBatch σ = false)
      (hconverted : σ.Converted σ' a.input a.outputPath? a.debug settings bytes)
  | batch {names : List FileName} {done : List Rendering} (hbatch : a.isBatch σ = true)
      (hnames : σ.tree.Patterns (a.input.location σ.workingDirectory) names)
      (hall : done.map Rendering.name = names)
      (hyields : ∀ r ∈ done, ∃ raw, σ.tree.get? (a.input.location σ.workingDirectory ++ [r.name]) = some (.file raw) ∧
        Yields raw r.name settings r.bytes)
      (htree : σ'.tree = (σ.tree.ensureDirectories σ.workingDirectory (batchDirectory a.input a.outputPath?)).2.stored
        a.debug ((batchDirectory a.input a.outputPath?).location σ.workingDirectory) done)

/-- what a command line fails with: it cannot read its settings, or cannot convert its target under them -/
inductive Fails (reader : Yaml.Reader) (a : Arguments) (σ : Session) : RunError → Prop where
  | settings {e : RunError} (h : ((a.settings reader).runOn σ).1 = .error e) : Fails reader a σ e
  | file {settings : Settings} {mid : Session} {e : ConversionError} (hsettings : (a.settings reader).Returns σ settings)
      (hfile : a.isBatch σ = false) (hsame : σ.Same mid)
      (h : ((convertFile a.input a.outputPath? a.debug settings).runOn mid).1 = .error e) : Fails reader a σ (.conversion e)
  | batch {settings : Settings} {mid : Session} {e : ConversionError} (hsettings : (a.settings reader).Returns σ settings)
      (hbatch : a.isBatch σ = true) (hsame : σ.Same mid)
      (h : ((convertDirectory a.input a.outputPath? a.debug settings).runOn mid).1 = .error e) :
    Fails reader a σ (.conversion e)

/-- whether a path is that of a pattern file that a command line is to convert, and what that holds -/
def Targets (a : Arguments) (σ : Session) (path : Path) (raw : List UInt8) : Prop :=
  a.isBatch σ = false ∧ path = a.input ∧ σ.tree.read σ.workingDirectory path = .ok raw ∨
    a.isBatch σ = true ∧ ∃ name : FileName, name.isPattern = true ∧ path = a.input.child name ∧
      σ.tree.get? (a.input.location σ.workingDirectory ++ [name]) = some (.file raw)

/-- the errors that are passed on, each with what brings it about -/
inductive Leaves (reader : Yaml.Reader) (a : Arguments) (σ : Session) : RunError → Prop where
  /-- a target without a name, which names no output -/
  | nameless (hfile : a.isBatch σ = false) (houtput : a.outputPath? = none) (hnames : a.input.names = []) :
    Leaves reader a σ (.conversion (.nameless ⟨a.input⟩))
  /-- an output directory with a null character in its path -/
  | nul {path : Path} (hbatch : a.isBatch σ = true) (houtput : a.outputPath? = some path) (hnul : '\x00' ∈ path.write) :
    Leaves reader a σ (.conversion (.unreported (.file .embeddedNul)))
  /-- an entry of the target with too long a path -/
  | length {name : FileName} (hbatch : a.isBatch σ = true) (hlong : (a.input.child name).TooLong)
      (hthere : (σ.tree.ensureDirectories σ.workingDirectory (batchDirectory a.input a.outputPath?)).2.get?
        (a.input.location σ.workingDirectory ++ [name]) ≠ none) :
    Leaves reader a σ (.conversion (tooLong (a.input.child name)))
  /-- a pattern file with too many messages for a chunk -/
  | overflow {settings : Settings} {path : Path} {raw : List UInt8} (hsettings : (a.settings reader).Returns σ settings)
      (htarget : a.Targets σ path raw) (hoverflows : Overflows raw path.sourceName settings) :
    Leaves reader a σ (.conversion .overflow)
  /-- a configuration file that is no text, has a defect, or has an unknown key that cannot be shown -/
  | config {path : String} {e : ConfigError} (hconfig : a.config = some path) (h : ConfigLeaves reader σ path e) :
    Leaves reader a σ (.config e)
  /-- an option that is out of bounds and cannot be shown -/
  | unwritable {config : List (String × Value)} {options : Options} {e : UnwritableInteger}
      (hconfig : (a.loadConfig reader).Returns σ config) (hmerge : a.mergeOptions config = .ok options)
      (hcheck : options.check = .error (.unwritable e)) :
    Leaves reader a σ (.options (.unwritable e))

end Arguments

/-! ## Settings -/

variable {a : Arguments} {reader : Yaml.Reader} {σ σ' : Session} {settings : Settings}

/-- options are merged unless a name is unknown -/
theorem mergeOptions_error {config : List (String × Value)} {e : OptionsError} (h : a.mergeOptions config = .error e) :
    ∃ names, e = .unknown names := by
  have hoverrides {o : Options} {overrides : List (String × Value)} {e : OptionsError}
      (h : o.withOverrides overrides = .error e) : ∃ names, e = .unknown names := by
    unfold Options.withOverrides at h
    simp only at h
    split_ifs at h
    cases h
    exact ⟨_, rfl⟩
  rcases bind_eq_error.1 h with h | ⟨options, -, h⟩
  · exact hoverrides h
  · exact hoverrides h

theorem loadConfig_error {e : ConfigError} (h : (a.loadConfig reader).runOn σ = (.error e, σ')) :
    e.isReport = true ∨ a.Leaves reader σ (.config e) := by
  unfold Arguments.loadConfig at h
  cases hconfig : a.config with
  | none =>
    rw [hconfig] at h
    cases h
  | some path =>
    rw [hconfig] at h
    simp only at h
    split at h
    · cases h
    · rcases raises_loadOptions_iff.1 ⟨_, h⟩ with hreports | hleaves
      · exact .inl hreports.isReport
      · exact .inr (.config hconfig hleaves)

/-- **How settings fail.** With a report, or as the list of the errors that are passed on says. -/
theorem settings_error {e : RunError} (h : (a.settings reader).runOn σ = (.error e, σ')) :
    e.isReport = true ∨ a.Leaves reader σ e := by
  rcases Action.bind_cases h with ⟨_, hload, he⟩ | ⟨config, mid, hload, h⟩
  · cases he
    obtain ⟨inner, hinner, he⟩ := Action.adapt_cases hload
    obtain ⟨cause, rfl, rfl⟩ := mapError_eq_error.1 he.symm
    exact loadConfig_error hinner
  obtain ⟨inner, hinner, hconfig⟩ := Action.adapt_cases hload
  obtain rfl := mapError_eq_ok.1 hconfig.symm
  rcases Action.bind_cases h with ⟨_, hmerge, he⟩ | ⟨options, mid', hmerge, h⟩
  · cases he
    rw [Action.runOn_ofExcept] at hmerge
    obtain ⟨cause, hcause, rfl⟩ := mapError_eq_error.1 (congrArg Prod.fst hmerge)
    obtain ⟨names, rfl⟩ := mergeOptions_error hcause
    exact .inl rfl
  rw [Action.runOn_ofExcept] at hmerge h
  have hmerge := mapError_eq_ok.1 (congrArg Prod.fst hmerge)
  obtain ⟨cause, hcheck, rfl⟩ := mapError_eq_error.1 (congrArg Prod.fst h)
  cases cause with
  | unwritable e => exact .inr (.unwritable ⟨mid, hinner⟩ hmerge hcheck)
  | _ => exact .inl rfl

/-- settings that a command line has are those of options that are accepted -/
theorem check_of_settings (h : (a.settings reader).Returns σ settings) : ∃ options : Options, options.check = .ok settings := by
  obtain ⟨σ', h⟩ := h
  rcases Action.bind_cases h with ⟨_, -, he⟩ | ⟨config, mid, -, h⟩
  · cases he
  rcases Action.bind_cases h with ⟨_, -, he⟩ | ⟨options, mid', -, h⟩
  · cases he
  rw [Action.runOn_ofExcept] at h
  exact ⟨options, mapError_eq_ok.1 (congrArg Prod.fst h)⟩

/-! ## Targets -/

/-- the path of a directory has no null character -/
theorem nul_input (h : a.isBatch σ = true) : '\x00' ∉ a.input.write := by
  obtain ⟨place, hplace, -⟩ := FileTree.isDirectory_iff.1 h
  have hnul := (FileTree.locate_eq_ok.1 hplace).1
  rw [Path.nul_mem_write] at hnul ⊢
  rintro ⟨name, hname, hmem⟩
  exact hnul ⟨name, (List.mem_filter.1 hname).1, hmem⟩

theorem nul_batchDirectory (h : a.isBatch σ = true) (hnul : '\x00' ∈ (batchDirectory a.input a.outputPath?).write) :
    ∃ path, a.outputPath? = some path ∧ '\x00' ∈ path.write := by
  cases houtput : a.outputPath? with
  | some path =>
    rw [houtput] at hnul
    exact ⟨path, rfl, hnul⟩
  | none =>
    rw [houtput] at hnul
    rcases Path.nul_mem_write_child.1 hnul with hnul | hnul
    · exact (nul_input h hnul).elim
    · exact absurd hnul (by decide)

/-- **How the conversion of a target fails.** With a report, or as the list of the errors that are passed on says. -/
theorem convert_error (hnamed : σ.Named) (hsettings : (a.settings reader).Returns σ settings) {mid : Session}
    (hsame : σ.Same mid) {e : RunError} (h : (a.convert settings).runOn mid = (.error e, σ')) :
    a.Fails reader σ e ∧ (e.isReport = true ∨ a.Leaves reader σ e) := by
  obtain ⟨options, hcheck⟩ := check_of_settings hsettings
  have hbatch : a.isBatch mid = a.isBatch σ := Arguments.isBatch_of_same hsame
  rcases Arguments.convert_split h with ⟨hdirectory, inner, hrun, he⟩ | ⟨hfile, inner, hrun, he⟩
  · obtain ⟨cause, rfl, rfl⟩ := mapError_eq_error.1 (map_eq_error.1 he.symm)
    rw [hbatch] at hdirectory
    refine ⟨.batch hsettings hdirectory hsame (congrArg Prod.fst hrun), ?_⟩
    have hnamed' := hnamed.of_same hsame
    rcases convertDirectory_error hnamed' hcheck hrun with ⟨_, rfl⟩ | ⟨_, _, rfl⟩ | hleaves
    · exact .inl rfl
    · exact .inl rfl
    cases hleaves with
    | nul hnul =>
      rcases hnul with hnul | ⟨-, hnul⟩
      · obtain ⟨path, houtput, hnul⟩ := nul_batchDirectory hdirectory hnul
        exact .inr (.nul hdirectory houtput hnul)
      · exact (nul_input hdirectory hnul).elim
    | length hreaches hlong =>
      have hthere := hreaches.listed hnamed'
      rw [hsame.tree, hsame.workingDirectory] at hthere
      exact .inr (.length hdirectory hlong hthere)
    | @overflow name _ raw _ _ hpattern hraw hoverflows =>
      rw [hsame.tree, hsame.workingDirectory] at hraw
      rw [← sourceName_child a.input name] at hoverflows
      exact .inr (.overflow hsettings (.inr ⟨hdirectory, name, hpattern, rfl, hraw⟩) hoverflows)
  · obtain ⟨cause, rfl, rfl⟩ := mapError_eq_error.1 (map_eq_error.1 he.symm)
    rw [hbatch] at hfile
    refine ⟨.file hsettings hfile hsame (congrArg Prod.fst hrun), ?_⟩
    rcases convertFile_error hcheck hrun with ⟨_, rfl⟩ | hleaves
    · exact .inl rfl
    cases hleaves with
    | nameless houtput hnames => exact .inr (.nameless hfile houtput hnames)
    | overflow _ hread hoverflows =>
      rw [hsame.tree, hsame.workingDirectory] at hread
      exact .inr (.overflow hsettings (.inl ⟨hfile, rfl, hread⟩) hoverflows)

/-- a target whose conversion does not fail is converted -/
theorem convert_done (hnamed : σ.Named) {mid : Session} (hsame : σ.Same mid)
    (h : (a.convert settings).runOn mid = (.ok (), σ')) : a.Done settings σ σ' := by
  have hbatch : a.isBatch mid = a.isBatch σ := Arguments.isBatch_of_same hsame
  rcases Arguments.convert_split h with ⟨hdirectory, inner, hrun, hok⟩ | ⟨hfile, inner, hrun, hok⟩
  · rw [hbatch] at hdirectory
    obtain ⟨names, hnames⟩ := σ.tree.exists_patterns (a.input.location σ.workingDirectory)
    have hnames' : mid.tree.Patterns (a.input.location mid.workingDirectory) names := by
      rw [hsame.tree, hsame.workingDirectory]
      exact hnames
    obtain ⟨done, hyields, -, -, htree, hconcluded⟩ := convertDirectory_cases (hnamed.of_same hsame) hnames' hrun
    rw [hsame.tree, hsame.workingDirectory] at hyields htree
    cases hconcluded with
    | finished hall => exact .batch hdirectory hnames hall hyields htree
    | unprepared => cases hok
    | failed => cases hok
    | length => cases hok
  · rw [hbatch] at hfile
    rcases convertFile_cases hrun with ⟨e, rfl, -⟩ | ⟨bytes, -, hconverted⟩
    · cases hok
    · exact .file hfile (hconverted.of_same hsame)

/-! ## Notices -/

theorem quiet_loadOptions (reader : Yaml.Reader) (path : String) : (loadOptions reader path).Quiet := by
  refine .bind (Action.quiet_pathExists _) fun found => ?_
  cases found with
  | false => exact Action.quiet_throw _
  | true =>
    refine .bind ((Action.quiet_readFile _).adapt _) fun raw => .bind (Action.quiet_ofExcept _ _) fun document => ?_
    refine .bind (Action.quiet_ofExcept _ _) fun options => ?_
    cases options with
    | some options => exact .pure options
    | none => exact .bind (Action.quiet_tell nofun) fun _ => .pure []

theorem quiet_settings (reader : Yaml.Reader) (a : Arguments) : (a.settings reader).Quiet := by
  refine .bind (.adapt ?_ _) fun config => .bind (Action.quiet_ofExcept _ _) fun options => Action.quiet_ofExcept _ _
  unfold Arguments.loadConfig
  cases a.config with
  | none => exact .pure []
  | some path =>
    simp only
    split
    · exact .pure []
    · exact quiet_loadOptions reader path

theorem quiet_convert (a : Arguments) (settings : Settings) : (a.convert settings).Quiet := by
  refine .bind (Action.quiet_isDirectory _) fun found => ?_
  cases found with
  | true => exact .bind ((quiet_convertDirectory _ _ _ _).adapt _) fun _ => .pure ()
  | false => exact .bind ((quiet_convertFile _ _ _ _).adapt _) fun _ => .pure ()

/-- up to the report of an error a run gives no notice of one -/
theorem quiet_work (reader : Yaml.Reader) (a : Arguments) : (a.work reader).Quiet :=
  .bind (quiet_settings reader a) fun settings => .bind (quiet_convert a settings) fun _ => .pure 0

/-! ## Endings -/

/-- the work of a command line is done, or it fails with a report or an error of the list -/
theorem work_outcome (hnamed : σ.Named) {result : Except RunError Nat} (h : (a.work reader).runOn σ = (result, σ')) :
    (∃ settings, result = .ok 0 ∧ (a.settings reader).Returns σ settings ∧ a.Done settings σ σ') ∨
      ∃ e, result = .error e ∧ a.Fails reader σ e ∧ (e.isReport = true ∨ a.Leaves reader σ e) := by
  rcases Arguments.work_split h with ⟨e, hsettings, rfl⟩ | ⟨settings, mid, inner, hsettings, hconvert, rfl⟩
  · exact .inr ⟨e, rfl, .settings (congrArg Prod.fst hsettings), settings_error hsettings⟩
  have hsame := (Arguments.keeps_settings reader a).same hsettings
  cases inner with
  | ok done => exact .inl ⟨settings, rfl, ⟨mid, hsettings⟩, convert_done hnamed hsame hconvert⟩
  | error e => exact .inr ⟨e, rfl, convert_error hnamed ⟨mid, hsettings⟩ hsame hconvert⟩

/-- **How a command line ends.** It stops before it starts, with status 0 for help and 2 for a usage error, and changes
nothing. Or it ends with status 0: it has settings, and has converted its target under them, without a notice of an
error. Or it ends with status 1 after it has failed with a report, which its last notice shows and no other. Or it
fails with an error that is passed on, which is one of the list. -/
theorem perform_status {reader : Yaml.Reader} {words : List String} {σ σ' : Session} {ending : Ending} (hnamed : σ.Named)
    (h : perform reader words σ = (ending, σ')) :
    (readArguments words = .error .help ∧ ending = .stopped .help ∧ Stop.status .help = 0 ∧ σ' = σ) ∨
    (∃ e, readArguments words = .error (.usage e) ∧ ending = .stopped (.usage e) ∧ Stop.status (.usage e) = 2 ∧
      σ' = σ) ∨
    ∃ a, readArguments words = .ok a ∧
      ((∃ settings, ending = .exited 0 ∧ (a.settings reader).Returns σ settings ∧ a.Done settings σ σ' ∧ σ.Adds σ') ∨
        (∃ e notices, ending = .exited 1 ∧ a.Fails reader σ e ∧ e.isReport = true ∧
          σ'.notices = σ.notices ++ notices ++ [.failed e.message] ∧ ∀ notice ∈ notices, notice.level ≠ .error) ∨
        ∃ e, ending = .passedOn e ∧ a.Fails reader σ e ∧ e.isReport = false ∧ a.Leaves reader σ e ∧ σ.Adds σ') := by
  rcases perform_split h with ⟨stop, hwords, rfl, rfl⟩ | ⟨a, result, ha, hrun, rfl⟩
  · cases stop with
    | help => exact .inl ⟨hwords, rfl, rfl, rfl⟩
    | usage e => exact .inr (.inl ⟨e, hwords, rfl, rfl, rfl⟩)
  refine .inr (.inr ⟨a, ha, ?_⟩)
  rcases Arguments.run_split hrun with ⟨status, hwork, rfl⟩ | ⟨e, mid, hwork, hend⟩
  · have hadds := (quiet_work reader a).adds hwork
    rcases work_outcome hnamed hwork with ⟨settings, hstatus, hsettings, hdone⟩ | ⟨e, he, -⟩
    · obtain rfl := Except.ok.inj hstatus
      exact .inl ⟨settings, rfl, hsettings, hdone, hadds⟩
    · cases he
  · have hadds := (quiet_work reader a).adds hwork
    rcases work_outcome hnamed hwork with ⟨settings, hstatus, -⟩ | ⟨e', he, hfails, hlist⟩
    · cases hstatus
    obtain rfl := Except.error.inj he
    rcases hend with ⟨hreport, rfl, rfl⟩ | ⟨hreport, rfl, rfl⟩
    · obtain ⟨notices, hnotices, hquiet⟩ := hadds
      exact .inr (.inl ⟨e, notices, rfl, hfails, hreport, by rw [hnotices], hquiet⟩)
    · rcases hlist with htrue | hleaves
      · rw [hreport] at htrue
        cases htrue
      · exact .inr (.inr ⟨e, rfl, hfails, hreport, hleaves, hadds⟩)

/-! ## Fixed command lines -/

theorem named_desk : desk.Named := ⟨by decide, by decide⟩

/-- the opening on the desk is converted; a tempo that is refused is reported, and that once -/
theorem perform_status_opening :
    (∃ σ' settings bytes, perform Yaml.reader ["opening.pat"] desk = (.exited 0, σ') ∧
      desk.Renders (Path.read "opening.pat".toList) settings bytes) ∧
    ∃ (σ' : Session) (e : RunError) (notices : List Notice),
      perform Yaml.reader ["opening.pat", "--bpm", "500"] desk = (.exited 1, σ') ∧ e.isReport = true ∧
      σ'.notices = desk.notices ++ notices ++ [.failed e.message] ∧ ∀ notice ∈ notices, notice.level ≠ .error := by
  refine ⟨?_, ?_⟩
  · obtain ⟨σ', hrun⟩ := perform_desk
    have hwords : readArguments ["opening.pat"] = .ok { target := "opening.pat" } := rfl
    rcases perform_status named_desk hrun with ⟨-, hstop, -⟩ | ⟨_, -, hstop, -⟩ | ⟨a, ha, ⟨settings, -, -, hdone, -⟩ |
      ⟨_, _, hone, -⟩ | ⟨_, hpassed, -⟩⟩
    · cases hstop
    · cases hstop
    · obtain rfl := Except.ok.inj (hwords.symm.trans ha)
      cases hdone with
      | file _ hconverted => exact ⟨σ', settings, _, hrun, hconverted.1⟩
      | batch hbatch => exact absurd hbatch (by decide)
    · cases hone
    · cases hpassed
  · have hending : (perform Yaml.reader ["opening.pat", "--bpm", "500"] desk).1 = .exited 1 := by decide +kernel
    have hrun : perform Yaml.reader ["opening.pat", "--bpm", "500"] desk =
        (.exited 1, (perform Yaml.reader ["opening.pat", "--bpm", "500"] desk).2) := Prod.ext hending rfl
    rcases perform_status named_desk hrun with ⟨-, hstop, -⟩ | ⟨_, -, hstop, -⟩ | ⟨a, -, ⟨_, hzero, -⟩ |
      ⟨e, notices, -, -, hreport, hnotices, hquiet⟩ | ⟨_, hpassed, -⟩⟩
    · cases hstop
    · cases hstop
    · cases hzero
    · exact ⟨_, e, notices, hrun, hreport, hnotices, hquiet⟩
    · cases hpassed

/-- an error can be passed on: a target without characters has no name, and nothing reports that -/
theorem perform_empty :
    (perform Yaml.reader [""] desk).1 = .passedOn (.conversion (.nameless ⟨⟨.workingDirectory, []⟩⟩)) := by
  decide

end Drumline.CommandLine

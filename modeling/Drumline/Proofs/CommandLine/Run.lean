/-
The stages of a command line, and what they do to the disk when its target is no directory. A run reads its options,
and converts its target as a directory or as a file (`work_split`, `convert_split`); an error is reported or passed on
(`run_split`). Options are read without a change to the disk (`keeps_settings`). So the disk is left alone unless the
run ends with status 0, and then the one file has been converted (`perform_cases`).

Main result: `conversion_atomic`, for a conversion and for a command line.
-/
import Drumline.CommandLine.Run
import Drumline.Proofs.Arrangement.Balance
import Drumline.Proofs.Options.Config
import Drumline.Proofs.Session.Conversion
import Drumline.Yaml.Document

namespace Drumline.CommandLine

/-! ## Model -/

/-- how a command line ends: before it starts, with a status, or with an error that is passed on -/
inductive Ending where
  | stopped (stop : Stop)
  | exited (status : Nat)
  | passedOn (error : RunError)
  deriving DecidableEq

/-- does what the words of a command line say -/
def perform (reader : Yaml.Reader) (words : List String) (σ : Session) : Ending × Session :=
  match readArguments words with
  | .error stop => (.stopped stop, σ)
  | .ok a =>
    match (a.run reader).runOn σ with
    | (.ok status, σ') => (.exited status, σ')
    | (.error e, σ') => (.passedOn e, σ')

namespace Arguments

def input (a : Arguments) : Path := Path.read a.target.toList

/-- the path of the output, if one is given -/
def outputPath? (a : Arguments) : Option Path := a.output.map fun text => Path.read text.toList

def isBatch (a : Arguments) (σ : Session) : Bool :=
  σ.tree.isDirectory σ.workingDirectory (Path.ofText a.target.toList)

/-- what a run does unless there is an error -/
def work (a : Arguments) (reader : Yaml.Reader) : Action RunError Nat := do
  a.convert (← a.settings reader)
  return 0

end Arguments

/-! ## Settings -/

namespace Arguments

variable {a : Arguments} {reader : Yaml.Reader} {σ σ' : Session}

theorem keeps_loadConfig (reader : Yaml.Reader) (a : Arguments) : (a.loadConfig reader).Keeps := by
  unfold loadConfig
  cases a.config with
  | none => exact .pure []
  | some path =>
    simp only
    split
    · exact .pure []
    · exact keeps_loadOptions reader path

theorem keeps_settings (reader : Yaml.Reader) (a : Arguments) : (a.settings reader).Keeps :=
  .bind ((keeps_loadConfig reader a).adapt _) fun _ => .bind (Action.keeps_ofExcept _ _) fun _ => Action.keeps_ofExcept _ _

/-! ## Runs -/

theorem isBatch_of_same (h : σ.Same σ') : a.isBatch σ' = a.isBatch σ := by
  rw [isBatch, isBatch, h.tree, h.workingDirectory]

/-- the end of a run with an error: status 1 and a notice, unless the error is passed on -/
def conclude (error : RunError) : Action RunError Nat := do
  unless error.isReport do throw error
  Action.tell (.failed error.message)
  return 1

theorem run_eq (reader : Yaml.Reader) (a : Arguments) : a.run reader = tryCatch (a.work reader) conclude := rfl

/-- a target is converted as a directory if it is one, and otherwise as a file -/
theorem convert_split {settings : Settings} {result : Except RunError Unit}
    (h : (a.convert settings).runOn σ = (result, σ')) :
    (a.isBatch σ = true ∧ ∃ inner, (convertDirectory a.input a.outputPath? a.debug settings).runOn σ = (inner, σ') ∧
      result = (inner.mapError .conversion).map fun _ => ()) ∨
    a.isBatch σ = false ∧ ∃ inner, (convertFile a.input a.outputPath? a.debug settings).runOn σ = (inner, σ') ∧
      result = (inner.mapError .conversion).map fun _ => () := by
  unfold convert at h
  rcases Action.bind_cases h with ⟨e, hfound, -⟩ | ⟨found, mid, hfound, h⟩
  · cases hfound
  obtain ⟨rfl, rfl⟩ : a.isBatch σ = found ∧ σ = mid := by
    cases hfound
    exact ⟨rfl, rfl⟩
  cases hbatch : a.isBatch σ with
  | true =>
    rw [hbatch, if_pos rfl] at h
    obtain ⟨outer, houter, rfl⟩ := Action.map_cases h
    obtain ⟨inner, hinner, rfl⟩ := Action.adapt_cases houter
    exact .inl ⟨rfl, inner, hinner, rfl⟩
  | false =>
    rw [hbatch, if_neg Bool.false_ne_true] at h
    obtain ⟨outer, houter, rfl⟩ := Action.map_cases h
    obtain ⟨inner, hinner, rfl⟩ := Action.adapt_cases houter
    exact .inr ⟨rfl, inner, hinner, rfl⟩

/-- up to the report of an error a run reads its settings, and then converts its target -/
theorem work_split {result : Except RunError Nat} (h : (a.work reader).runOn σ = (result, σ')) :
    (∃ e, (a.settings reader).runOn σ = (.error e, σ') ∧ result = .error e) ∨
      ∃ settings mid inner, (a.settings reader).runOn σ = (.ok settings, mid) ∧ (a.convert settings).runOn mid = (inner, σ') ∧
        result = inner.map fun _ => 0 := by
  rcases Action.bind_cases h with ⟨e, hsettings, rfl⟩ | ⟨settings, mid, hsettings, h⟩
  · exact .inl ⟨e, hsettings, rfl⟩
  · obtain ⟨inner, hinner, rfl⟩ := Action.map_cases h
    exact .inr ⟨settings, mid, inner, hsettings, hinner, rfl⟩

/-- a run ends as its work does, unless that ends with an error that is reported -/
theorem run_split {result : Except RunError Nat} (h : (a.run reader).runOn σ = (result, σ')) :
    (∃ status, (a.work reader).runOn σ = (.ok status, σ') ∧ result = .ok status) ∨
      ∃ e mid, (a.work reader).runOn σ = (.error e, mid) ∧
        (e.isReport = true ∧ result = .ok 1 ∧ σ' = { mid with notices := mid.notices ++ [.failed e.message] } ∨
          e.isReport = false ∧ result = .error e ∧ σ' = mid) := by
  rw [run_eq, Action.runOn_tryCatch] at h
  split at h
  · rename_i status mid hwork
    cases h
    exact .inl ⟨status, hwork, rfl⟩
  · rename_i e mid hwork
    unfold conclude at h
    refine .inr ⟨e, mid, hwork, ?_⟩
    cases hreport : e.isReport with
    | true =>
      rw [hreport] at h
      cases h
      exact .inl ⟨rfl, rfl, rfl⟩
    | false =>
      rw [hreport] at h
      cases h
      exact .inr ⟨rfl, rfl, rfl⟩

/-- a target that is no directory is converted as a file -/
theorem convert_cases (hfile : a.isBatch σ = false) {settings : Settings} {result : Except RunError Unit}
    (h : (a.convert settings).runOn σ = (result, σ')) :
    (∃ e, result = .error e ∧ σ.Same σ') ∨
      ∃ bytes, result = .ok () ∧ σ.Converted σ' a.input a.outputPath? a.debug settings bytes := by
  rcases convert_split h with ⟨hbatch, -⟩ | ⟨-, inner, hrun, rfl⟩
  · rw [hfile] at hbatch
    cases hbatch
  rcases convertFile_cases hrun with ⟨e, rfl, hsame⟩ | ⟨bytes, rfl, hconverted⟩
  · exact .inl ⟨_, rfl, hsame⟩
  · exact .inr ⟨bytes, rfl, hconverted⟩

/-- up to the report of an error a run fails and leaves the disk alone, or it converts its target -/
theorem work_cases (hfile : a.isBatch σ = false) {result : Except RunError Nat} (h : (a.work reader).runOn σ = (result, σ')) :
    (∃ e, result = .error e ∧ σ.Same σ') ∨
      ∃ settings bytes, result = .ok 0 ∧ (a.settings reader).Returns σ settings ∧
        σ.Converted σ' a.input a.outputPath? a.debug settings bytes := by
  rcases work_split h with ⟨e, hsettings, rfl⟩ | ⟨settings, mid, inner, hsettings, hconvert, rfl⟩
  · exact .inl ⟨e, rfl, (keeps_settings reader a).same hsettings⟩
  have hsame := (keeps_settings reader a).same hsettings
  rcases convert_cases ((isBatch_of_same hsame).trans hfile) hconvert with ⟨e, rfl, hkept⟩ | ⟨bytes, rfl, hconverted⟩
  · exact .inl ⟨e, rfl, hsame.trans hkept⟩
  · exact .inr ⟨settings, bytes, rfl, ⟨mid, hsettings⟩, hconverted.of_same hsame⟩

/-- **What a run can do.** It ends with something else than status 0 and leaves the disk alone, or with status 0 after
the conversion of its target. -/
theorem run_cases (hfile : a.isBatch σ = false) {result : Except RunError Nat} (h : (a.run reader).runOn σ = (result, σ')) :
    (result ≠ .ok 0 ∧ σ.Same σ') ∨
      ∃ settings bytes, result = .ok 0 ∧ (a.settings reader).Returns σ settings ∧
        σ.Converted σ' a.input a.outputPath? a.debug settings bytes := by
  rcases run_split h with ⟨status, hwork, rfl⟩ | ⟨e, mid, hwork, hend⟩
  · rcases work_cases hfile hwork with ⟨e, he, -⟩ | hdone
    · cases he
    · exact .inr hdone
  · rcases work_cases hfile hwork with ⟨_, -, hsame⟩ | ⟨_, _, he, -⟩
    · rcases hend with ⟨-, rfl, rfl⟩ | ⟨-, rfl, rfl⟩
      · exact .inl ⟨by decide, hsame.tree, hsame.workingDirectory⟩
      · exact .inl ⟨nofun, hsame⟩
    · cases he

theorem isDirectory_target (hfile : a.isBatch σ = false) :
    (Action.isDirectory (Path.ofText a.target.toList) : Action RunError Bool).runOn σ = (.ok false, σ) :=
  congrArg (fun found => (Except.ok found, σ)) hfile

/-- a target that is no directory is converted if it can be rendered, and the output written -/
theorem convert_of_renders (hfile : a.isBatch σ = false) (hdebug : a.debug = false) {settings : Settings}
    {bytes : List UInt8} (hrenders : σ.Renders a.input settings bytes) {target : Path}
    (htarget : IsTarget a.input a.outputPath? target) {tree : FileTree}
    (hwrite : σ.tree.write σ.workingDirectory target bytes = .ok tree) : (a.convert settings).Returns σ () := by
  have hdirectory := isDirectory_target hfile
  refine Action.Returns.bind ⟨σ, hdirectory⟩ fun after hafter => ?_
  obtain rfl : σ = after := congrArg Prod.snd (hdirectory.symm.trans hafter)
  have hconverted := convertFile_of_renders hrenders htarget hwrite
  rw [← hdebug] at hconverted
  exact (hconverted.adapt _).bind fun converted _ => Action.returns_pure () converted

/-- **When a run succeeds.** It does if its target is a file that can be rendered under its options, and the output can
be written. -/
theorem run_of_renders (hfile : a.isBatch σ = false) (hdebug : a.debug = false) {settings : Settings}
    (hsettings : (a.settings reader).Returns σ settings) {bytes : List UInt8} (hrenders : σ.Renders a.input settings bytes)
    {target : Path} (htarget : IsTarget a.input a.outputPath? target) {tree : FileTree}
    (hwrite : σ.tree.write σ.workingDirectory target bytes = .ok tree) : (a.run reader).Returns σ 0 := by
  have hwork : (a.work reader).Returns σ 0 := by
    refine hsettings.bind fun mid hmid => ?_
    have hsame := (keeps_settings reader a).same hmid
    rw [← hsame.tree, ← hsame.workingDirectory] at hwrite
    have hfile' := (isBatch_of_same hsame).trans hfile
    have hconvert := convert_of_renders hfile' hdebug (hrenders.of_same hsame.symm) htarget hwrite
    exact hconvert.bind fun after _ => Action.returns_pure 0 after
  obtain ⟨σ', hrun⟩ := hwork
  exact ⟨σ', by rw [run_eq, Action.runOn_tryCatch, hrun]⟩

end Arguments

/-- how a run ends that has started -/
def Ending.ofResult : Except RunError Nat → Ending
  | .ok status => .exited status
  | .error e => .passedOn e

/-- a command line ends before it starts, or as its run does -/
theorem perform_split {reader : Yaml.Reader} {words : List String} {σ σ' : Session} {ending : Ending} (h : perform reader words σ = (ending, σ')) :
    (∃ stop, readArguments words = .error stop ∧ ending = .stopped stop ∧ σ' = σ) ∨
      ∃ a result, readArguments words = .ok a ∧ (a.run reader).runOn σ = (result, σ') ∧ ending = .ofResult result := by
  unfold perform at h
  split at h
  · rename_i stop hstop
    cases h
    exact .inl ⟨stop, hstop, rfl, rfl⟩
  · rename_i a ha
    split at h
    · rename_i status after hrun
      cases h
      exact .inr ⟨a, _, ha, hrun, rfl⟩
    · rename_i e after hrun
      cases h
      exact .inr ⟨a, _, ha, hrun, rfl⟩

/-- **What a command line can do.** It leaves the disk alone, or ends with status 0 after the conversion of its
target. -/
theorem perform_cases {reader : Yaml.Reader} {words : List String} {σ σ' : Session} {ending : Ending}
    (hfile : ∀ a, readArguments words = .ok a → a.isBatch σ = false) (h : perform reader words σ = (ending, σ')) :
    (ending ≠ .exited 0 ∧ σ.Same σ') ∨
      ∃ a settings bytes, ending = .exited 0 ∧ readArguments words = .ok a ∧ (a.settings reader).Returns σ settings ∧
        σ.Converted σ' a.input a.outputPath? a.debug settings bytes := by
  rcases perform_split h with ⟨stop, -, rfl, rfl⟩ | ⟨a, result, ha, hrun, rfl⟩
  · exact .inl ⟨nofun, .refl _⟩
  rcases Arguments.run_cases (hfile a ha) hrun with ⟨hresult, hsame⟩ | ⟨settings, bytes, rfl, hsettings, hdone⟩
  · refine .inl ⟨fun hzero => hresult ?_, hsame⟩
    cases result with
    | ok status => exact congrArg Except.ok (Ending.exited.inj hzero)
    | error e => cases hzero
  · exact .inr ⟨a, settings, bytes, rfl, ha, hsettings, hdone⟩

/-- **One conversion is atomic.** A conversion of a file that fails, or only shows its result, changes nothing in the
tree of files. One that succeeds gives the bytes of the pattern that the input held before, and otherwise writes them
at its target, and changes nothing else. So does a command line whose target is no directory, under the settings that
it resolves to; unless it ends with status 0 it changes nothing. -/
theorem conversion_atomic :
    (∀ (input : Path) (output : Option Path) (debug : Bool) (settings : Settings) (σ σ' : Session)
        (result : Except ConversionError (List UInt8)),
      (convertFile input output debug settings).runOn σ = (result, σ') →
        ((∃ e, result = .error e) ∨ debug = true → σ'.tree = σ.tree) ∧
        ∀ bytes, result = .ok bytes → σ.Renders input settings bytes ∧
          (debug = false → ∃ target, IsTarget input output target ∧
            σ.tree.Writes σ'.tree σ.workingDirectory target bytes)) ∧
    ∀ (reader : Yaml.Reader) (words : List String) (σ σ' : Session) (ending : Ending),
      (∀ a, readArguments words = .ok a → a.isBatch σ = false) → perform reader words σ = (ending, σ') →
        (ending ≠ .exited 0 → σ'.tree = σ.tree) ∧
        (ending = .exited 0 → ∃ a settings bytes, readArguments words = .ok a ∧ (a.settings reader).Returns σ settings ∧
          σ.Renders a.input settings bytes ∧ (a.debug = true → σ'.tree = σ.tree) ∧
          (a.debug = false → ∃ target, IsTarget a.input a.outputPath? target ∧
            σ.tree.Writes σ'.tree σ.workingDirectory target bytes)) := by
  refine ⟨fun input output debug settings σ σ' result h => ?_, fun reader words σ σ' ending hfile h => ?_⟩
  · rcases convertFile_cases h with ⟨e, rfl, hsame⟩ | ⟨bytes, rfl, hconverted⟩
    · refine ⟨fun _ => hsame.tree, fun bytes hbytes => ?_⟩
      cases hbytes
    · obtain ⟨hshown, hwritten⟩ := hconverted.effect
      refine ⟨fun hquiet => ?_, fun bytes' hbytes => ?_⟩
      · rcases hquiet with ⟨e, he⟩ | hdebug
        · cases he
        · exact hshown hdebug
      · obtain rfl := Except.ok.inj hbytes
        exact ⟨hconverted.1, hwritten⟩
  · rcases perform_cases hfile h with ⟨hending, hsame⟩ | ⟨a, settings, bytes, rfl, ha, hsettings, hconverted⟩
    · exact ⟨fun _ => hsame.tree, fun hzero => (hending hzero).elim⟩
    · obtain ⟨hshown, hwritten⟩ := hconverted.effect
      exact ⟨fun hne => (hne rfl).elim, fun _ =>
        ⟨a, settings, bytes, ha, hsettings, hconverted.1, hshown, hwritten⟩⟩

/-! ## One file -/

/-- a disk with the opening in a file, and nothing else -/
def desk : Session where
  tree := FileTree.empty.put ["opening.pat".toList] (.file (Text.encode "SD f\nSD x\n".toList))
  workingDirectory := []

/-- its file can be rendered with the default options -/
theorem renders_desk : ∃ bytes, opening.toMidi "opening.pat" Settings.standard = .ok bytes ∧
    desk.Renders (Path.read "opening.pat".toList) Settings.standard bytes := by
  obtain ⟨bytes, hmidi⟩ := exists_toMidi_opening
  have hread : desk.tree.read desk.workingDirectory (Path.read "opening.pat".toList) =
      .ok (Text.encode "SD f\nSD x\n".toList) := by decide
  have hdecode : Text.decode (Text.encode "SD f\nSD x\n".toList) = .ok "SD f\nSD x\n".toList := by decide
  have hparse : (Pattern.parse "SD f\nSD x\n".toList).result = .ok opening := by decide
  exact ⟨bytes, hmidi, _, _, opening, hread, hdecode, hparse, hmidi⟩

theorem isBatch_desk {words : List String}
    (hwords : (readArguments words).map Arguments.target = .ok "opening.pat") :
    ∀ a, readArguments words = .ok a → a.isBatch desk = false := by
  intro a ha
  rw [ha] at hwords
  have htarget : a.target = "opening.pat" := Except.ok.inj hwords
  rw [Arguments.isBatch, htarget]
  decide

theorem locate_desk :
    desk.tree.locate desk.workingDirectory ⟨.workingDirectory, ["opening.mid".toList]⟩ =
      .ok ["opening.mid".toList] := by
  decide

theorem outputPath_opening :
    (Path.read "opening.pat".toList).outputPath none = .ok ⟨.workingDirectory, ["opening.mid".toList]⟩ := by
  decide

/-- a command line that only names it ends with status 0 -/
theorem perform_desk : ∃ σ', perform Yaml.reader ["opening.pat"] desk = (.exited 0, σ') := by
  obtain ⟨bytes, -, hrenders⟩ := renders_desk
  have hwords : readArguments ["opening.pat"] = .ok { target := "opening.pat" } := rfl
  have hsettings : (Arguments.settings { target := "opening.pat" } Yaml.reader).Returns desk Settings.standard := by
    have hcheck : (Arguments.mergeOptions { target := "opening.pat" } [] >>= Options.check) =
        .ok Settings.standard := by
      decide
    obtain ⟨options, hmerge, hcheck⟩ := bind_eq_ok.1 hcheck
    refine ((Action.returns_pure [] desk).adapt _).bind fun mid _ => ?_
    exact (Action.returns_ofExcept hmerge mid).bind fun mid _ => Action.returns_ofExcept hcheck mid
  have hget : desk.tree.get? ["opening.mid".toList] ≠ some .directory := by decide
  have hwrite : desk.tree.write desk.workingDirectory ⟨.workingDirectory, ["opening.mid".toList]⟩ bytes =
      .ok (desk.tree.put ["opening.mid".toList] (.file bytes)) := FileTree.write_of_locate locate_desk hget
  obtain ⟨σ', hrun⟩ := Arguments.run_of_renders (isBatch_desk rfl _ hwords) rfl hsettings hrenders
    (.inr ⟨rfl, outputPath_opening⟩) hwrite
  refine ⟨σ', ?_⟩
  rw [perform, hwords]
  simp only [hrun]

/-- it is converted beside its file; a file that is not there and a tempo that is refused change nothing -/
theorem conversion_atomic_opening :
    (∃ e σ', (convertFile (Path.read "closing.pat".toList) none false Settings.standard).runOn desk = (.error e, σ') ∧
      σ'.tree = desk.tree) ∧
    (∃ settings bytes σ', perform Yaml.reader ["opening.pat"] desk = (.exited 0, σ') ∧
      desk.Renders (Path.read "opening.pat".toList) settings bytes ∧
      σ'.tree.get? ["opening.mid".toList] = some (.file bytes) ∧
      ∀ other, other ≠ ["opening.mid".toList] → σ'.tree.get? other = desk.tree.get? other) ∧
    ∃ σ', perform Yaml.reader ["opening.pat", "--bpm", "500"] desk = (.exited 1, σ') ∧ σ'.tree = desk.tree := by
  obtain ⟨hconvert, hperform⟩ := conversion_atomic
  refine ⟨?_, ?_, ?_⟩
  · have hmissing : ((convertFile (Path.read "closing.pat".toList) none false Settings.standard).runOn desk).1 =
        .error (.file (Path.read "closing.pat".toList) (.file (.problem .missing "closing.pat"))) := by decide +kernel
    have hrun : (convertFile (Path.read "closing.pat".toList) none false Settings.standard).runOn desk =
        (.error _, ((convertFile (Path.read "closing.pat".toList) none false Settings.standard).runOn desk).2) :=
      Prod.ext hmissing rfl
    obtain ⟨hkept, -⟩ := hconvert _ _ _ _ _ _ _ hrun
    exact ⟨_, _, hrun, hkept (.inl ⟨_, rfl⟩)⟩
  · obtain ⟨σ', hrun⟩ := perform_desk
    obtain ⟨-, hdone⟩ := hperform _ _ _ _ _ (isBatch_desk rfl) hrun
    obtain ⟨a, settings, bytes, ha, -, hrenders, -, hwritten⟩ := hdone rfl
    obtain rfl : a = { target := "opening.pat" } := (Except.ok.inj ha).symm
    obtain ⟨target, htarget, place, hplace, -, hfile, hothers⟩ := hwritten rfl
    have hbeside : target = ⟨.workingDirectory, ["opening.mid".toList]⟩ := by
      rcases htarget with htarget | ⟨-, htarget⟩
      · cases htarget
      · exact Except.ok.inj (htarget.symm.trans outputPath_opening)
    rw [hbeside] at hplace
    obtain rfl := Except.ok.inj (hplace.symm.trans locate_desk)
    exact ⟨settings, bytes, σ', hrun, hrenders, hfile, hothers⟩
  · have hending : (perform Yaml.reader ["opening.pat", "--bpm", "500"] desk).1 = .exited 1 := by decide +kernel
    have hwords : (readArguments ["opening.pat", "--bpm", "500"]).map Arguments.target = .ok "opening.pat" := by
      decide +kernel
    have hrun : perform Yaml.reader ["opening.pat", "--bpm", "500"] desk =
        (.exited 1, (perform Yaml.reader ["opening.pat", "--bpm", "500"] desk).2) := Prod.ext hending rfl
    obtain ⟨hkept, -⟩ := hperform _ _ _ _ _ (isBatch_desk hwords) hrun
    refine ⟨_, hrun, hkept ?_⟩
    decide

end Drumline.CommandLine

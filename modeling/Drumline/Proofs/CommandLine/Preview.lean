/-
Conversions whose result is only shown. They write no file: one file leaves the disk alone (`keeps_convertFile`), and so
do the pattern files of a directory one after another (`keeps_convertPatterns`). A batch makes the directory of the MIDI
files all the same, before it looks at its first pattern file (`tree_convertDirectory`).

Main result: `preview_writes_no_file`, for conversions and for command lines. That a preview leaves the disk alone
altogether is refuted by the batch over a shelf without that directory (`preview_shelf`).
-/
import Drumline.Proofs.CommandLine.Run
import Drumline.Proofs.Session.Directory

namespace Drumline

/-! ## Conversions -/

namespace Preview

/-- a file that is only shown -/
theorem keeps_convertFile (input : Path) (output : Option Path) (settings : Settings) :
    (convertFile input output true settings).Keeps := by
  intro σ
  rcases hrun : (convertFile input output true settings).runOn σ with ⟨result, σ'⟩
  rcases convertFile_cases hrun with ⟨e, -, hsame⟩ | ⟨bytes, -, -, ⟨-, hsame⟩ | ⟨hdebug, -⟩⟩
  · exact hsame
  · exact hsame
  · cases hdebug

/-- some files that are only shown, by induction on their paths -/
theorem keeps_convertPatterns (directory : Path) (settings : Settings) (paths : List Path) :
    (convertPatterns directory true settings paths).Keeps := by
  induction paths with
  | nil => exact .pure []
  | cons path paths ih =>
    refine .bind ((Action.keeps_isFile path).adapt _) fun found => ?_
    split
    · refine .bind (Action.keeps_ofExcept _ _) fun target => ?_
      exact .bind (keeps_convertFile path _ settings) fun _ => .bind ih fun _ => .pure _
    · exact ih

/-- what a batch leaves that is only shown: its directories are made -/
theorem tree_convertDirectory (input : Path) (output : Option Path) (settings : Settings) (σ : Session) :
    ((convertDirectory input output true settings).runOn σ).2.tree =
      (σ.tree.ensureDirectories σ.workingDirectory (batchDirectory input output)).2 := by
  rcases hrun : (convertDirectory input output true settings).runOn σ with ⟨result, σ'⟩
  rcases convertDirectory_split hrun with ⟨cause, hprepare, -⟩ | ⟨listing, ready, mid, hprepare, hpatterns, hsame⟩
  · exact (prepare_cases hprepare).2.1
  · have hshown := (keeps_convertPatterns _ _ _).same hpatterns
    exact hsame.tree.trans (hshown.tree.trans (prepare_cases hprepare).2.1)

end Preview

namespace CommandLine

/-! ## Command lines -/

namespace Arguments

variable {a : Arguments} {reader : Yaml.Reader} {σ σ' : Session}

/-- what a run does to the tree it has done before the report of an error -/
theorem tree_run {result : Except RunError Nat} (h : (a.run reader).runOn σ = (result, σ')) :
    ∃ inner mid, (a.work reader).runOn σ = (inner, mid) ∧ σ'.tree = mid.tree := by
  rcases run_split h with ⟨status, hwork, -⟩ | ⟨e, mid, hwork, ⟨-, -, rfl⟩ | ⟨-, -, rfl⟩⟩
  · exact ⟨_, _, hwork, rfl⟩
  · exact ⟨_, _, hwork, rfl⟩
  · exact ⟨_, _, hwork, rfl⟩

/-- a run that only shows leaves the tree alone, or makes the directories of a batch -/
theorem tree_work (hdebug : a.debug = true) {result : Except RunError Nat} (h : (a.work reader).runOn σ = (result, σ')) :
    σ'.tree = σ.tree ∨ ∃ settings, a.isBatch σ = true ∧ (a.settings reader).Returns σ settings ∧
      σ'.tree = (σ.tree.ensureDirectories σ.workingDirectory (batchDirectory a.input a.outputPath?)).2 := by
  rcases work_split h with ⟨e, hsettings, -⟩ | ⟨settings, mid, inner, hsettings, hconvert, -⟩
  · exact .inl ((keeps_settings reader a).same hsettings).tree
  have hsame := (keeps_settings reader a).same hsettings
  rcases convert_split hconvert with ⟨hbatch, inner, hrun, -⟩ | ⟨-, inner, hrun, -⟩
  · rw [hdebug] at hrun
    have htree := Preview.tree_convertDirectory a.input a.outputPath? settings mid
    rw [hrun, hsame.tree, hsame.workingDirectory] at htree
    exact .inr ⟨settings, (isBatch_of_same hsame).symm.trans hbatch, ⟨mid, hsettings⟩, htree⟩
  · rw [hdebug] at hrun
    exact .inl (((Preview.keeps_convertFile _ _ _).same hrun).tree.trans hsame.tree)

end Arguments

/-- **A preview writes no file.** A conversion of a file whose result is only shown leaves the tree as it is, whatever
it ends with. A batch makes the directory of the MIDI files and those on the way to it, where nothing is yet, and
nothing else; where these can be made it leaves the tree as it is only if the directory is there. A command line leaves
it as it is, unless it gets to such a batch. -/
theorem preview_writes_no_file (input : Path) (output : Option Path) (settings : Settings) (reader : Yaml.Reader)
    (words : List String) (σ : Session) :
    ((convertFile input output true settings).runOn σ).2.tree = σ.tree ∧
    (let directory := batchDirectory input output
      let made := σ.tree.ensureDirectories σ.workingDirectory directory
      let after := ((convertDirectory input output true settings).runOn σ).2.tree
      after = made.2 ∧ σ.tree.Widens after σ.workingDirectory directory ∧
        (made.1 = .ok () → (after = σ.tree ↔ σ.tree.isDirectory σ.workingDirectory directory = true))) ∧
    ((∀ a, readArguments words = .ok a → a.debug = true) →
      (perform reader words σ).2.tree = σ.tree ∨ ∃ a settings, readArguments words = .ok a ∧ a.isBatch σ = true ∧
        (a.settings reader).Returns σ settings ∧
        (perform reader words σ).2.tree =
          (σ.tree.ensureDirectories σ.workingDirectory (batchDirectory a.input a.outputPath?)).2) := by
  refine ⟨(Preview.keeps_convertFile input output settings σ).tree, ?_, fun hdebug => ?_⟩
  · have htree := Preview.tree_convertDirectory input output settings σ
    refine ⟨htree, htree ▸ FileTree.widens_ensureDirectories _ _ _, fun hmade => ?_⟩
    rw [htree]
    exact FileTree.ensureDirectories_eq_self_iff hmade
  · rcases h : perform reader words σ with ⟨ending, σ'⟩
    rcases perform_split h with ⟨_, -, -, rfl⟩ | ⟨a, result, ha, hrun, -⟩
    · exact .inl rfl
    obtain ⟨inner, mid, hwork, htree⟩ := Arguments.tree_run hrun
    rw [htree]
    rcases Arguments.tree_work (hdebug a ha) hwork with hsame | ⟨settings, hbatch, hsettings, hmade⟩
    · exact .inl hsame
    · exact .inr ⟨a, settings, ha, hbatch, hsettings, hmade⟩

/-! ## A shelf -/

theorem readArguments_preview :
    readArguments ["in/opening.pat", "--debug"] = .ok { target := "in/opening.pat", debug := true } := rfl

/-- the pattern file of the shelf is shown, and so is the batch over it into its own directory -/
theorem preview_writes_no_file_shelf :
    ((convertFile (shelved.child "opening.pat".toList) none true Settings.standard).runOn shelf).2.tree = shelf.tree ∧
    ((convertDirectory shelved (some shelved) true Settings.standard).runOn shelf).2.tree = shelf.tree ∧
    (perform Yaml.reader ["in/opening.pat", "--debug"] shelf).2.tree = shelf.tree := by
  obtain ⟨hfile, -, hperform⟩ := preview_writes_no_file (shelved.child "opening.pat".toList) none Settings.standard
    Yaml.reader ["in/opening.pat", "--debug"] shelf
  obtain ⟨-, ⟨-, -, hdirectory⟩, -⟩ := preview_writes_no_file shelved (some shelved) Settings.standard Yaml.reader [] shelf
  have hthere : shelf.tree.isDirectory shelf.workingDirectory shelved = true := by decide
  refine ⟨hfile, (hdirectory (congrArg Prod.fst (FileTree.ensureDirectories_of_isDirectory hthere))).2 hthere, ?_⟩
  have hdebug : ∀ a, readArguments ["in/opening.pat", "--debug"] = .ok a → a.debug = true := by
    intro a ha
    obtain rfl := Except.ok.inj (readArguments_preview.symm.trans ha)
    rfl
  rcases hperform hdebug with hsame | ⟨a, _, ha, hbatch, -⟩
  · exact hsame
  · obtain rfl := Except.ok.inj (readArguments_preview.symm.trans ha)
    exact absurd hbatch (by decide)

/-- a batch that is only shown can leave a directory behind -/
theorem preview_shelf : shelf.tree.get? ["in".toList, "midi".toList] = none ∧
    ((convertDirectory shelved none true Settings.standard).runOn shelf).2.tree.get? ["in".toList, "midi".toList] =
      some .directory := by
  refine ⟨by decide, ?_⟩
  rw [Preview.tree_convertDirectory]
  decide +kernel

end CommandLine

end Drumline

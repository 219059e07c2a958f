/-
What becomes of a batch whose input is no directory. The directory of the MIDI files is made first, with all those on
the way to it, and only then is the input listed. So a batch that finds no input has made directories by then, and in
the end the input itself may be one of them: by default the MIDI files belong inside it.

There are two ways to go on. Either there still is no input, which is an error, and what was made stays
(`refused_of_not_opens`). Or there is one now, and the batch goes on with it (`retains_of_opens`, `opened_empty`).

Main result: `absent_input`. That it always fails with a report and leaves the tree alone is refuted by a missing
directory (`convertDirectory_missing`).
-/
import Drumline.Proofs.Session.Faults

namespace Drumline

/-! ## Model -/

/-- what making the directory of the MIDI files ends with, and the tree then -/
def Session.making (σ : Session) (input : Path) (output : Option Path) : Except FileError Unit × FileTree :=
  σ.tree.ensureDirectories σ.workingDirectory (batchDirectory input output)

/-- whether a batch fails with a report and leaves the tree as it was -/
def FailsCleanly (σ σ' : Session) (result : Except ConversionError (List Path)) : Prop :=
  (∃ e, result = .error e ∧ e.isReport = true) ∧ σ'.tree = σ.tree

/-- whether a path leads to a directory once the one of the MIDI files is made -/
def Session.Opens (σ : Session) (input : Path) (output : Option Path) : Prop :=
  (σ.making input output).1 = .ok () ∧
    (σ.making input output).2.isDirectory σ.workingDirectory input = true

variable {σ σ' : Session} {input : Path} {output : Option Path} {debug : Bool} {settings : Settings}
  {result : Except ConversionError (List Path)}

/-! ## Preparing -/

theorem runOn_prepare_making (σ : Session) (input : Path) (output : Option Path) :
    (prepare input (batchDirectory input output)).runOn σ =
      ((σ.making input output).1 >>= fun () => (σ.making input output).2.list σ.workingDirectory input,
        { σ with tree := (σ.making input output).2 }) := by
  rw [runOn_prepare, Session.making]
  rcases σ.tree.ensureDirectories σ.workingDirectory (batchDirectory input output) with ⟨_ | _, tree⟩
  · rfl
  · rfl

/-- a directory can be listed, and nothing else can -/
theorem exists_list_iff {t : FileTree} {workingDirectory : Location} {path : Path} :
    (∃ names, t.list workingDirectory path = .ok names) ↔ t.isDirectory workingDirectory path = true := by
  rw [FileTree.isDirectory_iff]
  constructor
  · rintro ⟨names, h⟩
    obtain ⟨place, hplace, hdirectory, -⟩ := FileTree.list_eq_ok.1 h
    exact ⟨place, hplace, hdirectory⟩
  · rintro ⟨place, hplace, hdirectory⟩
    exact ⟨_, FileTree.list_eq_ok.2 ⟨place, hplace, hdirectory, rfl⟩⟩

/-- there is a listing if and only if the input has become a directory -/
theorem exists_prepare_iff :
    (∃ names, ((prepare input (batchDirectory input output)).runOn σ).1 = .ok names) ↔ σ.Opens input output := by
  rw [runOn_prepare_making]
  simp only [bind_eq_ok]
  constructor
  · rintro ⟨names, _, hmade, hlist⟩
    exact ⟨hmade, exists_list_iff.1 ⟨names, hlist⟩⟩
  · rintro ⟨hmade, hthere⟩
    obtain ⟨names, hlist⟩ := exists_list_iff.2 hthere
    exact ⟨names, (), hmade, hlist⟩

theorem isReport_ofDirectory {cause : FileError} :
    (ConversionError.ofDirectory input cause).isReport = true ↔ cause ≠ .embeddedNul := by
  cases cause with
  | problem kind path => exact ⟨nofun, fun _ => rfl⟩
  | embeddedNul => exact ⟨nofun, fun h => (h rfl).elim⟩

/-! ## Two ways to go on -/

/-- a batch without a listing ends with the reason, and has made what could be made -/
theorem refused_of_not_opens (hnot : ¬σ.Opens input output)
    (h : (convertDirectory input output debug settings).runOn σ = (result, σ')) :
    ∃ cause, ((prepare input (batchDirectory input output)).runOn σ).1 = .error cause ∧
      result = .error (.ofDirectory input cause) ∧ σ'.tree = (σ.making input output).2 := by
  rcases convertDirectory_split h with ⟨cause, hprepare, rfl⟩ | ⟨listing, ready, mid, hprepare, -, -⟩
  · exact ⟨cause, congrArg Prod.fst hprepare, rfl, (prepare_cases hprepare).2.1⟩
  · exact (hnot (exists_prepare_iff.1 ⟨listing, congrArg Prod.fst hprepare⟩)).elim

/-- a batch with a listing goes on, and the directories made stay -/
theorem retains_of_opens (hnamed : σ.Named) (hopens : σ.Opens input output)
    (h : (convertDirectory input output debug settings).runOn σ = (result, σ')) :
    (σ.making input output).2.Retains σ'.tree := by
  rcases convertDirectory_split h with ⟨cause, hprepare, -⟩ | ⟨listing, ready, mid, hprepare, hpatterns, hsame⟩
  · obtain ⟨names, hnames⟩ := exists_prepare_iff.2 hopens
    rw [hprepare] at hnames
    cases hnames
  · obtain ⟨hplace, hdirectory, rfl, hentries⟩ := listing_of_prepare hnamed hprepare
    obtain ⟨-, -, -, hretains, -⟩ := convertPatterns_cases hplace hdirectory hentries hpatterns
    rw [(prepare_cases hprepare).2.1] at hretains
    exact fun place hthere => hsame.tree ▸ hretains place hthere

/-- where nothing was inside the input, a batch that goes on converts nothing, and writes nothing -/
theorem opened_empty (hnamed : σ.Named) (hopens : σ.Opens input output)
    (hempty : σ.tree.namesIn (input.location σ.workingDirectory) = [])
    (h : (convertDirectory input output debug settings).runOn σ = (result, σ')) :
    σ'.tree = (σ.making input output).2 ∧
      (result = .ok [] ∨ ∃ name, (input.child name).TooLong ∧ result = .error (tooLong (input.child name))) := by
  have hnames : σ.tree.Patterns (input.location σ.workingDirectory) [] := by
    have hlisting : σ.tree.Patterns (input.location σ.workingDirectory)
        ((σ.tree.namesIn (input.location σ.workingDirectory)).filter _) :=
      FileTree.patterns_of_listing fun _ _ => Iff.rfl
    rw [hempty] at hlisting
    exact hlisting
  obtain ⟨done, -, hleading, -, htree, hconcluded⟩ := convertDirectory_cases hnamed hnames h
  obtain rfl : done = [] := List.map_eq_nil_iff.1 (List.prefix_nil.1 hleading)
  rw [FileTree.stored_nil] at htree
  refine ⟨htree, ?_⟩
  cases hconcluded with
  | finished hall => exact .inl rfl
  | unprepared hrun _ =>
    obtain ⟨names, hlisted⟩ := exists_prepare_iff.2 hopens
    rw [hrun] at hlisted
    cases hlisted
  | failed hsplit _ _ => cases hsplit
  | @length name hlong _ _ => exact .inr ⟨name, hlong, rfl⟩

/-! ## By default -/

/-- by default the input is on the way to the directory of the MIDI files -/
theorem opens_of_making (hempty : input.write ≠ []) (h : (σ.making input none).1 = .ok ()) : σ.Opens input none := by
  have hmade : (σ.making input none).2.isDirectory σ.workingDirectory (input.child FileName.outputDirectory) = true :=
    FileTree.isDirectory_of_ensureDirectories h
  obtain ⟨place, hplace, -⟩ := FileTree.isDirectory_iff.1 hmade
  exact ⟨h, FileTree.isDirectory_of_child hempty (by decide) hplace⟩

/-! ## Batches without an input -/

theorem making_of_isDirectory (h : σ.tree.isDirectory σ.workingDirectory (batchDirectory input output) = true) :
    σ.making input output = (.ok (), σ.tree) :=
  FileTree.ensureDirectories_of_isDirectory h

/-- a file is in the way of the making of directories -/
theorem not_opens_of_file {content : List UInt8} (h : σ.tree.find σ.workingDirectory input = .ok (.file content)) :
    ¬σ.Opens input output := by
  rintro ⟨-, hthere⟩
  obtain ⟨place, hplace, hfile⟩ := FileTree.find_eq_ok.1 h
  have hwidens := FileTree.widens_ensureDirectories σ.tree σ.workingDirectory (batchDirectory input output)
  obtain ⟨place', hplace', hdirectory⟩ := FileTree.isDirectory_iff.1 hthere
  obtain rfl := Except.ok.inj ((hwidens.retains.locate hplace).symm.trans hplace')
  have hkept := hwidens.file_iff.2 hfile
  rw [Session.making] at hdirectory
  rw [hdirectory] at hkept
  cases hkept

/-- where the input has been made, the tree is not what it was -/
theorem tree_ne_of_opens (hnamed : σ.Named) (habsent : σ.tree.isDirectory σ.workingDirectory input = false)
    (hopens : σ.Opens input output) (h : (convertDirectory input output debug settings).runOn σ = (result, σ')) :
    σ'.tree ≠ σ.tree := by
  intro hsame
  obtain ⟨place, hplace, hdirectory⟩ := FileTree.isDirectory_iff.1 hopens.2
  have hretains := retains_of_opens hnamed hopens h
  have hthere : σ'.tree.isDirectory σ.workingDirectory input = true :=
    FileTree.isDirectory_iff.2 ⟨place, hretains.locate hplace, hretains place hdirectory⟩
  rw [hsame, habsent] at hthere
  cases hthere

/-- a batch that cannot go on fails cleanly if it has made nothing and there is no null character -/
theorem failsCleanly_of_not_opens (hnot : ¬σ.Opens input output)
    (h : (convertDirectory input output debug settings).runOn σ = (result, σ')) :
    FailsCleanly σ σ' result ↔ (σ.making input output).2 = σ.tree ∧
      ((prepare input (batchDirectory input output)).runOn σ).1 ≠ .error .embeddedNul := by
  obtain ⟨cause, hcause, rfl, htree⟩ := refused_of_not_opens hnot h
  have hnul : cause ≠ .embeddedNul ↔
      ((prepare input (batchDirectory input output)).runOn σ).1 ≠ .error .embeddedNul := by
    rw [hcause]
    exact not_congr ⟨fun h => congrArg Except.error h, Except.error.inj⟩
  rw [FailsCleanly, htree, ← hnul, ← isReport_ofDirectory, and_comm]
  exact and_congr_right fun _ => ⟨fun ⟨e, he, hreport⟩ => Except.error.inj he ▸ hreport, fun h => ⟨_, rfl, h⟩⟩

/-- nothing is made, and no null character met, where the directory of the MIDI files cannot be made at all -/
theorem unmade_iff {cause : FileError} (hmade : (σ.making input output).1 = .error cause) :
    (σ.making input output).2 = σ.tree ∧
        ((prepare input (batchDirectory input output)).runOn σ).1 ≠ .error .embeddedNul ↔
      ∃ cause, σ.making input output = (.error cause, σ.tree) ∧ cause ≠ .embeddedNul := by
  have hprepare : ((prepare input (batchDirectory input output)).runOn σ).1 = .error cause := by
    rw [runOn_prepare_making, hmade]
    rfl
  rw [hprepare]
  constructor
  · rintro ⟨htree, hnul⟩
    exact ⟨cause, Prod.ext hmade htree, fun he => hnul (congrArg Except.error he)⟩
  · rintro ⟨cause', hmaking, hnul⟩
    rw [hmaking] at hmade ⊢
    obtain rfl := Except.error.inj hmade
    exact ⟨rfl, fun he => hnul (Except.error.inj he)⟩

/-- nothing is made, and no null character met, where the directory of the MIDI files is there already -/
theorem made_iff (hmade : (σ.making input output).1 = .ok ()) :
    (σ.making input output).2 = σ.tree ∧
        ((prepare input (batchDirectory input output)).runOn σ).1 ≠ .error .embeddedNul ↔
      σ.tree.isDirectory σ.workingDirectory (batchDirectory input output) = true ∧ '\x00' ∉ input.write := by
  have hself : (σ.making input output).2 = σ.tree ↔ _ := FileTree.ensureDirectories_eq_self_iff hmade
  have hnul : '\x00' ∉ (batchDirectory input output).write := by
    intro hnul
    rw [Session.making, FileTree.ensureDirectories_of_nul hnul] at hmade
    cases hmade
  have hdone : (σ.tree.ensureDirectories σ.workingDirectory (batchDirectory input output)).1 = .ok () := hmade
  rw [hself, ne_eq, prepare_eq_nul, or_iff_right hnul, and_iff_right hdone]

/-- **When a batch without an input fails cleanly.** -/
theorem failsCleanly_iff (hnamed : σ.Named) (habsent : σ.tree.isDirectory σ.workingDirectory input = false)
    (h : (convertDirectory input output debug settings).runOn σ = (result, σ')) :
    FailsCleanly σ σ' result ↔
      (∃ cause, σ.making input output = (.error cause, σ.tree) ∧ cause ≠ .embeddedNul) ∨
        σ.tree.isDirectory σ.workingDirectory (batchDirectory input output) = true ∧ '\x00' ∉ input.write := by
  by_cases hopens : σ.Opens input output
  · refine iff_of_false (fun hclean => tree_ne_of_opens hnamed habsent hopens h hclean.2) ?_
    rintro (⟨cause, hmaking, -⟩ | ⟨hthere, -⟩)
    · have hmade := hopens.1
      rw [hmaking] at hmade
      cases hmade
    · have hinput := hopens.2
      rw [making_of_isDirectory hthere, habsent] at hinput
      cases hinput
  rw [failsCleanly_of_not_opens hopens h]
  cases hmade : (σ.making input output).1 with
  | error cause =>
    rw [unmade_iff hmade, or_iff_left]
    rintro ⟨hthere, -⟩
    rw [making_of_isDirectory hthere] at hmade
    cases hmade
  | ok _ =>
    rw [made_iff hmade, or_iff_right]
    rintro ⟨cause, hmaking, -⟩
    rw [hmaking] at hmade
    cases hmade

/-- **A batch without an input.** Null characters apart, it fails with a report and leaves the tree as it was if and
only if the directory of the MIDI files is there already, or cannot be made and neither can any on the way to it. In
general there are two cases. If the input is no directory either once that of the MIDI files is made, or if that cannot
be made, the batch fails, and what has been made stays. Otherwise it goes on in a tree that is not what it was: where
nothing was inside the input, it writes nothing, and returns nothing or stops at an entry with too long a path. By
default the input is a directory whenever that of the MIDI files can be made, as it is on the way to it. With a file in
its place the batch always fails, and by default it leaves the tree as it was. -/
theorem absent_input (hnamed : σ.Named) (habsent : σ.tree.isDirectory σ.workingDirectory input = false)
    (h : (convertDirectory input output debug settings).runOn σ = (result, σ')) :
    (FailsCleanly σ σ' result ↔
      (∃ cause, σ.making input output = (.error cause, σ.tree) ∧ cause ≠ .embeddedNul) ∨
        σ.tree.isDirectory σ.workingDirectory (batchDirectory input output) = true ∧ '\x00' ∉ input.write) ∧
    (¬σ.Opens input output → (∃ cause, result = .error (.ofDirectory input cause)) ∧
      σ'.tree = (σ.making input output).2) ∧
    (σ.Opens input output → σ'.tree ≠ σ.tree ∧
      (σ.tree.namesIn (input.location σ.workingDirectory) = [] → σ'.tree = (σ.making input output).2 ∧
        (result = .ok [] ∨ ∃ name, (input.child name).TooLong ∧ result = .error (tooLong (input.child name))))) ∧
    (output = none → input.write ≠ [] → (σ.Opens input output ↔ (σ.making input output).1 = .ok ())) ∧
    (∀ content, σ.tree.find σ.workingDirectory input = .ok (.file content) →
      (∃ cause, result = .error (.ofDirectory input cause)) ∧ (output = none → FailsCleanly σ σ' result)) := by
  have hrefused (hnot : ¬σ.Opens input output) :
      (∃ cause, result = .error (.ofDirectory input cause)) ∧ σ'.tree = (σ.making input output).2 := by
    obtain ⟨cause, -, hresult, htree⟩ := refused_of_not_opens hnot h
    exact ⟨⟨cause, hresult⟩, htree⟩
  have hclean := failsCleanly_iff hnamed habsent h
  refine ⟨hclean, hrefused, fun hopens => ⟨?_, fun hempty => opened_empty hnamed hopens hempty h⟩, ?_,
    fun content hfile => ⟨(hrefused (not_opens_of_file hfile)).1, ?_⟩⟩
  · exact tree_ne_of_opens hnamed habsent hopens h
  · rintro rfl hempty
    exact ⟨fun hopens => hopens.1, opens_of_making hempty⟩
  · rintro rfl
    obtain ⟨kind, hmaking⟩ := FileTree.ensureDirectories_in_file hfile (show FileName.outputDirectory ≠ [] by decide)
      (by decide)
    exact hclean.2 (.inl ⟨_, hmaking, nofun⟩)

/-- a pattern file in the place of the input: the batch fails, and nothing is made -/
theorem absent_input_file : ∃ result σ',
    (convertDirectory (shelved.child "opening.pat".toList) none false Settings.standard).runOn shelf = (result, σ') ∧
      (∃ cause, result = .error (.ofDirectory (shelved.child "opening.pat".toList) cause)) ∧
      FailsCleanly shelf σ' result := by
  have habsent : shelf.tree.isDirectory shelf.workingDirectory (shelved.child "opening.pat".toList) = false := by
    decide +kernel
  have hfile : shelf.tree.find shelf.workingDirectory (shelved.child "opening.pat".toList) =
      .ok (.file (Text.encode "SD f\nSD x\n".toList)) := by
    decide +kernel
  rcases hrun : (convertDirectory (shelved.child "opening.pat".toList) none false Settings.standard).runOn shelf with
    ⟨result, σ'⟩
  obtain ⟨-, -, -, -, hrest⟩ := absent_input named_shelf habsent hrun
  obtain ⟨hfails, hclean⟩ := hrest _ hfile
  exact ⟨result, σ', rfl, hfails, hclean rfl⟩

/-! ## A missing directory -/

/-- a disk with nothing on it -/
def bare : Session := { tree := FileTree.empty, workingDirectory := [] }

/-- a batch over a directory that is not there makes it, with another one inside, and returns nothing -/
theorem convertDirectory_missing :
    bare.tree.isDirectory bare.workingDirectory shelved = false ∧
    ((convertDirectory shelved none false Settings.standard).runOn bare).1 = .ok [] ∧
    ((convertDirectory shelved none false Settings.standard).runOn bare).2.tree.entries =
      [(["in".toList], .directory), (["in".toList, "midi".toList], .directory)] := by
  refine ⟨by decide +kernel, by decide +kernel, by decide +kernel⟩

end Drumline

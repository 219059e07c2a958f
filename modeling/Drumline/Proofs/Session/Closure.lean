/-
Which errors a conversion passes on. It fails with reports, but for the errors that `FileLeaves` and `BatchLeaves` list.
The lists say of each error when exactly it comes about, for every tree of files and all paths. What a tree leaves out
of a disk, `FileTree` says.

The error of a batch is that of the first entry that fails. `Reaches` says that a batch comes to an entry, and
`Reaches.there` that the directory is still there then and the pattern files are as they were in the beginning.

Main result: `conversion_closure`. That conversions fail with reports only is refuted by a path without characters
(`not_only_reports`).
-/
import Drumline.Proofs.Session.Faults

namespace Drumline

/-! ## Model -/

/-- whether a batch comes to an entry, and in which session: it has listed the directory, and is done with the entries
before that one -/
def Reaches (input directory : Path) (debug : Bool) (settings : Settings) (σ : Session) (name : FileName)
    (mid : Session) : Prop :=
  ∃ before after ready done,
    (prepare input directory).runOn σ = (.ok (before ++ name :: after), ready) ∧
      (convertPatterns directory debug settings (before.map input.child)).runOn ready = (.ok done, mid)

/-- the errors that a batch passes on, each with what brings it about -/
inductive BatchLeaves (σ : Session) (input : Path) (output : Option Path) (debug : Bool) (settings : Settings) :
    ConversionError → Prop where
  /-- a null character in the path of the output directory, or in that of the input where the output can be made -/
  | nul (hnul : '\x00' ∈ (batchDirectory input output).write ∨
        (σ.tree.ensureDirectories σ.workingDirectory (batchDirectory input output)).1 = .ok () ∧
          '\x00' ∈ input.write) :
    BatchLeaves σ input output debug settings (.unreported (.file .embeddedNul))
  /-- an entry with too long a path, pattern file or not -/
  | length {name : FileName} {mid : Session}
      (hreaches : Reaches input (batchDirectory input output) debug settings σ name mid)
      (hlong : (input.child name).TooLong) :
    BatchLeaves σ input output debug settings (tooLong (input.child name))
  /-- a pattern file with too many messages for a chunk -/
  | overflow {name : FileName} {mid : Session} {raw : List UInt8}
      (hreaches : Reaches input (batchDirectory input output) debug settings σ name mid)
      (hshort : ¬(input.child name).TooLong) (hpattern : name.isPattern = true)
      (hraw : σ.tree.get? (input.location σ.workingDirectory ++ [name]) = some (.file raw))
      (hoverflows : Overflows raw (String.ofList name) settings) :
    BatchLeaves σ input output debug settings .overflow

/-- whether an action on a session returns or fails with a report, but for some errors, each of which it passes on -/
structure ReportsUnless {α : Type} (x : Action ConversionError α) (σ : Session) (leaves : ConversionError → Prop) :
    Prop where
  ends : (∃ a, x.Returns σ a) ∨ ∃ e, x.Raises σ e ∧ (e.isReport = true ∨ leaves e)
  leaving : ∀ e, leaves e → x.Raises σ e ∧ e.isReport = false

variable {σ σ' mid : Session} {input directory : Path} {output : Option Path} {debug : Bool} {o : Options}
  {settings : Settings} {name : FileName} {e : ConversionError}

/-! ## One file -/

theorem raises_renderPattern {p : Pattern} {name : String} {e : ScoreError} (h : p.toMidi name settings = .error e)
    (σ : Session) : (renderPattern p name settings).Raises σ (.score e) := by
  rcases bind_eq_error.1 h with harrange | ⟨arrangement, harrange, hbuild⟩
  · exact (Action.raises_ofExcept harrange σ).bind _
  · refine (Action.returns_ofExcept harrange σ).bind_raises fun mid _ => ?_
    refine (Action.returns_tell _ mid).bind_raises fun mid _ => ?_
    exact (Action.raises_ofExcept hbuild mid).bind _

theorem exists_chooseTarget (h : output = none → input.names ≠ []) :
    ∃ target, (chooseTarget input output).Returns σ target := by
  cases output with
  | some path => exact ⟨path, Action.returns_pure path σ⟩
  | none =>
    cases hname : input.name? with
    | none => exact (h rfl (List.getLast?_eq_none_iff.1 hname)).elim
    | some name => exact ⟨_, Action.returns_ofExcept (by unfold Path.outputPath; rw [hname]) σ⟩

theorem raises_convertFile (h : FileLeaves σ input output settings e) :
    (convertFile input output debug settings).Raises σ e := by
  rw [convertFile_eq]
  cases h with
  | nameless houtput hnames =>
    subst houtput
    refine Action.Raises.bind (Action.raises_ofExcept ?_ σ) _
    unfold Path.outputPath Path.name?
    rw [hnames]
    rfl
  | @overflow raw htarget hread hoverflows =>
    obtain ⟨content, p, hdecode, hparse, hmidi⟩ := hoverflows
    obtain ⟨target, htarget⟩ := exists_chooseTarget htarget
    refine htarget.bind_raises fun chosen hchosen => ?_
    obtain ⟨rfl, -⟩ := chooseTarget_eq_ok hchosen
    have hdeliver : (deliver input target debug settings).Raises chosen (.score (.write .chunkTooLong)) :=
      (returns_loadPattern hread hdecode hparse).bind_raises fun loaded _ => (raises_renderPattern hmidi loaded).bind _
    exact (hdeliver.adapt _).bind _

theorem convertFile_leaves_iff (hcheck : o.check = .ok settings) :
    (convertFile input output debug settings).Raises σ e ∧ e.isReport = false ↔
      FileLeaves σ input output settings e := by
  constructor
  · rintro ⟨⟨σ', h⟩, hreport⟩
    rcases convertFile_error hcheck h with ⟨f, rfl⟩ | hleaves
    · cases hreport
    · exact hleaves
  · intro h
    refine ⟨raises_convertFile h, ?_⟩
    cases h with
    | nameless => rfl
    | overflow => rfl

/-! ## A batch -/

/-- an entry that a batch comes to is there when the directories are made -/
theorem Reaches.listed (hnamed : σ.Named) (h : Reaches input directory debug settings σ name mid) :
    (σ.tree.ensureDirectories σ.workingDirectory directory).2.get? (input.location σ.workingDirectory ++ [name]) ≠
      none := by
  obtain ⟨before, after, ready, done, hprepare, -⟩ := h
  obtain ⟨-, -, hlisting, -⟩ := listing_of_prepare hnamed hprepare
  rw [← (prepare_cases hprepare).2.1, ← FileTree.mem_namesIn, ← hlisting]
  exact List.mem_append_right _ List.mem_cons_self

/-- where a batch comes to an entry, the directory is still there, and the pattern files are as they were -/
theorem Reaches.there (hnamed : σ.Named) (h : Reaches input directory debug settings σ name mid) :
    name.IsEntry ∧
      mid.tree.locate mid.workingDirectory input = .ok (input.location σ.workingDirectory) ∧
      mid.tree.get? (input.location σ.workingDirectory) = some .directory ∧
      ∀ (other : FileName) (raw : List UInt8), other.isPattern = true →
        (mid.tree.get? (input.location σ.workingDirectory ++ [other]) = some (.file raw) ↔
          σ.tree.get? (input.location σ.workingDirectory ++ [other]) = some (.file raw)) := by
  obtain ⟨before, after, ready, done, hprepare, hbefore⟩ := h
  obtain ⟨hplace, hdirectory, -, hentries⟩ := listing_of_prepare hnamed hprepare
  have hearlier : ∀ other ∈ before, other.IsEntry := fun other hother =>
    hentries other (List.mem_append_left _ hother)
  obtain ⟨renderings, -, hkept, hretains, htree, -⟩ := convertPatterns_cases hplace hdirectory hearlier hbefore
  have hwidens := FileTree.widens_ensureDirectories σ.tree σ.workingDirectory directory
  rw [← (prepare_cases hprepare).2.1] at hwidens
  refine ⟨hentries name (List.mem_append_right _ List.mem_cons_self), ?_, hretains _ hdirectory, ?_⟩
  · rw [hkept]
    exact hretains.locate hplace
  · intro other raw hpattern
    rw [htree, FileTree.get?_stored hpattern]
    exact hwidens.file_iff

/-- a batch fails with the error of an entry that it comes to -/
theorem Reaches.raises (h : Reaches input (batchDirectory input output) debug settings σ name mid)
    (hvisit : (visit (batchDirectory input output) debug settings (input.child name)).Raises mid e) :
    (convertDirectory input output debug settings).Raises σ e := by
  obtain ⟨before, after, ready, done, hprepare, hbefore⟩ := h
  obtain ⟨σ', hvisit⟩ := hvisit
  have hlisted : (prepare input (batchDirectory input output)).Returns σ (before ++ name :: after) := ⟨ready, hprepare⟩
  rw [convertDirectory_eq]
  refine (hlisted.adapt _).bind_raises fun listed hrun => ?_
  rw [Action.runOn_adapt, hprepare] at hrun
  cases hrun
  refine Action.Raises.bind ⟨σ', convertPatterns_error_iff.2 ?_⟩ _
  exact ⟨before.map input.child, input.child name, after.map input.child, done, mid, List.map_append, hbefore, hvisit⟩

theorem raises_convertDirectory (hnamed : σ.Named) (h : BatchLeaves σ input output debug settings e) :
    (convertDirectory input output debug settings).Raises σ e := by
  cases h with
  | nul hnul =>
    rw [convertDirectory_eq]
    exact ((Action.raises_iff.2 (prepare_eq_nul.2 hnul)).adapt _).bind _
  | length hreaches hlong =>
    obtain ⟨hname, hplace, hdirectory, -⟩ := hreaches.there hnamed
    exact hreaches.raises ⟨_, visit_of_tooLong hplace hdirectory hname hlong⟩
  | @overflow name mid raw hreaches hshort hpattern hraw hoverflows =>
    obtain ⟨hname, hplace, hdirectory, hpatterns⟩ := hreaches.there hnamed
    have hraw' := (hpatterns name raw hpattern).2 hraw
    have hread := read_of_child hplace hdirectory hname hshort hraw'
    rw [← sourceName_child input name] at hoverflows
    have hconvert : (convertFile (input.child name) (some ((batchDirectory input output).child name.midi)) debug
        settings).Raises mid .overflow := raises_convertFile (.overflow nofun hread hoverflows)
    obtain ⟨σ', hrun⟩ := hconvert.bind fun _ => pure true
    refine hreaches.raises ⟨σ', ?_⟩
    rw [visit_of_short hplace hdirectory hname hshort, if_pos (FileTree.holdsPattern_iff.2 ⟨hpattern, raw, hraw'⟩)]
    exact hrun

/-- how an entry that a batch comes to makes it fail -/
theorem Reaches.error (hnamed : σ.Named) (hcheck : o.check = .ok settings)
    (h : Reaches input (batchDirectory input output) debug settings σ name mid)
    (hvisit : (visit (batchDirectory input output) debug settings (input.child name)).Raises mid e) :
    (∃ f, e = .file (input.child name) f) ∨ BatchLeaves σ input output debug settings e := by
  obtain ⟨hname, hplace, hdirectory, hpatterns⟩ := h.there hnamed
  obtain ⟨σ', hvisit⟩ := hvisit
  cases visit_cases hplace hdirectory hname hvisit with
  | stopped hstop =>
    cases hstop with
    | length hlong _ => exact .inr (.length h hlong)
    | conversion hholds hconvert _ =>
      rcases convertFile_error hcheck hconvert with hreport | hleaves
      · exact .inl hreport
      cases hleaves with
      | nameless houtput => cases houtput
      | overflow _ hread hoverflows =>
        have hpattern := (FileTree.holdsPattern_iff.1 hholds).1
        obtain ⟨spot, hspot, -⟩ := FileTree.read_eq_ok.1 hread
        have hraw := (hpatterns name _ hpattern).1 (read_child hplace hdirectory hname hread)
        rw [sourceName_child] at hoverflows
        exact .inr (.overflow h (FileTree.locate_eq_ok.1 hspot).2.2.1 hpattern hraw hoverflows)

/-- **How a batch fails.** With a report about its directory or about a pattern file in it, or with one of the errors
that are passed on. -/
theorem convertDirectory_error (hnamed : σ.Named) (hcheck : o.check = .ok settings)
    (h : (convertDirectory input output debug settings).runOn σ = (.error e, σ')) :
    (∃ cause, e = .directory input cause) ∨ (∃ name f, e = .file (input.child name) f) ∨
      BatchLeaves σ input output debug settings e := by
  rcases convertDirectory_split h with ⟨cause, hprepare, he⟩ | ⟨listing, ready, failed, hprepare, hfailed, -⟩
  · cases he
    cases cause with
    | problem kind text => exact .inl ⟨_, rfl⟩
    | embeddedNul => exact .inr (.inr (.nul (prepare_eq_nul.1 (congrArg Prod.fst hprepare))))
  obtain ⟨front, path, back, done, mid, hsplit, hfront, hvisit⟩ := convertPatterns_error_iff.1 hfailed
  obtain ⟨before, rest, rfl, rfl, hrest⟩ := List.map_eq_append_iff.1 hsplit
  obtain ⟨name, after, rfl, rfl, rfl⟩ := List.map_eq_cons_iff.1 hrest
  have hreaches : Reaches input (batchDirectory input output) debug settings σ name mid :=
    ⟨before, after, ready, done, hprepare, hfront⟩
  rcases hreaches.error hnamed hcheck ⟨failed, hvisit⟩ with ⟨f, rfl⟩ | hleaves
  · exact .inr (.inl ⟨name, f, rfl⟩)
  · exact .inr (.inr hleaves)

theorem convertDirectory_leaves_iff (hnamed : σ.Named) (hcheck : o.check = .ok settings) :
    (convertDirectory input output debug settings).Raises σ e ∧ e.isReport = false ↔
      BatchLeaves σ input output debug settings e := by
  constructor
  · rintro ⟨⟨σ', h⟩, hreport⟩
    rcases convertDirectory_error hnamed hcheck h with ⟨cause, rfl⟩ | ⟨name, f, rfl⟩ | hleaves
    · cases hreport
    · cases hreport
    · exact hleaves
  · intro h
    refine ⟨raises_convertDirectory hnamed h, ?_⟩
    cases h with
    | nul => rfl
    | length => rfl
    | overflow => rfl

/-! ## Every conversion -/

theorem reportsUnless_of_iff {α : Type} {x : Action ConversionError α} {leaves : ConversionError → Prop}
    (h : ∀ e, x.Raises σ e ∧ e.isReport = false ↔ leaves e) : ReportsUnless x σ leaves where
  ends := by
    rcases hrun : x.runOn σ with ⟨e | a, σ'⟩
    · refine .inr ⟨e, ⟨σ', hrun⟩, ?_⟩
      cases hreport : e.isReport with
      | true => exact .inl rfl
      | false => exact .inr ((h e).1 ⟨⟨σ', hrun⟩, hreport⟩)
    · exact .inl ⟨a, σ', hrun⟩
  leaving e he := (h e).2 he

/-- **What leaves a conversion.** Under settings that are accepted, whatever the tree, the paths and the contents of the
files are, the conversion of a file and that of a directory return, or fail with a report, or pass on an error of their
lists. They pass on each error of these lists whenever what it stands for is the case. -/
theorem conversion_closure (hnamed : σ.Named) (hcheck : o.check = .ok settings) (input : Path) (output : Option Path)
    (debug : Bool) :
    ReportsUnless (convertFile input output debug settings) σ (FileLeaves σ input output settings) ∧
      ReportsUnless (convertDirectory input output debug settings) σ (BatchLeaves σ input output debug settings) :=
  ⟨reportsUnless_of_iff fun _ => convertFile_leaves_iff hcheck,
    reportsUnless_of_iff fun _ => convertDirectory_leaves_iff hnamed hcheck⟩

/-- the opening never overflows, so that its conversion returns or fails with a report, whatever it is to write; a batch
to a directory with a null character fails, and that is not reported -/
theorem conversion_closure_shelf :
    (∀ output debug, (∃ bytes, (convertFile (shelved.child "opening.pat".toList) output debug
        Settings.standard).Returns shelf bytes) ∨
      ∃ e, (convertFile (shelved.child "opening.pat".toList) output debug Settings.standard).Raises shelf e ∧
        e.isReport = true) ∧
    (convertDirectory shelved (some ⟨.workingDirectory, [['\x00']]⟩) false Settings.standard).Raises shelf
      (.unreported (.file .embeddedNul)) := by
  constructor
  · intro output debug
    have hfile := (conversion_closure named_shelf check_standard (shelved.child "opening.pat".toList) output debug).1
    rcases hfile.ends with hreturns | ⟨e, hraises, hreport | hleaves⟩
    · exact .inl hreturns
    · exact .inr ⟨e, hraises, hreport⟩
    · cases hleaves with
      | nameless _ hnames => exact absurd hnames (by decide)
      | overflow _ hread hoverflows =>
        obtain ⟨content, p, hdecode, hparse, hmidi⟩ := hoverflows
        have hraw : shelf.tree.read shelf.workingDirectory (shelved.child "opening.pat".toList) =
            .ok (Text.encode "SD f\nSD x\n".toList) := by decide
        obtain rfl := Except.ok.inj (hraw.symm.trans hread)
        have hcontent : Text.decode (Text.encode "SD f\nSD x\n".toList) = .ok "SD f\nSD x\n".toList := by decide
        obtain rfl := Except.ok.inj (hcontent.symm.trans hdecode)
        have hopening : (Pattern.parse "SD f\nSD x\n".toList).result = .ok opening := by decide
        obtain rfl := Except.ok.inj (hopening.symm.trans hparse)
        obtain ⟨bytes, hbytes⟩ := exists_toMidi_opening
        rw [sourceName_child, String.ofList_toList, hbytes] at hmidi
        cases hmidi
  · have hbatch := (conversion_closure named_shelf check_standard shelved (some ⟨.workingDirectory, [['\x00']]⟩)
      false).2
    exact (hbatch.leaving _ (.nul (.inl (by decide)))).1

/-- an error that is no report can leave a conversion: a path without characters has no name -/
theorem not_only_reports :
    (convertFile (Path.read []) none false Settings.standard).Raises shelf (.nameless ⟨Path.read []⟩) ∧
      (ConversionError.nameless ⟨Path.read []⟩).isReport = false :=
  ⟨⟨shelf, rfl⟩, rfl⟩

end Drumline

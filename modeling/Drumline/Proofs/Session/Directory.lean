/-
Converting the pattern files of a directory. The directory of the MIDI files is made and that of the patterns listed
first (`prepare_cases`, `listing_of_prepare`), and neither changes a file, so that the listing holds the pattern files
that there were. Then they are converted one after another.

`convertDirectory_split` takes the two apart, `convertDirectory_cases` is all that a batch can do, and
`convertDirectory_of_ready` when it does succeed.

Main result: `convertDirectory_prefix`, a batch converts the first of the pattern files, each as it was in the
beginning, and changes no other file. That nothing but a pattern file can stop it is refuted by a directory without any
(`convertDirectory_winding`).
-/
import Drumline.Proofs.Arrangement.Balance
import Drumline.Proofs.Session.Batch

namespace Drumline

variable {σ σ' : Session} {input directory : Path} {debug : Bool} {settings : Settings} {place : Location}
  {name : FileName}

/-! ## The directory -/

/-- the directory of the MIDI files of a batch: the one that is given, or else one inside that of the patterns -/
def batchDirectory (input : Path) (output : Option Path) : Path :=
  output.getD (input.child FileName.outputDirectory)

theorem runOn_prepare (input directory : Path) (σ : Session) :
    (prepare input directory).runOn σ =
      match σ.tree.ensureDirectories σ.workingDirectory directory with
      | (.ok (), tree) => (tree.list σ.workingDirectory input, { σ with tree })
      | (.error e, tree) => (.error e, { σ with tree }) := by
  unfold prepare
  rw [Action.runOn_bind, Action.runOn_makeDirectories]
  rcases σ.tree.ensureDirectories σ.workingDirectory directory with ⟨_ | _, tree⟩
  · rfl
  · exact Action.runOn_listDirectory input _

/-- what preparing does to a session, and the listing that it may give -/
theorem prepare_cases {result : Except FileError (List FileName)}
    (h : (prepare input directory).runOn σ = (result, σ')) :
    σ'.workingDirectory = σ.workingDirectory ∧
      σ'.tree = (σ.tree.ensureDirectories σ.workingDirectory directory).2 ∧
      ∀ names, result = .ok names → σ'.tree.list σ.workingDirectory input = .ok names := by
  rw [runOn_prepare] at h
  rcases hmade : σ.tree.ensureDirectories σ.workingDirectory directory with ⟨_ | _, tree⟩
  · rw [hmade] at h
    cases h
    exact ⟨rfl, rfl, nofun⟩
  · rw [hmade] at h
    cases h
    exact ⟨rfl, rfl, fun names hnames => hnames⟩

/-- the notice of a batch that has found nothing -/
def remark (input : Path) (converted : List Path) : Action ConversionError Unit :=
  if converted.isEmpty then Action.tell (.noPatterns input.text) else pure ()

theorem convertDirectory_eq (input : Path) (output : Option Path) (debug : Bool) (settings : Settings) :
    convertDirectory input output debug settings = do
      let names ← ExceptT.adapt (.ofDirectory input) (prepare input (batchDirectory input output))
      let converted ← convertPatterns (batchDirectory input output) debug settings (names.map input.child)
      let () ← remark input converted
      return converted := by
  unfold convertDirectory prepare batchDirectory remark
  refine bind_congr fun names => bind_congr fun converted => ?_
  cases converted with
  | nil => rfl
  | cons path paths => rfl

/-- the remark changes nothing but the notices -/
theorem remark_cases {x : Action ConversionError (List Path)} {result : Except ConversionError (List Path)}
    (h : (x >>= fun converted => do
      let () ← remark input converted
      return converted).runOn σ = (result, σ')) :
    ∃ mid, x.runOn σ = (result, mid) ∧ mid.Same σ' := by
  rcases Action.bind_cases h with ⟨e, hx, rfl⟩ | ⟨paths, mid, hx, h⟩
  · exact ⟨σ', hx, .refl σ'⟩
  refine ⟨mid, ?_⟩
  cases paths with
  | nil =>
    cases h
    exact ⟨hx, rfl, rfl⟩
  | cons path paths =>
    cases h
    exact ⟨hx, .refl _⟩

/-- a batch fails before there is a listing, or goes on with the entries of one -/
theorem convertDirectory_split {output : Option Path} {result : Except ConversionError (List Path)}
    (h : (convertDirectory input output debug settings).runOn σ = (result, σ')) :
    (∃ cause, (prepare input (batchDirectory input output)).runOn σ = (.error cause, σ') ∧
      result = .error (.ofDirectory input cause)) ∨
    ∃ listing ready mid, (prepare input (batchDirectory input output)).runOn σ = (.ok listing, ready) ∧
      (convertPatterns (batchDirectory input output) debug settings (listing.map input.child)).runOn ready =
        (result, mid) ∧ mid.Same σ' := by
  rw [convertDirectory_eq] at h
  rcases Action.bind_cases h with ⟨e, hprepare, rfl⟩ | ⟨listing, ready, hprepare, h⟩
  · obtain ⟨inner, hinner, he⟩ := Action.adapt_cases hprepare
    obtain ⟨cause, rfl, rfl⟩ := mapError_eq_error.1 he.symm
    exact .inl ⟨cause, hinner, rfl⟩
  · obtain ⟨inner, hinner, he⟩ := Action.adapt_cases hprepare
    obtain rfl := mapError_eq_ok.1 he.symm
    obtain ⟨mid, hpatterns, hsame⟩ := remark_cases h
    exact .inr ⟨listing, ready, mid, hinner, hpatterns, hsame⟩

theorem returns_remark (input : Path) (paths : List Path) (σ : Session) :
    Action.Returns (do
      let () ← remark input paths
      return paths) σ paths := by
  cases paths with
  | nil => exact ⟨_, rfl⟩
  | cons path paths => exact ⟨_, rfl⟩

/-- how a batch ends that has converted some of the pattern files: with all of them converted, with an error before
there is a listing, or with an error at an entry -/
inductive Concluded (input : Path) (output : Option Path) (debug : Bool) (settings : Settings) (names : List FileName)
    (σ σ' : Session) (done : List Rendering) : Except ConversionError (List Path) → Prop where
  | finished (hall : done.map Rendering.name = names) :
    Concluded input output debug settings names σ σ' done (.ok (names.map input.child))
  | unprepared {cause : FileError}
      (hrun : ((prepare input (batchDirectory input output)).runOn σ).1 = .error cause) (hnone : done = []) :
    Concluded input output debug settings names σ σ' done (.error (.ofDirectory input cause))
  | failed {name : FileName} {after : List FileName} {e : ConversionError} {mid : Session}
      (hnames : names = done.map Rendering.name ++ name :: after)
      (hrun : ((convertFile (input.child name) (some ((batchDirectory input output).child name.midi)) debug
        settings).runOn mid).1 = .error e)
      (hsame : mid.Same σ') :
    Concluded input output debug settings names σ σ' done (.error e)
  | length {name : FileName} (hlong : (input.child name).TooLong)
      (hthere : (σ.tree.ensureDirectories σ.workingDirectory (batchDirectory input output)).2.get?
        (input.location σ.workingDirectory ++ [name]) ≠ none)
      (hbefore : done.map Rendering.name = names.filter (· < name)) :
    Concluded input output debug settings names σ σ' done (.error (tooLong (input.child name)))

/-- the members of a sorted list before one of them -/
theorem filter_before {before after : List FileName} (hsorted : (before ++ name :: after).Pairwise (· < ·))
    (holds : FileName → Bool) :
    ((before ++ name :: after).filter holds).filter (· < name) = before.filter holds := by
  obtain ⟨-, hafter, hbefore⟩ := List.pairwise_append.1 hsorted
  have hless : ∀ other ∈ before.filter holds, decide (other < name) = true := fun other hother =>
    decide_eq_true (hbefore other (List.mem_of_mem_filter hother) name List.mem_cons_self)
  have hmore : ∀ other ∈ (name :: after).filter holds, ¬decide (other < name) = true := by
    intro other hother
    rw [decide_eq_true_eq, List.not_lt]
    rcases List.mem_cons.1 (List.mem_of_mem_filter hother) with rfl | hother
    · exact List.le_refl _
    · exact List.le_of_lt ((List.pairwise_cons.1 hafter).1 other hother)
  rw [List.filter_append, List.filter_append, List.filter_eq_self.2 hless, List.filter_eq_nil_iff.2 hmore,
    List.append_nil]

/-- a listing that a batch has prepared: the entries of the input directory, the pattern files among them as before -/
theorem listing_of_prepare (hnamed : σ.Named) {listing : List FileName}
    (h : (prepare input directory).runOn σ = (.ok listing, σ')) :
    σ'.tree.locate σ'.workingDirectory input = .ok (input.location σ.workingDirectory) ∧
      σ'.tree.get? (input.location σ.workingDirectory) = some .directory ∧
      listing = σ'.tree.namesIn (input.location σ.workingDirectory) ∧ ∀ name ∈ listing, name.IsEntry := by
  obtain ⟨hkept, htree, hlist⟩ := prepare_cases h
  obtain ⟨place, hplace, hdirectory, rfl⟩ := FileTree.list_eq_ok.1 (hlist listing rfl)
  rw [FileTree.location_of_locate hplace]
  refine ⟨hkept ▸ hplace, hdirectory, rfl, fun name hname => ?_⟩
  have hnamed' : σ'.tree.Named := htree ▸ hnamed.tree.ensureDirectories hnamed.workingDirectory directory
  have hroot : place ++ [name] ≠ [] := List.append_ne_nil_of_right_ne_nil _ (List.cons_ne_nil _ _)
  have hentry := (FileTree.mem_places_iff hroot).2 (FileTree.mem_namesIn.1 hname)
  exact hnamed' _ hentry name (List.mem_append_right _ List.mem_cons_self)

/-- how far a batch comes with a listing, in terms of the pattern files in it -/
theorem Course.concluded {output : Option Path} {t : FileTree} {done : List Rendering} {mid : Session}
    {result : Except ConversionError (List Path)}
    (ht : t = (σ.tree.ensureDirectories σ.workingDirectory (batchDirectory input output)).2) (hsame : mid.Same σ')
    (h : Course input (batchDirectory input output) debug settings (input.location σ.workingDirectory) t done
      (t.namesIn (input.location σ.workingDirectory)) mid result) :
    let names := (t.namesIn (input.location σ.workingDirectory)).filter
      (t.holdsPattern (input.location σ.workingDirectory))
    done.map Rendering.name <+: names ∧ Concluded input output debug settings names σ σ' done result := by
  intro names
  cases h with
  | finished hall =>
    have hall : done.map Rendering.name = names := hall
    have hpaths : done.map (fun r => input.child r.name) = names.map input.child := by
      rw [← hall, List.map_map]
      rfl
    rw [hpaths]
    exact ⟨hall ▸ List.prefix_rfl, .finished hall⟩
  | @stopped before after name e earlier hlisting hbefore hkept hstop =>
    have hsplit : names = done.map Rendering.name ++ (name :: after).filter
        (t.holdsPattern (input.location σ.workingDirectory)) := by
      rw [hbefore, ← List.filter_append, ← hlisting]
    refine ⟨⟨_, hsplit.symm⟩, ?_⟩
    cases hstop with
    | length hlong _ =>
      refine .length hlong ?_ ?_
      · rw [← ht, ← FileTree.mem_namesIn, hlisting]
        exact List.mem_append_right _ List.mem_cons_self
      · have hsorted := FileTree.pairwise_namesIn t (input.location σ.workingDirectory)
        rw [hlisting] at hsorted
        rw [hbefore, ← filter_before hsorted, ← hlisting]
    | conversion hpattern hrun hfailed =>
      rw [hkept] at hpattern
      rw [List.filter_cons_of_pos hpattern] at hsplit
      exact .failed hsplit (congrArg Prod.fst hrun) (hfailed.trans hsame)

/-- **What a batch over a directory can do.** It makes directories, and then converts pattern files, up to one that
fails or to an entry with too long a path. -/
theorem convertDirectory_cases {output : Option Path} (hnamed : σ.Named) {names : List FileName}
    (hnames : σ.tree.Patterns (input.location σ.workingDirectory) names)
    {result : Except ConversionError (List Path)}
    (h : (convertDirectory input output debug settings).runOn σ = (result, σ')) :
    ∃ done : List Rendering,
      (∀ r ∈ done, ∃ raw, σ.tree.get? (input.location σ.workingDirectory ++ [r.name]) = some (.file raw) ∧
        Yields raw r.name settings r.bytes) ∧
      done.map Rendering.name <+: names ∧
      σ'.workingDirectory = σ.workingDirectory ∧
      σ'.tree = (σ.tree.ensureDirectories σ.workingDirectory (batchDirectory input output)).2.stored debug
        ((batchDirectory input output).location σ.workingDirectory) done ∧
      Concluded input output debug settings names σ σ' done result := by
  rcases convertDirectory_split h with ⟨cause, hprepare, rfl⟩ | ⟨listing, ready, mid, hprepare, hpatterns, hsame⟩
  · obtain ⟨hkept, htree, -⟩ := prepare_cases hprepare
    refine ⟨[], fun _ hr => (List.not_mem_nil hr).elim, List.nil_prefix, hkept, ?_, ?_⟩
    · rw [htree, FileTree.stored_nil]
    · exact .unprepared (congrArg Prod.fst hprepare) rfl
  obtain ⟨hkept, htree, -⟩ := prepare_cases hprepare
  obtain ⟨hplace, hdirectory, rfl, hentries⟩ := listing_of_prepare hnamed hprepare
  -- making directories changes no file, so that the listing holds the pattern files that there were
  have hwidens := FileTree.widens_ensureDirectories σ.tree σ.workingDirectory (batchDirectory input output)
  rw [← htree] at hwidens
  obtain rfl := hnames.unique (FileTree.patterns_of_listing fun _ _ => hwidens.file_iff)
  obtain ⟨done, hdone, hstill, -, hstored, hcourse⟩ := convertPatterns_cases hplace hdirectory hentries hpatterns
  obtain ⟨hleading, hconcluded⟩ := hcourse.concluded htree hsame
  rw [hkept, htree] at hstored
  refine ⟨done, fun r hr => ?_, hleading, hsame.workingDirectory.trans (hstill.trans hkept),
    hsame.tree.trans hstored, hconcluded⟩
  obtain ⟨-, raw, hraw, hyields⟩ := hdone r hr
  exact ⟨raw, hwidens.file_iff.1 hraw, hyields⟩

/-- **When a batch over a directory succeeds.** It does if the directories can be made and listed, no path is too long,
and every pattern file is ready. -/
theorem convertDirectory_of_ready {output : Option Path} (hnamed : σ.Named) {names listing : List FileName}
    (hnames : σ.tree.Patterns (input.location σ.workingDirectory) names) {prepared : Session}
    (hprepare : (prepare input (batchDirectory input output)).runOn σ = (.ok listing, prepared))
    (hshort : ∀ name ∈ listing, ¬(input.child name).TooLong)
    (hready : ∀ name ∈ names,
      Ready prepared input (batchDirectory input output) settings (input.location σ.workingDirectory) name) :
    (convertDirectory input output false settings).Returns σ (names.map input.child) := by
  obtain ⟨hplace, hdirectory, rfl, hentries⟩ := listing_of_prepare hnamed hprepare
  have hwidens := FileTree.widens_ensureDirectories σ.tree σ.workingDirectory (batchDirectory input output)
  rw [← (prepare_cases hprepare).2.1] at hwidens
  obtain rfl := hnames.unique (FileTree.patterns_of_listing fun _ _ => hwidens.file_iff)
  have hpatterns := convertPatterns_of_ready hplace hdirectory hentries hshort hready
  rw [convertDirectory_eq]
  have hfirst : (prepare input (batchDirectory input output)).Returns σ _ := ⟨prepared, hprepare⟩
  refine (hfirst.adapt _).bind fun mid hmid => ?_
  rw [Action.runOn_adapt, hprepare] at hmid
  cases hmid
  exact hpatterns.bind fun converted _ => returns_remark input _ converted

/-- **A batch converts the first of the pattern files.** Whatever a batch ends with, it has converted the first of the
pattern files of its directory, each as it was in the beginning. It has written their MIDI files and made the directory
of these, and has changed nothing else, no pattern file in particular. If it returns, it returns all of them. Otherwise
it could not prepare the directories, and has converted none; or the next pattern file has failed; or it has come to an
entry with too long a path, whatever that is. -/
theorem convertDirectory_prefix {output : Option Path} (hnamed : σ.Named) {names : List FileName}
    (hnames : σ.tree.Patterns (input.location σ.workingDirectory) names)
    {result : Except ConversionError (List Path)}
    (h : (convertDirectory input output false settings).runOn σ = (result, σ')) :
    ∃ done : List Rendering,
      done.map Rendering.name <+: names ∧
      (∀ r ∈ done, ∃ raw, σ.tree.get? (input.location σ.workingDirectory ++ [r.name]) = some (.file raw) ∧
        Yields raw r.name settings r.bytes) ∧
      (∀ r ∈ done, ∃ target, (input.child r.name).outputPath (some (batchDirectory input output)) = .ok target ∧
        target.location σ.workingDirectory =
          (batchDirectory input output).location σ.workingDirectory ++ [r.name.midi]) ∧
      σ.tree.Receives σ'.tree σ.workingDirectory (batchDirectory input output) done ∧
      (∀ name ∈ names, σ'.tree.get? (input.location σ.workingDirectory ++ [name]) =
        σ.tree.get? (input.location σ.workingDirectory ++ [name])) ∧
      Concluded input output false settings names σ σ' done result := by
  obtain ⟨done, hdone, hleading, -, htree, hconcluded⟩ := convertDirectory_cases hnamed hnames h
  have hreceives : σ.tree.Receives σ'.tree σ.workingDirectory (batchDirectory input output) done := by
    rw [htree]
    exact (FileTree.widens_ensureDirectories _ _ _).receives done
  refine ⟨done, hleading, hdone, fun r _ => ?_, hreceives, fun name hname => ?_, hconcluded⟩
  · refine ⟨_, Path.outputPath_child input _ r.name, ?_⟩
    rw [Path.location_child, FileName.step_midi]
  · obtain ⟨hpattern, raw, hraw⟩ := (hnames.mem_iff name).1 hname
    rw [hraw, hreceives.pattern hpattern hraw]

/-! ## One pattern file -/

/-- a disk with the opening in a directory of its own -/
def shelf : Session where
  tree := (FileTree.empty.put ["in".toList] .directory).put ["in".toList, "opening.pat".toList]
    (.file (Text.encode "SD f\nSD x\n".toList))
  workingDirectory := []

def shelved : Path := ⟨.workingDirectory, ["in".toList]⟩

/-- the path of a directory beside it, which is not there -/
def aside : Path := ⟨.workingDirectory, ["out".toList]⟩

def prepared : Session := ((prepare shelved aside).runOn shelf).2

theorem named_shelf : shelf.Named := ⟨by decide, by decide⟩

theorem prepare_shelf : (prepare shelved aside).runOn shelf = (.ok ["opening.pat".toList], prepared) := by
  have h : ((prepare shelved aside).runOn shelf).1 = .ok ["opening.pat".toList] := by decide +kernel
  exact Prod.ext h rfl

theorem patterns_shelf : shelf.tree.Patterns (shelved.location shelf.workingDirectory) ["opening.pat".toList] := by
  have hlisting : (shelf.tree.namesIn (shelved.location shelf.workingDirectory)).filter
      (shelf.tree.holdsPattern (shelved.location shelf.workingDirectory)) = ["opening.pat".toList] := by decide +kernel
  exact hlisting ▸ FileTree.patterns_of_listing fun _ _ => Iff.rfl

theorem get?_shelf {raw : List UInt8}
    (h : shelf.tree.get? (shelved.location shelf.workingDirectory ++ ["opening.pat".toList]) = some (.file raw)) :
    raw = Text.encode "SD f\nSD x\n".toList := by
  have hcontent : shelf.tree.get? (shelved.location shelf.workingDirectory ++ ["opening.pat".toList]) =
      some (.file (Text.encode "SD f\nSD x\n".toList)) := by decide
  exact FileTree.Entry.file.inj (Option.some.inj (h.symm.trans hcontent))

theorem place_shelf : aside.location shelf.workingDirectory ++ [FileName.midi "opening.pat".toList] =
    ["out".toList, "opening.mid".toList] := by
  decide

theorem ready_shelf : Ready prepared shelved aside Settings.standard ["in".toList] "opening.pat".toList := by
  obtain ⟨bytes, hmidi⟩ := exists_toMidi_opening
  have hraw : prepared.tree.get? ["in".toList, "opening.pat".toList] =
      some (.file (Text.encode "SD f\nSD x\n".toList)) := by decide +kernel
  have hdecode : Text.decode (Text.encode "SD f\nSD x\n".toList) = .ok "SD f\nSD x\n".toList := by decide
  have hparse : (Pattern.parse "SD f\nSD x\n".toList).result = .ok opening := by decide
  have htarget : prepared.tree.locate prepared.workingDirectory (aside.child (FileName.midi "opening.pat".toList)) =
      .ok ["out".toList, "opening.mid".toList] := by decide +kernel
  have hnot : prepared.tree.get? ["out".toList, "opening.mid".toList] ≠ some .directory := by decide +kernel
  exact ⟨by decide, ⟨_, bytes, hraw, _, _, hdecode, hparse, hmidi⟩, ⟨_, htarget, hnot⟩⟩

/-- a batch over the directory returns the path of the opening -/
theorem returns_shelf :
    (convertDirectory shelved (some aside) false Settings.standard).Returns shelf
      [shelved.child "opening.pat".toList] := by
  refine convertDirectory_of_ready named_shelf patterns_shelf prepare_shelf ?_ ?_
  · decide
  · intro name hname
    obtain rfl := List.mem_singleton.1 hname
    exact ready_shelf

/-- it has written the MIDI file of the opening, which is as it was -/
theorem convertDirectory_prefix_shelf : ∃ σ' bytes,
    (convertDirectory shelved (some aside) false Settings.standard).runOn shelf =
      (.ok [shelved.child "opening.pat".toList], σ') ∧
    Yields (Text.encode "SD f\nSD x\n".toList) "opening.pat".toList Settings.standard bytes ∧
    σ'.tree.get? ["out".toList, "opening.mid".toList] = some (.file bytes) ∧
    σ'.tree.get? ["in".toList, "opening.pat".toList] = shelf.tree.get? ["in".toList, "opening.pat".toList] := by
  obtain ⟨σ', hrun⟩ := returns_shelf
  obtain ⟨done, -, hdone, -, hreceives, hkept, hconcluded⟩ :=
    convertDirectory_prefix named_shelf patterns_shelf hrun
  have hnames : done.map Rendering.name = ["opening.pat".toList] := by
    cases hconcluded with
    | finished hall => exact hall
  obtain ⟨r, rfl, hname⟩ := List.map_eq_singleton_iff.1 hnames
  obtain ⟨raw, hraw, hyields⟩ := hdone r List.mem_cons_self
  have hwritten := hreceives.written r.name.midi r.bytes ((FileTree.lastOf_singleton r _).trans (if_pos rfl))
  rw [hname] at hraw hyields hwritten
  obtain rfl := get?_shelf hraw
  exact ⟨σ', r.bytes, hrun, hyields, place_shelf ▸ hwritten, hkept _ List.mem_cons_self⟩

/-! ## An entry with too long a path -/

/-- goes into a directory and out again, some times -/
def turns : Nat → List FileName
  | 0 => []
  | n + 1 => "in".toList :: "..".toList :: turns n

/-- a directory without pattern files -/
def annotated : Session where
  tree := (FileTree.empty.put ["in".toList] .directory).put ["in".toList, "notes.txt".toList] (.file [])
  workingDirectory := []

/-- a path to it that takes some turns before -/
def winding (n : Nat) : Path := ⟨.workingDirectory, turns n ++ ["in".toList]⟩

theorem follow_turns (n : Nat) (names : List FileName) :
    annotated.tree.follow [] (turns n ++ names) = annotated.tree.follow [] names := by
  induction n with
  | zero => rfl
  | succ n ih => exact ih

theorem mem_turns {n : Nat} {name : FileName} (h : name ∈ turns n) : name = "in".toList ∨ name = "..".toList := by
  induction n with
  | zero => exact (List.not_mem_nil h).elim
  | succ n ih =>
    rcases List.mem_cons.1 h with rfl | h
    · exact .inl rfl
    · rcases List.mem_cons.1 h with rfl | h
      · exact .inr rfl
      · exact ih h

theorem length_encode_turns (n : Nat) {names : List FileName} (h : names ≠ []) :
    (Text.encode (Text.joinWith '/' (turns n ++ names))).length =
      6 * n + (Text.encode (Text.joinWith '/' names)).length := by
  induction n with
  | zero => simp [turns]
  | succ n ih =>
    have hne : turns n ++ names ≠ [] := List.append_ne_nil_of_right_ne_nil _ h
    have hturn : Text.joinWith '/' (turns (n + 1) ++ names) =
        "in/../".toList ++ Text.joinWith '/' (turns n ++ names) := by
      show Text.joinWith '/' ("in".toList :: "..".toList :: (turns n ++ names)) = _
      rw [Text.joinWith_cons _ (List.cons_ne_nil _ _), Text.joinWith_cons _ hne]
      rfl
    have hlength : (Text.encode "in/../".toList).length = 6 := by decide
    rw [hturn, Text.encode_append, List.length_append, ih, hlength]
    omega

theorem tooLong_winding {n : Nat} (h : maxPathBytes < 6 * n + 12) : ((winding n).child "notes.txt".toList).TooLong := by
  have hlength : (Text.encode ((winding n).child "notes.txt".toList).write).length =
      6 * n + (Text.encode "in/notes.txt".toList).length := by
    rw [Path.write_child, winding, List.append_assoc]
    exact length_encode_turns n (List.cons_ne_nil _ _)
  have hrest : (Text.encode "in/notes.txt".toList).length = 12 := by decide
  rwa [Path.TooLong, hlength, hrest]

theorem locate_winding {n : Nat} (h : 6 * n + 2 ≤ maxPathBytes) :
    annotated.tree.locate annotated.workingDirectory (winding n) = .ok ["in".toList] := by
  have hwrite : (winding n).write = Text.joinWith '/' (turns n ++ ["in".toList]) :=
    Path.write_child ⟨.workingDirectory, turns n⟩ "in".toList
  have hlength : (Text.encode (winding n).write).length = 6 * n + (Text.encode "in".toList).length := by
    rw [hwrite]
    exact length_encode_turns n (List.cons_ne_nil _ _)
  have hrest : (Text.encode "in".toList).length = 2 := by decide
  refine FileTree.locate_eq_ok.2 ⟨?_, ?_, ?_, ?_⟩
  · rw [Path.nul_mem_write]
    rintro ⟨name, hname, hnul⟩
    have hword : name = "in".toList ∨ name = "..".toList := by
      rcases List.mem_append.1 hname with hname | hname
      · exact mem_turns hname
      · exact .inl (List.mem_singleton.1 hname)
    rcases hword with rfl | rfl
    · exact absurd hnul (by decide)
    · exact absurd hnul (by decide)
  · intro hempty
    rw [hempty, hrest] at hlength
    exact absurd hlength (Nat.succ_ne_zero _).symm
  · rw [Path.TooLong, hlength, hrest]
    exact Nat.not_lt.2 h
  · exact (follow_turns n ["in".toList]).trans (by decide)

theorem runOn_winding {n : Nat} (hshort : 6 * n + 2 ≤ maxPathBytes) (hlong : maxPathBytes < 6 * n + 12) :
    annotated.tree.Patterns ((winding n).location annotated.workingDirectory) [] ∧
    ∃ σ', (convertDirectory (winding n) (some aside) false Settings.standard).runOn annotated =
      (.error (tooLong ((winding n).child "notes.txt".toList)), σ') := by
  have hplace := locate_winding hshort
  have hlocation := FileTree.location_of_locate hplace
  have hin : annotated.tree.get? ["in".toList] = some .directory := by decide
  have hentry : FileName.IsEntry "notes.txt".toList := by decide
  refine ⟨?_, ?_⟩
  · have hlisting : (annotated.tree.namesIn ["in".toList]).filter (annotated.tree.holdsPattern ["in".toList]) = [] := by
      decide +kernel
    have hpatterns : annotated.tree.Patterns ["in".toList] _ := FileTree.patterns_of_listing fun _ _ => Iff.rfl
    rw [hlisting] at hpatterns
    exact hlocation ▸ hpatterns
  · have hmade : (annotated.tree.ensureDirectories annotated.workingDirectory aside).1 = .ok () := by decide +kernel
    have hnames : (annotated.tree.ensureDirectories annotated.workingDirectory aside).2.namesIn ["in".toList] =
        ["notes.txt".toList] := by decide +kernel
    have hprepare := runOn_prepare (winding n) aside annotated
    have hretains := (FileTree.widens_ensureDirectories annotated.tree annotated.workingDirectory aside).retains
    rcases hrun : annotated.tree.ensureDirectories annotated.workingDirectory aside with ⟨made, tree⟩
    rw [hrun] at hmade hnames hprepare hretains
    obtain rfl : made = .ok () := hmade
    have hlist : tree.list annotated.workingDirectory (winding n) = .ok ["notes.txt".toList] :=
      FileTree.list_eq_ok.2 ⟨_, hretains.locate hplace, hretains _ hin, hnames.symm⟩
    have hvisit : (visit aside false Settings.standard ((winding n).child "notes.txt".toList)).runOn
        { annotated with tree } = (.error (tooLong ((winding n).child "notes.txt".toList)), { annotated with tree }) :=
      visit_of_tooLong (hretains.locate hplace) (hretains _ hin) hentry (tooLong_winding hlong)
    simp only [hlist] at hprepare
    refine ⟨{ annotated with tree }, ?_⟩
    rw [convertDirectory_eq, Action.runOn_bind, Action.runOn_adapt]
    rw [show batchDirectory (winding n) (some aside) = aside from rfl, hprepare]
    show Action.runOn (convertPatterns aside false Settings.standard [(winding n).child "notes.txt".toList] >>= _) _ = _
    rw [Action.runOn_bind, convertPatterns_cons, Action.runOn_bind, hvisit]

/-- a batch can fail at a file that is no pattern file, and even where there is no pattern file at all -/
theorem convertDirectory_winding :
    annotated.tree.Patterns ((winding 681).location annotated.workingDirectory) [] ∧
    ∃ σ', (convertDirectory (winding 681) (some aside) false Settings.standard).runOn annotated =
      (.error (tooLong ((winding 681).child "notes.txt".toList)), σ') :=
  runOn_winding (by decide) (by decide)

end Drumline

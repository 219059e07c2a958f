/-
Converting the pattern files of a directory, entry by entry. `visit_cases` is all that can become of one entry:
its path is too long to look at it, it is no pattern file, its conversion fails, or it is converted. None of that
changes another pattern file of the directory, because no MIDI file has the name of one (`holdsPattern_stored`).

By induction on the entries, a batch converts pattern files up to an entry that stops it, each from what it held in the
beginning (`convertPatterns_cases`). It comes to the end if nothing stands in the way of any of them
(`convertPatterns_of_ready`).
-/
import Drumline.Proofs.FileName.Suffix
import Drumline.Proofs.FileTree.Growth
import Drumline.Proofs.Session.Conversion

namespace Drumline

/-! ## Model -/

/-- whether the names in a session can be those of entries -/
structure Session.Named (σ : Session) : Prop where
  tree : σ.tree.Named
  workingDirectory : Location.Named σ.workingDirectory

theorem Session.Named.of_same {σ σ' : Session} (hnamed : σ.Named) (h : σ.Same σ') : σ'.Named :=
  ⟨h.tree ▸ hnamed.tree, h.workingDirectory ▸ hnamed.workingDirectory⟩

/-- whether bytes are the file of the pattern in some content, under the name of a pattern file -/
def Yields (raw : List UInt8) (name : FileName) (settings : Settings) (bytes : List UInt8) : Prop :=
  ∃ content p, Text.decode raw = .ok content ∧ (Pattern.parse content).result = .ok p ∧
    p.toMidi (String.ofList name) settings = .ok bytes

/-- a pattern file that has been converted, and the bytes of its MIDI file -/
structure Rendering where
  name : FileName
  bytes : List UInt8

/-- the bytes of the last of some renderings whose MIDI file has a name -/
def lastOf (done : List Rendering) (name : FileName) : Option (List UInt8) :=
  (done.reverse.find? fun r => r.name.midi = name).map Rendering.bytes

namespace FileTree

/-- whether there is a pattern file of a name directly inside a location -/
def holdsPattern (t : FileTree) (place : Location) (name : FileName) : Bool :=
  name.isPattern && match t.get? (place ++ [name]) with
    | some (.file _) => true
    | _ => false

/-- whether some names are those of the pattern files directly inside a location, in the order of their code points -/
structure Patterns (t : FileTree) (place : Location) (names : List FileName) : Prop where
  sorted : names.Pairwise (· < ·)
  mem_iff : ∀ name, name ∈ names ↔ name.isPattern = true ∧ ∃ raw, t.get? (place ++ [name]) = some (.file raw)

/-- the tree with the MIDI files of renderings at a location, one written after another -/
def putAll (t : FileTree) (place : Location) (done : List Rendering) : FileTree :=
  done.foldl (fun t r => t.put (place ++ [r.name.midi]) (.file r.bytes)) t

/-- the tree with the MIDI files of renderings at a location, unless these are only shown -/
def stored (t : FileTree) (debug : Bool) (place : Location) (done : List Rendering) : FileTree :=
  if debug then t else t.putAll place done

/-- whether a tree is another in which a directory has been made, and the MIDI files of renderings written: each holds
the bytes of the last one of its name, and all else is as it was -/
structure Receives (before after : FileTree) (workingDirectory : Location) (directory : Path) (done : List Rendering) :
    Prop where
  written : ∀ name bytes, lastOf done name = some bytes →
    after.get? (directory.location workingDirectory ++ [name]) = some (.file bytes)
  others : ∀ place, (∀ r ∈ done, place ≠ directory.location workingDirectory ++ [r.name.midi]) →
    after.get? place = before.get? place ∨
      before.get? place = none ∧ after.get? place = some .directory ∧
        ∃ p : Path, p.OnWayTo directory ∧ p.location workingDirectory = place

end FileTree

/-- the error of an entry whose path is too long to look at it -/
def tooLong (path : Path) : ConversionError := .unreported (.file (.problem .nameTooLong path.text))

/-- makes the directory of the MIDI files, and lists that of the patterns -/
def prepare (input directory : Path) : Action FileError (List FileName) := do
  Action.makeDirectories directory
  Action.listDirectory input

/-- converts a path if it is that of a pattern file, and says whether it is -/
def visit (directory : Path) (debug : Bool) (settings : Settings) (input : Path) : Action ConversionError Bool := do
  let found ← (Action.isFile input).adapt fun error => .unreported (.file error)
  if found && (input.name?.getD []).isPattern then
    let target ← Action.ofExcept .nameless (input.outputPath (some directory))
    let _ ← convertFile input (some target) debug settings
    return true
  else return false

/-! ## Pattern files of a directory -/

namespace FileTree

variable {t t' : FileTree} {place other : Location} {name : FileName} {names names' : List FileName}

theorem holdsPattern_iff : t.holdsPattern place name = true ↔
    name.isPattern = true ∧ ∃ raw, t.get? (place ++ [name]) = some (.file raw) := by
  unfold holdsPattern
  rw [Bool.and_eq_true]
  refine and_congr_right fun _ => ?_
  split
  · rename_i raw hraw
    exact ⟨fun _ => ⟨raw, hraw⟩, fun _ => rfl⟩
  · rename_i hnot
    exact ⟨nofun, fun ⟨raw, hraw⟩ => (hnot raw hraw).elim⟩

theorem Patterns.unique (h : t.Patterns place names) (h' : t.Patterns place names') : names = names' :=
  h.sorted.eq_of_mem_iff h'.sorted fun name => (h.mem_iff name).trans (h'.mem_iff name).symm

/-- what a listing holds of pattern files, if these are those of a tree -/
theorem patterns_of_listing
    (h : ∀ name raw, t'.get? (place ++ [name]) = some (.file raw) ↔ t.get? (place ++ [name]) = some (.file raw)) :
    t.Patterns place ((t'.namesIn place).filter (t'.holdsPattern place)) where
  sorted := (pairwise_namesIn t' place).filter _
  mem_iff name := by
    rw [List.mem_filter, mem_namesIn, holdsPattern_iff]
    constructor
    · rintro ⟨-, hpattern, raw, hraw⟩
      exact ⟨hpattern, raw, (h name raw).1 hraw⟩
    · rintro ⟨hpattern, raw, hraw⟩
      have hraw' := (h name raw).2 hraw
      exact ⟨by rw [hraw']; nofun, hpattern, raw, hraw'⟩

theorem exists_patterns (t : FileTree) (place : Location) : ∃ names, t.Patterns place names :=
  ⟨_, patterns_of_listing fun _ _ => Iff.rfl⟩

/-- the place of a MIDI file is not that of a pattern file -/
theorem ne_place_midi {name pattern : FileName} (h : pattern.isPattern = true) :
    place ++ [pattern] ≠ other ++ [name.midi] := by
  intro he
  rw [(List.append_inj' he rfl).2 |> List.singleton_inj.1, FileName.isPattern_midi] at h
  cases h

variable {done : List Rendering} {bytes : List UInt8}

theorem get?_putAll_of_ne (h : ∀ r ∈ done, other ≠ place ++ [r.name.midi]) :
    (t.putAll place done).get? other = t.get? other := by
  induction done generalizing t with
  | nil => rfl
  | cons r done ih =>
    refine (ih fun r' hr' => h r' (List.mem_cons_of_mem _ hr')).trans ?_
    exact get?_put_of_ne t _ (h r List.mem_cons_self)

/-- MIDI files leave the pattern files as they are -/
theorem get?_stored {pattern : FileName} (h : pattern.isPattern = true) (t : FileTree) (debug : Bool) (other : Location)
    (done : List Rendering) : (t.stored debug other done).get? (place ++ [pattern]) = t.get? (place ++ [pattern]) := by
  cases debug with
  | true => rfl
  | false => exact get?_putAll_of_ne fun _ _ => ne_place_midi h

theorem holdsPattern_stored (t : FileTree) (debug : Bool) (other : Location) (done : List Rendering)
    (place : Location) :
    (t.stored debug other done).holdsPattern place = t.holdsPattern place := by
  funext pattern
  unfold holdsPattern
  cases h : pattern.isPattern with
  | false => rfl
  | true => rw [get?_stored h]

theorem stored_cons (t : FileTree) (debug : Bool) (place : Location) (r : Rendering) (done : List Rendering) :
    t.stored debug place (r :: done) = (t.stored debug place [r]).stored debug place done := by
  cases debug with
  | true => rfl
  | false => rfl

theorem stored_nil (t : FileTree) (debug : Bool) (place : Location) : t.stored debug place [] = t := by
  cases debug with
  | true => rfl
  | false => rfl

/-! ## MIDI files in a directory -/

theorem lastOf_append (done others : List Rendering) (name : FileName) :
    lastOf (done ++ others) name = (lastOf others name).or (lastOf done name) := by
  unfold lastOf
  rw [List.reverse_append, List.find?_append, Option.map_or]

theorem lastOf_singleton (r : Rendering) (name : FileName) :
    lastOf [r] name = if r.name.midi = name then some r.bytes else none := by
  unfold lastOf
  by_cases h : r.name.midi = name
  · simp [h]
  · simp [h]

theorem lastOf_cons (r : Rendering) (done : List Rendering) (name : FileName) :
    lastOf (r :: done) name = (lastOf done name).or (if r.name.midi = name then some r.bytes else none) := by
  rw [← lastOf_singleton]
  exact lastOf_append [r] done name

theorem lastOf_eq_none : lastOf done name = none ↔ ∀ r ∈ done, r.name.midi ≠ name := by
  unfold lastOf
  rw [Option.map_eq_none_iff, List.find?_eq_none]
  simp

theorem get?_putAll_of_lastOf (h : lastOf done name = some bytes) :
    (t.putAll place done).get? (place ++ [name]) = some (.file bytes) := by
  induction done generalizing t with
  | nil => cases h
  | cons r done ih =>
    rw [lastOf_cons] at h
    cases hlast : lastOf done name with
    | some others =>
      rw [hlast] at h
      exact ih (h ▸ hlast)
    | none =>
      rw [hlast, Option.none_or] at h
      split_ifs at h with hname
      obtain rfl := Option.some.inj h
      have hkept : ∀ r' ∈ done, place ++ [name] ≠ place ++ [r'.name.midi] := by
        intro r' hr' he
        exact lastOf_eq_none.1 hlast r' hr' (List.singleton_inj.1 (List.append_cancel_left he)).symm
      subst hname
      refine (get?_putAll_of_ne hkept).trans ?_
      exact get?_put_self t _ (List.append_ne_nil_of_right_ne_nil _ (List.cons_ne_nil _ _))

/-- renderings are put where no directory is -/
theorem retains_putAll (h : ∀ r ∈ done, t.get? (place ++ [r.name.midi]) ≠ some .directory) :
    t.Retains (t.putAll place done) := by
  intro other hother
  rw [get?_putAll_of_ne fun r hr he => h r hr (he ▸ hother)]
  exact hother

/-- and no directory is put -/
theorem directory_of_putAll (h : (t.putAll place done).get? other = some .directory) :
    t.get? other = some .directory := by
  induction done generalizing t with
  | nil => exact h
  | cons r done ih =>
    have hput := ih h
    by_cases hother : other = place ++ [r.name.midi]
    · rw [hother, get?_put_self t _ (List.append_ne_nil_of_right_ne_nil _ (List.cons_ne_nil _ _))] at hput
      cases hput
    · rwa [get?_put_of_ne t _ hother] at hput

/-- a tree that is widened, and then written into -/
theorem Widens.receives {workingDirectory : Location} {directory : Path}
    (h : t.Widens t' workingDirectory directory) (done : List Rendering) :
    t.Receives (t'.putAll (directory.location workingDirectory) done) workingDirectory directory done where
  written _ _ hlast := get?_putAll_of_lastOf hlast
  others place hplace := by
    rw [get?_putAll_of_ne hplace]
    exact h place

/-- no pattern file is written -/
theorem Receives.pattern {workingDirectory : Location} {directory : Path}
    (h : t.Receives t' workingDirectory directory done) (hpattern : name.isPattern = true) {raw : List UInt8}
    (hraw : t.get? (place ++ [name]) = some (.file raw)) : t'.get? (place ++ [name]) = some (.file raw) := by
  rcases h.others (place ++ [name]) fun r _ => ne_place_midi hpattern with hsame | ⟨hnone, -, -⟩
  · rw [hsame, hraw]
  · rw [hraw] at hnone
    cases hnone

end FileTree

/-! ## One entry -/

/-- why a batch ends at an entry, and where: its path is too long, or it is a pattern file and its conversion fails -/
inductive StopsAt (input directory : Path) (debug : Bool) (settings : Settings) (place : Location) (name : FileName)
    (σ σ' : Session) : ConversionError → Prop where
  | length (hlong : (input.child name).TooLong) (hsame : σ.Same σ') :
    StopsAt input directory debug settings place name σ σ' (tooLong (input.child name))
  | conversion {e : ConversionError} (hpattern : σ.tree.holdsPattern place name = true)
      (hrun : (convertFile (input.child name) (some (directory.child name.midi)) debug settings).runOn σ =
        (.error e, σ'))
      (hsame : σ.Same σ') :
    StopsAt input directory debug settings place name σ σ' e

theorem StopsAt.same {input directory : Path} {debug : Bool} {settings : Settings} {place : Location} {name : FileName}
    {σ σ' : Session} {e : ConversionError} (h : StopsAt input directory debug settings place name σ σ' e) :
    σ.Same σ' := by
  cases h with
  | length _ hsame => exact hsame
  | conversion _ _ hsame => exact hsame

/-- what can become of an entry of the input directory, and what the batch knows of it then -/
inductive Visited (input directory : Path) (debug : Bool) (settings : Settings) (place : Location) (name : FileName)
    (σ σ' : Session) : Except ConversionError Bool → Prop where
  | stopped {e : ConversionError} (h : StopsAt input directory debug settings place name σ σ' e) :
    Visited input directory debug settings place name σ σ' (.error e)
  | passed (hnot : σ.tree.holdsPattern place name = false) (hsame : σ' = σ) :
    Visited input directory debug settings place name σ σ' (.ok false)
  | converted {raw bytes : List UInt8} (hpattern : σ.tree.holdsPattern place name = true)
      (hraw : σ.tree.get? (place ++ [name]) = some (.file raw)) (hyields : Yields raw name settings bytes)
      (hplaced : σ'.workingDirectory = σ.workingDirectory ∧ σ.tree.Retains σ'.tree)
      (htree : σ'.tree = σ.tree.stored debug (directory.location σ.workingDirectory) [⟨name, bytes⟩]) :
    Visited input directory debug settings place name σ σ' (.ok true)

variable {σ σ' : Session} {input directory : Path} {debug : Bool} {settings : Settings} {place : Location}
  {name : FileName}

theorem find_child (hplace : σ.tree.locate σ.workingDirectory input = .ok place)
    (hdirectory : σ.tree.get? place = some .directory) (hname : name.IsEntry) :
    σ.tree.find σ.workingDirectory (input.child name) =
      if (input.child name).TooLong then .error (.problem .nameTooLong (input.child name).text)
      else match σ.tree.get? (place ++ [name]) with
        | some entry => .ok entry
        | none => .error (.problem .missing (input.child name).text) := by
  unfold FileTree.find
  rw [FileTree.locate_child hplace hdirectory hname]
  split_ifs
  · rfl
  · rfl

theorem isFile_child (hplace : σ.tree.locate σ.workingDirectory input = .ok place)
    (hdirectory : σ.tree.get? place = some .directory) (hname : name.IsEntry) (hshort : ¬(input.child name).TooLong) :
    ∃ found, (Action.isFile (input.child name)).runOn σ = (.ok found, σ) ∧
      (found && name.isPattern) = σ.tree.holdsPattern place name := by
  rw [Action.runOn_isFile, find_child hplace hdirectory hname, if_neg hshort, FileTree.holdsPattern, Bool.and_comm]
  cases σ.tree.get? (place ++ [name]) with
  | none => exact ⟨false, rfl, rfl⟩
  | some entry =>
    cases entry with
    | file raw => exact ⟨true, rfl, rfl⟩
    | directory => exact ⟨false, rfl, rfl⟩

theorem read_child (hplace : σ.tree.locate σ.workingDirectory input = .ok place)
    (hdirectory : σ.tree.get? place = some .directory) (hname : name.IsEntry) {raw : List UInt8}
    (h : σ.tree.read σ.workingDirectory (input.child name) = .ok raw) :
    σ.tree.get? (place ++ [name]) = some (.file raw) := by
  obtain ⟨spot, hspot, hraw⟩ := FileTree.read_eq_ok.1 h
  rw [FileTree.locate_child hplace hdirectory hname] at hspot
  split_ifs at hspot
  exact Except.ok.inj hspot ▸ hraw

/-- what a file directly inside a directory holds is read at its path -/
theorem read_of_child (hplace : σ.tree.locate σ.workingDirectory input = .ok place)
    (hdirectory : σ.tree.get? place = some .directory) (hname : name.IsEntry) (hshort : ¬(input.child name).TooLong)
    {raw : List UInt8} (hraw : σ.tree.get? (place ++ [name]) = some (.file raw)) :
    σ.tree.read σ.workingDirectory (input.child name) = .ok raw := by
  refine FileTree.read_eq_ok.2 ⟨_, ?_, hraw⟩
  rw [FileTree.locate_child hplace hdirectory hname, if_neg hshort]

theorem sourceName_child (input : Path) (name : FileName) : (input.child name).sourceName = String.ofList name := by
  unfold Path.sourceName
  rw [Path.name?_child]
  rfl

/-- what can become of a pattern file -/
theorem convertChild_cases (hplace : σ.tree.locate σ.workingDirectory input = .ok place)
    (hdirectory : σ.tree.get? place = some .directory) (hname : name.IsEntry)
    (hpattern : σ.tree.holdsPattern place name = true) {result : Except ConversionError (List UInt8)}
    (h : (convertFile (input.child name) (some (directory.child name.midi)) debug settings).runOn σ = (result, σ')) :
    Visited input directory debug settings place name σ σ' (result.map fun _ => true) := by
  rcases convertFile_cases h with ⟨e, rfl, hsame⟩ |
    ⟨bytes, rfl, ⟨raw, content, p, hread, hdecode, hparse, hmidi⟩, heffect⟩
  · exact .stopped (.conversion hpattern h hsame)
  have hraw := read_child hplace hdirectory hname hread
  rw [sourceName_child] at hmidi
  have hyields : Yields raw name settings bytes := ⟨content, p, hdecode, hparse, hmidi⟩
  rcases heffect with ⟨rfl, hsame⟩ | ⟨rfl, target, htarget, hwrite, hplaced⟩
  · exact .converted hpattern hraw hyields ⟨hsame.workingDirectory, fun _ h => hsame.tree ▸ h⟩ hsame.tree
  · obtain rfl : directory.child name.midi = target := by
      rcases htarget with htarget | ⟨htarget, -⟩
      · exact Option.some.inj htarget
      · cases htarget
    obtain ⟨spot, hspot, hnot, htree⟩ := FileTree.write_eq_ok.1 hwrite
    have hlocation := FileTree.location_of_locate hspot
    rw [Path.location_child, FileName.step_midi] at hlocation
    subst hlocation
    exact .converted hpattern hraw hyields ⟨hplaced, htree ▸ FileTree.retains_put hnot⟩ htree

/-- an entry whose path is too long to look at it -/
theorem visit_of_tooLong (hplace : σ.tree.locate σ.workingDirectory input = .ok place)
    (hdirectory : σ.tree.get? place = some .directory) (hname : name.IsEntry) (hlong : (input.child name).TooLong) :
    (visit directory debug settings (input.child name)).runOn σ = (.error (tooLong (input.child name)), σ) := by
  have hfound : (Action.isFile (input.child name)).runOn σ =
      (.error (.problem .nameTooLong (input.child name).text), σ) := by
    rw [Action.runOn_isFile, find_child hplace hdirectory hname, if_pos hlong]
  unfold visit
  rw [Action.runOn_bind, Action.runOn_adapt, hfound]
  rfl

theorem visit_of_short (hplace : σ.tree.locate σ.workingDirectory input = .ok place)
    (hdirectory : σ.tree.get? place = some .directory) (hname : name.IsEntry) (hshort : ¬(input.child name).TooLong) :
    (visit directory debug settings (input.child name)).runOn σ =
      if σ.tree.holdsPattern place name then
        (convertFile (input.child name) (some (directory.child name.midi)) debug settings >>= fun _ =>
          pure true).runOn σ
      else (.ok false, σ) := by
  obtain ⟨found, hfound, hholds⟩ := isFile_child hplace hdirectory hname hshort
  unfold visit
  rw [Action.runOn_bind, Action.runOn_adapt, hfound]
  simp only [Except.mapError, Path.name?_child, Option.getD_some, hholds]
  split
  · rw [Path.outputPath_child]
    rfl
  · rfl

/-- **What can become of an entry.** -/
theorem visit_cases (hplace : σ.tree.locate σ.workingDirectory input = .ok place)
    (hdirectory : σ.tree.get? place = some .directory) (hname : name.IsEntry) {result : Except ConversionError Bool}
    (h : (visit directory debug settings (input.child name)).runOn σ = (result, σ')) :
    Visited input directory debug settings place name σ σ' result := by
  by_cases hlong : (input.child name).TooLong
  · rw [visit_of_tooLong hplace hdirectory hname hlong] at h
    cases h
    exact .stopped (.length hlong (.refl σ))
  rw [visit_of_short hplace hdirectory hname hlong] at h
  split at h
  · rename_i hpattern
    obtain ⟨inner, hconvert, rfl⟩ := Action.map_cases h
    exact convertChild_cases hplace hdirectory hname hpattern hconvert
  · rename_i hpattern
    cases h
    exact .passed (Bool.eq_false_of_not_eq_true hpattern) rfl

/-! ## All entries -/

theorem convertPatterns_cons (directory : Path) (debug : Bool) (settings : Settings) (path : Path) (paths : List Path) :
    convertPatterns directory debug settings (path :: paths) = do
      let converted ← visit directory debug settings path
      let others ← convertPatterns directory debug settings paths
      return if converted then path :: others else others := by
  unfold visit
  rw [convertPatterns, bind_assoc]
  refine bind_congr fun found => ?_
  split
  · simp only [bind_assoc, pure_bind]
    rfl
  · rw [pure_bind]
    exact (bind_pure _).symm

/-- a batch fails where the visit of an entry does, and those before it do not -/
theorem convertPatterns_error_iff {paths : List Path} {e : ConversionError} :
    (convertPatterns directory debug settings paths).runOn σ = (.error e, σ') ↔
      ∃ before path after done mid, paths = before ++ path :: after ∧
        (convertPatterns directory debug settings before).runOn σ = (.ok done, mid) ∧
        (visit directory debug settings path).runOn mid = (.error e, σ') := by
  induction paths generalizing σ with
  | nil =>
    constructor
    · intro h
      cases h
    · rintro ⟨before, path, after, done, mid, h, -⟩
      exact (List.append_ne_nil_of_right_ne_nil _ (List.cons_ne_nil _ _) h.symm).elim
  | cons first paths ih =>
    rw [convertPatterns_cons]
    constructor
    · intro h
      rcases Action.bind_cases h with ⟨_, hvisit, he⟩ | ⟨converted, visited, hvisit, h⟩
      · cases he
        exact ⟨[], first, paths, [], σ, rfl, rfl, hvisit⟩
      · obtain ⟨inner, hrest, he⟩ := Action.map_cases h
        obtain rfl := map_eq_error.1 he.symm
        obtain ⟨before, path, after, done, mid, rfl, hbefore, hpath⟩ := ih.1 hrest
        refine ⟨first :: before, path, after, if converted then first :: done else done, mid, rfl, ?_, hpath⟩
        rw [convertPatterns_cons, Action.runOn_bind, hvisit]
        simp only [Action.runOn_bind, hbefore, Action.runOn_pure]
    · rintro ⟨_ | ⟨other, before⟩, path, after, done, mid, hsplit, hbefore, hpath⟩
      · cases hsplit
        cases hbefore
        rw [Action.runOn_bind, hpath]
      · cases hsplit
        rw [convertPatterns_cons] at hbefore
        rcases Action.bind_cases hbefore with ⟨_, -, he⟩ | ⟨converted, visited, hvisit, hbefore⟩
        · cases he
        · obtain ⟨inner, hrest, hdone⟩ := Action.map_cases hbefore
          obtain ⟨others, rfl, -⟩ := map_eq_ok.1 hdone.symm
          rw [Action.runOn_bind, hvisit]
          simp only [Action.runOn_bind, ih.2 ⟨before, path, after, others, mid, rfl, hrest, hpath⟩]

/-- how far a batch comes with some entries: through all of them, or up to one that stops it -/
inductive Course (input directory : Path) (debug : Bool) (settings : Settings) (place : Location) (t : FileTree)
    (done : List Rendering) (names : List FileName) (σ' : Session) : Except ConversionError (List Path) → Prop where
  | finished (hall : done.map Rendering.name = names.filter (t.holdsPattern place)) :
    Course input directory debug settings place t done names σ' (.ok (done.map fun r => input.child r.name))
  | stopped {before after : List FileName} {name : FileName} {e : ConversionError} {mid : Session}
      (hnames : names = before ++ name :: after)
      (hbefore : done.map Rendering.name = before.filter (t.holdsPattern place))
      (hkept : mid.tree.holdsPattern place = t.holdsPattern place)
      (h : StopsAt input directory debug settings place name mid σ' e) :
    Course input directory debug settings place t done names σ' (.error e)

/-- one entry more, in front, and what has become of it -/
theorem Course.cons {t t' : FileTree} {first done : List Rendering} {names : List FileName}
    {result : Except ConversionError (List Path)}
    (h : Course input directory debug settings place t' done names σ' result)
    (hkept : t'.holdsPattern place = t.holdsPattern place)
    (hfirst : first.map Rendering.name = [name].filter (t.holdsPattern place)) :
    Course input directory debug settings place t (first ++ done) (name :: names) σ'
      (result.map fun others => (first.map fun r => input.child r.name) ++ others) := by
  have hfilter (names : List FileName) (hdone : done.map Rendering.name = names.filter (t'.holdsPattern place)) :
      (first ++ done).map Rendering.name = (name :: names).filter (t.holdsPattern place) := by
    rw [List.map_append, hfirst, hdone, hkept, ← List.filter_append]
    rfl
  cases h with
  | finished hall =>
    have hpaths : Course input directory debug settings place t (first ++ done) (name :: names) σ'
        (.ok ((first ++ done).map fun r => input.child r.name)) := .finished (hfilter names hall)
    rw [List.map_append] at hpaths
    exact hpaths
  | stopped hnames hbefore hmid h =>
    exact .stopped (by rw [hnames]; rfl) (hfilter _ hbefore) (hmid.trans hkept) h

/-- **What a batch can do.** It converts the pattern files among some entries, or those before one that stops it. Each
is converted as it is in the beginning, and nothing is written but the MIDI files. -/
theorem convertPatterns_cases (hplace : σ.tree.locate σ.workingDirectory input = .ok place)
    (hdirectory : σ.tree.get? place = some .directory) {names : List FileName} (hnames : ∀ name ∈ names, name.IsEntry)
    {result : Except ConversionError (List Path)}
    (h : (convertPatterns directory debug settings (names.map input.child)).runOn σ = (result, σ')) :
    ∃ done : List Rendering,
      (∀ r ∈ done, r.name.isPattern = true ∧
        ∃ raw, σ.tree.get? (place ++ [r.name]) = some (.file raw) ∧ Yields raw r.name settings r.bytes) ∧
      σ'.workingDirectory = σ.workingDirectory ∧ σ.tree.Retains σ'.tree ∧
      σ'.tree = σ.tree.stored debug (directory.location σ.workingDirectory) done ∧
      Course input directory debug settings place σ.tree done names σ' result := by
  induction names generalizing σ result with
  | nil =>
    cases h
    exact ⟨[], fun _ hr => (List.not_mem_nil hr).elim, rfl, fun _ h => h, (FileTree.stored_nil _ _ _).symm,
      .finished rfl⟩
  | cons name names ih =>
    have hname := hnames name List.mem_cons_self
    have hothers := fun other hother => hnames other (List.mem_cons_of_mem _ hother)
    rw [List.map_cons, convertPatterns_cons] at h
    rcases Action.bind_cases h with ⟨e, hvisit, rfl⟩ | ⟨converted, mid, hvisit, h⟩
    · cases visit_cases hplace hdirectory hname hvisit with
      | stopped hstop =>
        have hsame := hstop.same
        refine ⟨[], fun _ hr => (List.not_mem_nil hr).elim, hsame.workingDirectory, fun _ h => hsame.tree ▸ h, ?_, ?_⟩
        · rw [hsame.tree, FileTree.stored_nil]
        · exact .stopped (List.nil_append _).symm rfl rfl hstop
    obtain ⟨others, hrest, rfl⟩ := Action.map_cases h
    cases visit_cases hplace hdirectory hname hvisit with
    | passed hnot hsame =>
      rw [hsame] at hrest
      obtain ⟨done, hdone, hkept, hretains, htree, hcourse⟩ := ih hplace hdirectory hothers hrest
      have hnone : ([] : List Rendering).map Rendering.name = [name].filter (σ.tree.holdsPattern place) := by
        simp [hnot]
      exact ⟨done, hdone, hkept, hretains, htree, hcourse.cons rfl hnone⟩
    | @converted raw bytes hpattern hraw hyields hplaced htree =>
      have hplace' := hplaced.2.locate hplace
      rw [← hplaced.1] at hplace'
      obtain ⟨done, hdone, hkept, hretains, hrestTree, hcourse⟩ := ih hplace' (hplaced.2 _ hdirectory) hothers hrest
      have hone : [Rendering.mk name bytes].map Rendering.name = [name].filter (σ.tree.holdsPattern place) := by
        simp [hpattern]
      have hholds : mid.tree.holdsPattern place = σ.tree.holdsPattern place := by
        rw [htree, FileTree.holdsPattern_stored]
      refine ⟨⟨name, bytes⟩ :: done, ?_, hkept.trans hplaced.1, fun other h => hretains other (hplaced.2 other h), ?_,
        hcourse.cons hholds hone⟩
      · rintro r (_ | ⟨_, hr⟩)
        · exact ⟨(FileTree.holdsPattern_iff.1 hpattern).1, raw, hraw, hyields⟩
        · obtain ⟨hname, raw', hraw', hyields'⟩ := hdone r hr
          rw [htree, FileTree.get?_stored hname] at hraw'
          exact ⟨hname, raw', hraw', hyields'⟩
      · rw [hrestTree, htree, hplaced.1, ← FileTree.stored_cons]

/-- what a pattern file that nothing stands in the way of needs: its path can be followed, it has a MIDI file, and that
has a place where no directory is -/
structure Ready (σ : Session) (input directory : Path) (settings : Settings) (place : Location) (name : FileName) :
    Prop where
  short : ¬(input.child name).TooLong
  yields : ∃ raw bytes, σ.tree.get? (place ++ [name]) = some (.file raw) ∧ Yields raw name settings bytes
  target : ∃ spot, σ.tree.locate σ.workingDirectory (directory.child name.midi) = .ok spot ∧
    σ.tree.get? spot ≠ some .directory

theorem Ready.place_target (h : Ready σ input directory settings place name) :
    σ.tree.locate σ.workingDirectory (directory.child name.midi) =
        .ok (directory.location σ.workingDirectory ++ [name.midi]) ∧
      σ.tree.get? (directory.location σ.workingDirectory ++ [name.midi]) ≠ some .directory := by
  obtain ⟨spot, hspot, hnot⟩ := h.target
  have hlocation := FileTree.location_of_locate hspot
  rw [Path.location_child, FileName.step_midi] at hlocation
  subst hlocation
  exact ⟨hspot, hnot⟩

/-- a pattern file that was ready before some others were converted is converted after them -/
theorem Ready.convertFile (hplace : σ.tree.locate σ.workingDirectory input = .ok place)
    (hdirectory : σ.tree.get? place = some .directory) (hname : name.IsEntry) (hpattern : name.isPattern = true)
    (hready : Ready σ input directory settings place name) {done : List Rendering}
    (hdone : ∀ r ∈ done, Ready σ input directory settings place r.name)
    (hkept : σ'.workingDirectory = σ.workingDirectory)
    (htree : σ'.tree = σ.tree.putAll (directory.location σ.workingDirectory) done) :
    ∃ bytes, (convertFile (input.child name) (some (directory.child name.midi)) false settings).Returns σ' bytes := by
  have hretains : σ.tree.Retains σ'.tree := by
    rw [htree]
    exact FileTree.retains_putAll fun r hr => (hdone r hr).place_target.2
  obtain ⟨raw, bytes, hraw, content, p, hdecode, hparse, hmidi⟩ := hready.yields
  obtain ⟨hspot, hnot⟩ := hready.place_target
  have hplace' := hretains.locate hplace
  have hspot' := hretains.locate hspot
  rw [← hkept] at hplace' hspot'
  have hraw' : σ'.tree.get? (place ++ [name]) = some (.file raw) := by
    rw [htree, FileTree.get?_putAll_of_ne fun r _ => FileTree.ne_place_midi hpattern]
    exact hraw
  have hread := read_of_child hplace' (hretains _ hdirectory) hname hready.short hraw'
  rw [← sourceName_child input name] at hmidi
  have hnot' : σ'.tree.get? (directory.location σ.workingDirectory ++ [name.midi]) ≠ some .directory := by
    rw [htree]
    exact fun hdirectory' => hnot (FileTree.directory_of_putAll hdirectory')
  rw [hkept] at hspot'
  exact ⟨bytes, convertFile_of_renders ⟨raw, content, p, hread, hdecode, hparse, hmidi⟩ (.inl rfl)
    (FileTree.write_of_locate (hkept ▸ hspot') hnot')⟩

/-- **When a batch succeeds.** It does if no path is too long, and every pattern file is ready. -/
theorem convertPatterns_of_ready (hplace : σ.tree.locate σ.workingDirectory input = .ok place)
    (hdirectory : σ.tree.get? place = some .directory) {names : List FileName} (hnames : ∀ name ∈ names, name.IsEntry)
    (hshort : ∀ name ∈ names, ¬(input.child name).TooLong)
    (hready : ∀ name ∈ names.filter (σ.tree.holdsPattern place), Ready σ input directory settings place name) :
    (convertPatterns directory false settings (names.map input.child)).Returns σ
      ((names.filter (σ.tree.holdsPattern place)).map input.child) := by
  rcases hrun : (convertPatterns directory false settings (names.map input.child)).runOn σ with ⟨result, σ'⟩
  obtain ⟨done, -, hkept, -, htree, hcourse⟩ := convertPatterns_cases hplace hdirectory hnames hrun
  cases hcourse with
  | finished hall =>
    rw [← hall, List.map_map]
    exact ⟨σ', hrun⟩
  | @stopped before after name e mid hsplit hbefore hmid hstop =>
    have hname : name ∈ names := hsplit ▸ List.mem_append_right before List.mem_cons_self
    cases hstop with
    | length hlong _ => exact (hshort name hname hlong).elim
    | conversion hpattern hconvert hsame =>
      rw [hmid] at hpattern
      have hdone : ∀ r ∈ done, Ready σ input directory settings place r.name := by
        intro r hr
        have hmem : r.name ∈ before.filter (σ.tree.holdsPattern place) := hbefore ▸ List.mem_map_of_mem hr
        refine hready r.name (List.mem_filter.2 ⟨?_, (List.mem_filter.1 hmem).2⟩)
        exact hsplit ▸ List.mem_append_left _ (List.mem_filter.1 hmem).1
      obtain ⟨bytes, σ'', hreturns⟩ := (hready name (List.mem_filter.2 ⟨hname, hpattern⟩)).convertFile hplace hdirectory
        (hnames name hname) (FileTree.holdsPattern_iff.1 hpattern).1 hdone
        (hsame.workingDirectory.symm.trans hkept) (hsame.tree.symm.trans htree)
      rw [hconvert] at hreturns
      cases hreturns

end Drumline

/-
The MIDI files that a batch leaves. Two pattern files have one MIDI file between them only where one is named by the
suffix alone and the other by the suffix twice (`FileName.midi_eq_midi_iff`). In the order of the names the second of
the two is converted later, so that the first one's MIDI file is lost (`lastOf_sorted`).

Main result: `convertDirectory_outputs`, with that exception every pattern file keeps a MIDI file of its own.
-/
import Drumline.Proofs.Session.Directory

namespace Drumline

open FileName (patternSuffix)

/-! ## Model -/

/-- whether both names are there that have one MIDI file between them -/
def Doubled (names : List FileName) : Prop := patternSuffix ∈ names ∧ patternSuffix ++ patternSuffix ∈ names

instance (names : List FileName) : Decidable (Doubled names) := inferInstanceAs (Decidable (_ ∧ _))

/-! ## Renderings in the order of names -/

namespace FileTree

/-- the bytes of a rendering after which no other has its MIDI file -/
theorem lastOf_of_later {before after : List Rendering} {r : Rendering}
    (h : ∀ later ∈ after, later.name.midi ≠ r.name.midi) :
    lastOf (before ++ r :: after) r.name.midi = some r.bytes := by
  rw [lastOf_append, lastOf_cons, lastOf_eq_none.2 h, if_pos rfl, Option.none_or, Option.some_or]

/-- of renderings in the order of names each is the last of its MIDI file, unless it is named by the suffix alone and
another by the suffix twice -/
theorem lastOf_sorted {done : List Rendering} (hsorted : (done.map Rendering.name).Pairwise (· < ·))
    (hpatterns : ∀ r ∈ done, r.name.isPattern = true) {r : Rendering} (hr : r ∈ done)
    (hkept : r.name = patternSuffix → patternSuffix ++ patternSuffix ∉ done.map Rendering.name) :
    lastOf done r.name.midi = some r.bytes := by
  obtain ⟨before, after, rfl⟩ := List.append_of_mem hr
  refine lastOf_of_later fun later hlater hmidi => ?_
  have hmem : later ∈ before ++ r :: after := List.mem_append_right _ (List.mem_cons_of_mem _ hlater)
  have hless : r.name < later.name := by
    rw [List.map_append, List.map_cons, List.pairwise_append, List.pairwise_cons] at hsorted
    exact hsorted.2.1.1 later.name (List.mem_map_of_mem hlater)
  rcases (FileName.midi_eq_midi_iff (hpatterns later hmem) (hpatterns r hr)).1 hmidi with hsame | ⟨hl, hs⟩ | ⟨hl, hs⟩
  · rw [hsame] at hless
    exact List.lt_irrefl _ hless
  · rw [hl, hs] at hless
    exact absurd hless (by decide)
  · exact hkept hs (hl ▸ List.mem_map_of_mem hmem)

end FileTree

/-! ## Names and their MIDI files -/

/-- names of pattern files have MIDI files of their own if and only if not both are there that share one -/
theorem midi_injective_iff {names : List FileName} (hpatterns : ∀ name ∈ names, name.isPattern = true) :
    (∀ name ∈ names, ∀ other ∈ names, name.midi = other.midi → name = other) ↔ ¬Doubled names := by
  constructor
  · rintro hinjective ⟨hone, htwo⟩
    exact absurd (hinjective _ hone _ htwo (by decide)) (by decide)
  · intro h name hname other hother hmidi
    rcases (FileName.midi_eq_midi_iff (hpatterns name hname) (hpatterns other hother)).1 hmidi with
      hsame | ⟨hl, hs⟩ | ⟨hl, hs⟩
    · exact hsame
    · exact (h ⟨hl ▸ hname, hs ▸ hother⟩).elim
    · exact (h ⟨hs ▸ hother, hl ▸ hname⟩).elim

/-- how many names MIDI files have -/
theorem length_dedup_midi {names : List FileName} (hnodup : names.Nodup)
    (hpatterns : ∀ name ∈ names, name.isPattern = true) :
    (names.map FileName.midi).dedup.length = names.length - if Doubled names then 1 else 0 := by
  by_cases h : Doubled names
  · obtain ⟨hone, htwo⟩ := h
    -- without the name that is the suffix alone no two names have one MIDI file
    have hrest : ((names.erase patternSuffix).map FileName.midi).Nodup := by
      refine (hnodup.erase _).map_on fun name hname other hother hmidi => ?_
      obtain ⟨hne, hname⟩ := hnodup.mem_erase_iff.1 hname
      obtain ⟨hne', hother⟩ := hnodup.mem_erase_iff.1 hother
      rcases (FileName.midi_eq_midi_iff (hpatterns name hname) (hpatterns other hother)).1 hmidi with
        hsame | ⟨hl, -⟩ | ⟨-, hs⟩
      · exact hsame
      · exact (hne hl).elim
      · exact (hne' hs).elim
    have hshared : FileName.midi patternSuffix ∈ (names.erase patternSuffix).map FileName.midi := by
      rw [show FileName.midi patternSuffix = FileName.midi (patternSuffix ++ patternSuffix) by decide]
      exact List.mem_map_of_mem (hnodup.mem_erase_iff.2 ⟨by decide, htwo⟩)
    rw [((List.perm_cons_erase hone).map FileName.midi).dedup.length_eq, List.map_cons, List.dedup_cons_of_mem hshared,
      hrest.dedup, List.length_map, List.length_erase_of_mem hone, if_pos ⟨hone, htwo⟩]
  · have hall : (names.map FileName.midi).Nodup := hnodup.map_on ((midi_injective_iff hpatterns).2 h)
    rw [hall.dedup, List.length_map, if_neg h, Nat.sub_zero]

/-! ## Batches -/

/-- where the MIDI file of a path goes, given the directory for it -/
def outputPlace (workingDirectory : Location) (directory path : Path) : Except NamelessPath Location :=
  (path.outputPath (some directory)).map fun target => target.location workingDirectory

theorem outputPlace_child (workingDirectory : Location) (directory input : Path) (name : FileName) :
    outputPlace workingDirectory directory (input.child name) =
      .ok (directory.location workingDirectory ++ [name.midi]) := by
  rw [outputPlace, Path.outputPath_child, ← FileName.step_midi, ← Path.location_child]
  rfl

/-- two pattern files of a directory have one path for their MIDI files if and only if these have one name -/
theorem outputPath_child_eq_iff (input directory : Path) (name other : FileName) :
    (input.child name).outputPath (some directory) = (input.child other).outputPath (some directory) ↔
      name.midi = other.midi := by
  rw [Path.outputPath_child, Path.outputPath_child, Except.ok.injEq]
  refine ⟨fun h => ?_, fun h => by rw [h]⟩
  exact List.singleton_inj.1 (List.append_cancel_left (congrArg Path.names h))

/-- **The MIDI files that a batch leaves.** The pattern files of a directory have paths of their own for their MIDI
files if and only if not both are there of which one is named by the suffix alone and the other by the suffix twice. So
a batch that returns leaves as many MIDI files as it returns paths, or one less where both are there. Each path has a
MIDI file with the bytes of its own pattern, but for the one named by the suffix alone where the other is there too. -/
theorem convertDirectory_outputs {input : Path} {output : Option Path} {σ : Session} {names : List FileName}
    (hnamed : σ.Named) (hnames : σ.tree.Patterns (input.location σ.workingDirectory) names) :
    ((∀ name ∈ names, ∀ other ∈ names, (input.child name).outputPath (some (batchDirectory input output)) =
        (input.child other).outputPath (some (batchDirectory input output)) → name = other) ↔ ¬Doubled names) ∧
    ∀ (settings : Settings) (paths : List Path) (σ' : Session),
      (convertDirectory input output false settings).runOn σ = (.ok paths, σ') →
        paths = names.map input.child ∧
        (paths.map (outputPlace σ.workingDirectory (batchDirectory input output))).dedup.length =
          paths.length - (if Doubled names then 1 else 0) ∧
        ∀ name ∈ names, (name = patternSuffix → ¬Doubled names) →
          ∃ place raw bytes,
            outputPlace σ.workingDirectory (batchDirectory input output) (input.child name) = .ok place ∧
            σ.tree.get? (input.location σ.workingDirectory ++ [name]) = some (.file raw) ∧
            Yields raw name settings bytes ∧ σ'.tree.get? place = some (.file bytes) := by
  have hpatterns : ∀ name ∈ names, name.isPattern = true := fun name hname => ((hnames.mem_iff name).1 hname).1
  refine ⟨?_, fun settings paths σ' h => ?_⟩
  · simp only [outputPath_child_eq_iff]
    exact midi_injective_iff hpatterns
  obtain ⟨done, hdone, -, -, htree, hconcluded⟩ := convertDirectory_cases hnamed hnames h
  have hwidens := FileTree.widens_ensureDirectories σ.tree σ.workingDirectory (batchDirectory input output)
  obtain ⟨hall, rfl⟩ : done.map Rendering.name = names ∧ paths = names.map input.child := by
    cases hconcluded with
    | finished hall => exact ⟨hall, rfl⟩
  refine ⟨rfl, ?_, fun name hname hkept => ?_⟩
  · have hplaces : (names.map input.child).map (outputPlace σ.workingDirectory (batchDirectory input output)) =
        (names.map FileName.midi).map fun midi =>
          .ok ((batchDirectory input output).location σ.workingDirectory ++ [midi]) := by
      rw [List.map_map, List.map_map]
      exact List.map_congr_left fun name _ => outputPlace_child _ _ _ _
    have hinjective : Function.Injective fun midi : FileName => (Except.ok
        ((batchDirectory input output).location σ.workingDirectory ++ [midi]) : Except NamelessPath Location) :=
      fun _ _ heq => List.singleton_inj.1 (List.append_cancel_left (Except.ok.inj heq))
    have hnodup : names.Nodup := hnames.sorted.imp fun hless => Std.ne_of_lt hless
    rw [hplaces, List.dedup_map_of_injective hinjective, List.length_map, List.length_map,
      length_dedup_midi hnodup hpatterns]
  · obtain ⟨r, hr, rfl⟩ := List.mem_map.1 (hall ▸ hname)
    obtain ⟨raw, hraw, hyields⟩ := hdone r hr
    have hlast : lastOf done r.name.midi = some r.bytes := by
      have hrendered (r : Rendering) (hr : r ∈ done) : r.name.isPattern = true :=
        hpatterns _ (hall ▸ List.mem_map_of_mem hr)
      refine FileTree.lastOf_sorted (hall ▸ hnames.sorted) hrendered hr ?_
      intro hsuffix htwice
      exact hkept hsuffix ⟨hsuffix ▸ hname, hall ▸ htwice⟩
    refine ⟨_, raw, r.bytes, outputPlace_child _ _ _ _, hraw, hyields, ?_⟩
    rw [htree]
    exact (hwidens.receives done).written _ _ hlast

/-! ## Fixed names -/

/-- the pattern files of the shelf have MIDI files of their own, and so it has after a batch the only one it holds -/
theorem convertDirectory_outputs_shelf :
    (∀ name ∈ ["opening.pat".toList], ∀ other ∈ ["opening.pat".toList], (shelved.child name).outputPath (some aside) =
      (shelved.child other).outputPath (some aside) → name = other) ∧
    ∃ paths σ',
    (convertDirectory shelved (some aside) false Settings.standard).runOn shelf = (.ok paths, σ') ∧
    (paths.map (outputPlace shelf.workingDirectory aside)).dedup.length = 1 ∧
    ∃ bytes, Yields (Text.encode "SD f\nSD x\n".toList) "opening.pat".toList Settings.standard bytes ∧
      σ'.tree.get? ["out".toList, "opening.mid".toList] = some (.file bytes) := by
  have hsingle : ¬Doubled ["opening.pat".toList] := by decide
  obtain ⟨hdistinct, hbatches⟩ :=
    @convertDirectory_outputs shelved (some aside) shelf _ named_shelf patterns_shelf
  refine ⟨hdistinct.2 hsingle, ?_⟩
  obtain ⟨σ', hrun⟩ := returns_shelf
  obtain ⟨-, hcount, hown⟩ := hbatches _ _ _ hrun
  obtain ⟨place, raw, bytes, hplace, hraw, hyields, hbytes⟩ := hown _ List.mem_cons_self fun _ => hsingle
  obtain rfl := get?_shelf hraw
  rw [outputPlace_child] at hplace
  obtain rfl := Except.ok.inj hplace
  exact ⟨_, σ', hrun, hcount, bytes, hyields, place_shelf ▸ hbytes⟩

/-- two pattern files can have one MIDI file between them -/
theorem outputPath_collides :
    ¬∀ name other : FileName, name.isPattern = true → other.isPattern = true →
      (shelved.child name).outputPath (some aside) = (shelved.child other).outputPath (some aside) → name = other := by
  intro h
  exact absurd (h ".pat".toList ".pat.pat".toList (by decide) (by decide) (by decide)) (by decide)

end Drumline

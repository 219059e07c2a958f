/-
How the loading of a configuration file ends, whatever the reader, the disk and the bytes of the file are. It returns
the options that the document of the file sets, or it fails with a report (`ConfigReports`), or it passes on an error as
it comes (`ConfigLeaves`): that of bytes that are no text, of a document with a defect, or of an unknown key that cannot
be shown. What is rejected and what is a defect, and which of several faults counts, is the reader's to say.

`returns_of_sets`, `ConfigReports.raises` and `ConfigLeaves.raises` are the cases of `runOn_loadOptions`, which is the
loading as a function, and `loads_or_fails` puts them together. For the reader of the project, `ConfigLeaves.blames`
says what in a text is to blame for a defect.

Main result: `loadOptions_closure`. That it fails with reports only, if the reader rejects whatever it does not read, is
refuted by a file of one byte (`raises_decoding`).

Premise: the reader is lawful (`Yaml.Reader.Lawful`).
-/
import Drumline.Proofs.FileTree.Growth
import Drumline.Proofs.Options.Config
import Drumline.Proofs.Yaml.Document

namespace Drumline

/-! ## Model -/

/-- whether a document sets options: none if it is empty, and otherwise those that its keys name -/
inductive Yaml.Sets : Value → List (String × Value) → Prop
  | nothing : Sets .null []
  | options (settings : List (OptionName × Value)) :
    Sets (.mapping (settings.map fun setting => (.text setting.1.name, setting.2)))
      (settings.map fun setting => (setting.1.name, setting.2))

/-- the keys of a mapping that name no option -/
def strangersOf (pairs : List (Value × Value)) : List Value :=
  (pairs.map (·.1)).filter fun key => (OptionName.ofKey? key).isNone

/-- whether a path leads to a file of some bytes -/
def Session.Holds (σ : Session) (path : String) (raw : List UInt8) : Prop :=
  σ.tree.read σ.workingDirectory (.ofText path.toList) = .ok raw

/-- whether a path leads to a file with a document of some value -/
def Session.HasDocument (σ : Session) (reader : Yaml.Reader) (path : String) (value : Value) : Prop :=
  ∃ raw, σ.Holds path raw ∧ reader raw = .ok value

/-- the reports of loading a configuration file, each with what it comes of -/
inductive ConfigReports (reader : Yaml.Reader) (σ : Session) (path : String) : ConfigError → Prop
  | notFound (h : σ.tree.contains σ.workingDirectory (.ofText path.toList) = false) :
    ConfigReports reader σ path (.notFound path)
  | unreadable (h : σ.tree.isDirectory σ.workingDirectory (.ofText path.toList) = true) :
    ConfigReports reader σ path (.unreadable path (.problem .isDirectory path))
  | malformed {raw : List UInt8} (hraw : σ.Holds path raw) (h : reader raw = .error (.document .malformed)) :
    ConfigReports reader σ path (.malformed path)
  | noMapping {value : Value} (hvalue : σ.HasDocument reader path value) (hnull : value ≠ .null)
    (hmapping : ∀ pairs, value ≠ .mapping pairs) : ConfigReports reader σ path (.noMapping path)
  | unknown {pairs : List (Value × Value)} {names : List String} (hvalue : σ.HasDocument reader path (.mapping pairs))
    (hnames : (strangersOf pairs).mapM Value.plain? = .ok names) (hne : names ≠ []) :
    ConfigReports reader σ path (.unknown path (sortTexts names))

/-- the errors that the loading of a configuration file passes on, each with what it comes of -/
inductive ConfigLeaves (reader : Yaml.Reader) (σ : Session) (path : String) : ConfigError → Prop
  /-- bytes that are not UTF-8 -/
  | decoding {raw : List UInt8} {error : Text.DecodingError} (hraw : σ.Holds path raw)
    (h : reader raw = .error (.undecodable error)) : ConfigLeaves reader σ path (.decoding error)
  /-- a document with a defect -/
  | value {raw : List UInt8} {cause : Yaml.Defect} (hraw : σ.Holds path raw)
    (h : reader raw = .error (.document (.defective cause))) : ConfigLeaves reader σ path (.value cause)
  /-- an unknown key that cannot be shown -/
  | unwritable {pairs : List (Value × Value)} {error : UnwritableInteger}
    (hvalue : σ.HasDocument reader path (.mapping pairs))
    (hkey : (strangersOf pairs).mapM Value.plain? = .error error) : ConfigLeaves reader σ path (.unwritable error)

variable {reader : Yaml.Reader} {σ : Session} {path : String} {raw : List UInt8} {value : Value}
  {config : List (String × Value)} {e : ConfigError}

/-! ## Documents -/

theorem strangersOf_settings (settings : List (OptionName × Value)) :
    strangersOf (settings.map fun setting => (.text setting.1.name, setting.2)) = [] := by
  rw [strangersOf, List.filter_eq_nil_iff]
  intro key hkey
  rw [List.map_map] at hkey
  obtain ⟨setting, -, rfl⟩ := List.mem_map.1 hkey
  have hoption : OptionName.ofKey? (.text setting.1.name) = some setting.1 := OptionName.ofKey?_eq_some.2 rfl
  rw [Function.comp_apply, hoption]
  exact Bool.false_ne_true

/-- a mapping without strangers sets options -/
theorem exists_settings {pairs : List (Value × Value)} (h : strangersOf pairs = []) :
    ∃ settings : List (OptionName × Value), pairs = settings.map fun setting => (.text setting.1.name, setting.2) := by
  induction pairs with
  | nil => exact ⟨[], rfl⟩
  | cons pair pairs ih =>
    obtain ⟨key, value⟩ := pair
    rw [strangersOf, List.map_cons] at h
    cases hoption : OptionName.ofKey? key with
    | none =>
      rw [List.filter_cons_of_pos (by rw [hoption]; rfl)] at h
      cases h
    | some option =>
      rw [List.filter_cons_of_neg (by rw [hoption]; exact Bool.false_ne_true)] at h
      obtain ⟨settings, rfl⟩ := ih h
      obtain rfl := OptionName.ofKey?_eq_some.1 hoption
      exact ⟨(option, value) :: settings, rfl⟩

theorem optionsOfPairs_settings (path : String) (settings : List (OptionName × Value)) :
    optionsOfPairs path (settings.map fun setting => (.text setting.1.name, setting.2)) =
      .ok (settings.map fun setting => (setting.1.name, setting.2)) := by
  have hnames : ((strangersOf (settings.map fun setting => (.text setting.1.name, setting.2))).mapM
      Value.plain?).mapError ConfigError.unwritable = .ok [] := by
    rw [strangersOf_settings]
    rfl
  refine bind_eq_ok.2 ⟨[], hnames, ?_⟩
  rw [if_neg (fun h => h rfl)]
  refine congrArg Except.ok ?_
  rw [List.filterMap_map, ← List.filterMap_eq_map]
  refine List.filterMap_congr fun setting _ => ?_
  have hoption : OptionName.ofKey? (.text setting.1.name) = some setting.1 := OptionName.ofKey?_eq_some.2 rfl
  simp [hoption]

/-- a document that sets options is read as them, and an empty one as none -/
theorem optionsOfDocument_of_sets (path : String) (h : Yaml.Sets value config) :
    optionsOfDocument path value = .ok none ∧ config = [] ∨ optionsOfDocument path value = .ok (some config) := by
  cases h with
  | nothing => exact .inl ⟨rfl, rfl⟩
  | options settings =>
    refine .inr ?_
    show (optionsOfPairs path _).map some = _
    rw [optionsOfPairs_settings]
    rfl

/-! ## Loading a file -/

theorem Session.Holds.contains (h : σ.Holds path raw) :
    σ.tree.contains σ.workingDirectory (.ofText path.toList) = true := by
  have hfind := FileTree.find_eq_ok.2 (FileTree.read_eq_ok.1 h)
  rw [FileTree.contains, hfind]
  rfl

theorem runOn_loadOptions_of_refusal (hraw : σ.Holds path raw) {refusal : Yaml.Refusal}
    (h : reader raw = .error refusal) :
    ((loadOptions reader path).runOn σ).1 = .error (.ofRefusal path refusal) := by
  rw [runOn_loadOptions, hraw.contains, if_pos rfl, hraw]
  simp only [h]

theorem runOn_loadOptions_of_document (h : σ.HasDocument reader path value) :
    ((loadOptions reader path).runOn σ).1 = (optionsOfDocument path value).map fun config => config.getD [] := by
  obtain ⟨raw, hraw, hvalue⟩ := h
  rw [runOn_loadOptions, hraw.contains, if_pos rfl, hraw]
  simp only [hvalue]
  cases optionsOfDocument path value with
  | error error => rfl
  | ok options =>
    cases options with
    | none => rfl
    | some config => rfl

/-- a file whose document sets options loads to them -/
theorem returns_of_sets (hvalue : σ.HasDocument reader path value) (hsets : Yaml.Sets value config) :
    (loadOptions reader path).Returns σ config := by
  rw [Action.returns_iff, runOn_loadOptions_of_document hvalue]
  rcases optionsOfDocument_of_sets path hsets with ⟨hnone, rfl⟩ | hsome
  · rw [hnone]
    rfl
  · rw [hsome]
    rfl

theorem ConfigReports.raises (h : ConfigReports reader σ path e) : (loadOptions reader path).Raises σ e := by
  rw [Action.raises_iff]
  cases h with
  | notFound h => rw [runOn_loadOptions, h, if_neg Bool.false_ne_true]
  | unreadable h =>
    obtain ⟨place, hplace, hdirectory⟩ := FileTree.isDirectory_iff.1 h
    have hfind := FileTree.find_eq_ok.2 ⟨place, hplace, hdirectory⟩
    have hfound : σ.tree.contains σ.workingDirectory (.ofText path.toList) = true := by
      rw [FileTree.contains, hfind]
      rfl
    have htext : (Path.ofText path.toList).text = path := by
      rw [Path.text, Path.write_ofText, String.ofList_toList]
    have hread : σ.tree.read σ.workingDirectory (.ofText path.toList) = .error (.problem .isDirectory path) := by
      refine (bind_of_ok hfind).trans ?_
      rw [htext]
      rfl
    rw [runOn_loadOptions, hfound, if_pos rfl, hread]
  | malformed hraw h => exact runOn_loadOptions_of_refusal hraw h
  | @noMapping value hvalue hnull hmapping =>
    rw [runOn_loadOptions_of_document hvalue]
    cases value with
    | null => exact (hnull rfl).elim
    | mapping pairs => exact (hmapping pairs rfl).elim
    | _ => rfl
  | @unknown pairs names hvalue hnames hne =>
    have hrefused : optionsOfPairs path pairs = .error (.unknown path (sortTexts names)) := by
      refine (bind_of_ok (mapError_eq_ok.2 hnames)).trans ?_
      rw [if_pos hne]
      rfl
    rw [runOn_loadOptions_of_document hvalue]
    show ((optionsOfPairs path pairs).map some).map _ = _
    rw [hrefused]
    rfl

theorem ConfigLeaves.raises (h : ConfigLeaves reader σ path e) : (loadOptions reader path).Raises σ e := by
  rw [Action.raises_iff]
  cases h with
  | decoding hraw h => exact runOn_loadOptions_of_refusal hraw h
  | value hraw h => exact runOn_loadOptions_of_refusal hraw h
  | @unwritable pairs error hvalue hkey =>
    have hrefused : optionsOfPairs path pairs = .error (.unwritable error) :=
      bind_of_error (mapError_of_error hkey)
    rw [runOn_loadOptions_of_document hvalue]
    show ((optionsOfPairs path pairs).map some).map _ = _
    rw [hrefused]
    rfl

/-- **All cases.** A file has a document that sets options, or its loading fails with an error of one of the lists. -/
theorem loads_or_fails (reader : Yaml.Reader) (path : String) (σ : Session) :
    (∃ value config, σ.HasDocument reader path value ∧ Yaml.Sets value config) ∨
      ∃ e, ConfigReports reader σ path e ∨ ConfigLeaves reader σ path e := by
  cases hfind : σ.tree.find σ.workingDirectory (.ofText path.toList) with
  | error cause =>
    refine .inr ⟨_, .inl (.notFound ?_)⟩
    rw [FileTree.contains, hfind]
    rfl
  | ok entry =>
    cases entry with
    | directory =>
      refine .inr ⟨_, .inl (.unreadable ?_)⟩
      rw [FileTree.isDirectory, hfind]
    | file raw =>
      have hraw : σ.Holds path raw := FileTree.read_eq_ok.2 (FileTree.find_eq_ok.1 hfind)
      cases hread : reader raw with
      | error refusal =>
        cases refusal with
        | undecodable error => exact .inr ⟨_, .inr (.decoding hraw hread)⟩
        | document error =>
          cases error with
          | malformed => exact .inr ⟨_, .inl (.malformed hraw hread)⟩
          | defective cause => exact .inr ⟨_, .inr (.value hraw hread)⟩
      | ok value =>
        have hvalue : σ.HasDocument reader path value := ⟨raw, hraw, hread⟩
        cases value with
        | null => exact .inl ⟨_, [], hvalue, .nothing⟩
        | mapping pairs =>
          cases hnames : (strangersOf pairs).mapM Value.plain? with
          | error error => exact .inr ⟨_, .inr (.unwritable hvalue hnames)⟩
          | ok names =>
            by_cases hnone : names = []
            · subst hnone
              have hstrangers : strangersOf pairs = [] := List.forall₂_nil_right_iff.1 (mapM_eq_ok.1 hnames)
              obtain ⟨settings, rfl⟩ := exists_settings hstrangers
              exact .inl ⟨_, _, hvalue, .options settings⟩
            · exact .inr ⟨_, .inl (.unknown hvalue hnames hnone)⟩
        | _ => exact .inr ⟨_, .inl (.noMapping hvalue nofun nofun)⟩

theorem ConfigReports.isReport (h : ConfigReports reader σ path e) : e.isReport = true := by
  cases h with
  | _ => rfl

theorem ConfigLeaves.isReport (h : ConfigLeaves reader σ path e) : e.isReport = false := by
  cases h with
  | _ => rfl

/-- what a file loads to is what its document sets -/
theorem returns_loadOptions_iff : (loadOptions reader path).Returns σ config ↔
    ∃ value, σ.HasDocument reader path value ∧ Yaml.Sets value config := by
  constructor
  · intro h
    rcases loads_or_fails reader path σ with ⟨value, config', hvalue, hsets⟩ | ⟨e, hfails⟩
    · obtain rfl := h.unique (returns_of_sets hvalue hsets)
      exact ⟨value, hvalue, hsets⟩
    · exact (h.not_raises (hfails.elim ConfigReports.raises ConfigLeaves.raises)).elim
  · rintro ⟨value, hvalue, hsets⟩
    exact returns_of_sets hvalue hsets

/-- an error of loading is a report, or it is passed on -/
theorem raises_loadOptions_iff :
    (loadOptions reader path).Raises σ e ↔ ConfigReports reader σ path e ∨ ConfigLeaves reader σ path e := by
  constructor
  · intro h
    rcases loads_or_fails reader path σ with ⟨value, config, hvalue, hsets⟩ | ⟨e', hfails⟩
    · exact ((returns_of_sets hvalue hsets).not_raises h).elim
    · obtain rfl := h.unique (hfails.elim ConfigReports.raises ConfigLeaves.raises)
      exact hfails
  · exact fun h => h.elim ConfigReports.raises ConfigLeaves.raises

theorem raises_report_iff :
    (loadOptions reader path).Raises σ e ∧ e.isReport = true ↔ ConfigReports reader σ path e := by
  rw [raises_loadOptions_iff]
  constructor
  · rintro ⟨hreports | hleaves, hreport⟩
    · exact hreports
    · rw [hleaves.isReport] at hreport
      cases hreport
  · exact fun h => ⟨.inl h, h.isReport⟩

theorem raises_leaving_iff :
    (loadOptions reader path).Raises σ e ∧ e.isReport = false ↔ ConfigLeaves reader σ path e := by
  rw [raises_loadOptions_iff]
  constructor
  · rintro ⟨hreports | hleaves, hreport⟩
    · rw [hreports.isReport] at hreport
      cases hreport
    · exact hleaves
  · exact fun h => ⟨.inr h, h.isReport⟩

/-- bytes that are no text load to nothing -/
theorem raises_of_undecodable (hlawful : reader.Lawful) (hraw : σ.Holds path raw) {fault : Text.DecodingError}
    (h : Text.decode raw = .error fault) : ∃ refusal, (loadOptions reader path).Raises σ (.ofRefusal path refusal) := by
  cases hread : reader raw with
  | error refusal => exact ⟨refusal, Action.raises_iff.2 (runOn_loadOptions_of_refusal hraw hread)⟩
  | ok value =>
    obtain ⟨text, htext⟩ := hlawful.decodes hread
    rw [h] at htext
    cases htext

/-- what is passed on of a file, told by its bytes -/
theorem ConfigLeaves.split (hlawful : reader.Lawful) (h : ConfigLeaves reader σ path e) :
    (∃ raw fault error, σ.Holds path raw ∧ Text.decode raw = .error fault ∧ e = .decoding error) ∨
      (∃ raw cause, σ.Holds path raw ∧ reader raw = .error (.document (.defective cause)) ∧ e = .value cause) ∨
      ∃ pairs error, σ.HasDocument reader path (.mapping pairs) ∧
        (strangersOf pairs).mapM Value.plain? = .error error ∧ e = .unwritable error := by
  cases h with
  | @decoding raw error hraw h =>
    obtain ⟨fault, hfault⟩ := hlawful.undecodable h
    exact .inl ⟨raw, fault, error, hraw, hfault, rfl⟩
  | value hraw h => exact .inr (.inl ⟨_, _, hraw, h, rfl⟩)
  | unwritable hvalue hkey => exact .inr (.inr ⟨_, _, hvalue, hkey, rfl⟩)

theorem ConfigLeaves.of_rejects (hlawful : reader.Lawful) (hrejects : reader.Rejects)
    (h : ConfigLeaves reader σ path e) :
    (∃ raw fault error, σ.Holds path raw ∧ Text.decode raw = .error fault ∧ e = .decoding error) ∨
      ∃ pairs error, σ.HasDocument reader path (.mapping pairs) ∧
        (strangersOf pairs).mapM Value.plain? = .error error ∧ e = .unwritable error := by
  rcases h.split hlawful with hdecoding | ⟨_, _, -, hdefect, -⟩ | hkey
  · exact .inl hdecoding
  · exact (hrejects _ _ hdefect).elim
  · exact .inr hkey

/-- a defect that is passed on, of a file that the reader of the project reads, has something in the text to blame -/
theorem ConfigLeaves.blames (h : ConfigLeaves Yaml.reader σ path e) :
    (∃ raw fault error, σ.Holds path raw ∧ Text.decode raw = .error fault ∧ e = .decoding error) ∨
      (∃ raw source cause, σ.Holds path raw ∧ Text.decode raw = .ok source ∧ Yaml.Cause source cause ∧
        e = .value cause) ∨
      ∃ pairs error, σ.HasDocument Yaml.reader path (.mapping pairs) ∧
        (strangersOf pairs).mapM Value.plain? = .error error ∧ e = .unwritable error := by
  rcases h.split Yaml.lawful_reader with hdecoding | ⟨raw, cause, hraw, hdefect, rfl⟩ | hkey
  · exact .inl hdecoding
  · obtain ⟨source, hsource, hcause⟩ := Yaml.cause_of_reader hdefect
    exact .inr (.inl ⟨raw, source, cause, hraw, hsource, hcause, rfl⟩)
  · exact .inr (.inr hkey)

/-- **How loading ends.** Whatever the reader, the disk, the path and the bytes of the file are, loading a configuration
leaves the disk alone. It returns the options that the document of the file sets, none of them twice and none for an
empty file, or it fails. It fails with a report exactly for a path to nothing or to a directory, for bytes that the
reader rejects, and for a document with another value than a mapping or with a key that names no option. It passes an
error on exactly where the reader finds bytes that are no text or a defect, and for unknown keys that cannot be shown.
Bytes that are no text are never loaded. Where the reader finds no defects but rejects all other faults, what is passed
on comes of bytes that are no text, or of unknown keys. -/
theorem loadOptions_closure (reader : Yaml.Reader) (hlawful : reader.Lawful) (path : String) (σ : Session) :
    σ.Same ((loadOptions reader path).runOn σ).2 ∧
    (∀ config, (loadOptions reader path).Returns σ config ↔
      ∃ value, σ.HasDocument reader path value ∧ Yaml.Sets value config) ∧
    (∀ config, (loadOptions reader path).Returns σ config → Options.Configuration config) ∧
    (∀ e, (loadOptions reader path).Raises σ e ∧ e.isReport = true ↔ ConfigReports reader σ path e) ∧
    (∀ e, (loadOptions reader path).Raises σ e ∧ e.isReport = false ↔ ConfigLeaves reader σ path e) ∧
    ((∃ config, (loadOptions reader path).Returns σ config) ∨ ∃ e, (loadOptions reader path).Raises σ e) ∧
    (∀ raw fault, σ.Holds path raw → Text.decode raw = .error fault →
      ∃ refusal, (loadOptions reader path).Raises σ (.ofRefusal path refusal)) ∧
    (reader.Rejects → ∀ e, (loadOptions reader path).Raises σ e → e.isReport = false →
      (∃ raw fault error, σ.Holds path raw ∧ Text.decode raw = .error fault ∧ e = .decoding error) ∨
        ∃ pairs error, σ.HasDocument reader path (.mapping pairs) ∧
          (strangersOf pairs).mapM Value.plain? = .error error ∧ e = .unwritable error) := by
  refine ⟨keeps_loadOptions reader path σ, fun config => returns_loadOptions_iff, fun config h => ?_,
    fun e => raises_report_iff, fun e => raises_leaving_iff, ?_, fun raw fault hraw => raises_of_undecodable hlawful hraw,
    fun hrejects e hraises hreport => (raises_leaving_iff.1 ⟨hraises, hreport⟩).of_rejects hlawful hrejects⟩
  · obtain ⟨σ', hrun⟩ := h
    exact configuration_of_loadOptions hlawful hrun
  · rcases loads_or_fails reader path σ with ⟨value, config, hsets⟩ | ⟨e, hfails⟩
    · exact .inl ⟨config, returns_loadOptions_iff.2 ⟨value, hsets⟩⟩
    · exact .inr ⟨e, raises_loadOptions_iff.2 hfails⟩

/-! ## Two files -/

/-- a disk with a configuration, and with a file of a byte that starts no character -/
def drawer : Session where
  tree := (FileTree.empty.put ["kit.yaml".toList] (.file (Text.encode "bpm: 96\n".toList))).put ["raw.yaml".toList]
    (.file [0xFF])
  workingDirectory := []

theorem holds_drawer : drawer.Holds "raw.yaml" [0xFF] := by
  show drawer.tree.read drawer.workingDirectory (.ofText "raw.yaml".toList) = .ok [0xFF]
  decide +kernel

/-- a reader that rejects what is defective -/
def Yaml.Reader.strict (reader : Yaml.Reader) : Yaml.Reader := fun raw =>
  (reader raw).mapError fun
    | .undecodable error => .undecodable error
    | .document _ => .document .malformed

theorem Yaml.Reader.Lawful.strict (h : reader.Lawful) : reader.strict.Lawful where
  distinct hread := h.distinct (mapError_eq_ok.1 hread)
  decodes hread := h.decodes (mapError_eq_ok.1 hread)
  undecodable hread := by
    obtain ⟨refusal, hread, hrefusal⟩ := mapError_eq_error.1 hread
    cases refusal with
    | undecodable error => exact h.undecodable hread
    | document error => cases hrefusal

theorem Yaml.Reader.rejects_strict (reader : Yaml.Reader) : reader.strict.Rejects := by
  intro raw cause hread
  obtain ⟨refusal, -, hrefusal⟩ := mapError_eq_error.1 hread
  cases refusal with
  | _ => cases hrefusal

/-- the configuration sets a tempo; the other file fails, and not with a report -/
theorem loadOptions_closure_drawer :
    (∃ config, (loadOptions Yaml.reader.strict "kit.yaml").Returns drawer config ∧ Options.Configuration config ∧
      config.map (fun entry => (entry.1, entry.2.plain?)) = [("bpm", .ok "96")]) ∧
    ∃ refusal, (loadOptions Yaml.reader.strict "raw.yaml").Raises drawer (.ofRefusal "raw.yaml" refusal) := by
  have hlawful := Yaml.lawful_reader.strict
  refine ⟨?_, ?_⟩
  · have hloaded : ((loadOptions Yaml.reader.strict "kit.yaml").runOn drawer).1.map
        (·.map fun entry => (entry.1, entry.2.plain?)) = .ok [("bpm", .ok "96")] := by
      decide +kernel
    obtain ⟨config, hconfig, hentries⟩ := map_eq_ok.1 hloaded
    have hreturns := Action.returns_iff.2 hconfig
    obtain ⟨-, -, hconfiguration, -⟩ := loadOptions_closure Yaml.reader.strict hlawful "kit.yaml" drawer
    exact ⟨config, hreturns, hconfiguration config hreturns, hentries⟩
  · obtain ⟨-, -, -, -, -, -, hundecodable, -⟩ := loadOptions_closure Yaml.reader.strict hlawful "raw.yaml" drawer
    exact hundecodable _ ⟨.invalidStart, 0, [0xFF]⟩ holds_drawer (by decide)

/-- the other file is there and can be read, and its reader rejects what is no document; what it fails with is no report
all the same -/
theorem raises_decoding :
    Yaml.reader.strict.Lawful ∧ Yaml.reader.strict.Rejects ∧
    (loadOptions Yaml.reader.strict "raw.yaml").Raises drawer (.decoding ⟨.invalidStart, 0, [0xFF]⟩) ∧
    ¬∀ (path : String) (σ : Session), (∃ config, (loadOptions Yaml.reader.strict path).Returns σ config) ∨
      ∃ e, (loadOptions Yaml.reader.strict path).Raises σ e ∧ e.isReport = true := by
  have hread : Yaml.reader.strict [0xFF] = .error (.undecodable ⟨.invalidStart, 0, [0xFF]⟩) := rfl
  have hleaves : ConfigLeaves Yaml.reader.strict drawer "raw.yaml" (.decoding ⟨.invalidStart, 0, [0xFF]⟩) :=
    .decoding holds_drawer hread
  have hraises := hleaves.raises
  refine ⟨Yaml.lawful_reader.strict, Yaml.Reader.rejects_strict _, hraises, fun hclosed => ?_⟩
  rcases hclosed "raw.yaml" drawer with ⟨config, hreturns⟩ | ⟨e, hraises', hreport⟩
  · exact hreturns.not_raises hraises
  · obtain rfl := hraises.unique hraises'
    cases hreport

end Drumline

/-
The options that a configuration file sets. No text is the key of two pairs of a mapping, and each key names an option,
or the file is refused. So a configuration names every option at most once, and nothing else
(`configuration_of_loadOptions`). `runOn_loadOptions` is what loading a file does, as a function of what its path leads
to and of what the reader makes of that.
-/
import Drumline.Options.Config
import Drumline.Proofs.Options.Override
import Drumline.Proofs.Session.Frame

namespace Drumline

/-! ## Options -/

/-- whether a configuration names options only, and each at most once -/
structure Options.Configuration (config : List (String × Value)) : Prop where
  known : Options.unknownNames config = []
  nodup : (config.map Prod.fst).Nodup

open Options (Configuration)

theorem OptionName.ofKey?_eq_some {key : Value} {option : OptionName} :
    ofKey? key = some option ↔ key = .text option.name := by
  cases key with
  | text name => simp [ofKey?, ofName?_eq_some]
  | _ => simp [ofKey?]

theorem configuration_of_optionsOfPairs {path : String} {pairs : List (Value × Value)} {config : List (String × Value)}
    (hdistinct : Yaml.Distinct pairs) (h : optionsOfPairs path pairs = .ok config) : Configuration config := by
  obtain ⟨names, -, h⟩ := bind_eq_ok.1 h
  split at h
  · cases h
  cases h
  constructor
  · rw [Options.unknownNames_eq_nil]
    intro entry hentry
    obtain ⟨pair, -, hpair⟩ := List.mem_filterMap.1 hentry
    obtain ⟨option, -, rfl⟩ := Option.map_eq_some_iff.1 hpair
    exact ⟨option, rfl⟩
  · rw [List.Nodup, List.pairwise_map, List.pairwise_filterMap]
    refine hdistinct.imp ?_
    rintro ⟨key, value⟩ ⟨key', value'⟩ hkeys entry hentry entry' hentry' hnames
    obtain ⟨option, hoption, rfl⟩ := Option.map_eq_some_iff.1 hentry
    obtain ⟨option', hoption', rfl⟩ := Option.map_eq_some_iff.1 hentry'
    obtain rfl := OptionName.ofKey?_eq_some.1 hoption
    obtain rfl := OptionName.ofKey?_eq_some.1 hoption'
    exact hkeys _ rfl (congrArg Value.text hnames.symm)

theorem configuration_nil : Configuration [] := ⟨rfl, List.nodup_nil⟩

theorem configuration_of_optionsOfDocument {reader : Yaml.Reader} (hlawful : reader.Lawful) {raw : List UInt8}
    {document : Value} (hread : reader raw = .ok document) {path : String} {config : List (String × Value)}
    (h : optionsOfDocument path document = .ok (some config)) : Configuration config := by
  unfold optionsOfDocument at h
  split at h
  · cases h
  · obtain ⟨_, hpairs, h⟩ := map_eq_ok.1 h
    cases h
    exact configuration_of_optionsOfPairs (hlawful.distinct hread) hpairs
  · cases h

/-! ## Files -/

/-- loading a file as a function of what its path leads to -/
theorem runOn_loadOptions (reader : Yaml.Reader) (path : String) (σ : Session) : (loadOptions reader path).runOn σ =
    if σ.tree.contains σ.workingDirectory (.ofText path.toList) then
      match σ.tree.read σ.workingDirectory (.ofText path.toList) with
      | .error cause => (.error (.unreadable path cause), σ)
      | .ok raw =>
        match reader raw with
        | .error refusal => (.error (.ofRefusal path refusal), σ)
        | .ok document =>
          match optionsOfDocument path document with
          | .error error => (.error error, σ)
          | .ok (some config) => (.ok config, σ)
          | .ok none => (.ok [], { σ with notices := σ.notices ++ [.emptyConfig path] })
    else (.error (.notFound path), σ) := by
  have hfound : (Action.pathExists (.ofText path.toList) : Action ConfigError Bool).runOn σ =
    (.ok (σ.tree.contains σ.workingDirectory (.ofText path.toList)), σ) := rfl
  unfold loadOptions
  rw [Action.runOn_bind, hfound]
  cases σ.tree.contains σ.workingDirectory (.ofText path.toList) with
  | false => rfl
  | true =>
    simp only [if_true, Action.runOn_bind, Action.runOn_adapt, Action.runOn_readFile, Action.runOn_ofExcept]
    cases σ.tree.read σ.workingDirectory (.ofText path.toList) with
    | error cause => rfl
    | ok raw =>
      simp only [Except.mapError]
      cases reader raw with
      | error refusal => rfl
      | ok document =>
        simp only
        cases optionsOfDocument path document with
        | error error => rfl
        | ok options =>
          cases options with
          | none => rfl
          | some config => rfl

/-- loading a configuration leaves the disk alone -/
theorem keeps_loadOptions (reader : Yaml.Reader) (path : String) : (loadOptions reader path).Keeps := by
  refine .bind (Action.keeps_pathExists _) fun found => ?_
  cases found with
  | false => exact fun σ => .refl σ
  | true =>
    refine .bind ((Action.keeps_readFile _).adapt _) fun bytes => .bind (Action.keeps_ofExcept _ _) fun document => ?_
    refine .bind (Action.keeps_ofExcept _ _) fun options => ?_
    cases options with
    | some options => exact .pure options
    | none => exact .bind (Action.keeps_tell _) fun _ => .pure []

/-- **What a configuration file loads to.** Options by their names, each at most once. -/
theorem configuration_of_loadOptions {reader : Yaml.Reader} (hlawful : reader.Lawful) {path : String}
    {σ σ' : Session} {config : List (String × Value)} (h : (loadOptions reader path).runOn σ = (.ok config, σ')) :
    Configuration config := by
  rw [runOn_loadOptions] at h
  split_ifs at h
  · split at h
    · cases h
    · split at h
      · cases h
      · rename_i hread
        split at h
        · cases h
        · rename_i hoptions
          cases h
          exact configuration_of_optionsOfDocument hlawful hread hoptions
        · cases h
          exact configuration_nil
  · cases h

/-! ## Entries -/

/-- the value that a configuration has for an option, if that is no null -/
def Options.configured? (config : List (String × Value)) (option : OptionName) : Option Value :=
  (config.lookup option.name).filter (!·.isNull)

/-- of names that are different from one another the only entry is the last one -/
theorem Options.setting?_eq_configured? {config : List (String × Value)} (h : (config.map Prod.fst).Nodup)
    (option : OptionName) : setting? config option = configured? config option := by
  induction config with
  | nil => rfl
  | cons entry config ih =>
    obtain ⟨name, value⟩ := entry
    rw [List.map_cons, List.nodup_cons] at h
    obtain ⟨hname, hrest⟩ := h
    by_cases hsame : name = option.name
    · subst hsame
      have hnone : config.filter (sets option) = [] := by
        rw [List.filter_eq_nil_iff]
        rintro ⟨other, value'⟩ hother hsets
        simp only [sets, Bool.and_eq_true, decide_eq_true_eq] at hsets
        exact hname (List.mem_map.2 ⟨_, hother, hsets.1⟩)
      rw [setting?, List.filter_cons, hnone, configured?, List.lookup_cons]
      cases hnull : value.isNull <;> simp [sets, hnull, Option.filter]
    · have hlookup : configured? ((name, value) :: config) option = configured? config option := by
        rw [configured?, List.lookup_cons, beq_eq_false_iff_ne.2 (Ne.symm hsame)]
        rfl
      rw [hlookup, ← ih hrest, setting?, setting?, List.filter_cons_of_neg]
      simp [sets, hsame]

end Drumline

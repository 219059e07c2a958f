/-
What the words of a command line set. `effects` lists the switches that words come to, in the order in which they take
effect, without any of the bookkeeping that reading them needs: a switch that wants a value has the word behind it. The
options of a command line that is read are the values that these effects give, one after the other
(`options_of_readArguments`), so the last of each option is the value that the command line gives it (`given?`).
-/
import Drumline.CommandLine.Arguments
import Drumline.Proofs.Options.Override

namespace Drumline.CommandLine

/-! ## Model -/

/-- a switch that takes effect: by the name that mentions it, or with a value -/
inductive Effect where
  | flag (switch : Switch) (name : String)
  | valued (switch : Switch) (value : String)
  deriving DecidableEq, Repr

/-- whether a name of the switch of the grace notes turns them on -/
def turnsOn (name : String) : Bool := !"--no-".toList.isPrefixOf name.toList

/-- the option that an effect sets, and its value; the option of the grace notes is that they are off -/
def Effect.gives? : Effect → Option (OptionName × Value)
  | .flag (.option option) name => some (option, .bool !(turnsOn name))
  | .valued (.option .bpm) text => (readDouble? text).map fun x => (.bpm, .double x)
  | .valued (.option option) text => (readInteger 10 text).toOption.map fun n => (option, .int n)
  | _ => none

/-- the effects of switches without values -/
def flagEffects (flags : List (Switch × String)) : List Effect :=
  flags.map fun (switch, name) => .flag switch name

/-- the effects of a mention before some words -/
def Expansion.effects (e : Expansion) (next : List Word) : List Effect :=
  flagEffects e.flags ++
    match e.wanting, e.valued with
    | some switch, _ =>
      match next with
      | .plain value :: _ => [.valued switch value]
      | _ => []
    | none, some (switch, value) => [.valued switch (String.ofList value)]
    | none, none => []

/-- the effects of words, from the left -/
def effects : List Word → List Effect
  | [] => []
  | .mention mention :: words =>
    (match mention.expand with
      | .ok e => e.effects words
      | .error _ => []) ++ effects words
  | _ :: words => effects words

/-- the value that a command line gives an option -/
def given? (words : List String) (option : OptionName) : Option Value :=
  match classifyAll words with
  | .ok words => (((effects words).filterMap Effect.gives?).filter (·.1 = option)).getLast?.map Prod.snd
  | .error _ => none

/-- whether a flag is mentioned by a name of its own, and takes no value -/
def IsFlag (flag : Switch × String) : Prop := (flag.2, flag.1) ∈ Switch.table ∧ flag.1.takesValue = false

namespace Progress

/-- the effects of the switches that wait for a value -/
def pending (p : Progress) (next : List Word) : List Effect :=
  match p.wanting with
  | some (flags, switch) => Expansion.effects { flags, wanting := some switch } next
  | none => []

/-- whether the switches without a value among those that wait for one are flags -/
def Waits (p : Progress) : Prop := ∀ flags switch, p.wanting = some (flags, switch) → ∀ flag ∈ flags, IsFlag flag

end Progress

/-! ## Mentions -/

theorem Switch.mem_table_of_ofName? {name : String} {switch : Switch} (h : ofName? name = some switch) :
    (name, switch) ∈ table := by
  unfold ofName? at h
  obtain ⟨before, after, htable, -⟩ := List.lookup_eq_some_iff.1 h
  rw [htable]
  simp

theorem mem_table_of_classify {word : String} {mention : Mention} (h : classify word = .ok (.mention mention)) :
    (mention.name, mention.switch) ∈ Switch.table := by
  have hfull {text : List Char} {mention : Mention} (h : fullMention? text = some mention) :
      (mention.name, mention.switch) ∈ Switch.table := by
    unfold fullMention? at h
    split at h
    · rename_i hname
      cases h
      exact Switch.mem_table_of_ofName? hname
    · split at h
      · obtain ⟨switch, hname, rfl⟩ := Option.map_eq_some_iff.1 h
        exact Switch.mem_table_of_ofName? hname
      · cases h
  have hcandidate {text : List Char} {mention : Mention} (h : mention ∈ candidates text) :
      (mention.name, mention.switch) ∈ Switch.table := by
    unfold candidates at h
    split at h
    · obtain ⟨entry, hentry, rfl⟩ := List.mem_map.1 h
      exact List.mem_of_mem_filter hentry
    · obtain ⟨entry, hentry, rfl⟩ := List.mem_map.1 h
      exact List.mem_of_mem_filter hentry
    · cases h
  unfold classify at h
  simp only at h
  split at h
  · cases h
  · split at h
    · rename_i hmention
      cases h
      exact hfull hmention
    · split at h
      · rename_i hcandidates
        cases h
        exact hcandidate (hcandidates ▸ List.mem_singleton_self _)
      · split at h <;> cases h
      · cases h

theorem mem_table_of_classifyAll {words : List String} {read : List Word} (h : classifyAll words = .ok read) :
    ∀ mention, .mention mention ∈ read → (mention.name, mention.switch) ∈ Switch.table := by
  induction words generalizing read with
  | nil =>
    cases h
    intro mention hmention
    cases hmention
  | cons word words ih =>
    rw [classifyAll] at h
    split at h
    · cases h
      intro mention hmention
      simp at hmention
    · obtain ⟨first, hfirst, h⟩ := bind_eq_ok.1 h
      obtain ⟨others, hothers, h⟩ := bind_eq_ok.1 h
      cases h
      intro mention hmention
      rcases List.mem_cons.1 hmention with rfl | hmention
      · exact mem_table_of_classify hfirst
      · exact ih hothers mention hmention

theorem isFlag_of_expandShort {name : String} {switch : Switch} {equals : Bool} {attached : List Char} {e : Expansion}
    (hname : (name, switch) ∈ Switch.table) (h : expandShort name switch equals attached = .ok e) :
    ∀ flag ∈ e.flags, IsFlag flag := by
  induction hlength : attached.length using Nat.strong_induction_on generalizing name switch equals attached e with
  | _ length ih =>
    subst hlength
    rw [expandShort.eq_def] at h
    split at h
    · cases h
      simp
    · rename_i hvalue
      have hflag : IsFlag (switch, name) := ⟨hname, Bool.eq_false_iff.2 hvalue⟩
      split at h
      · cases h
      · rename_i letter rest
        simp only at h
        split at h
        · cases h
        · split at h
          · cases h
            simp only [List.forall_mem_singleton]
            exact hflag
          · rename_i other hother
            obtain ⟨inner, hinner, rfl⟩ := map_eq_ok.1 h
            have hothername := Switch.mem_table_of_ofName? hother
            have hrest : ∀ flag ∈ inner.flags, IsFlag flag := by
              split at hinner
              · split at hinner
                · cases hinner
                  simp
                · rename_i hothervalue
                  cases hinner
                  simp only [List.forall_mem_singleton]
                  exact ⟨hothername, Bool.eq_false_iff.2 hothervalue⟩
              · exact ih _ (by simp only [List.length_cons]; omega) hothername hinner rfl
              · exact ih _ (by simp only [List.length_cons]; omega) hothername hinner rfl
            simp only [Expansion.push, List.forall_mem_cons]
            exact ⟨hflag, hrest⟩

theorem isFlag_of_expand {mention : Mention} {e : Expansion} (hname : (mention.name, mention.switch) ∈ Switch.table)
    (h : mention.expand = .ok e) : ∀ flag ∈ e.flags, IsFlag flag := by
  unfold Mention.expand at h
  split at h
  · split at h
    · cases h
      simp
    · rename_i hvalue
      cases h
      simp only [List.forall_mem_singleton]
      exact ⟨hname, Bool.eq_false_iff.2 hvalue⟩
  · split at h
    · split at h
      · cases h
        simp
      · cases h
    · exact isFlag_of_expandShort hname h

/-! ## Effects -/

/-- of the two names of the switch of the grace notes one turns them on -/
theorem turnsOn_of_mem_table {name : String} (h : (name, Switch.option .noFlams) ∈ Switch.table) :
    turnsOn name = decide (name = "--flams") := by
  have hall : ∀ entry ∈ Switch.table, entry.2 = .option .noFlams → turnsOn entry.1 = decide (entry.1 = "--flams") := by
    decide
  exact hall _ h rfl

variable {a a' : Arguments}

theorem options_of_applyFlag {flag : Switch × String} (hflag : IsFlag flag) (h : applyFlag a flag.2 flag.1 = .ok a') :
    a'.options = a.options ++ (Effect.gives? (.flag flag.1 flag.2)).toList := by
  obtain ⟨switch, name⟩ := flag
  cases switch with
  | help => cases h
  | output | debug | config | quiet =>
    cases h
    simp [Effect.gives?]
  | option option =>
    obtain rfl : option = .noFlams := by simpa [Switch.takesValue] using hflag.2
    cases h
    simp [Effect.gives?, turnsOn_of_mem_table hflag.1]

theorem options_of_applyFlags {flags : List (Switch × String)} (hflags : ∀ flag ∈ flags, IsFlag flag)
    (h : flags.foldlM (fun a (switch, name) => applyFlag a name switch) a = .ok a') :
    a'.options = a.options ++ (flagEffects flags).filterMap Effect.gives? := by
  induction flags generalizing a with
  | nil =>
    cases h
    simp [flagEffects]
  | cons flag flags ih =>
    rw [List.foldlM_cons] at h
    obtain ⟨mid, hmid, h⟩ := bind_eq_ok.1 h
    have hhead := options_of_applyFlag (hflags flag List.mem_cons_self) hmid
    have htail := ih (fun flag hflag => hflags flag (List.mem_cons_of_mem _ hflag)) h
    have hcons : flagEffects (flag :: flags) = .flag flag.1 flag.2 :: flagEffects flags := rfl
    rw [htail, hhead, hcons, List.append_assoc, List.filterMap_cons]
    cases Effect.gives? (.flag flag.1 flag.2) <;> rfl

theorem options_of_applyValue {switch : Switch} {value : String} (h : applyValue a value switch = .ok a') :
    a'.options = a.options ++ (Effect.gives? (.valued switch value)).toList := by
  cases switch with
  | help | output | debug | config | quiet =>
    cases h
    simp [Effect.gives?]
  | option option =>
    unfold applyValue setOption at h
    simp only at h
    split at h
    · rename_i read hread
      cases h
      cases option with
      | bpm =>
        obtain ⟨x, hx, rfl⟩ := Option.map_eq_some_iff.1 hread
        simp [Effect.gives?, hx]
      | _ =>
        obtain ⟨n, hn, rfl⟩ := Option.map_eq_some_iff.1 hread
        simp [Effect.gives?, hn]
    · cases h

/-! ## Words -/

namespace Progress

variable {p p' : Progress}

/-- what the options of a command line come to, from the arguments so far and the words that follow -/
def outlook (p : Progress) (words : List Word) : List (OptionName × Value) :=
  p.arguments.options ++ (p.pending words ++ effects words).filterMap Effect.gives?

theorem options_of_applyAll {flags : List (Switch × String)} {switch : Switch} {value : String}
    (hflags : ∀ flag ∈ flags, IsFlag flag) (h : p.applyAll flags switch value = .ok p') :
    p'.wanting = p.wanting ∧ ∀ others, p'.arguments.options ++ others.filterMap Effect.gives? =
      p.arguments.options ++ (flagEffects flags ++ Effect.valued switch value :: others).filterMap Effect.gives? := by
  obtain ⟨mid, hmid, h⟩ := bind_eq_ok.1 h
  obtain ⟨a, hflags', hmid⟩ := bind_eq_ok.1 hmid
  cases hmid
  obtain ⟨a', hvalue, h⟩ := bind_eq_ok.1 h
  cases h
  refine ⟨rfl, ?_⟩
  intro others
  have hflags := options_of_applyFlags hflags hflags'
  have hvalue := options_of_applyValue hvalue
  rw [hvalue, hflags, List.filterMap_append, List.filterMap_cons]
  cases Effect.gives? (.valued switch value) <;> simp

/-- nothing waits where nothing is wanted -/
theorem waits_of_wanting_eq_none (h : p.wanting = none) : p.Waits := by
  intro flags switch hsome
  rw [h] at hsome
  cases hsome

theorem addMention_outlook {mention : Mention} (hwanting : p.wanting = none)
    (hname : (mention.name, mention.switch) ∈ Switch.table) (h : p.addMention mention = .ok p') :
    p'.Waits ∧ ∀ words, p'.outlook words = p.outlook (.mention mention :: words) := by
  obtain ⟨e, he, h⟩ := bind_eq_ok.1 h
  have he := mapError_eq_ok.1 he
  have hflags := isFlag_of_expand hname he
  split at h
  · rename_i switch hwants
    cases h
    refine ⟨?_, ?_⟩
    · intro flags other hsome
      cases hsome
      exact hflags
    · intro words
      simp [outlook, pending, hwanting, effects, he, Expansion.effects, hwants]
  · rename_i switch value hwants hvalued
    obtain ⟨hsame, hoptions⟩ := options_of_applyAll hflags h
    rw [hwanting] at hsame
    refine ⟨waits_of_wanting_eq_none hsame, ?_⟩
    intro words
    simpa [outlook, pending, hwanting, hsame, effects, he, Expansion.effects, hwants, hvalued] using
      hoptions (effects words)
  · rename_i hwants hvalued
    obtain ⟨p', hp', h⟩ := bind_eq_ok.1 h
    obtain ⟨a, ha, hp'⟩ := bind_eq_ok.1 hp'
    cases hp'
    cases h
    refine ⟨waits_of_wanting_eq_none hwanting, ?_⟩
    intro words
    simp [outlook, pending, hwanting, options_of_applyFlags hflags ha, effects, he, Expansion.effects, hwants,
      hvalued]

/-- **A word read.** What the options come to is the same before and behind it: what the word sets is set by then, or
waits for a value. -/
theorem step_outlook {word : Word} (hwaits : p.Waits)
    (hname : ∀ mention, word = .mention mention → (mention.name, mention.switch) ∈ Switch.table)
    (h : p.step word = .ok p') :
    p'.Waits ∧ ∀ words, p'.outlook words = p.outlook (word :: words) := by
  unfold step at h
  split at h
  · rename_i flags switch hwanting
    split at h
    · obtain ⟨hnone, hoptions⟩ := options_of_applyAll (hwaits flags switch hwanting) h
      refine ⟨waits_of_wanting_eq_none hnone, ?_⟩
      intro words
      simpa [outlook, pending, hnone, hwanting, effects, Expansion.effects] using hoptions (effects words)
    · cases h
  · rename_i hwanting
    have hplain {p' : Progress} {word : Word} (hnone : p'.wanting = none)
        (hoptions : p'.arguments.options = p.arguments.options)
        (hword : ∀ words, effects (word :: words) = effects words) :
        p'.Waits ∧ ∀ words, p'.outlook words = p.outlook (word :: words) := by
      refine ⟨waits_of_wanting_eq_none hnone, ?_⟩
      intro words
      simp [outlook, pending, hnone, hwanting, hoptions, hword]
    cases word with
    | plain text =>
      cases h
      unfold addPlain
      split
      · exact hplain hwanting rfl fun _ => rfl
      · exact hplain hwanting rfl fun _ => rfl
    | separator =>
      cases h
      split
      · exact hplain hwanting rfl fun _ => rfl
      · exact hplain hwanting rfl fun _ => rfl
    | stranger text =>
      cases h
      exact hplain hwanting rfl fun _ => rfl
    | mention mention =>
      obtain ⟨hwaits', houtlook⟩ := addMention_outlook (by exact hwanting) (hname mention rfl) h
      exact ⟨hwaits', houtlook⟩

/-- **Words read.** -/
theorem foldlM_outlook {words : List Word} (hwaits : p.Waits)
    (hname : ∀ mention, .mention mention ∈ words → (mention.name, mention.switch) ∈ Switch.table)
    (h : words.foldlM step p = .ok p') : p'.outlook [] = p.outlook words := by
  induction words generalizing p with
  | nil =>
    cases h
    rfl
  | cons word words ih =>
    rw [List.foldlM_cons] at h
    obtain ⟨mid, hmid, h⟩ := bind_eq_ok.1 h
    obtain ⟨hwaits', houtlook⟩ := step_outlook hwaits
      (fun mention hmention => hname mention (hmention ▸ List.mem_cons_self)) hmid
    rw [← houtlook words]
    exact ih hwaits' (fun mention hmention => hname mention (List.mem_cons_of_mem _ hmention)) h

end Progress

/-- the options of a command line are the values that its words give, in order -/
theorem options_of_readArguments {words : List String} {a : Arguments} (h : readArguments words = .ok a) :
    ∃ read, classifyAll words = .ok read ∧ a.options = (effects read).filterMap Effect.gives? := by
  obtain ⟨read, hread, h⟩ := bind_eq_ok.1 h
  obtain ⟨p, hp, h⟩ := bind_eq_ok.1 h
  have hread := mapError_eq_ok.1 hread
  refine ⟨read, hread, ?_⟩
  have houtlook := Progress.foldlM_outlook (Progress.waits_of_wanting_eq_none rfl) (mem_table_of_classifyAll hread) hp
  unfold Progress.finish at h
  split at h
  · cases h
  · rename_i hwanting
    split_ifs at h
    cases h
    simpa [Progress.outlook, Progress.pending, hwanting, effects] using houtlook

end Drumline.CommandLine

/-
What overrides make of options. Of the entries for an option the last that is no null counts (`setting?`), and where
there is none the option stays as it was (`get_overridden`). So overrides after overrides are overrides again, the
entries of the later ones over those of the earlier (`withOverrides_overlay`).

`merged` is what options are by the values that flags give, then by those of a configuration, then by default. Options
that are accepted are settings of the same values (`value_of_check`), and options whose values can be shown are refused
with a message about one of them (`check_ne_unwritable`).
-/
import Drumline.Proofs.Options.Check
import Drumline.Proofs.Pattern.Key

namespace Drumline

/-! ## Model -/

namespace Value

def isNull : Value → Bool
  | null => true
  | _ => false

/-- whether every whole number in a value has few enough digits to be written -/
inductive Writable : Value → Prop
  | null : Writable null
  | bool (value : Bool) : Writable (bool value)
  | int {value : Int} (h : value.natAbs < 10 ^ maxDigits) : Writable (int value)
  | double (value : Double) : Writable (double value)
  | text (value : String) : Writable (text value)
  | list {items : List Value} (h : ∀ item ∈ items, Writable item) : Writable (list items)
  | mapping {pairs : List (Value × Value)} (hkeys : ∀ pair ∈ pairs, Writable pair.1)
    (hvalues : ∀ pair ∈ pairs, Writable pair.2) : Writable (mapping pairs)
  | other {value : Foreign} (h : ∃ text, value.shown = .ok text) : Writable (other value)

end Value

def Number.value : Number → Value
  | .int n => .int n
  | .double x => .double x

def Settings.value (s : Settings) : OptionName → Value
  | .bpm => s.bpm.value
  | .noteDuration => s.noteDuration.value
  | .accentVelocity => s.accentVelocity.value
  | .normalVelocity => s.normalVelocity.value
  | .flamDuration => s.flamDuration.value
  | .flamVelocity => s.flamVelocity.value
  | .noFlams => .bool s.noFlams

namespace Options

def ofValues (value : OptionName → Value) : Options :=
  ⟨value .bpm, value .noteDuration, value .accentVelocity, value .normalVelocity, value .flamDuration,
    value .flamVelocity, value .noFlams⟩

/-- options by the values that are given for them, then by those that are configured, then by default -/
def merged (given configured : OptionName → Option Value) : Options :=
  ofValues fun option => ((given option).or (configured option)).getD (get {} option)

def sets (option : OptionName) (entry : String × Value) : Bool := entry.1 = option.name && !entry.2.isNull

/-- the value that overrides set an option to -/
def setting? (overrides : List (String × Value)) (option : OptionName) : Option Value :=
  (overrides.filter (sets option)).getLast?.map Prod.snd

/-- the overrides that put the entries of the second over those of the first, but for its nulls -/
def overlay (first second : List (String × Value)) : List (String × Value) :=
  first.filter (fun entry => !second.any fun other => other.1 = entry.1 && !other.2.isNull) ++
    second.filter (!·.2.isNull)

end Options

/-! ## Overrides -/

theorem OptionName.ofName?_eq_some {name : String} {option : OptionName} :
    ofName? name = some option ↔ name = option.name := by
  constructor
  · intro h
    have hname := List.find?_some h
    exact (beq_iff_eq.1 hname).symm
  · rintro rfl
    cases option <;> decide

theorem OptionName.name_inj {option other : OptionName} : other.name = option.name ↔ other = option := by
  rw [← ofName?_eq_some, ofName?_eq_some.2 rfl, Option.some_inj]

namespace Options

@[simp] theorem get_ofValues (value : OptionName → Value) (option : OptionName) :
    (ofValues value).get option = value option := by cases option <;> rfl

theorem ext_get {o o' : Options} (h : ∀ option, o.get option = o'.get option) : o = o' := by
  have hvalues (o : Options) : o = ofValues o.get := rfl
  rw [hvalues o, hvalues o', funext h]

theorem get_override (o : Options) (option other : OptionName) (value : Value) :
    (o.override other value).get option = if other = option ∧ value.isNull = false then value else o.get option := by
  have hset (h : value.isNull = false) : o.override other value = o.set other value := by
    cases value with
    | null => cases h
    | _ => rfl
  cases hnull : value.isNull with
  | true =>
    cases value with
    | null => simp [override]
    | _ => cases hnull
  | false =>
    rw [hset hnull]
    by_cases hsame : other = option
    · simp [hsame]
    · simp [hsame, get_set_of_ne o value (Ne.symm hsame)]

def overrideNamed (o : Options) (entry : String × Value) : Options :=
  (OptionName.ofName? entry.1).elim o (o.override · entry.2)

theorem get_overrideNamed (o : Options) (entry : String × Value) (option : OptionName) :
    (o.overrideNamed entry).get option = if sets option entry then entry.2 else o.get option := by
  obtain ⟨name, value⟩ := entry
  unfold overrideNamed sets
  cases hname : OptionName.ofName? name with
  | none =>
    have hne : name ≠ option.name := by
      intro h
      rw [OptionName.ofName?_eq_some.2 h] at hname
      cases hname
    simp [hne]
  | some other =>
    obtain rfl := OptionName.ofName?_eq_some.1 hname
    simp [get_override, OptionName.name_inj]

/-- **What overrides set.** The last entry for an option that is no null, and otherwise the option as it was. -/
theorem get_overridden (overrides : List (String × Value)) (o : Options) (option : OptionName) :
    (overrides.foldl overrideNamed o).get option = (setting? overrides option).getD (o.get option) := by
  induction overrides generalizing o with
  | nil => rfl
  | cons entry overrides ih =>
    rw [List.foldl_cons, ih, get_overrideNamed, setting?, setting?, List.filter_cons]
    split
    · rw [List.getLast?_cons]
      cases (overrides.filter (sets option)).getLast? <;> rfl
    · rfl

theorem withOverrides_eq_ok {o : Options} {overrides : List (String × Value)} (h : unknownNames overrides = []) :
    o.withOverrides overrides = .ok (overrides.foldl overrideNamed o) := by
  unfold withOverrides
  rw [if_pos h]
  rfl

theorem unknownNames_eq_nil {overrides : List (String × Value)} :
    unknownNames overrides = [] ↔ ∀ entry ∈ overrides, ∃ option : OptionName, entry.1 = option.name := by
  have hknown (name : String) : OptionName.ofName? name ≠ none ↔ ∃ option : OptionName, name = option.name := by
    simp only [Option.ne_none_iff_exists', OptionName.ofName?_eq_some]
  simp [unknownNames, List.filter_eq_nil_iff, ← hknown]

theorem setting?_append (first second : List (String × Value)) (option : OptionName) :
    setting? (first ++ second) option = (setting? second option).or (setting? first option) := by
  rw [setting?, List.filter_append, List.getLast?_append, setting?, setting?]
  cases (second.filter (sets option)).getLast? <;> rfl

theorem setting?_overlay (first second : List (String × Value)) (option : OptionName) :
    setting? (overlay first second) option = (setting? second option).or (setting? first option) := by
  have hsecond : setting? (second.filter (!·.2.isNull)) option = setting? second option := by
    rw [setting?, setting?, List.filter_filter]
    congr 3
    funext entry
    simp [sets, Bool.and_comm]
  rw [overlay, setting?_append, hsecond]
  cases hset : setting? second option with
  | some value => rfl
  | none =>
    have hnone : ∀ entry ∈ second, sets option entry = false := by
      have hnil := List.getLast?_eq_none_iff.1 (Option.map_eq_none_iff.1 hset)
      intro entry hentry
      exact Bool.eq_false_iff.2 (List.filter_eq_nil_iff.1 hnil entry hentry)
    -- an entry for the option has no other over it
    have hfirst (entry : String × Value) (hentry : sets option entry = true) :
        (second.any fun other => other.1 = entry.1 && !other.2.isNull) = false := by
      rw [List.any_eq_false]
      intro other hother
      have hname : entry.1 = option.name := by
        simp only [sets, Bool.and_eq_true, decide_eq_true_eq] at hentry
        exact hentry.1
      rw [hname, Bool.not_eq_true]
      exact hnone other hother
    rw [Option.none_or, Option.none_or, setting?, setting?, List.filter_filter]
    congr 2
    apply List.filter_congr
    intro entry _
    cases hentry : sets option entry with
    | false => rfl
    | true => rw [hfirst entry hentry]; rfl

theorem unknownNames_overlay {first second : List (String × Value)} (hfirst : unknownNames first = [])
    (hsecond : unknownNames second = []) : unknownNames (overlay first second) = [] := by
  rw [unknownNames_eq_nil] at *
  intro entry hentry
  rcases List.mem_append.1 hentry with h | h
  · exact hfirst entry (List.mem_of_mem_filter h)
  · exact hsecond entry (List.mem_of_mem_filter h)

/-- **Overrides after overrides.** They are one set of overrides, the later ones over the earlier. -/
theorem withOverrides_overlay (o : Options) {first second : List (String × Value)} (hfirst : unknownNames first = [])
    (hsecond : unknownNames second = []) :
    ∃ result, (o.withOverrides first >>= (·.withOverrides second)) = .ok result ∧
      o.withOverrides (overlay first second) = .ok result := by
  refine ⟨second.foldl overrideNamed (first.foldl overrideNamed o), ?_, ?_⟩
  · rw [withOverrides_eq_ok hfirst]
    exact withOverrides_eq_ok hsecond
  · rw [withOverrides_eq_ok (unknownNames_overlay hfirst hsecond), Except.ok.injEq]
    apply ext_get
    intro option
    rw [get_overridden, get_overridden, get_overridden, setting?_overlay]
    cases setting? second option <;> rfl

/-! ## Accepted options -/

theorem value_of_number? {value : Value} {n : Number} (h : value.number? = some n) : n.value = value := by
  cases value with
  | int | double =>
    cases h
    rfl
  | _ => cases h

theorem value_of_checkRange {o : Options} {option : OptionName} {low high : Nat} {n : Number}
    (h : o.checkRange option low high = .ok n) : n.value = o.get option := by
  rw [checkRange_eq] at h
  exact value_of_number? (judge_eq_ok h).1

theorem value_of_checkChoice {o : Options} {option : OptionName} {choices : List Nat} {n : Number}
    (h : o.checkChoice option choices = .ok n) : n.value = o.get option := by
  rw [checkChoice_eq] at h
  exact value_of_number? (judge_eq_ok h).1

/-- the settings of accepted options have their values -/
theorem value_of_check {o : Options} {s : Settings} (h : o.check = .ok s) (option : OptionName) :
    s.value option = o.get option := by
  obtain ⟨bpm, hbpm, h⟩ := bind_eq_ok.1 h
  obtain ⟨noteDuration, hnote, h⟩ := bind_eq_ok.1 h
  obtain ⟨accentVelocity, haccent, h⟩ := bind_eq_ok.1 h
  obtain ⟨normalVelocity, hnormal, h⟩ := bind_eq_ok.1 h
  obtain ⟨flamVelocity, hflam, h⟩ := bind_eq_ok.1 h
  obtain ⟨flamDuration, hgrace, h⟩ := bind_eq_ok.1 h
  by_cases hshorter : Number.le flamDuration noteDuration = true
  · rw [if_pos hshorter] at h
    cases h
  rw [if_neg hshorter] at h
  split at h
  · rename_i noFlams hswitch
    cases h
    cases option with
    | bpm => exact value_of_checkRange hbpm
    | noteDuration => exact value_of_checkChoice hnote
    | accentVelocity => exact value_of_checkRange haccent
    | normalVelocity => exact value_of_checkRange hnormal
    | flamDuration => exact value_of_checkChoice hgrace
    | flamVelocity => exact value_of_checkRange hflam
    | noFlams => exact hswitch.symm
  · exact (refuse_ne_ok h).elim

end Options

/-! ## Refused options -/

namespace Value

theorem exists_showItems {items : List Value} (h : ∀ item ∈ items, ∃ text, item.show? = .ok text) :
    ∃ texts, showItems items = .ok texts := by
  induction items with
  | nil => exact ⟨_, rfl⟩
  | cons item items ih =>
    obtain ⟨text, htext⟩ := h item List.mem_cons_self
    obtain ⟨texts, htexts⟩ := ih fun item hitem => h item (List.mem_cons_of_mem _ hitem)
    rw [showItems]
    exact ⟨_, bind_eq_ok.2 ⟨text, htext, bind_eq_ok.2 ⟨texts, htexts, rfl⟩⟩⟩

theorem exists_showPairs {pairs : List (Value × Value)} (hkeys : ∀ pair ∈ pairs, ∃ text, pair.1.show? = .ok text)
    (hvalues : ∀ pair ∈ pairs, ∃ text, pair.2.show? = .ok text) : ∃ texts, showPairs pairs = .ok texts := by
  induction pairs with
  | nil => exact ⟨_, rfl⟩
  | cons pair pairs ih =>
    obtain ⟨key, hkey⟩ := hkeys pair List.mem_cons_self
    obtain ⟨value, hvalue⟩ := hvalues pair List.mem_cons_self
    obtain ⟨texts, htexts⟩ := ih (fun pair hpair => hkeys pair (List.mem_cons_of_mem _ hpair))
      fun pair hpair => hvalues pair (List.mem_cons_of_mem _ hpair)
    rw [showPairs]
    exact ⟨_, bind_eq_ok.2 ⟨key, hkey, bind_eq_ok.2 ⟨value, hvalue, bind_eq_ok.2 ⟨texts, htexts, rfl⟩⟩⟩⟩

/-- a value without too long a number in it can be shown -/
theorem Writable.exists_show {value : Value} (h : value.Writable) : ∃ text, value.show? = .ok text := by
  induction h with
  | null | bool | double | text => exact ⟨_, rfl⟩
  | int h => exact ⟨_, writeInteger_eq_ok.2 ⟨h, rfl⟩⟩
  | list _ ih =>
    obtain ⟨texts, htexts⟩ := exists_showItems ih
    exact ⟨_, map_eq_ok.2 ⟨texts, htexts, rfl⟩⟩
  | mapping _ _ ihkeys ihvalues =>
    obtain ⟨texts, htexts⟩ := exists_showPairs ihkeys ihvalues
    exact ⟨_, map_eq_ok.2 ⟨texts, htexts, rfl⟩⟩
  | other h => exact h

end Value

namespace Options

variable {o : Options}

theorem refuse_of_writable {α : Type} {value : Value} (h : value.Writable) (error : String → OptionsError) :
    ∃ text, (refuse value error : Except OptionsError α) = .error (error text) := by
  obtain ⟨text, htext⟩ := h.exists_show
  refine ⟨text, ?_⟩
  rw [refuse, htext]

/-- a value that can be shown is refused with its message, whatever is to be accepted -/
theorem judge_ne_unwritable {value : Value} (h : value.Writable) {error : String → OptionsError}
    {e : UnwritableInteger} (herror : ∀ text, error text ≠ .unwritable e) (accepts : Number → Bool) :
    judge value accepts error ≠ .error (.unwritable e) := by
  intro hjudge
  obtain ⟨text, hrefuse⟩ := refuse_of_writable (α := Number) h error
  rw [judge_eq_error hjudge] at hrefuse
  exact herror text (Except.error.inj hrefuse).symm

theorem checkRange_ne_unwritable {option : OptionName} {low high : Nat} {e : UnwritableInteger}
    (h : (o.get option).Writable) : o.checkRange option low high ≠ .error (.unwritable e) := by
  rw [checkRange_eq]
  refine judge_ne_unwritable h ?_ _
  intro text herror
  cases herror

theorem checkChoice_ne_unwritable {option : OptionName} {choices : List Nat} {e : UnwritableInteger}
    (h : (o.get option).Writable) : o.checkChoice option choices ≠ .error (.unwritable e) := by
  rw [checkChoice_eq]
  refine judge_ne_unwritable h ?_ _
  intro text herror
  cases herror

/-- every default can be shown -/
theorem writable_default (option : OptionName) : (get {} option).Writable := by
  have hpow : 10 ^ 3 ≤ 10 ^ maxDigits := Nat.pow_le_pow_right (by omega) (by decide)
  have hsmall {n : Nat} (h : n < 10 ^ 3) : (Value.int n).Writable := .int (by omega)
  cases option with
  | noFlams => exact .bool false
  | _ => exact hsmall (by decide)

/-- options whose values can be shown are refused for what they are -/
theorem check_ne_unwritable (h : ∀ option, (o.get option).Writable) (e : UnwritableInteger) :
    o.check ≠ .error (.unwritable e) := by
  intro hcheck
  rcases bind_eq_error.1 hcheck with hcheck | ⟨bpm, -, hcheck⟩
  · exact checkRange_ne_unwritable (h _) hcheck
  rcases bind_eq_error.1 hcheck with hcheck | ⟨noteDuration, -, hcheck⟩
  · exact checkChoice_ne_unwritable (h _) hcheck
  rcases bind_eq_error.1 hcheck with hcheck | ⟨accentVelocity, -, hcheck⟩
  · exact checkRange_ne_unwritable (h _) hcheck
  rcases bind_eq_error.1 hcheck with hcheck | ⟨normalVelocity, -, hcheck⟩
  · exact checkRange_ne_unwritable (h _) hcheck
  rcases bind_eq_error.1 hcheck with hcheck | ⟨flamVelocity, -, hcheck⟩
  · exact checkRange_ne_unwritable (h _) hcheck
  rcases bind_eq_error.1 hcheck with hcheck | ⟨flamDuration, -, hcheck⟩
  · exact checkChoice_ne_unwritable (h _) hcheck
  by_cases hshorter : Number.le flamDuration noteDuration = true
  · rw [if_pos hshorter] at hcheck
    cases hcheck
  rw [if_neg hshorter] at hcheck
  obtain ⟨text, hrefuse⟩ := refuse_of_writable (α := Settings) (h .noFlams) (.noTruthValue .noFlams)
  split at hcheck
  · cases hcheck
  · have hvalue : o.get .noFlams = o.noFlams := rfl
    rw [hvalue] at hrefuse
    rw [hrefuse] at hcheck
    cases hcheck

end Options

end Drumline

/-
What the settings of checked options keep: `check_bounded`, every one of them is within its bounds. Where the codes and
the velocities are whole (`Settings.Whole`), a code is one of the choices itself (`code_mem`) and a velocity is one of
the numbers up to 100 (`velocity_bounds`).
-/
import Drumline.Options.Basic
import Drumline.Proofs.Except
import Drumline.Proofs.Number.Rounding

namespace Drumline

/-! ## Model -/

namespace Settings

structure Bounded (s : Settings) : Prop where
  bpm : Number.le (.int Tempo.slowest) s.bpm = true ∧ Number.le s.bpm (.int Tempo.fastest) = true
  noteDuration : ∃ code ∈ NoteLength.steps, Number.eqv s.noteDuration (.int code) = true
  accentVelocity : Number.le (.int Velocity.least) s.accentVelocity = true ∧
    Number.le s.accentVelocity (.int Velocity.greatest) = true
  normalVelocity : Number.le (.int Velocity.least) s.normalVelocity = true ∧
    Number.le s.normalVelocity (.int Velocity.greatest) = true
  flamVelocity : Number.le (.int Velocity.least) s.flamVelocity = true ∧
    Number.le s.flamVelocity (.int Velocity.greatest) = true
  flamDuration : ∃ code ∈ NoteLength.graces, Number.eqv s.flamDuration (.int code) = true
  flamShorter : Number.le s.flamDuration s.noteDuration = false

/-- whether the codes and the velocities are whole numbers -/
structure Whole (s : Settings) : Prop where
  noteDuration : ∃ code : Int, s.noteDuration = .int code
  accentVelocity : ∃ velocity : Int, s.accentVelocity = .int velocity
  normalVelocity : ∃ velocity : Int, s.normalVelocity = .int velocity
  flamDuration : ∃ code : Int, s.flamDuration = .int code
  flamVelocity : ∃ velocity : Int, s.flamVelocity = .int velocity

end Settings

/-! ## Bounds -/

namespace Options

variable {o : Options}

theorem refuse_ne_ok {α : Type} {value : Value} {error : String → OptionsError} {a : α} :
    refuse value error ≠ .ok a := by
  intro h
  unfold refuse at h
  split at h
  · cases h
  · cases h

/-- a value that is a number of some kind, or else its refusal -/
def judge (value : Value) (accepts : Number → Bool) (error : String → OptionsError) : Except OptionsError Number :=
  (value.number?.filter accepts).elim (refuse value error) .ok

theorem judge_eq_ok {value : Value} {accepts : Number → Bool} {error : String → OptionsError} {n : Number}
    (h : judge value accepts error = .ok n) : value.number? = some n ∧ accepts n = true := by
  rw [← Option.filter_eq_some_iff]
  unfold judge at h
  cases hfilter : value.number?.filter accepts with
  | none =>
    rw [hfilter] at h
    exact (refuse_ne_ok h).elim
  | some m =>
    rw [hfilter] at h
    exact congrArg some (Except.ok.inj h)

theorem judge_eq_error {value : Value} {accepts : Number → Bool} {error : String → OptionsError} {e : OptionsError}
    (h : judge value accepts error = .error e) : refuse value error = (.error e : Except OptionsError Number) := by
  unfold judge at h
  cases hfilter : value.number?.filter accepts with
  | none =>
    rw [hfilter] at h
    exact h
  | some n =>
    rw [hfilter] at h
    cases h

theorem checkRange_eq (o : Options) (option : OptionName) (low high : Nat) :
    o.checkRange option low high =
      judge (o.get option) (fun n => Number.le (.int low) n && Number.le n (.int high))
        (.outOfRange option low high) := by
  unfold checkRange judge
  cases (o.get option).number? with
  | none => rfl
  | some n =>
    simp only [Option.filter_some]
    split <;> rfl

theorem checkChoice_eq (o : Options) (option : OptionName) (choices : List Nat) :
    o.checkChoice option choices =
      judge (o.get option) (fun n => choices.any fun choice => Number.eqv n (.int choice))
        (.noChoice option choices) := by
  unfold checkChoice judge
  cases (o.get option).number? with
  | none => rfl
  | some n =>
    simp only [Option.filter_some]
    split <;> rfl

theorem checkRange_eq_ok {option : OptionName} {low high : Nat} {n : Number}
    (h : o.checkRange option low high = .ok n) :
    Number.le (.int low) n = true ∧ Number.le n (.int high) = true := by
  rw [checkRange_eq] at h
  exact Bool.and_eq_true_iff.1 (judge_eq_ok h).2

theorem checkChoice_eq_ok {option : OptionName} {choices : List Nat} {n : Number}
    (h : o.checkChoice option choices = .ok n) : ∃ choice ∈ choices, Number.eqv n (.int choice) = true := by
  rw [checkChoice_eq] at h
  exact List.any_eq_true.1 (judge_eq_ok h).2

/-- the settings of checked options are within their bounds -/
theorem check_bounded {s : Settings} (h : o.check = .ok s) : s.Bounded := by
  obtain ⟨bpm, hbpm, h⟩ := bind_eq_ok.1 h
  obtain ⟨noteDuration, hnote, h⟩ := bind_eq_ok.1 h
  obtain ⟨accentVelocity, haccent, h⟩ := bind_eq_ok.1 h
  obtain ⟨normalVelocity, hnormal, h⟩ := bind_eq_ok.1 h
  obtain ⟨flamVelocity, hflam, h⟩ := bind_eq_ok.1 h
  obtain ⟨flamDuration, hgrace, h⟩ := bind_eq_ok.1 h
  by_cases hshorter : Number.le flamDuration noteDuration = true
  · rw [if_pos hshorter] at h
    cases h
  · rw [if_neg hshorter] at h
    split at h
    · cases h
      exact ⟨checkRange_eq_ok hbpm, checkChoice_eq_ok hnote, checkRange_eq_ok haccent, checkRange_eq_ok hnormal,
        checkRange_eq_ok hflam, checkChoice_eq_ok hgrace, Bool.eq_false_iff.2 hshorter⟩
    · exact (refuse_ne_ok h).elim

end Options

namespace Settings

/-- a whole velocity within bounds -/
theorem velocity_bounds {n : Number} {v : Int} (hv : n = .int v)
    (h : Number.le (.int Velocity.least) n = true ∧ Number.le n (.int Velocity.greatest) = true) : 0 ≤ v ∧ v ≤ 100 := by
  rw [hv, Number.le_int_int, Number.le_int_int, decide_eq_true_eq, decide_eq_true_eq] at h
  exact h

theorem code_mem {n : Number} {choices : List Nat} {v : Int} (hv : n = .int v)
    (h : ∃ code ∈ choices, Number.eqv n (.int code) = true) : ∃ code ∈ choices, n = .int (code : Nat) := by
  obtain ⟨code, hcode, heqv⟩ := h
  rw [hv, Number.eqv_int_int, decide_eq_true_eq] at heqv
  exact ⟨code, hcode, hv.trans (congrArg Number.int heqv)⟩

end Settings

end Drumline

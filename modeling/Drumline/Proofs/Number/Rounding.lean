/-
What rounding loses. A quotient or product of doubles is rounded once, and `Double.ofRat_near` bounds the loss by its
last place; three roundings in a row are still far from mattering to the length of a beat (`tempoOf_bounds`), and they
take no velocity off the scale of MIDI (`Velocity.exists_toData`). Codes of steps and whole velocities have few values,
so their ticks and their loudness are exact and found by evaluation.
-/
import Drumline.Proofs.Except
import Drumline.Proofs.Number.Order
import Drumline.Time
import Drumline.Velocity
import Mathlib.Data.Rat.Floor
import Mathlib.Tactic

namespace Drumline

/-! ## One rounding -/

/-- rounding to an integer is off by a half at most -/
theorem roundEven_near (q : Rat) : q - 1 / 2 ≤ roundEven q ∧ (roundEven q : Rat) ≤ q + 1 / 2 := by
  have hlow := Rat.floor_le q
  have hhigh := Rat.lt_floor_add_one q
  push_cast at hhigh
  have hparity : (0 : Rat) ≤ (q.floor % 2 : Int) ∧ ((q.floor % 2 : Int) : Rat) ≤ 1 := by
    constructor <;> norm_cast <;> omega
  simp only [roundEven]
  split_ifs with hbelow habove
  · exact ⟨by linarith, by linarith⟩
  · push_cast
    exact ⟨by linarith, by linarith⟩
  · push_cast at hparity ⊢
    exact ⟨by linarith, by linarith⟩

theorem two_zpow_pos (e : Int) : (0 : Rat) < (2 : Rat) ^ e := zpow_pos (by norm_num) e

theorem le_zpow_log2 {n : Nat} (h : n ≠ 0) : (2 : Rat) ^ (n.log2 : Int) ≤ n := by
  have := Nat.log2_self_le h
  rw [zpow_natCast]
  exact_mod_cast this

theorem lt_zpow_log2 (n : Nat) : (n : Rat) < (2 : Rat) ^ ((n.log2 : Int) + 1) := by
  have : n < 2 ^ (n.log2 + 1) := Nat.lt_log2_self
  rw [show (n.log2 : Int) + 1 = ((n.log2 + 1 : Nat) : Int) by push_cast; ring, zpow_natCast]
  exact_mod_cast this

theorem zpow_binaryExponent_le {q : Rat} (hq : 0 < q) : (2 : Rat) ^ binaryExponent q ≤ q := by
  unfold binaryExponent
  simp only
  rw [Rat.abs_of_nonneg hq.le]
  split_ifs with h
  · exact h
  · have hnum : (2 : Rat) ^ (q.num.natAbs.log2 : Int) ≤ q.num.natAbs := le_zpow_log2 (by
      have := Rat.num_pos.2 hq
      omega)
    have hden := lt_zpow_log2 q.den
    have hq' : (q.num.natAbs : Rat) = q * q.den := by
      rw [Rat.mul_den_eq_num]
      rw [← Int.cast_natCast, Int.natAbs_of_nonneg (Rat.num_pos.2 hq).le]
    have hsplit : (2 : Rat) ^ ((q.num.natAbs.log2 : Int) - q.den.log2 - 1) * (2 : Rat) ^ ((q.den.log2 : Int) + 1) =
        (2 : Rat) ^ (q.num.natAbs.log2 : Int) := by
      rw [← zpow_add₀ (by norm_num)]
      congr 1
      ring
    have hpos := two_zpow_pos ((q.num.natAbs.log2 : Int) - q.den.log2 - 1)
    have hdpos := two_zpow_pos ((q.den.log2 : Int) + 1)
    by_contra hlt
    rw [not_le] at hlt
    have := calc
      (q.num.natAbs : Rat) = q * q.den := hq'
      _ ≤ q * (2 : Rat) ^ ((q.den.log2 : Int) + 1) := by gcongr
      _ < (2 : Rat) ^ ((q.num.natAbs.log2 : Int) - q.den.log2 - 1) * (2 : Rat) ^ ((q.den.log2 : Int) + 1) := by gcongr
      _ ≤ q.num.natAbs := hsplit ▸ hnum
    exact lt_irrefl _ this

namespace Double

/-- the last place of a number that is not tiny is small against it -/
theorem zpow_lastPlace_le {q : Rat} (hq : 1 ≤ q) : (2 : Rat) ^ lastPlace q ≤ q / 2 ^ 52 := by
  have hexp := zpow_binaryExponent_le (by linarith : 0 < q)
  unfold lastPlace
  rcases le_total (binaryExponent q - 52) (-1074) with h | h
  · rw [max_eq_right h]
    calc (2 : Rat) ^ (-1074 : Int) ≤ (2 : Rat) ^ (-52 : Int) := zpow_le_zpow_right₀ (by norm_num) (by norm_num)
      _ = 1 / 2 ^ 52 := by norm_num [zpow_neg]
      _ ≤ q / 2 ^ 52 := by gcongr
  · rw [max_eq_left h, zpow_sub₀ (by norm_num)]
    have : (2 : Rat) ^ (52 : Int) = 2 ^ 52 := by norm_cast
    rw [this]
    gcongr

/-- **One rounding.** A number that is neither tiny nor huge rounds to a finite double, off by `2 ^ -53` of it at
most. -/
theorem ofRat_near {q : Rat} (hlow : 1 ≤ q) (hhigh : q ≤ 2 ^ 200) :
    ∃ v, ofRat q = .finite v ∧ q - q / 2 ^ 53 ≤ v ∧ v ≤ q + q / 2 ^ 53 := by
  set unit := (2 : Rat) ^ lastPlace q with hunit
  set n := roundEven (q / unit) with hn
  have hpos : 0 < unit := two_zpow_pos _
  have hsmall : unit ≤ q / 2 ^ 52 := zpow_lastPlace_le hlow
  obtain ⟨hbelow, habove⟩ := roundEven_near (q / unit)
  have hbelow : q - unit / 2 ≤ n * unit := by
    have := mul_le_mul_of_nonneg_right hbelow hpos.le
    rw [sub_mul, div_mul_cancel₀ _ hpos.ne'] at this
    linarith
  have habove : n * unit ≤ q + unit / 2 := by
    have := mul_le_mul_of_nonneg_right habove hpos.le
    rw [add_mul, div_mul_cancel₀ _ hpos.ne'] at this
    linarith
  have hhalf : unit / 2 ≤ q / 2 ^ 53 := by
    have : q / 2 ^ 53 = q / 2 ^ 52 / 2 := by ring
    rw [this]
    linarith
  have hshare : q / 2 ^ 53 ≤ q / 2 := by
    gcongr
    norm_num
  refine ⟨n * unit, ?_, by linarith, by linarith⟩
  have hne : n ≠ 0 := by
    intro h0
    rw [h0] at hbelow
    push_cast at hbelow
    linarith
  have hfits : ¬(2 : Rat) ^ (1024 : Int) ≤ (n * unit).abs := by
    rw [Rat.abs_of_nonneg (by linarith), not_le]
    calc n * unit ≤ q + q / 2 := by linarith
      _ < (2 : Rat) ^ (201 : Int) := by
        have : (2 : Rat) ^ (201 : Int) = 2 * 2 ^ 200 := by norm_cast
        linarith
      _ ≤ (2 : Rat) ^ (1024 : Int) := zpow_le_zpow_right₀ (by norm_num) (by norm_num)
  simp only [ofRat]
  rw [if_neg (by linarith), if_neg hne, if_neg hfits]

/-- a hundredth is far more than what one rounding loses -/
theorem ofRat_percent {q : Rat} (hlow : 1 ≤ q) (hhigh : q ≤ 2 ^ 200) :
    ∃ v, ofRat q = .finite v ∧ 99 / 100 * q ≤ v ∧ v ≤ 101 / 100 * q := by
  obtain ⟨v, hv, hbelow, habove⟩ := ofRat_near hlow hhigh
  have : q / 2 ^ 53 ≤ q / 100 := by
    gcongr
    norm_num
  exact ⟨v, hv, by linarith, by linarith⟩

/-- **One rounding of little.** A number from nought to a thousand rounds to one that is not negative and hardly
greater. -/
theorem ofRat_little {q : Rat} (hlow : 0 ≤ q) (hhigh : q ≤ 1000) :
    ∃ v, ofRat q = .finite v ∧ 0 ≤ v ∧ v ≤ q + 1 / 1000 := by
  rcases hlow.eq_or_lt with rfl | hpos
  · exact ⟨0, rfl, le_rfl, by norm_num⟩
  by_cases hone : 1 ≤ q
  · obtain ⟨v, hv, hbelow, habove⟩ := ofRat_near hone (hhigh.trans (by norm_num))
    have hloss : q / 2 ^ 53 ≤ 1 / 1000 := by
      rw [div_le_iff₀ (by positivity)]
      exact hhigh.trans (by norm_num)
    exact ⟨v, hv, by linarith, by linarith⟩
  rw [not_le] at hone
  -- below one the last place is some power of two, and at most `2 ^ -53`
  set unit := (2 : Rat) ^ lastPlace q with hunit
  set n := roundEven (q / unit) with hn
  have hplace : 0 < unit := two_zpow_pos _
  have hsmall : unit ≤ 1 / 1000 := by
    have hexponent : binaryExponent q < 0 := by
      by_contra hexponent
      have hone' : (1 : Rat) ≤ 2 ^ binaryExponent q := one_le_zpow₀ one_le_two (not_lt.1 hexponent)
      exact absurd (hone'.trans (zpow_binaryExponent_le hpos)) (not_le.2 hone)
    calc unit ≤ (2 : Rat) ^ (-10 : Int) := zpow_le_zpow_right₀ (by norm_num) (by unfold lastPlace; omega)
      _ ≤ 1 / 1000 := by norm_num [zpow_neg]
  obtain ⟨hbelow, habove⟩ := roundEven_near (q / unit)
  have hnonneg : 0 ≤ n := by
    have hquotient : 0 ≤ q / unit := by positivity
    have : (-1 : Rat) < n := by linarith
    have : (-1 : Int) < n := by exact_mod_cast this
    omega
  have hvalue : 0 ≤ n * unit := by positivity
  have habove : n * unit ≤ q + unit / 2 := by
    have := mul_le_mul_of_nonneg_right habove hplace.le
    rw [add_mul, div_mul_cancel₀ _ hplace.ne'] at this
    linarith
  have hfits : ¬(2 : Rat) ^ (1024 : Int) ≤ (n * unit).abs := by
    rw [Rat.abs_of_nonneg hvalue, not_le]
    calc n * unit < (2 : Rat) ^ (1 : Int) := by norm_num; linarith
      _ ≤ (2 : Rat) ^ (1024 : Int) := zpow_le_zpow_right₀ (by norm_num) (by norm_num)
  by_cases hzero : n = 0
  · refine ⟨0, ?_, le_rfl, by linarith⟩
    simp only [ofRat]
    rw [if_neg hpos.ne', if_pos hzero, if_neg (not_lt.2 hlow)]
  · refine ⟨n * unit, ?_, hvalue, by linarith⟩
    simp only [ofRat]
    rw [if_neg hpos.ne', if_neg hzero, if_neg hfits]

end Double

/-! ## Numbers between bounds -/

namespace Number

/-- a number between two whole ones as a double -/
theorem toDouble_percent {n : Number} {low high : Int} (hlow : 1 ≤ low) (hhigh : high ≤ 1000)
    (h1 : Number.le (.int low) n = true) (h2 : Number.le n (.int high) = true) :
    ∃ v : Rat, n.toDouble = .ok (.finite v) ∧ 99 / 100 * (low : Rat) ≤ v ∧ v ≤ 101 / 100 * (high : Rat) := by
  have hlow' : (1 : Rat) ≤ low := by exact_mod_cast hlow
  have hhigh' : (high : Rat) ≤ 1000 := by exact_mod_cast hhigh
  cases n with
  | int k =>
    rw [le_int_int, decide_eq_true_eq] at h1 h2
    have hk1 : (low : Rat) ≤ k := by exact_mod_cast h1
    have hk2 : (k : Rat) ≤ high := by exact_mod_cast h2
    have h1000 : (1000 : Rat) ≤ 2 ^ 200 := by norm_num
    obtain ⟨v, hv, hbelow, habove⟩ := Double.ofRat_percent (q := k) (by linarith) (by linarith)
    refine ⟨v, ?_, by linarith, by linarith⟩
    simp only [toDouble, hv]
  | double d =>
    cases d with
    | finite q =>
      have hq1 : (low : Rat) ≤ q := by simpa [Number.le, position, Double.toRat?] using h1
      have hq2 : q ≤ (high : Rat) := by simpa [Number.le, position, Double.toRat?] using h2
      exact ⟨q, rfl, by linarith, by linarith⟩
    | negativeZero =>
      have : (low : Rat) ≤ 0 := by simpa [Number.le, position, Double.toRat?] using h1
      linarith
    | infinite negative => cases negative <;> simp [Number.le, position] at h1 h2
    | nan => simp [Number.le, position] at h1

end Number

namespace Double

theorem finite_mul {p q : Rat} (h : p * q ≠ 0) : (finite p * finite q : Double) = ofRat (p * q) := by
  show Double.mul _ _ = _
  simp only [Double.mul, toRat?, if_neg h]

theorem finite_div {p q : Rat} (h : p ≠ 0) : (finite p / finite q : Double) = ofRat (p / q) := by
  show Double.div _ _ = _
  simp only [Double.div, toRat?, if_neg h]

theorem finite_mul_of_nonneg {p q : Rat} (hp : 0 ≤ p) (hq : 0 ≤ q) :
    (finite p * finite q : Double) = ofRat (p * q) := by
  by_cases h : p * q = 0
  · show Double.mul _ _ = _
    simp [Double.mul, toRat?, isNegative, h, not_lt.2 hp, not_lt.2 hq, zero, ofRat]
  · exact finite_mul h

theorem finite_div_of_nonneg {p q : Rat} (hq : 0 ≤ q) : (finite p / finite q : Double) = ofRat (p / q) := by
  by_cases h : p = 0
  · show Double.div _ _ = _
    simp [Double.div, toRat?, isNegative, h, not_lt.2 hq, zero, ofRat]
  · exact finite_div h

theorem finite_add (p q : Rat) : (finite p + finite q : Double) = ofRat (p + q) := rfl

end Double

/-- a number divides a double as the double that it converts to -/
theorem Number.div_of_toDouble {x : Double} {n : Number} {v : Rat} (hv : n.toDouble = .ok (.finite v)) (hne : v ≠ 0) :
    Number.div (.double x) n = .ok (x / .finite v) := by
  have hdiv : Number.div (.double x) n =
      (n.toDouble >>= fun y => if y.toRat? = some 0 then .error (.divisionByZero true) else return x / y) := by
    cases n with
    | int k => rfl
    | double d => rfl
  rw [hdiv, hv]
  exact if_neg fun hzero => hne (Option.some.inj hzero)

/-- **Every tempo that is allowed makes a beat that three bytes hold.** -/
theorem tempoOf_bounds {bpm : Number} (h1 : Number.le (.int 30) bpm = true) (h2 : Number.le bpm (.int 240) = true) :
    ∃ tempo, tempoOf bpm = .ok tempo ∧ 0 ≤ tempo ∧ tempo ≤ 0xFFFFFF := by
  obtain ⟨v, hv, hv1, hv2⟩ := Number.toDouble_percent (by norm_num) (by norm_num) h1 h2
  push_cast at hv1 hv2
  have hpos : 0 < v := by linarith
  have hquot1 : 240000 ≤ 60000000 / v := by
    rw [le_div_iff₀ hpos]
    linarith
  have hquot2 : 60000000 / v ≤ 2100000 := by
    rw [div_le_iff₀ hpos]
    linarith
  have hbig : (100000000 : Rat) ≤ 2 ^ 200 := by norm_num
  obtain ⟨beat, hbeat, hbeat1, hbeat2⟩ := Double.ofRat_percent (q := 60000000 / v) (by linarith) (by linarith)
  obtain ⟨four, hfour, hfour1, hfour2⟩ := Double.ofRat_percent (q := beat * 4) (by linarith) (by linarith)
  obtain ⟨tempo, htempo, htempo1, htempo2⟩ := Double.ofRat_percent (q := four / 4) (by linarith) (by linarith)
  obtain ⟨hround1, hround2⟩ := roundEven_near tempo
  have hdiv : Number.div (.double (.finite 60000000)) bpm = .ok (.finite beat) := by
    rw [Number.div_of_toDouble hv hpos.ne', Double.finite_div (by norm_num), hbeat]
  refine ⟨roundEven tempo, ?_, ?_, ?_⟩
  · unfold tempoOf
    rw [hdiv]
    show ((Double.finite beat * Double.finite 4) / Double.finite 4).roundToInt = _
    rw [Double.finite_mul (by linarith), hfour, Double.finite_div (by linarith), htempo]
    rfl
  · have : (-1 : Rat) < roundEven tempo := by linarith
    have : (-1 : Int) < roundEven tempo := by exact_mod_cast this
    omega
  · have : (roundEven tempo : Rat) ≤ 0xFFFFFF := by linarith
    exact_mod_cast this

/-! ## Codes and velocities -/

/-- the ticks of all codes there are, each as a whole number and as a double -/
theorem ticks_of_codes :
    (∀ code ∈ NoteLength.steps, tickDuration (.int code) = .ok (512 / code : Nat) ∧
      (Number.div (.int code) (.int 2) >>= fun half => tickDuration (.double half)) = .ok ((1024 / code : Nat) : Int) ∧
      tickDuration (.double (.finite code)) = .ok (512 / code : Nat) ∧
      Number.div (.double (.finite code)) (.int 2) = Number.div (.int code) (.int 2)) ∧
    ∀ code ∈ NoteLength.graces, tickDuration (.int code) = .ok (512 / code : Nat) ∧
      tickDuration (.double (.finite code)) = .ok (512 / code : Nat) := by
  decide +kernel

/-- the ticks of a step, with its code as it is and with half of it -/
theorem tickDuration_step {code : Nat} (h : code ∈ NoteLength.steps) :
    tickDuration (.int code) = .ok (512 / code : Nat) ∧
      ∃ half, Number.div (.int code) (.int 2) = .ok half ∧ tickDuration (.double half) = .ok (1024 / code : Nat) := by
  obtain ⟨hwhole, hhalf, -⟩ := ticks_of_codes.1 code h
  exact ⟨hwhole, bind_eq_ok.1 hhalf⟩

/-- the ticks of a grace note -/
theorem tickDuration_grace {code : Nat} (h : code ∈ NoteLength.graces) :
    tickDuration (.int code) = .ok (512 / code : Nat) :=
  (ticks_of_codes.2 code h).1

/-- the ticks of a step, whichever kind of number its code is -/
theorem tickDuration_step_of_eqv {n : Number} {code : Nat} (h : code ∈ NoteLength.steps)
    (heqv : Number.eqv n (.int code) = true) : tickDuration n = .ok (512 / code : Nat) ∧
      ∃ half, Number.div n (.int 2) = .ok half ∧ tickDuration (.double half) = .ok (1024 / code : Nat) := by
  have hne : ∀ code ∈ NoteLength.steps, (code : Int) ≠ 0 := by decide
  obtain ⟨-, -, hticks, hhalf⟩ := ticks_of_codes.1 code h
  rcases Number.eq_of_eqv_int heqv (hne code h) with rfl | rfl
  · exact tickDuration_step h
  · rw [Int.cast_natCast, hticks, hhalf]
    exact ⟨rfl, (tickDuration_step h).2⟩

/-- the ticks of a grace note, whichever kind of number its code is -/
theorem tickDuration_grace_of_eqv {n : Number} {code : Nat} (h : code ∈ NoteLength.graces)
    (heqv : Number.eqv n (.int code) = true) : tickDuration n = .ok (512 / code : Nat) := by
  have hne : ∀ code ∈ NoteLength.graces, (code : Int) ≠ 0 := by decide
  rcases Number.eq_of_eqv_int heqv (hne code h) with rfl | rfl
  · exact tickDuration_grace h
  · exact (ticks_of_codes.2 code h).2

/-- a velocity that is allowed, on the scale of MIDI -/
theorem Velocity.toData_eq {v : Nat} (h : v ≤ Velocity.greatest) :
    Velocity.toData (.int v) = .ok ((127 * v + 50) / 100 : Nat) := by
  have hall : ∀ v ∈ List.range 101, Velocity.toData (.int v) = .ok ((127 * v + 50) / 100 : Nat) := by decide +kernel
  exact hall v (List.mem_range.2 (Nat.lt_succ_of_le h))

/-- a velocity that is allowed makes a data byte, also if it is not whole -/
theorem Velocity.exists_toData_finite {q : Rat} (hlow : 0 ≤ q) (hhigh : q ≤ 100) :
    ∃ data : Int, Velocity.toData (.double (.finite q)) = .ok data ∧ 0 ≤ data ∧ data ≤ 127 := by
  obtain ⟨share, hshare, hshare1, hshare2⟩ := Double.ofRat_little (q := q / 100) (by linarith) (by linarith)
  obtain ⟨scaled, hscaled, hscaled1, hscaled2⟩ := Double.ofRat_little (q := share * 127) (by linarith) (by linarith)
  obtain ⟨half, hhalf, hhalf1, hhalf2⟩ := Double.ofRat_little (q := scaled + 1 / 2) (by linarith) (by linarith)
  have hbounded : Number.lt (.int Velocity.greatest) (.double (.finite q)) = false := by
    simpa [Number.lt, Number.position, Double.toRat?, Velocity.greatest] using hhigh
  have hhundred : (Number.int Velocity.greatest).toDouble = .ok (.finite 100) := by decide +kernel
  have hdiv : Number.div (.double (.finite q)) (.int Velocity.greatest) = .ok (.finite share) := by
    rw [Number.div_of_toDouble hhundred (by norm_num), Double.finite_div_of_nonneg (by norm_num), hshare]
  have hsum : (Double.finite share * .finite 127 + .finite (1 / 2) : Double) = .finite half := by
    rw [Double.finite_mul_of_nonneg hshare1 (by norm_num), hscaled, Double.finite_add, hhalf]
  refine ⟨half.floor, ?_, Rat.le_floor_iff.2 (by exact_mod_cast hhalf1), ?_⟩
  · calc Velocity.toData (.double (.finite q))
        = (Double.finite share * .finite 127 + .finite (1 / 2) : Double).toInt := by
          unfold Velocity.toData
          rw [hbounded, if_neg Bool.false_ne_true]
          exact bind_of_ok hdiv
      _ = .ok (truncate half) := by
          rw [hsum]
          rfl
      _ = .ok half.floor := by rw [truncate, if_neg (not_lt.2 hhalf1)]
  · have hfloor := Rat.floor_le half
    have : (half.floor : Rat) < 128 := by linarith
    have : half.floor < 128 := by exact_mod_cast this
    omega

/-- a velocity that is allowed makes a data byte, whichever kind of number it is -/
theorem Velocity.exists_toData {n : Number} (hlow : Number.le (.int Velocity.least) n = true)
    (hhigh : Number.le n (.int Velocity.greatest) = true) :
    ∃ data : Int, Velocity.toData n = .ok data ∧ 0 ≤ data ∧ data ≤ 127 := by
  cases n with
  | int v =>
    rw [Number.le_int_int, decide_eq_true_eq] at hlow hhigh
    obtain ⟨k, rfl⟩ := Int.eq_ofNat_of_zero_le hlow
    have hk : k ≤ 100 := Int.ofNat_le.1 hhigh
    exact ⟨_, Velocity.toData_eq hk, by omega, by omega⟩
  | double d =>
    cases d with
    | finite q =>
      apply Velocity.exists_toData_finite
      · simpa [Number.le, Number.position, Double.toRat?, Velocity.least] using hlow
      · simpa [Number.le, Number.position, Double.toRat?, Velocity.greatest] using hhigh
    | negativeZero => exact ⟨0, by decide +kernel, le_rfl, by omega⟩
    | infinite negative => cases negative <;> simp [Number.le, Number.position] at hlow hhigh
    | nan => simp [Number.le, Number.position] at hlow

end Drumline

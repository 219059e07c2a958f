/-
How many bars the steps of a pattern fill. The time signature and the ticks of a step are worked out apart. The signature
is read off the number of steps, four steps to a quarter where they divide into eights, one to an eighth where they do
not. The ticks are a rounded quotient by the code of a step, which is halved for eighths. The two agree all the same:
codes are powers of two up to 64, so that nothing is there to round (`step_mul_code`), and the steps are sixteen bars
over the code, whatever their number (`exists_fillsBars`).

A file holds the numerator of the meter and the logarithm of its denominator, once (`signature_of_mem_messages`).

Main result: `steps_fill_bars`.
-/
import Drumline.Proofs.Arrangement.Written

namespace Drumline

open Midi

/-! ## Model -/

/-- the ticks of a bar, as a quotient that is not rounded -/
def barTicks (numerator : Int) (denominator : Nat) : Rat := numerator * ((4 * ticksPerBeat : Nat) / denominator)

/-- whether some ticks are sixteen bars over a code, and none is lost -/
structure FillsBars (ticks : Int) (code : Nat) (bar : Rat) : Prop where
  exact : (ticks : Rat) * code = 16 * bar
  count : (ticks : Rat) = 16 / code * bar
  one : code = NoteLength.sixteenth → (ticks : Rat) = bar

/-! ## Steps -/

/-- the steps of a code make up a whole note, or two where they are twice as long -/
theorem step_mul_code : ∀ code ∈ NoteLength.steps, 0 < code ∧ 512 / code * code = 512 ∧ 1024 / code * code = 1024 := by
  decide

/-- ticks fill bars by an equation of whole numbers -/
theorem fillsBars_of_mul_eq {ticks numerator : Int} {code denominator : Nat} (hcode : 0 < code)
    (hdenominator : 0 < denominator)
    (h : ticks * code * denominator = 16 * (numerator * (4 * ticksPerBeat : Nat))) :
    FillsBars ticks code (barTicks numerator denominator) := by
  have hcode' : (code : Rat) ≠ 0 := by exact_mod_cast hcode.ne'
  have hdenominator' : (denominator : Rat) ≠ 0 := by exact_mod_cast hdenominator.ne'
  have hexact : (ticks : Rat) * code = 16 * barTicks numerator denominator := by
    have hcast : (ticks : Rat) * code * denominator = 16 * (numerator * (4 * ticksPerBeat : Nat)) := by
      exact_mod_cast h
    calc (ticks : Rat) * code = 16 * (numerator * (4 * ticksPerBeat : Nat)) / denominator :=
          (eq_div_iff hdenominator').2 hcast
      _ = 16 * barTicks numerator denominator := by rw [barTicks, mul_div_assoc, mul_div_assoc]
  have hcount : (ticks : Rat) = 16 / code * barTicks numerator denominator := by
    rw [div_mul_eq_mul_div, eq_div_iff hcode', hexact]
  refine ⟨hexact, hcount, ?_⟩
  rintro rfl
  rw [hcount, NoteLength.sixteenth, Nat.cast_ofNat, div_self (by norm_num), one_mul]

/-- **Signature and steps agree.** Under settings that are accepted, every number of steps has a meter, and steps of a
length that fill its bars. -/
theorem exists_fillsBars {o : Options} {s : Settings} (hcheck : o.check = .ok s) (length : Int) :
    ∃ code ∈ NoteLength.steps, Number.eqv s.noteDuration (.int code) = true ∧ ∃ (meter : Meter) (step : Nat),
      Meter.ofLength length s.noteDuration = .ok meter ∧ tickDuration meter.code = .ok step ∧
      FillsBars (length * step) code (barTicks meter.numerator meter.denominator) := by
  obtain ⟨code, hcode, hnote, -, -, -, meter, step, hmeter, hstep, -, hform⟩ := exists_meter hcheck length
  obtain ⟨hpos, hquarters, heighths⟩ := step_mul_code code hcode
  refine ⟨code, hcode, hnote, meter, step, hmeter, hstep, ?_⟩
  rcases hform with ⟨hlength, hform, rfl⟩ | ⟨hform, rfl⟩
  · rw [hform]
    refine fillsBars_of_mul_eq hpos (show 0 < 4 by omega) ?_
    have hwhole : ((512 / code : Nat) : Int) * code = 512 := by exact_mod_cast hquarters
    calc length * (512 / code : Nat) * code * 4 = length * 512 * 4 := by rw [mul_assoc length, hwhole]
      _ = 16 * (length / 4 * 512) := by omega
  · rw [hform]
    refine fillsBars_of_mul_eq hpos (show 0 < 8 by omega) ?_
    have hwholes : ((1024 / code : Nat) : Int) * code = 1024 := by exact_mod_cast heighths
    calc length * (1024 / code : Nat) * code * 8 = length * 1024 * 8 := by rw [mul_assoc length, hwholes]
      _ = 16 * (length * 512) := by omega

/-! ## Signatures -/

/-- a time signature among the messages of an arrangement is that of its meter -/
theorem signature_of_mem_messages {p : Pattern} {name : String} {o : Options} {s : Settings} {a : Arrangement}
    (hcheck : o.check = .ok s) (h : p.arrange name s = .ok a) {timed : List (Timed Message)}
    (htimed : a.track.messages = .ok timed) {m : Timed Message} (hm : m ∈ timed) {n clocks thirtySeconds : Fin 256}
    {d : Denominator} (hsignature : m.message = .timeSignature n d clocks thirtySeconds) :
    (n : Int) = a.meter.numerator ∧ 2 ^ d.exponent = a.meter.denominator := by
  obtain ⟨tempo, n', d', hn, hd, hpower, hmetas⟩ := Pattern.metas_eq_of_arrange hcheck h
  have hmeta : m.message ∈ a.track.metas := by
    rcases message_of_mem_messages htimed hm with hmeta | hnote | hend
    · exact hmeta
    · rw [hsignature] at hnote
      exact (hnote rfl).elim
    · rw [hsignature] at hend
      cases hend
  obtain ⟨rfl, rfl, -, -⟩ : n = n' ∧ d = d' ∧ clocks = 24 ∧ thirtySeconds = 8 := by
    simpa [hmetas, hsignature] using hmeta
  exact ⟨hn, by rw [← hd, ← (Denominator.readable hpower).2]⟩

/-! ## Files -/

/-- **Steps fill bars.** Under settings that are accepted the code of a step is one of the choices, and any number of
steps is exactly sixteen bars over the code, by the time signature of that number: half a bar of thirty-seconds, one of
sixteenths, two of eighths. In the file of a pattern the same holds by the time signature that is written there, whose
denominator is a power of two. -/
theorem steps_fill_bars :
    (∀ (o : Options) (s : Settings) (length : Int), o.check = .ok s →
      ∃ code ∈ NoteLength.steps, Number.eqv s.noteDuration (.int code) = true ∧ ∃ (meter : Meter) (step : Nat),
        Meter.ofLength length s.noteDuration = .ok meter ∧ tickDuration meter.code = .ok step ∧
        FillsBars (length * step) code (barTicks meter.numerator meter.denominator)) ∧
    ∀ (p : Pattern) (name : String) (o : Options) (s : Settings) (bytes : List UInt8),
      o.check = .ok s → p.toMidi name s = .ok bytes →
        ∃ code ∈ NoteLength.steps, Number.eqv s.noteDuration (.int code) = true ∧
          ∃ (a : Arrangement) (step : Nat) (timed : List (Timed Message)), p.arrange name s = .ok a ∧
            tickDuration a.meter.code = .ok step ∧ a.track.messages = .ok timed ∧ encodeFile [timed] = .ok bytes ∧
            (∃ n d, ⟨0, .timeSignature n d 24 8⟩ ∈ timed) ∧
            ∀ m ∈ timed, ∀ n d clocks thirtySeconds, m.message = .timeSignature n d clocks thirtySeconds →
              FillsBars (p.length * step) code (barTicks n (2 ^ d.exponent)) := by
  refine ⟨fun o s length hcheck => exists_fillsBars hcheck length, ?_⟩
  intro p name o s bytes hcheck h
  obtain ⟨a, stamps, harrange, -, -, hmessages, hencoded⟩ := Pattern.toMidi_eq_ok hcheck h
  obtain ⟨code, hcode, hnote, meter, step, hmeter, hstep, hfills⟩ := exists_fillsBars hcheck p.length
  obtain ⟨-, -, -, -, -, hmeter', -⟩ := Pattern.arrange_iff.1 harrange
  obtain rfl := Except.ok.inj (hmeter.symm.trans hmeter')
  refine ⟨code, hcode, hnote, a, step, _, harrange, hstep, hmessages, hencoded, ?_, ?_⟩
  · obtain ⟨tempo, n, d, -, -, -, hmetas⟩ := Pattern.metas_eq_of_arrange hcheck harrange
    exact ⟨n, d, by simp [framed, hmetas]⟩
  · intro m hm n d clocks thirtySeconds hsignature
    obtain ⟨hn, hd⟩ := signature_of_mem_messages hcheck harrange hmessages hm hsignature
    rw [hn, hd]
    exact hfills

/-! ## Three eighths -/

def waltz : Pattern := ⟨[⟨36, ['x', '-', '-']⟩], [], 3⟩

def hurried : Settings := { Settings.standard with noteDuration := .double (.finite 32) }

/-- three thirty-seconds, written as three sixteenths, are half a bar of three eighths; with the default options seven
steps are one bar of seven eighths -/
theorem steps_fill_bars_waltz :
    (∃ (bytes : List UInt8) (timed : List (Timed Message)),
      Options.check { noteDuration := .double (.finite 32) } = .ok hurried ∧
      waltz.toMidi "waltz.pat" hurried = .ok bytes ∧ encodeFile [timed] = .ok bytes ∧
      ⟨0, .timeSignature 3 eighths 24 8⟩ ∈ timed ∧ FillsBars (3 * 32) 32 (barTicks 3 8)) ∧
    Options.check {} = .ok Settings.standard ∧ FillsBars (7 * 64) 16 (barTicks 7 8) := by
  refine ⟨?_, check_standard, ?_⟩
  · have hcheck : Options.check { noteDuration := .double (.finite 32) } = .ok hurried := by decide +kernel
    have hcodes : ∀ code ∈ NoteLength.steps, Number.eqv hurried.noteDuration (.int (code : Nat)) = true →
        code = 32 := by decide +kernel
    have hstep' : tickDuration (.double (.finite 16)) = .ok 32 := by decide +kernel
    have hmeter' : (waltz.arrange "waltz.pat" hurried).map (·.meter) = .ok ⟨3, 8, .double (.finite 16)⟩ := by
      decide +kernel
    have htimeline : ((waltz.arrange "waltz.pat" hurried).map (·.track) >>= Track.timeline) =
        .ok ([⟨0, .trackName "waltz"⟩, ⟨0, .setTempo 500000⟩, ⟨0, .timeSignature 3 eighths 24 8⟩,
          ⟨0, .noteOn 0 36 102⟩, ⟨32, .noteOff 0 36 102⟩].map Stamp.placed) := by
      decide +kernel
    obtain ⟨a, bytes, harrange, hmessages, hbytes⟩ :=
      Pattern.exists_toMidi_of_timeline htimeline (by decide) ⟨_, by cbv, by decide⟩
    obtain ⟨code, hcode, hnote, a', step, timed, harrange', hstep, hmessages', hencoded, -, hfills⟩ :=
      steps_fill_bars.2 waltz "waltz.pat" _ hurried bytes hcheck hbytes
    obtain rfl := Except.ok.inj (harrange.symm.trans harrange')
    obtain rfl := Except.ok.inj (hmessages.symm.trans hmessages')
    obtain ⟨a'', harrange'', hmeter⟩ := map_eq_ok.1 hmeter'
    obtain rfl := Except.ok.inj (harrange.symm.trans harrange'')
    rw [hmeter] at hstep
    have hticks : (32 : Int) = step := Except.ok.inj (hstep'.symm.trans hstep)
    have hthird {a b c : Timed Message} {rest : List (Timed Message)} : c ∈ a :: b :: c :: rest := by simp
    refine ⟨bytes, _, hcheck, hbytes, hencoded, hthird, ?_⟩
    rw [hticks, ← hcodes code hcode hnote]
    exact hfills _ hthird 3 eighths 24 8 rfl
  · obtain ⟨code, hcode, hnote, meter, step, hmeter, hstep, hfills⟩ :=
      steps_fill_bars.1 {} Settings.standard 7 check_standard
    have hcodes : ∀ code ∈ NoteLength.steps, Number.eqv (.int 16) (.int (code : Nat)) = true → code = 16 := by
      decide +kernel
    have hmeter' : Meter.ofLength 7 (.int 16) = .ok ⟨7, 8, .double (.finite 8)⟩ := by decide +kernel
    have hstep' : tickDuration (.double (.finite 8)) = .ok 64 := by decide +kernel
    obtain rfl := Except.ok.inj (hmeter'.symm.trans hmeter)
    have hticks : (64 : Int) = step := Except.ok.inj (hstep'.symm.trans hstep)
    rw [hticks, ← hcodes code hcode hnote]
    exact hfills

end Drumline

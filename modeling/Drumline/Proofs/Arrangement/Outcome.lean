/-
When a pattern becomes a file, and what stops it otherwise.

Of a pattern that is read, under settings that are accepted, only three things can go wrong: the numerator of its
meter is no byte (`arrange_of_lt_numerator`), a line sounds whose note is no data byte (`Pattern.Unplayable`), or
there are more bytes of messages than a chunk counts. `toMidi_outcome` says which of them happens when. The first is
about long patterns, and stops the arrangement itself: `not_only_unplayable` has the shortest of them.
-/
import Drumline.Proofs.Arrangement.Events

namespace Drumline

open Midi

namespace Pattern

variable {p : Pattern} {o : Options} {s : Settings} {name : String} {a : Arrangement}

/-- an arrangement in which a line sounds that cannot be played has no file -/
theorem toMidi_of_unplayable (hp : p.Even) (hcheck : o.check = .ok s) (h : p.arrange name s = .ok a)
    (hunplayable : p.Unplayable) : p.toMidi name s = .error (.field .dataByteRange) := by
  obtain ⟨_, _, _, feel, -, hfeel, -, hevents⟩ := arrange_eq_ok hcheck h
  have hsteady := steady_of_arrange hcheck h
  have hmessages := Track.messages_of_not_inRange hsteady ((exists_not_inRange_iff hp hfeel hevents).2 hunplayable)
  rw [toMidi_of_arrange h]
  exact bind_of_error (mapM_eq_error (fun t ht => .inl (List.mem_singleton.1 ht ▸ hmessages))
    ⟨_, List.mem_singleton_self _, hmessages⟩)

/-- time runs forward in an arrangement that can be played -/
theorem forward_of_arrange (hp : p.Even) (hcheck : o.check = .ok s) (h : p.arrange name s = .ok a)
    (hplayable : ¬p.Unplayable) : a.track.Forward := by
  obtain ⟨_, _, _, feel, -, hfeel, -, hevents⟩ := arrange_eq_ok hcheck h
  refine Track.forward_of_steady (steady_of_arrange hcheck h) fun e he => ?_
  by_contra hrange
  exact hplayable ((exists_not_inRange_iff hp hfeel hevents).1 ⟨e, he, hrange⟩)

end Pattern

/-- **When a pattern becomes a file.** A pattern that is read has a meter under settings that are accepted. It is
arranged exactly if the numerator is a byte; its arrangement has a file exactly if no line sounds that cannot be played,
and its chunk is not too long. -/
theorem toMidi_outcome {content : List Char} {p : Pattern} (hparse : (Pattern.parse content).result = .ok p)
    (name : String) {o : Options} {s : Settings} (hcheck : o.check = .ok s) :
    ∃ meter, Meter.ofLength p.length s.noteDuration = .ok meter ∧
      meter.numerator = (if p.length % 8 = 0 then p.length / 4 else p.length) ∧
      (255 < meter.numerator →
        p.arrange name s = .error (.field (.attributeRange 0 255)) ∧
        p.toMidi name s = .error (.field (.attributeRange 0 255))) ∧
      (meter.numerator ≤ 255 → ∃ track, p.arrange name s = .ok ⟨track, meter⟩ ∧
        (p.Unplayable → p.toMidi name s = .error (.field .dataByteRange)) ∧
        (¬p.Unplayable →
          (track.FitsChunk → ∃ bytes, p.toMidi name s = .ok bytes) ∧
          (¬track.FitsChunk → p.toMidi name s = .error (.write .chunkTooLong)))) := by
  obtain ⟨heven, hlength⟩ := parse_even hparse
  obtain ⟨meter, step, grace, hmeter, -⟩ := exists_feel hcheck p.length
  refine ⟨meter, hmeter, ?_, fun hnumerator => ?_, fun hnumerator => ?_⟩
  · unfold Meter.ofLength at hmeter
    split_ifs at hmeter with heights
    · rw [if_pos heights, ← Except.ok.inj hmeter]
    · obtain ⟨half, -, rfl⟩ := map_eq_ok.1 hmeter
      rw [if_neg heights]
  · have harrange := Pattern.arrange_of_lt_numerator hcheck name hmeter hnumerator
    exact ⟨harrange, Pattern.toMidi_of_arrange_error harrange⟩
  · obtain ⟨track, harrange⟩ := Pattern.exists_arrange heven hlength hcheck name hmeter hnumerator
    refine ⟨track, harrange, Pattern.toMidi_of_unplayable heven hcheck harrange, fun hplayable => ?_⟩
    have hforward : ∀ t ∈ [track], t.Forward := by
      intro t ht
      rw [List.mem_singleton.1 ht]
      exact Pattern.forward_of_arrange heven hcheck harrange hplayable
    have hone : 1 ≤ maxTracks := by decide
    have hcount : [track].length ≤ maxTracks := hone
    rw [Pattern.toMidi_of_arrange harrange]
    refine ⟨fun hfits => ?_, fun hlong => ?_⟩
    · obtain ⟨_, bytes, -, hbytes⟩ :=
        exists_buildFile_of_forward hcount hforward fun t ht => List.mem_singleton.1 ht ▸ hfits
      exact ⟨bytes, hbytes⟩
    · exact buildFile_of_forward_of_chunkTooLong hcount hforward ⟨track, List.mem_singleton_self _, hlong⟩

/-! ## One line -/

def above : Pattern := ⟨[⟨128, ['-', 'x']⟩], [], 2⟩

/-- it is arranged, and has no file -/
theorem toMidi_above :
    (∃ track meter, above.arrange "above.pat" Settings.standard = .ok ⟨track, meter⟩ ∧ meter.numerator = 2) ∧
      above.toMidi "above.pat" Settings.standard = .error (.field .dataByteRange) := by
  have hparse : (Pattern.parse "128 -x".toList).result = .ok above := by decide +kernel
  have hcheck : Options.check {} = .ok Settings.standard := by decide +kernel
  obtain ⟨meter, -, hnumerator, -, harranged⟩ := toMidi_outcome hparse "above.pat" hcheck
  have htwo : meter.numerator = 2 := hnumerator
  obtain ⟨track, harrange, hunplayable, -⟩ := harranged (by omega)
  refine ⟨⟨track, meter, harrange, htwo⟩, hunplayable ?_⟩
  exact ⟨⟨128, ['-', 'x']⟩, List.mem_singleton_self _, by decide, 1, by decide, by decide⟩

def long : Pattern := ⟨[⟨36, List.replicate 257 '-'⟩], [], 257⟩

/-- notes that cannot be played are not all that stops a pattern: this one has none, and is not even arranged -/
theorem not_only_unplayable :
    ¬∀ (content : List Char) (p : Pattern) (name : String) (o : Options) (s : Settings),
      (Pattern.parse content).result = .ok p → o.check = .ok s →
        (∃ a, p.arrange name s = .ok a) ∧ ((∃ e, p.toMidi name s = .error e) ↔ p.Unplayable) := by
  intro h
  have hparse : (Pattern.parse ("BD ".toList ++ List.replicate 257 '-')).result = .ok long := by decide +kernel
  have hcheck : Options.check {} = .ok Settings.standard := by decide +kernel
  obtain ⟨⟨a, harrange⟩, -⟩ := h _ long "long.pat" {} Settings.standard hparse hcheck
  have hmeter : Meter.ofLength long.length Settings.standard.noteDuration = .ok ⟨257, 8, .double (.finite 8)⟩ := by
    decide +kernel
  have hrefused := Pattern.arrange_of_lt_numerator hcheck "long.pat" hmeter (show (255 : Int) < 257 by decide)
  rw [hrefused] at harrange
  cases harrange

end Drumline

/-
The file that is written of a pattern. Its track is framed: the meta messages of the arrangement come first, then the
messages of its events in order, each with the ticks since the one before, then the end (`Pattern.toMidi_eq_ok`).
Reading the file gives this track again, unless the name of the track is too long to be read
(`decodeFile_of_arrange`).
-/
import Drumline.Proofs.Arrangement.Balance
import Drumline.Proofs.Midi.LongName

namespace Drumline

open Midi

variable {p : Pattern} {name : String} {o : Options} {s : Settings} {a : Arrangement} {bytes : List UInt8}

/-- the messages of a track whose events are placed from the start on -/
theorem messages_framed {t : Track} (hmetas : ∀ m ∈ t.metas, m.rank = 0) {stamps : List Stamp}
    (hplaced : placeEvents 0 t.events = .ok (stamps.map Stamp.placed)) (hticks : ∀ s ∈ stamps, 0 ≤ s.tick) :
    t.messages = .ok (framed t.metas (deltas 0 (stamps.mergeSort Stamp.le))) := by
  rw [messages_of_timeline (timeline_of_placeEvents hplaced), mergeSort_metas hmetas hticks, deltas_append]
  rfl

/-- **What is written of a pattern.** The events of its arrangement are placed, and the track is framed. -/
theorem Pattern.toMidi_eq_ok (hcheck : o.check = .ok s) (h : p.toMidi name s = .ok bytes) :
    ∃ (a : Arrangement) (stamps : List Stamp), p.arrange name s = .ok a ∧
      placeEvents 0 a.track.events = .ok (stamps.map Stamp.placed) ∧ (∀ s ∈ stamps, 0 ≤ s.tick) ∧
      a.track.messages = .ok (framed a.track.metas (deltas 0 (stamps.mergeSort Stamp.le))) ∧
      encodeFile [framed a.track.metas (deltas 0 (stamps.mergeSort Stamp.le))] = .ok bytes := by
  obtain ⟨a, harrange, hbuild⟩ := bind_eq_ok.1 h
  obtain ⟨all, hall, hencoded⟩ := buildFile_eq_ok.1 hbuild
  obtain ⟨timed, htimed, hall⟩ := bind_eq_ok.1 hall
  cases hall
  have hsteady := Pattern.steady_of_arrange hcheck harrange
  have hrange : ∀ e ∈ a.track.events, e.InRange := by
    -- or else there would be no messages to write
    by_contra hnot
    push Not at hnot
    rw [Track.messages_of_not_inRange hsteady hnot] at htimed
    cases htimed
  obtain ⟨stamps, hplaced, hticks⟩ := exists_placeEvents_of_steady hsteady hrange 0
  have hmessages := messages_framed (metas_of_arrange hcheck harrange).1 hplaced hticks
  obtain rfl := Except.ok.inj (hmessages.symm.trans htimed)
  exact ⟨a, stamps, harrange, hplaced, hticks, hmessages, hencoded⟩

/-- **What is read of a pattern's file.** It is the track that was written, unless the name of the track is too long. -/
theorem decodeFile_of_arrange (hcheck : o.check = .ok s) (h : p.arrange name s = .ok a) {notes : List (Timed Message)}
    (htimed : a.track.messages = .ok (framed a.track.metas notes))
    (hencoded : encodeFile [framed a.track.metas notes] = .ok bytes) :
    decodeFile bytes = if (Text.encode (trackNameOf name).toList).length ≤ longestData
      then .ok ⟨0, 128, [(framed a.track.metas notes).map Timed.inFile]⟩
      else .error (.tooLong (Text.encode (trackNameOf name).toList).length) := by
  split
  · rename_i hname
    have hmessages := readable_of_messages ((metas_of_arrange hcheck h).2 hname) htimed
    exact decodeFile_of_encodeFile (fun track htrack => List.mem_singleton.1 htrack ▸ hmessages) hencoded
  · rename_i hname
    obtain ⟨tempo, n, d, -, -, -, hmetas, -⟩ := Pattern.arrange_eq_ok hcheck h
    rw [hmetas] at hencoded
    exact decodeFile_of_long_name (not_le.1 hname) hencoded

/-- a pattern has a file if its messages are placed in order and fit into a chunk -/
theorem Pattern.exists_toMidi_of_timeline {stamps : List Stamp}
    (htimeline : ((p.arrange name s).map (·.track) >>= Track.timeline) = .ok (stamps.map Stamp.placed))
    (hsorted : stamps.Pairwise fun a b => a.le b)
    (hfits : ∃ data, encodeMessages none (deltas 0 stamps ++ [⟨0, .endOfTrack⟩]) = .ok data ∧
      data.length ≤ longestChunk) :
    ∃ a bytes, p.arrange name s = .ok a ∧ a.track.messages = .ok (deltas 0 stamps ++ [⟨0, .endOfTrack⟩]) ∧
      p.toMidi name s = .ok bytes := by
  obtain ⟨track, htrack, htimeline⟩ := bind_eq_ok.1 htimeline
  obtain ⟨a, harrange, rfl⟩ := map_eq_ok.1 htrack
  obtain ⟨data, hdata, hlong⟩ := hfits
  have hmessages := messages_of_timeline htimeline
  rw [List.mergeSort_of_pairwise hsorted] at hmessages
  have hchunk := trackChunk_eq_ok.2 ⟨data, hdata, hlong, rfl⟩
  have hone : 1 ≤ maxTracks := by decide
  have hencoded := encodeFile_eq_ok.2 ⟨show [_].length ≤ maxTracks from hone, _, mapM_eq_ok.2 (.cons hchunk .nil), rfl⟩
  have hall := mapM_eq_ok.2 (.cons hmessages .nil)
  exact ⟨a, _, harrange, hmessages, (Pattern.toMidi_of_arrange harrange).trans (buildFile_eq_ok.2 ⟨_, hall, hencoded⟩)⟩

end Drumline

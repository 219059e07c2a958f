/-
What makes a conversion fail whose settings are accepted. Reading a pattern file gives only faults that are reported
(`loadPattern_failsOnly`), and so does rendering it, unless there are too many messages for a chunk
(`renderPattern_failsOnly`).
Showing what a file contains does not fail: the file is read again, because the name of a pattern file that can be read
is short (`printContents_ne_error`).

`convertFile_error` are all errors of a conversion: the reports, and those that are passed on as they are
(`FileLeaves`). `prepare_eq_nul` says when a batch cannot begin for a null character.
-/
import Drumline.Proofs.Arrangement.Outcome
import Drumline.Proofs.Arrangement.Written
import Drumline.Proofs.Session.Directory

namespace Drumline

open Midi

/-! ## Model -/

/-- whether the messages of a pattern in some content are too many for a chunk -/
def Overflows (raw : List UInt8) (name : String) (settings : Settings) : Prop :=
  ∃ content p, Text.decode raw = .ok content ∧ (Pattern.parse content).result = .ok p ∧
    p.toMidi name settings = .error (.write .chunkTooLong)

/-- whether all errors of an action are of a kind -/
def Action.FailsOnly {ε α : Type} (x : Action ε α) (P : ε → Prop) : Prop :=
  ∀ (σ σ' : Session) (e : ε), x.runOn σ = (.error e, σ') → P e

def ConversionError.overflow : ConversionError := .unreported (.score (.write .chunkTooLong))

/-- the errors that the conversion of a file passes on, each with what brings it about -/
inductive FileLeaves (σ : Session) (input : Path) (output : Option Path) (settings : Settings) :
    ConversionError → Prop where
  /-- an input without a name, which names no output -/
  | nameless (houtput : output = none) (hnames : input.names = []) :
    FileLeaves σ input output settings (.nameless ⟨input⟩)
  /-- a pattern file with too many messages for a chunk -/
  | overflow {raw : List UInt8} (htarget : output = none → input.names ≠ [])
      (hread : σ.tree.read σ.workingDirectory input = .ok raw)
      (hoverflows : Overflows raw input.sourceName settings) :
    FileLeaves σ input output settings .overflow

/-! ## Errors of actions -/

namespace Action

variable {ε ε' δ α β : Type} {P : ε → Prop}

theorem FailsOnly.pure (a : α) : FailsOnly (Pure.pure a : Action ε α) P := by
  intro σ σ' e h
  cases h

theorem FailsOnly.bind {x : Action ε α} {f : α → Action ε β} (hx : x.FailsOnly P) (hf : ∀ a, (f a).FailsOnly P) :
    (x >>= f).FailsOnly P := by
  intro σ σ' e h
  rcases bind_cases h with ⟨e, hfail, he⟩ | ⟨a, mid, -, h⟩
  · cases he
    exact hx σ σ' e hfail
  · exact hf a mid σ' e h

theorem FailsOnly.adapt {x : Action δ α} {wrap : δ → ε} (h : x.FailsOnly fun d => P (wrap d)) :
    FailsOnly (ExceptT.adapt wrap x) P := by
  intro σ σ' e hrun
  obtain ⟨inner, hinner, he⟩ := adapt_cases hrun
  obtain ⟨d, rfl, rfl⟩ := mapError_eq_error.1 he.symm
  exact h σ σ' d hinner

theorem failsOnly_ofExcept {wrap : δ → ε} {x : Except δ α} (h : ∀ d, x = .error d → P (wrap d)) :
    (ofExcept wrap x).FailsOnly P := by
  intro σ σ' e hrun
  rw [runOn_ofExcept] at hrun
  obtain ⟨d, hd, rfl⟩ := mapError_eq_error.1 (congrArg Prod.fst hrun)
  exact h d hd

theorem failsOnly_tell (notice : Notice) : (tell notice : Action ε Unit).FailsOnly P := by
  intro σ σ' e h
  cases h

theorem failsOnly_forM_tell (notices : List Notice) : (notices.forM tell : Action ε PUnit).FailsOnly P := by
  induction notices with
  | nil => exact .pure _
  | cons notice notices ih => exact .bind (failsOnly_tell notice) fun _ => ih

end Action

/-! ## Patterns -/

/-- a pattern that does not become a file is reported, unless its messages are too many for a chunk -/
theorem Pattern.toMidi_error {content : List Char} {p : Pattern} (hparse : (Pattern.parse content).result = .ok p)
    {name : String} {o : Options} {s : Settings} (hcheck : o.check = .ok s) {e : ScoreError}
    (h : p.toMidi name s = .error e) : e.isReported = true ∨ e = .write .chunkTooLong := by
  obtain ⟨heven, hlength⟩ := parse_even hparse
  obtain ⟨meter, step, grace, hmeter, -⟩ := exists_feel hcheck p.length
  by_cases hnumerator : meter.numerator ≤ 255
  · obtain ⟨track, harrange⟩ := exists_arrange heven hlength hcheck name hmeter hnumerator
    by_cases hunplayable : p.Unplayable
    · rw [toMidi_of_unplayable heven hcheck harrange hunplayable] at h
      cases h
      exact .inl rfl
    · have hforward : ∀ t ∈ [track], t.Forward := by
        intro t ht
        rw [List.mem_singleton.1 ht]
        exact forward_of_arrange heven hcheck harrange hunplayable
      have hone : 1 ≤ maxTracks := by decide
      have hcount : [track].length ≤ maxTracks := hone
      rw [toMidi_of_arrange harrange] at h
      by_cases hfits : track.FitsChunk
      · obtain ⟨_, bytes, -, hbytes⟩ :=
          exists_buildFile_of_forward hcount hforward fun t ht => List.mem_singleton.1 ht ▸ hfits
        rw [hbytes] at h
        cases h
      · rw [buildFile_of_forward_of_chunkTooLong hcount hforward ⟨track, List.mem_singleton_self _, hfits⟩] at h
        cases h
        exact .inr rfl
  · rw [toMidi_of_arrange_error (arrange_of_lt_numerator hcheck name hmeter (not_le.1 hnumerator))] at h
    cases h
    exact .inl rfl

/-- the file of a pattern is read again, unless the name is too long -/
theorem Pattern.exists_decodeFile {p : Pattern} {name : String} {o : Options} {s : Settings} (hcheck : o.check = .ok s)
    (hname : (Text.encode name.toList).length ≤ longestData) {bytes : List UInt8} (h : p.toMidi name s = .ok bytes) :
    ∃ file, decodeFile bytes = .ok file := by
  obtain ⟨a, stamps, harrange, -, -, hmessages, hencoded⟩ := Pattern.toMidi_eq_ok hcheck h
  exact ⟨_, (decodeFile_of_arrange hcheck harrange hmessages hencoded).trans (if_pos (length_encode_trackNameOf hname))⟩

/-! ## Paths that are followed -/

namespace FileTree

variable {t : FileTree} {workingDirectory place target : Location} {path : Path} {names : List FileName}

/-- the names on a path that is followed are no longer than names are -/
theorem short_of_follow (h : t.follow place names = .ok target) :
    ∀ name ∈ names, (Text.encode name).length ≤ maxNameBytes := by
  induction names generalizing place with
  | nil => exact fun _ hname => (List.not_mem_nil hname).elim
  | cons first names ih =>
    rw [follow] at h
    split at h
    · cases h
    · cases h
    · split_ifs at h with hlong
      rintro name (_ | ⟨_, hname⟩)
      · exact Nat.not_lt.1 hlong
      · exact ih h name hname

/-- following a path finds a null character only where there is one -/
theorem nul_of_locate (h : t.locate workingDirectory path = .error .embeddedNul) : '\x00' ∈ path.write := by
  by_contra hnul
  unfold locate at h
  rw [if_neg hnul] at h
  split at h
  · cases h
  · split at h
    · cases h
    · obtain ⟨problem, -, hproblem⟩ := mapError_eq_error.1 h
      cases hproblem

theorem nul_of_list (h : t.list workingDirectory path = .error .embeddedNul) : '\x00' ∈ path.write := by
  rcases bind_eq_error.1 h with h | ⟨place, -, h⟩
  · exact nul_of_locate h
  · split at h
    · cases h
    · cases h
    · cases h

theorem nul_of_makeDirectory (h : t.makeDirectory workingDirectory path = .error .embeddedNul) :
    '\x00' ∈ path.write := by
  rcases bind_eq_error.1 h with h | ⟨place, -, h⟩
  · exact nul_of_locate h
  · split at h
    · cases h
    · cases h

theorem nul_of_ensureDirectory (h : t.ensureDirectory workingDirectory path = .error .embeddedNul) :
    '\x00' ∈ path.write := by
  unfold ensureDirectory at h
  split at h
  · rename_i e hmade
    split_ifs at h
    cases h
    exact nul_of_makeDirectory hmade
  · exact nul_of_makeDirectory h

/-- nor does the making of directories, by induction on those on the way -/
theorem nul_of_ensureDirectories (h : (t.ensureDirectories workingDirectory path).1 = .error .embeddedNul) :
    '\x00' ∈ path.write := by
  have hparent {path : Path} (hnul : '\x00' ∈ path.parent.write) : '\x00' ∈ path.write := by
    rw [Path.nul_mem_write] at hnul ⊢
    obtain ⟨name, hname, hmem⟩ := hnul
    exact ⟨name, List.dropLast_subset _ hname, hmem⟩
  fun_induction ensureDirectories t workingDirectory path with
  | case1 => cases h
  | case2 => cases h
  | case3 path text hmissing hnames hless error made hfailed ih =>
    rw [hfailed] at ih
    exact hparent (ih h)
  | case4 => cases h
  | case5 path text hmissing hnames hless made hparents error hlast ih =>
    cases h
    exact nul_of_ensureDirectory hlast
  | case6 path error hmissing hfailed =>
    cases h
    exact nul_of_ensureDirectory hfailed

theorem locate_of_nul (h : '\x00' ∈ path.write) : t.locate workingDirectory path = .error .embeddedNul := if_pos h

theorem list_of_nul (h : '\x00' ∈ path.write) : t.list workingDirectory path = .error .embeddedNul :=
  bind_of_error (locate_of_nul h)

/-- where there is a null character, no directory is made -/
theorem ensureDirectories_of_nul (h : '\x00' ∈ path.write) :
    t.ensureDirectories workingDirectory path = (.error .embeddedNul, t) :=
  ensureDirectories_of_locate_error (locate_of_nul h) nofun

end FileTree

/-! ## Stages of a conversion -/

variable {σ σ' : Session} {input directory : Path} {output : Option Path} {debug : Bool} {o : Options}
  {settings : Settings} {name : FileName}

/-- the name of a pattern file that can be read is short -/
theorem short_of_read {raw : List UInt8} (h : σ.tree.read σ.workingDirectory input = .ok raw) :
    (Text.encode input.sourceName.toList).length ≤ maxNameBytes := by
  obtain ⟨place, hplace, -⟩ := FileTree.read_eq_ok.1 h
  have hshort := FileTree.short_of_follow (FileTree.locate_eq_ok.1 hplace).2.2.2
  unfold Path.sourceName Path.name?
  rw [String.toList_ofList]
  cases hlast : input.names.getLast? with
  | none => exact Nat.zero_le _
  | some name => exact hshort name (List.mem_of_getLast? hlast)

/-- what goes wrong with reading a pattern is reported -/
theorem loadPattern_failsOnly (path : Path) (name : String) :
    (loadPattern path name).FailsOnly fun f => f.isReported = true := by
  refine .bind (.adapt fun _ _ _ _ => rfl) fun raw => .bind (Action.failsOnly_ofExcept fun _ _ => rfl) fun content => ?_
  exact .bind (Action.failsOnly_forM_tell _) fun _ => Action.failsOnly_ofExcept fun _ _ => rfl

/-- what goes wrong with rendering a pattern goes wrong with its file -/
theorem renderPattern_failsOnly (p : Pattern) (name : String) (settings : Settings) :
    (renderPattern p name settings).FailsOnly fun f => ∃ e, f = .score e ∧ p.toMidi name settings = .error e := by
  intro σ σ' f h
  rcases Action.bind_cases h with ⟨e, harrange, he⟩ | ⟨arrangement, mid, harrange, h⟩
  · cases he
    rw [Action.runOn_ofExcept] at harrange
    obtain ⟨e, he, rfl⟩ := mapError_eq_error.1 (congrArg Prod.fst harrange)
    exact ⟨e, rfl, Pattern.toMidi_of_arrange_error he⟩
  rw [Action.runOn_ofExcept] at harrange
  have harrange := mapError_eq_ok.1 (congrArg Prod.fst harrange)
  rw [Pattern.toMidi_of_arrange harrange]
  rcases Action.bind_cases h with ⟨e, htell, -⟩ | ⟨_, mid', -, h⟩
  · cases htell
  rcases Action.bind_cases h with ⟨e, hbuild, he⟩ | ⟨bytes, mid'', -, h⟩
  · cases he
    rw [Action.runOn_ofExcept] at hbuild
    obtain ⟨e, he, rfl⟩ := mapError_eq_error.1 (congrArg Prod.fst hbuild)
    exact ⟨e, rfl, he⟩
  · cases h

/-- showing a file that can be read does not fail -/
theorem printContents_ne_error {bytes : List UInt8} {file : File} (h : decodeFile bytes = .ok file) {f : Fault} :
    (printContents bytes).runOn σ ≠ (.error f, σ') := by
  intro hrun
  unfold printContents at hrun
  rw [h] at hrun
  cases hrun

/-- up to its notice a conversion fails with a report, or with too many messages for a chunk -/
theorem deliver_error (hcheck : o.check = .ok settings) {target : Path} {f : Fault}
    (h : (deliver input target debug settings).runOn σ = (.error f, σ')) :
    f.isReported = true ∨ f = .score (.write .chunkTooLong) ∧
      ∃ raw, σ.tree.read σ.workingDirectory input = .ok raw ∧ Overflows raw input.sourceName settings := by
  rcases Action.bind_cases h with ⟨e, hload, he⟩ | ⟨p, loaded, hload, h⟩
  · cases he
    exact .inl (loadPattern_failsOnly _ _ _ _ _ hload)
  obtain ⟨raw, content, hread, hdecode, hparse⟩ := loadPattern_eq_ok hload
  rcases Action.bind_cases h with ⟨e, hrender, he⟩ | ⟨bytes, rendered, hrender, h⟩
  · cases he
    obtain ⟨e, rfl, hmidi⟩ := renderPattern_failsOnly _ _ _ _ _ _ hrender
    rcases Pattern.toMidi_error hparse hcheck hmidi with hreported | rfl
    · exact .inl hreported
    · exact .inr ⟨rfl, raw, hread, content, p, hdecode, hparse, hmidi⟩
  have hname : (Text.encode input.sourceName.toList).length ≤ longestData :=
    (short_of_read hread).trans (by decide)
  obtain ⟨file, hfile⟩ := Pattern.exists_decodeFile hcheck hname (renderPattern_eq_ok hrender)
  cases debug with
  | true =>
    rcases Action.bind_cases h with ⟨e, hprint, -⟩ | ⟨_, mid, -, h⟩
    · exact (printContents_ne_error hfile hprint).elim
    · cases h
  | false =>
    rcases Action.bind_cases h with ⟨e, hwrite, he⟩ | ⟨_, mid, -, h⟩
    · cases he
      obtain ⟨inner, -, he⟩ := Action.adapt_cases hwrite
      obtain ⟨cause, -, rfl⟩ := mapError_eq_error.1 he.symm
      exact .inl rfl
    · cases h

/-! ## Conversions -/

/-- an input that names its output has a name -/
theorem IsTarget.names_ne_nil {target : Path} (h : IsTarget input output target) :
    output = none → input.names ≠ [] := by
  rintro rfl hnames
  rcases h with h | ⟨-, h⟩
  · cases h
  · unfold Path.outputPath Path.name? at h
    rw [hnames] at h
    cases h

/-- **How a conversion fails.** With a report about its pattern file, or with one of the errors that are passed on: of a
path that has no name, and of too many messages for a chunk. -/
theorem convertFile_error (hcheck : o.check = .ok settings) {e : ConversionError}
    (h : (convertFile input output debug settings).runOn σ = (.error e, σ')) :
    (∃ f, e = .file input f) ∨ FileLeaves σ input output settings e := by
  rw [convertFile_eq] at h
  rcases Action.bind_cases h with ⟨e, hchoose, he⟩ | ⟨target, chosen, hchoose, hrest⟩
  · cases he
    cases output with
    | some path => cases hchoose
    | none =>
      rw [chooseTarget, Action.runOn_ofExcept] at hchoose
      obtain ⟨nameless, hnameless, rfl⟩ := mapError_eq_error.1 (congrArg Prod.fst hchoose)
      unfold Path.outputPath at hnameless
      split at hnameless
      · rename_i hlast
        cases hnameless
        exact .inr (.nameless rfl (List.getLast?_eq_none_iff.1 hlast))
      · cases hnameless
  obtain ⟨rfl, htarget⟩ := chooseTarget_eq_ok hchoose
  rcases Action.bind_cases hrest with ⟨e, hdeliver, he⟩ | ⟨bytes, delivered, -, hrest⟩
  · cases he
    obtain ⟨inner, hinner, he⟩ := Action.adapt_cases hdeliver
    obtain ⟨f, rfl, rfl⟩ := mapError_eq_error.1 he.symm
    rcases deliver_error hcheck hinner with hreported | ⟨rfl, raw, hread, hoverflows⟩
    · exact .inl ⟨f, if_pos hreported⟩
    · exact .inr (.overflow htarget.names_ne_nil hread hoverflows)
  · rcases Action.bind_cases hrest with ⟨e, hannounce, -⟩ | ⟨_, mid, -, hend⟩
    · exact (announce_ne_error hannounce).elim
    · cases hend

/-- preparing finds a null character where there is one, in the path of the directory that it makes, or, when that is
made, in the path of the one that it lists -/
theorem prepare_eq_nul : ((prepare input directory).runOn σ).1 = .error .embeddedNul ↔
    '\x00' ∈ directory.write ∨
      (σ.tree.ensureDirectories σ.workingDirectory directory).1 = .ok () ∧ '\x00' ∈ input.write := by
  rw [runOn_prepare]
  constructor
  · intro h
    rcases hmade : σ.tree.ensureDirectories σ.workingDirectory directory with ⟨e | _, tree⟩
    · rw [hmade] at h
      cases h
      exact .inl (FileTree.nul_of_ensureDirectories (congrArg Prod.fst hmade))
    · rw [hmade] at h
      exact .inr ⟨rfl, FileTree.nul_of_list h⟩
  · rintro (hnul | ⟨hmade, hnul⟩)
    · rw [FileTree.ensureDirectories_of_nul hnul]
    · rcases hrun : σ.tree.ensureDirectories σ.workingDirectory directory with ⟨made, tree⟩
      rw [hrun] at hmade
      obtain rfl : made = .ok () := hmade
      exact FileTree.list_of_nul hnul

end Drumline

/-
Converting one file, stage by stage. Everything up to the writing leaves the disk alone: reading and parsing
(`loadPattern_eq_ok`), arranging and rendering (`renderPattern_eq_ok`), showing what the file would contain. So a
conversion that fails has changed nothing, one that succeeds has written one file, and what it has written is the file
of the pattern that was read (`Session.Renders`).

Main results: `convertFile_cases` is all that a conversion can do, and `convertFile_of_renders` when it does succeed.
-/
import Drumline.Conversion
import Drumline.Proofs.Session.Frame

namespace Drumline

open Midi

/-! ## Model -/

/-- the name of a pattern file, as its track is named and notices call it -/
def Path.sourceName (input : Path) : String := String.ofList (input.name?.getD [])

/-- whether bytes are the file of the pattern in a pattern file, as that is in a session -/
def Session.Renders (σ : Session) (input : Path) (settings : Settings) (bytes : List UInt8) : Prop :=
  ∃ raw content p, σ.tree.read σ.workingDirectory input = .ok raw ∧ Text.decode raw = .ok content ∧
    (Pattern.parse content).result = .ok p ∧ p.toMidi input.sourceName settings = .ok bytes

/-- whether a conversion writes at a path: the one that is given, or else the one beside the input -/
def IsTarget (input : Path) (output : Option Path) (target : Path) : Prop :=
  output = some target ∨ output = none ∧ input.outputPath none = .ok target

/-- whether a conversion that gives some bytes has rendered the input, and from one session to the other has written
them at its target, and nothing where they are only shown -/
def Session.Converted (σ σ' : Session) (input : Path) (output : Option Path) (debug : Bool) (settings : Settings)
    (bytes : List UInt8) : Prop :=
  σ.Renders input settings bytes ∧
    (debug = true ∧ σ.Same σ' ∨
      debug = false ∧ ∃ target, IsTarget input output target ∧
        σ.tree.write σ.workingDirectory target bytes = .ok σ'.tree ∧ σ'.workingDirectory = σ.workingDirectory)

/-- the path at which a conversion writes -/
def chooseTarget (input : Path) (output : Option Path) : Action ConversionError Path :=
  match output with
  | some path => pure path
  | none => Action.ofExcept .nameless (input.outputPath none)

/-- what a conversion does between the choice of its target and its notice -/
def deliver (input target : Path) (debug : Bool) (settings : Settings) : Action Fault (List UInt8) := do
  let pattern ← loadPattern input input.sourceName
  let bytes ← renderPattern pattern input.sourceName settings
  let () ← if debug then printContents bytes else (Action.writeFile target bytes).adapt .file
  return bytes

/-- the notice of a conversion that has written something -/
def announce (input target : Path) (debug : Bool) : Action ConversionError Unit :=
  if debug then pure () else do Action.tell (.converted input.sourceName (← Action.locationText target))

theorem Session.Renders.of_same {σ σ' : Session} (h : σ.Same σ') {input : Path} {settings : Settings}
    {bytes : List UInt8} (hrenders : σ'.Renders input settings bytes) : σ.Renders input settings bytes := by
  unfold Renders at hrenders ⊢
  rw [← h.tree, ← h.workingDirectory]
  exact hrenders

/-- what has been done to the disk as it was a while before has been done to it as it was then -/
theorem Session.Converted.of_same {σ mid σ' : Session} (h : σ.Same mid) {input : Path} {output : Option Path}
    {debug : Bool} {settings : Settings} {bytes : List UInt8}
    (hconverted : mid.Converted σ' input output debug settings bytes) :
    σ.Converted σ' input output debug settings bytes := by
  obtain ⟨hrenders, hdone⟩ := hconverted
  refine ⟨hrenders.of_same h, ?_⟩
  rcases hdone with ⟨rfl, hshown⟩ | ⟨rfl, target, htarget, hwritten, hdirectory⟩
  · exact .inl ⟨rfl, h.trans hshown⟩
  · rw [h.tree, h.workingDirectory] at hwritten
    exact .inr ⟨rfl, target, htarget, hwritten, hdirectory.trans h.workingDirectory⟩

/-- what has been done is at most one file -/
theorem Session.Converted.effect {σ σ' : Session} {input : Path} {output : Option Path} {debug : Bool}
    {settings : Settings} {bytes : List UInt8} (h : σ.Converted σ' input output debug settings bytes) :
    (debug = true → σ'.tree = σ.tree) ∧
      (debug = false → ∃ target, IsTarget input output target ∧
        σ.tree.Writes σ'.tree σ.workingDirectory target bytes) := by
  obtain ⟨-, ⟨rfl, hsame⟩ | ⟨rfl, target, htarget, hwritten, -⟩⟩ := h
  · exact ⟨fun _ => hsame.tree, fun hdebug => (Bool.noConfusion hdebug)⟩
  · exact ⟨fun hdebug => (Bool.noConfusion hdebug), fun _ => ⟨target, htarget, FileTree.writes_of_write hwritten⟩⟩

theorem convertFile_eq (input : Path) (output : Option Path) (debug : Bool) (settings : Settings) :
    convertFile input output debug settings = do
      let target ← chooseTarget input output
      let bytes ← ExceptT.adapt (.ofFault input) (deliver input target debug settings)
      let () ← announce input target debug
      return bytes := by
  cases output with
  | some path => cases debug <;> rfl
  | none => cases debug <;> rfl

/-! ## Stages -/

theorem keeps_loadPattern (path : Path) (name : String) : (loadPattern path name).Keeps := by
  refine .bind ((Action.keeps_readFile path).adapt _) fun bytes => .bind (Action.keeps_ofExcept _ _) fun content => ?_
  exact .bind (Action.keeps_forM_tell _) fun _ => Action.keeps_ofExcept _ _

theorem keeps_renderPattern (pattern : Pattern) (name : String) (settings : Settings) :
    (renderPattern pattern name settings).Keeps := by
  refine .bind (Action.keeps_ofExcept _ _) fun arrangement => .bind (Action.keeps_tell _) fun _ => ?_
  exact .bind (Action.keeps_ofExcept _ _) fun bytes => .bind (Action.keeps_tell _) fun _ => .pure bytes

theorem keeps_printContents (bytes : List UInt8) : (printContents bytes).Keeps :=
  .bind (Action.keeps_ofExcept _ _) fun _ => Action.keeps_print _

variable {σ σ' : Session}

/-- a pattern that is loaded is that of the file -/
theorem loadPattern_eq_ok {path : Path} {name : String} {p : Pattern}
    (h : (loadPattern path name).runOn σ = (.ok p, σ')) :
    ∃ raw content, σ.tree.read σ.workingDirectory path = .ok raw ∧ Text.decode raw = .ok content ∧
      (Pattern.parse content).result = .ok p := by
  rcases Action.bind_cases h with ⟨e, -, he⟩ | ⟨raw, mid, hread, h⟩
  · cases he
  obtain ⟨inner, hread, hinner⟩ := Action.adapt_cases hread
  rw [Action.runOn_readFile] at hread
  cases hread
  rcases Action.bind_cases h with ⟨e, -, he⟩ | ⟨content, mid, hdecode, h⟩
  · cases he
  rw [Action.runOn_ofExcept] at hdecode
  rcases Action.bind_cases h with ⟨e, -, he⟩ | ⟨_, mid', -, h⟩
  · cases he
  rw [Action.runOn_ofExcept] at h
  exact ⟨raw, content, mapError_eq_ok.1 hinner.symm, mapError_eq_ok.1 (congrArg Prod.fst hdecode),
    mapError_eq_ok.1 (congrArg Prod.fst h)⟩

/-- bytes that are rendered are the file of the pattern -/
theorem renderPattern_eq_ok {p : Pattern} {name : String} {settings : Settings} {bytes : List UInt8}
    (h : (renderPattern p name settings).runOn σ = (.ok bytes, σ')) : p.toMidi name settings = .ok bytes := by
  rcases Action.bind_cases h with ⟨e, -, he⟩ | ⟨arrangement, mid, harrange, h⟩
  · cases he
  rcases Action.bind_cases h with ⟨e, -, he⟩ | ⟨_, mid', -, h⟩
  · cases he
  rcases Action.bind_cases h with ⟨e, -, he⟩ | ⟨built, mid'', hbuild, h⟩
  · cases he
  rcases Action.bind_cases h with ⟨e, -, he⟩ | ⟨_, mid''', -, h⟩
  · cases he
  cases h
  rw [Action.runOn_ofExcept] at harrange hbuild
  exact bind_eq_ok.2 ⟨arrangement, mapError_eq_ok.1 (congrArg Prod.fst harrange),
    mapError_eq_ok.1 (congrArg Prod.fst hbuild)⟩

theorem keeps_chooseTarget (input : Path) (output : Option Path) : (chooseTarget input output).Keeps := by
  cases output with
  | some path => exact .pure path
  | none => exact Action.keeps_ofExcept _ _

theorem keeps_announce (input target : Path) (debug : Bool) : (announce input target debug).Keeps := by
  cases debug with
  | true => exact .pure ()
  | false => exact .bind (Action.keeps_locationText target) fun _ => Action.keeps_tell _

theorem announce_ne_error {input target : Path} {debug : Bool} {e : ConversionError} :
    (announce input target debug).runOn σ ≠ (.error e, σ') := by
  intro h
  cases debug with
  | true => cases h
  | false => cases h

theorem chooseTarget_eq_ok {input target : Path} {output : Option Path}
    (h : (chooseTarget input output).runOn σ = (.ok target, σ')) : σ' = σ ∧ IsTarget input output target := by
  cases output with
  | some path =>
    cases h
    exact ⟨rfl, .inl rfl⟩
  | none =>
    rw [chooseTarget, Action.runOn_ofExcept] at h
    exact ⟨(congrArg Prod.snd h).symm, .inr ⟨rfl, mapError_eq_ok.1 (congrArg Prod.fst h)⟩⟩

/-- up to its notice a conversion fails and leaves the disk alone, or it has rendered the pattern, and written it unless
that is only shown -/
theorem deliver_cases {input target : Path} {debug : Bool} {settings : Settings} {result : Except Fault (List UInt8)}
    (h : (deliver input target debug settings).runOn σ = (result, σ')) :
    (∃ e, result = .error e ∧ σ.Same σ') ∨
      ∃ bytes, result = .ok bytes ∧ σ.Renders input settings bytes ∧
        (debug = true ∧ σ.Same σ' ∨ debug = false ∧ σ.tree.write σ.workingDirectory target bytes = .ok σ'.tree ∧
          σ'.workingDirectory = σ.workingDirectory) := by
  rcases Action.bind_cases h with ⟨e, hload, rfl⟩ | ⟨p, loaded, hload, h⟩
  · exact .inl ⟨e, rfl, (keeps_loadPattern _ _).same hload⟩
  have hloaded := (keeps_loadPattern _ _).same hload
  obtain ⟨raw, content, hread, hdecode, hparse⟩ := loadPattern_eq_ok hload
  rcases Action.bind_cases h with ⟨e, hrender, rfl⟩ | ⟨bytes, rendered, hrender, h⟩
  · exact .inl ⟨e, rfl, hloaded.trans ((keeps_renderPattern _ _ _).same hrender)⟩
  have hrendered := hloaded.trans ((keeps_renderPattern _ _ _).same hrender)
  have hrenders : σ.Renders input settings bytes :=
    ⟨raw, content, p, hread, hdecode, hparse, renderPattern_eq_ok hrender⟩
  cases debug with
  | true =>
    rcases Action.bind_cases h with ⟨e, hprint, rfl⟩ | ⟨_, printed, hprint, h⟩
    · exact .inl ⟨e, rfl, hrendered.trans ((keeps_printContents bytes).same hprint)⟩
    · cases h
      exact .inr ⟨bytes, rfl, hrenders, .inl ⟨rfl, hrendered.trans ((keeps_printContents bytes).same hprint)⟩⟩
  | false =>
    rcases Action.bind_cases h with ⟨e, hwrite, rfl⟩ | ⟨_, written, hwrite, h⟩
    · obtain ⟨inner, hinner, he⟩ := Action.adapt_cases hwrite
      rcases Action.writeFile_cases hinner with ⟨_, -, rfl⟩ | ⟨tree, rfl, -⟩
      · exact .inl ⟨e, rfl, hrendered⟩
      · cases he
    · obtain ⟨inner, hinner, he⟩ := Action.adapt_cases hwrite
      cases h
      rcases Action.writeFile_cases hinner with ⟨_, rfl, -⟩ | ⟨tree, -, htree, rfl⟩
      · cases he
      · rw [hrendered.tree, hrendered.workingDirectory] at htree
        exact .inr ⟨bytes, rfl, hrenders, .inr ⟨rfl, htree, hrendered.workingDirectory⟩⟩

/-! ## The whole conversion -/

/-- **What a conversion can do.** It fails and leaves the disk alone; or it renders the pattern, and leaves the disk
alone where that is only shown, and otherwise writes it at its target. -/
theorem convertFile_cases {input : Path} {output : Option Path} {debug : Bool} {settings : Settings}
    {result : Except ConversionError (List UInt8)}
    (h : (convertFile input output debug settings).runOn σ = (result, σ')) :
    (∃ e, result = .error e ∧ σ.Same σ') ∨
      ∃ bytes, result = .ok bytes ∧ σ.Converted σ' input output debug settings bytes := by
  rw [convertFile_eq] at h
  rcases Action.bind_cases h with ⟨e, hchoose, rfl⟩ | ⟨target, chosen, hchoose, hrest⟩
  · exact .inl ⟨e, rfl, (keeps_chooseTarget input output).same hchoose⟩
  obtain ⟨rfl, htarget⟩ := chooseTarget_eq_ok hchoose
  rcases Action.bind_cases hrest with ⟨e, hdeliver, rfl⟩ | ⟨bytes, delivered, hdeliver, hrest⟩
  · obtain ⟨inner, hinner, he⟩ := Action.adapt_cases hdeliver
    rcases deliver_cases hinner with ⟨_, -, hsame⟩ | ⟨bytes, rfl, -⟩
    · exact .inl ⟨e, rfl, hsame⟩
    · cases he
  obtain ⟨inner, hinner, he⟩ := Action.adapt_cases hdeliver
  rcases deliver_cases hinner with ⟨_, rfl, -⟩ | ⟨bytes', rfl, hrenders, hdone⟩
  · cases he
  obtain rfl : bytes = bytes' := Except.ok.inj he
  -- what is left is the notice, which leaves the disk as it is by now
  have hannounce : result = .ok bytes ∧ delivered.Same σ' := by
    rcases Action.bind_cases hrest with ⟨e, hrun, -⟩ | ⟨_, announced, hrun, hend⟩
    · exact (announce_ne_error hrun).elim
    · cases hend
      exact ⟨rfl, (keeps_announce input target debug).same hrun⟩
  obtain ⟨rfl, hsame⟩ := hannounce
  refine .inr ⟨bytes, rfl, hrenders, ?_⟩
  rcases hdone with ⟨rfl, hshown⟩ | ⟨rfl, hwritten, hdirectory⟩
  · exact .inl ⟨rfl, hshown.trans hsame⟩
  · exact .inr ⟨rfl, target, htarget, hsame.tree ▸ hwritten, hsame.workingDirectory.trans hdirectory⟩

theorem returns_loadPattern {path : Path} {name : String} {raw : List UInt8} {content : List Char} {p : Pattern}
    (hread : σ.tree.read σ.workingDirectory path = .ok raw) (hdecode : Text.decode raw = .ok content)
    (hparse : (Pattern.parse content).result = .ok p) : (loadPattern path name).Returns σ p := by
  refine ((Action.returns_readFile hread).adapt _).bind fun mid _ => ?_
  refine (Action.returns_ofExcept hdecode mid).bind fun mid _ => ?_
  exact (Action.returns_forM_tell _ mid).bind fun mid _ => Action.returns_ofExcept hparse mid

theorem deliver_of_renders {input target : Path} {settings : Settings} {bytes : List UInt8}
    (hrenders : σ.Renders input settings bytes) {tree : FileTree}
    (hwrite : σ.tree.write σ.workingDirectory target bytes = .ok tree) :
    (deliver input target false settings).Returns σ bytes := by
  obtain ⟨raw, content, p, hread, hdecode, hparse, hmidi⟩ := hrenders
  obtain ⟨arrangement, harrange, hbuild⟩ := bind_eq_ok.1 hmidi
  have hrender (σ : Session) : (renderPattern p input.sourceName settings).Returns σ bytes :=
    .bind (Action.returns_ofExcept harrange σ) fun mid _ => .bind (Action.returns_tell _ mid) fun mid _ =>
      .bind (Action.returns_ofExcept hbuild mid) fun mid _ =>
        .bind (Action.returns_tell _ mid) fun mid _ => Action.returns_pure bytes mid
  refine (returns_loadPattern hread hdecode hparse).bind fun loaded hloaded => ?_
  refine (hrender loaded).bind fun rendered hrendered => ?_
  have hsame := ((keeps_loadPattern _ _).same hloaded).trans ((keeps_renderPattern _ _ _).same hrendered)
  rw [← hsame.tree, ← hsame.workingDirectory] at hwrite
  exact ((Action.returns_writeFile hwrite).adapt _).bind fun written _ => Action.returns_pure bytes written

/-- **When a conversion succeeds.** It does if the file can be rendered, and its target written. -/
theorem convertFile_of_renders {input target : Path} {output : Option Path} {settings : Settings} {bytes : List UInt8}
    (hrenders : σ.Renders input settings bytes) (htarget : IsTarget input output target) {tree : FileTree}
    (hwrite : σ.tree.write σ.workingDirectory target bytes = .ok tree) :
    (convertFile input output false settings).Returns σ bytes := by
  have hchoose : (chooseTarget input output).Returns σ target := by
    rcases htarget with rfl | ⟨rfl, hpath⟩
    · exact Action.returns_pure target σ
    · exact Action.returns_ofExcept hpath σ
  have hannounce (σ : Session) : (announce input target false).Returns σ () :=
    .bind ⟨σ, rfl⟩ fun mid _ => Action.returns_tell _ mid
  rw [convertFile_eq]
  refine hchoose.bind fun chosen hchosen => ?_
  obtain ⟨rfl, -⟩ := chooseTarget_eq_ok hchosen
  refine ((deliver_of_renders hrenders hwrite).adapt _).bind fun delivered _ => ?_
  exact (hannounce delivered).bind fun announced _ => Action.returns_pure bytes announced

end Drumline

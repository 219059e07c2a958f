/-
The notices of conversions. An action that is `Quiet` adds notices behind those there are, and none of them is one of
an error. All that conversions are put together from is, and so are conversions, whatever they end with.
-/
import Drumline.Proofs.Session.Directory

namespace Drumline

/-! ## Model -/

/-- whether a session has the notices of another and some more, none of which is one of an error -/
def Session.Adds (before after : Session) : Prop :=
  ∃ notices, after.notices = before.notices ++ notices ∧ ∀ notice ∈ notices, notice.level ≠ .error

/-- whether an action gives no notice of an error -/
def Action.Quiet {ε α : Type} (x : Action ε α) : Prop := ∀ σ : Session, σ.Adds (x.runOn σ).2

theorem Session.Adds.of_eq {σ σ' : Session} (h : σ'.notices = σ.notices) : σ.Adds σ' :=
  ⟨[], by rw [h, List.append_nil], fun _ hnotice => (List.not_mem_nil hnotice).elim⟩

theorem Session.Adds.trans {σ σ' σ'' : Session} (h : σ.Adds σ') (h' : σ'.Adds σ'') : σ.Adds σ'' := by
  obtain ⟨notices, hadded, hquiet⟩ := h
  obtain ⟨notices', hadded', hquiet'⟩ := h'
  refine ⟨notices ++ notices', by rw [hadded', hadded, List.append_assoc], fun notice hnotice => ?_⟩
  rcases List.mem_append.1 hnotice with hnotice | hnotice
  · exact hquiet notice hnotice
  · exact hquiet' notice hnotice

/-! ## Actions -/

namespace Action

variable {ε ε' δ α β : Type}

theorem Quiet.adds {x : Action ε α} (h : x.Quiet) {σ σ' : Session} {result : Except ε α}
    (hrun : x.runOn σ = (result, σ')) : σ.Adds σ' := by
  have := h σ
  rw [hrun] at this
  exact this

theorem Quiet.pure (a : α) : Quiet (Pure.pure a : Action ε α) := fun _ => .of_eq rfl

theorem Quiet.bind {x : Action ε α} {f : α → Action ε β} (hx : x.Quiet) (hf : ∀ a, (f a).Quiet) : (x >>= f).Quiet := by
  intro σ
  rcases hrun : (x >>= f).runOn σ with ⟨result, σ'⟩
  rcases bind_cases hrun with ⟨e, hfirst, -⟩ | ⟨a, mid, hfirst, hrest⟩
  · exact hx.adds hfirst
  · exact (hx.adds hfirst).trans ((hf a).adds hrest)

theorem Quiet.adapt {x : Action ε α} (h : x.Quiet) (wrap : ε → ε') : Quiet (ExceptT.adapt wrap x) := h

theorem quiet_throw (e : ε) : Quiet (throw e : Action ε α) := fun _ => .of_eq rfl

theorem quiet_ofExcept (wrap : δ → ε) (x : Except δ α) : (ofExcept wrap x).Quiet := by
  intro σ
  rw [runOn_ofExcept]
  exact .of_eq rfl

theorem quiet_tell {notice : Notice} (h : notice.level ≠ .error) : (tell notice : Action ε Unit).Quiet :=
  fun _ => ⟨[notice], rfl, fun _ hnotice => List.mem_singleton.1 hnotice ▸ h⟩

theorem quiet_forM_tell {notices : List Notice} (h : ∀ notice ∈ notices, notice.level ≠ .error) :
    (notices.forM tell : Action ε PUnit).Quiet := by
  induction notices with
  | nil => exact .pure _
  | cons notice notices ih =>
    exact .bind (quiet_tell (h notice List.mem_cons_self)) fun _ => ih fun n hn => h n (List.mem_cons_of_mem _ hn)

theorem quiet_print (text : String) : (print text : Action ε Unit).Quiet := fun _ => .of_eq rfl

theorem quiet_locationText (path : Path) : (locationText path : Action ε String).Quiet := fun _ => .of_eq rfl

theorem quiet_isDirectory (path : Path) : (isDirectory path : Action ε Bool).Quiet := fun _ => .of_eq rfl

theorem quiet_pathExists (path : Path) : (pathExists path : Action ε Bool).Quiet := fun _ => .of_eq rfl

theorem quiet_isFile (path : Path) : (isFile path).Quiet := by
  intro σ
  rw [runOn_isFile]
  exact .of_eq rfl

theorem quiet_readFile (path : Path) : (readFile path).Quiet := by
  intro σ
  rw [runOn_readFile]
  exact .of_eq rfl

theorem quiet_listDirectory (path : Path) : (listDirectory path).Quiet := by
  intro σ
  rw [runOn_listDirectory]
  exact .of_eq rfl

theorem quiet_makeDirectories (path : Path) : (makeDirectories path).Quiet := by
  intro σ
  rw [runOn_makeDirectories]
  exact .of_eq rfl

theorem quiet_writeFile (path : Path) (content : List UInt8) : (writeFile path content).Quiet := by
  intro σ
  rw [runOn_writeFile]
  cases σ.tree.write σ.workingDirectory path content with
  | ok tree => exact .of_eq rfl
  | error e => exact .of_eq rfl

end Action

/-! ## Conversions -/

theorem quiet_loadPattern (path : Path) (name : String) : (loadPattern path name).Quiet := by
  refine .bind ((Action.quiet_readFile path).adapt _) fun raw => .bind (Action.quiet_ofExcept _ _) fun content => ?_
  refine .bind (Action.quiet_forM_tell fun notice hnotice => ?_) fun _ => Action.quiet_ofExcept _ _
  obtain ⟨line, -, rfl⟩ := List.mem_map.1 hnotice
  exact nofun

theorem quiet_renderPattern (p : Pattern) (name : String) (settings : Settings) :
    (renderPattern p name settings).Quiet := by
  refine .bind (Action.quiet_ofExcept _ _) fun arrangement => .bind (Action.quiet_tell nofun) fun _ => ?_
  exact .bind (Action.quiet_ofExcept _ _) fun bytes => .bind (Action.quiet_tell nofun) fun _ => .pure bytes

theorem quiet_deliver (input target : Path) (debug : Bool) (settings : Settings) :
    (deliver input target debug settings).Quiet := by
  refine .bind (quiet_loadPattern _ _) fun p => .bind (quiet_renderPattern _ _ _) fun bytes => ?_
  have hprint : (printContents bytes).Quiet := .bind (Action.quiet_ofExcept _ _) fun _ => Action.quiet_print _
  cases debug with
  | true => exact .bind hprint fun _ => .pure bytes
  | false => exact .bind ((Action.quiet_writeFile target bytes).adapt _) fun _ => .pure bytes

theorem quiet_convertFile (input : Path) (output : Option Path) (debug : Bool) (settings : Settings) :
    (convertFile input output debug settings).Quiet := by
  rw [convertFile_eq]
  refine .bind ?_ fun target => .bind ((quiet_deliver input target debug settings).adapt _) fun bytes => ?_
  · cases output with
    | some path => exact .pure path
    | none => exact Action.quiet_ofExcept _ _
  · refine .bind ?_ fun _ => .pure bytes
    cases debug with
    | true => exact .pure ()
    | false => exact .bind (Action.quiet_locationText target) fun _ => Action.quiet_tell nofun

/-- by induction on the paths -/
theorem quiet_convertPatterns (directory : Path) (debug : Bool) (settings : Settings) (paths : List Path) :
    (convertPatterns directory debug settings paths).Quiet := by
  induction paths with
  | nil => exact .pure []
  | cons path paths ih =>
    refine .bind ((Action.quiet_isFile path).adapt _) fun found => ?_
    split
    · refine .bind (Action.quiet_ofExcept _ _) fun target => ?_
      exact .bind (quiet_convertFile path _ debug settings) fun _ => .bind ih fun _ => .pure _
    · exact ih

theorem quiet_convertDirectory (input : Path) (output : Option Path) (debug : Bool) (settings : Settings) :
    (convertDirectory input output debug settings).Quiet := by
  have hprepare (directory : Path) : (prepare input directory).Quiet :=
    .bind (Action.quiet_makeDirectories directory) fun _ => Action.quiet_listDirectory input
  rw [convertDirectory_eq]
  refine .bind ((hprepare _).adapt _) fun listing => .bind (quiet_convertPatterns _ _ _ _) fun converted => ?_
  refine .bind ?_ fun _ => .pure converted
  cases converted with
  | nil => exact Action.quiet_tell nofun
  | cons path paths => exact .pure ()

end Drumline

/-
What actions leave alone. An action that `Keeps` the disk may give notices and print, but changes neither the tree nor
the working directory, whatever it ends with. All actions of a session but the making of directories and the writing of
files do, and so does whatever is put together from such actions.

`Action.runOn` is an action on a session as a function, `bind_cases` and `adapt_cases` take one apart that is put
together from others. `writeFile_cases` says all that writing a file can do: nothing, or put the file at the place of
its path (`FileTree.Writes`).
-/
import Drumline.Proofs.Except
import Drumline.Session

namespace Drumline

/-! ## Model -/

/-- whether a session has the tree and the working directory of another -/
structure Session.Same (before after : Session) : Prop where
  tree : after.tree = before.tree
  workingDirectory : after.workingDirectory = before.workingDirectory

namespace Action

variable {ε ε' δ α β : Type}

/-- what an action on a session ends with, and the session then -/
def runOn (x : Action ε α) (σ : Session) : Except ε α × Session := x.run.run σ

/-- whether an action on a session succeeds with a result -/
def Returns (x : Action ε α) (σ : Session) (a : α) : Prop := ∃ σ', x.runOn σ = (.ok a, σ')

/-- whether an action on a session fails with an error -/
def Raises (x : Action ε α) (σ : Session) (e : ε) : Prop := ∃ σ', x.runOn σ = (.error e, σ')

/-- whether an action leaves the disk alone -/
def Keeps (x : Action ε α) : Prop := ∀ σ : Session, σ.Same (x.runOn σ).2

end Action

/-- whether a tree is another with a file of some content at the place of a path, created there or replaced -/
def FileTree.Writes (before after : FileTree) (workingDirectory : Location) (path : Path) (content : List UInt8) :
    Prop :=
  ∃ place, before.locate workingDirectory path = .ok place ∧ before.get? place ≠ some .directory ∧
    after.get? place = some (.file content) ∧ ∀ other, other ≠ place → after.get? other = before.get? other

theorem Session.Same.refl (σ : Session) : σ.Same σ := ⟨rfl, rfl⟩

theorem Session.Same.symm {σ σ' : Session} (h : σ.Same σ') : σ'.Same σ := ⟨h.tree.symm, h.workingDirectory.symm⟩

theorem Session.Same.trans {σ σ' σ'' : Session} (h : σ.Same σ') (h' : σ'.Same σ'') : σ.Same σ'' :=
  ⟨h'.tree.trans h.tree, h'.workingDirectory.trans h.workingDirectory⟩

/-! ## Running actions -/

namespace Action

variable {ε ε' δ α β : Type}

@[simp] theorem runOn_pure (a : α) (σ : Session) : (pure a : Action ε α).runOn σ = (.ok a, σ) := rfl

@[simp] theorem runOn_get (σ : Session) : (get : Action ε Session).runOn σ = (.ok σ, σ) := rfl

@[simp] theorem runOn_set (σ' σ : Session) : (set σ' : Action ε PUnit).runOn σ = (.ok ⟨⟩, σ') := rfl

@[simp] theorem runOn_bind (x : Action ε α) (f : α → Action ε β) (σ : Session) :
    (x >>= f).runOn σ = match x.runOn σ with
      | (.ok a, σ') => (f a).runOn σ'
      | (.error e, σ') => (.error e, σ') := by
  unfold runOn
  rw [ExceptT.run_bind, StateT.run_bind]
  rcases x.run.run σ with ⟨result, σ'⟩
  cases result with
  | ok a => rfl
  | error e => rfl

@[simp] theorem runOn_adapt (wrap : ε → ε') (x : Action ε α) (σ : Session) :
    runOn (ExceptT.adapt wrap x) σ = ((x.runOn σ).1.mapError wrap, (x.runOn σ).2) := rfl

theorem runOn_tryCatch (x : Action ε α) (handle : ε → Action ε α) (σ : Session) :
    runOn (tryCatch x handle) σ = match x.runOn σ with
      | (.ok a, σ') => (.ok a, σ')
      | (.error e, σ') => (handle e).runOn σ' := by
  unfold runOn
  rw [ExceptT.run_tryCatch, StateT.run_bind]
  rcases x.run.run σ with ⟨result, σ'⟩
  cases result with
  | ok a => rfl
  | error e => rfl

/-- the first action fails, or it succeeds and the second one follows -/
theorem bind_cases {x : Action ε α} {f : α → Action ε β} {σ σ' : Session} {result : Except ε β}
    (h : (x >>= f).runOn σ = (result, σ')) :
    (∃ e, x.runOn σ = (.error e, σ') ∧ result = .error e) ∨
      ∃ a mid, x.runOn σ = (.ok a, mid) ∧ (f a).runOn mid = (result, σ') := by
  rw [runOn_bind] at h
  split at h
  · rename_i a mid hx
    exact .inr ⟨a, mid, hx, h⟩
  · rename_i e mid hx
    cases h
    exact .inl ⟨e, hx, rfl⟩

/-- an action whose errors are wrapped does what it does without -/
theorem adapt_cases {wrap : ε → ε'} {x : Action ε α} {σ σ' : Session} {result : Except ε' α}
    (h : runOn (ExceptT.adapt wrap x) σ = (result, σ')) :
    ∃ inner, x.runOn σ = (inner, σ') ∧ result = inner.mapError wrap := by
  rw [runOn_adapt] at h
  cases h
  exact ⟨_, rfl, rfl⟩

/-- an action whose result is changed does what it does without -/
theorem map_cases {x : Action ε α} {f : α → β} {σ σ' : Session} {result : Except ε β}
    (h : (x >>= fun a => pure (f a)).runOn σ = (result, σ')) :
    ∃ inner, x.runOn σ = (inner, σ') ∧ result = inner.map f := by
  rcases bind_cases h with ⟨e, hx, rfl⟩ | ⟨a, mid, hx, h⟩
  · exact ⟨_, hx, rfl⟩
  · cases h
    exact ⟨_, hx, rfl⟩

@[simp] theorem runOn_ofExcept (wrap : δ → ε) (x : Except δ α) (σ : Session) :
    (ofExcept wrap x).runOn σ = (x.mapError wrap, σ) := by
  cases x with
  | ok a => rfl
  | error e => rfl

@[simp] theorem runOn_readFile (path : Path) (σ : Session) :
    (readFile path).runOn σ = (σ.tree.read σ.workingDirectory path, σ) := by
  simp [readFile]

@[simp] theorem runOn_listDirectory (path : Path) (σ : Session) :
    (listDirectory path).runOn σ = (σ.tree.list σ.workingDirectory path, σ) := by
  simp [listDirectory]

@[simp] theorem runOn_makeDirectories (path : Path) (σ : Session) :
    (makeDirectories path).runOn σ = ((σ.tree.ensureDirectories σ.workingDirectory path).1,
      { σ with tree := (σ.tree.ensureDirectories σ.workingDirectory path).2 }) := by
  simp [makeDirectories]

theorem runOn_isFile (path : Path) (σ : Session) :
    (isFile path).runOn σ = (match σ.tree.find σ.workingDirectory path with
      | .ok (.file _) => .ok true
      | .error (.problem .nameTooLong text) => .error (.problem .nameTooLong text)
      | _ => .ok false, σ) := by
  simp only [isFile, runOn_bind, runOn_get]
  generalize σ.tree.find σ.workingDirectory path = found
  split
  · rfl
  · rfl
  · simp

/-! ## Actions that succeed -/

theorem returns_iff {x : Action ε α} {σ : Session} {a : α} : x.Returns σ a ↔ (x.runOn σ).1 = .ok a := by
  constructor
  · rintro ⟨σ', h⟩
    rw [h]
  · intro h
    exact ⟨(x.runOn σ).2, Prod.ext h rfl⟩

theorem Returns.unique {x : Action ε α} {σ : Session} {a b : α} (h : x.Returns σ a) (h' : x.Returns σ b) : a = b :=
  Except.ok.inj ((returns_iff.1 h).symm.trans (returns_iff.1 h'))

/-- behind an action that succeeds the next one goes on -/
theorem Returns.bind {x : Action ε α} {f : α → Action ε β} {σ : Session} {a : α} {b : β} (hx : x.Returns σ a)
    (hf : ∀ mid, x.runOn σ = (.ok a, mid) → (f a).Returns mid b) : (x >>= f).Returns σ b := by
  obtain ⟨mid, hmid⟩ := hx
  obtain ⟨σ', hrest⟩ := hf mid hmid
  exact ⟨σ', by rw [runOn_bind, hmid]; exact hrest⟩

theorem Returns.adapt {x : Action ε α} {σ : Session} {a : α} (h : x.Returns σ a) (wrap : ε → ε') :
    Returns (ExceptT.adapt wrap x) σ a := by
  obtain ⟨σ', hrun⟩ := h
  refine ⟨σ', ?_⟩
  rw [runOn_adapt, hrun]
  rfl

theorem returns_pure (a : α) (σ : Session) : (pure a : Action ε α).Returns σ a := ⟨σ, rfl⟩

theorem returns_ofExcept {wrap : δ → ε} {x : Except δ α} {a : α} (h : x = .ok a) (σ : Session) :
    (ofExcept wrap x).Returns σ a := by
  rw [h]
  exact returns_pure a σ

theorem returns_tell (notice : Notice) (σ : Session) : (tell notice : Action ε Unit).Returns σ () := ⟨_, rfl⟩

theorem returns_forM_tell (notices : List Notice) (σ : Session) :
    (notices.forM tell : Action ε PUnit).Returns σ ⟨⟩ := by
  induction notices generalizing σ with
  | nil => exact returns_pure _ σ
  | cons notice notices ih => exact (returns_tell notice σ).bind fun mid _ => ih mid

theorem returns_readFile {path : Path} {σ : Session} {bytes : List UInt8}
    (h : σ.tree.read σ.workingDirectory path = .ok bytes) : (readFile path).Returns σ bytes :=
  ⟨σ, by rw [runOn_readFile, h]⟩

/-! ## Actions that fail -/

theorem raises_iff {x : Action ε α} {σ : Session} {e : ε} : x.Raises σ e ↔ (x.runOn σ).1 = .error e := by
  constructor
  · rintro ⟨σ', h⟩
    rw [h]
  · intro h
    exact ⟨(x.runOn σ).2, Prod.ext h rfl⟩

theorem Raises.unique {x : Action ε α} {σ : Session} {e e' : ε} (h : x.Raises σ e) (h' : x.Raises σ e') : e = e' :=
  Except.error.inj ((raises_iff.1 h).symm.trans (raises_iff.1 h'))

/-- an action that succeeds does not fail -/
theorem Returns.not_raises {x : Action ε α} {σ : Session} {a : α} {e : ε} (h : x.Returns σ a) : ¬x.Raises σ e := by
  intro h'
  have hsame := (returns_iff.1 h).symm.trans (raises_iff.1 h')
  cases hsame

theorem Raises.bind {x : Action ε α} {σ : Session} {e : ε} (h : x.Raises σ e) (f : α → Action ε β) :
    (x >>= f).Raises σ e := by
  obtain ⟨σ', hrun⟩ := h
  exact ⟨σ', by rw [runOn_bind, hrun]⟩

theorem Returns.bind_raises {x : Action ε α} {f : α → Action ε β} {σ : Session} {a : α} {e : ε} (hx : x.Returns σ a)
    (hf : ∀ mid, x.runOn σ = (.ok a, mid) → (f a).Raises mid e) : (x >>= f).Raises σ e := by
  obtain ⟨mid, hmid⟩ := hx
  obtain ⟨σ', hrest⟩ := hf mid hmid
  exact ⟨σ', by rw [runOn_bind, hmid]; exact hrest⟩

theorem Raises.adapt {x : Action ε α} {σ : Session} {e : ε} (h : x.Raises σ e) (wrap : ε → ε') :
    Raises (ExceptT.adapt wrap x) σ (wrap e) := by
  obtain ⟨σ', hrun⟩ := h
  exact ⟨σ', by rw [runOn_adapt, hrun]; rfl⟩

theorem raises_ofExcept {wrap : δ → ε} {x : Except δ α} {e : δ} (h : x = .error e) (σ : Session) :
    (ofExcept wrap x).Raises σ (wrap e) := by
  rw [h]
  exact ⟨σ, rfl⟩

/-! ## Actions that leave the disk alone -/

theorem Keeps.pure (a : α) : Keeps (Pure.pure a : Action ε α) := fun σ => .refl σ

theorem Keeps.bind {x : Action ε α} {f : α → Action ε β} (hx : x.Keeps) (hf : ∀ a, (f a).Keeps) : (x >>= f).Keeps := by
  intro σ
  have hfirst := hx σ
  rw [runOn_bind]
  split
  · rename_i a mid hrun
    rw [hrun] at hfirst
    exact hfirst.trans (hf a mid)
  · rename_i e mid hrun
    rw [hrun] at hfirst
    exact hfirst

theorem Keeps.adapt {x : Action ε α} (h : x.Keeps) (wrap : ε → ε') : Keeps (ExceptT.adapt wrap x) := h

theorem keeps_ofExcept (wrap : δ → ε) (x : Except δ α) : (ofExcept wrap x).Keeps := by
  intro σ
  rw [runOn_ofExcept]
  exact .refl σ

theorem keeps_tell (notice : Notice) : (tell notice : Action ε Unit).Keeps := fun _ => ⟨rfl, rfl⟩

theorem keeps_print (text : String) : (print text : Action ε Unit).Keeps := fun _ => ⟨rfl, rfl⟩

theorem keeps_locationText (path : Path) : (locationText path : Action ε String).Keeps := fun σ => .refl σ

theorem keeps_pathExists (path : Path) : (pathExists path : Action ε Bool).Keeps := fun σ => .refl σ

theorem keeps_isFile (path : Path) : (isFile path).Keeps := by
  intro σ
  rw [runOn_isFile]
  exact .refl σ

theorem keeps_readFile (path : Path) : (readFile path).Keeps := by
  intro σ
  rw [runOn_readFile]
  exact .refl σ

theorem keeps_forM_tell (notices : List Notice) : (notices.forM tell : Action ε PUnit).Keeps := by
  induction notices with
  | nil => exact .pure _
  | cons notice notices ih => exact .bind (keeps_tell notice) fun _ => ih

/-- what an action that leaves the disk alone ends with, and that it did -/
theorem Keeps.same {x : Action ε α} (h : x.Keeps) {σ σ' : Session} {result : Except ε α}
    (hrun : x.runOn σ = (result, σ')) : σ.Same σ' := by
  have := h σ
  rw [hrun] at this
  exact this

/-! ## Writing -/

end Action

namespace FileTree

variable {t t' : FileTree} {workingDirectory : Location} {path : Path} {content : List UInt8}

/-- a file is written wherever its path leads, unless to a directory -/
theorem write_of_locate {place : Location} (hplace : t.locate workingDirectory path = .ok place)
    (hnot : t.get? place ≠ some .directory) :
    t.write workingDirectory path content = .ok (t.put place (.file content)) := by
  refine bind_eq_ok.2 ⟨place, hplace, ?_⟩
  split
  · rename_i hdirectory
    exact (hnot hdirectory).elim
  · rfl

/-- a file is written at the place of its path, and nothing else is touched -/
theorem writes_of_write (h : t.write workingDirectory path content = .ok t') :
    t.Writes t' workingDirectory path content := by
  obtain ⟨place, hplace, h⟩ := bind_eq_ok.1 h
  have hnot : t.get? place ≠ some .directory := by
    intro hdirectory
    rw [hdirectory] at h
    cases h
  have hput : t' = t.put place (.file content) := by
    split at h
    · cases h
    · exact (Except.ok.inj h).symm
  have hroot : place ≠ [] := by
    rintro rfl
    exact hnot (if_pos rfl)
  refine ⟨place, hplace, hnot, ?_, fun other hother => ?_⟩
  · rw [hput, get?_put_self t _ hroot]
  · rw [hput, get?_put_of_ne t _ hother]

end FileTree

namespace Action

theorem runOn_writeFile (path : Path) (content : List UInt8) (σ : Session) :
    (writeFile path content).runOn σ = match σ.tree.write σ.workingDirectory path content with
      | .ok tree => (.ok (), { σ with tree })
      | .error e => (.error e, σ) := by
  simp only [writeFile, runOn_bind, runOn_get, runOn_ofExcept, mapError_id, runOn_set]
  cases σ.tree.write σ.workingDirectory path content with
  | ok tree => rfl
  | error e => rfl

/-- writing a file changes nothing, or writes it -/
theorem writeFile_cases {path : Path} {content : List UInt8} {σ σ' : Session} {result : Except FileError Unit}
    (h : (writeFile path content).runOn σ = (result, σ')) :
    (∃ e, result = .error e ∧ σ' = σ) ∨
      ∃ tree, result = .ok () ∧ σ.tree.write σ.workingDirectory path content = .ok tree ∧ σ' = { σ with tree } := by
  rw [runOn_writeFile] at h
  split at h
  · rename_i tree htree
    cases h
    exact .inr ⟨tree, rfl, htree, rfl⟩
  · cases h
    exact .inl ⟨_, rfl, rfl⟩

theorem returns_writeFile {path : Path} {content : List UInt8} {σ : Session} {tree : FileTree}
    (h : σ.tree.write σ.workingDirectory path content = .ok tree) : (writeFile path content).Returns σ () :=
  ⟨_, by rw [runOn_writeFile, h]⟩

end Action

end Drumline

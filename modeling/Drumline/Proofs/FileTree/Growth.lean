/-
How a tree of files grows. Directories are made where there is nothing, and files are written where there is no
directory, so that every directory stays and a path that leads somewhere leads there still (`Retains.locate`). A path
leads to its location or nowhere, whatever there is (`location_of_locate`); inside a directory that it leads to, it
leads to every entry unless it gets too long for that (`locate_child`).

`Widens` is all that the making of a directory and of those on the way to it can do, `mem_namesIn` what a listing of a
directory holds. In a tree whose names are those of entries (`FileTree.Named`) both keep to such names.
-/
import Drumline.FileTree
import Drumline.Proofs.Except
import Drumline.Proofs.Text.Encoding

namespace Drumline

/-! ## Model -/

/-- whether a name can be that of an entry: it leads to something of its own, and is no longer than names are -/
structure FileName.IsEntry (name : FileName) : Prop where
  notIdle : Path.isIdle name = false
  notParent : name ≠ ['.', '.']
  noNul : '\x00' ∉ name
  short : (Text.encode name).length ≤ maxNameBytes

theorem FileName.isEntry_iff {name : FileName} : name.IsEntry ↔ Path.isIdle name = false ∧ name ≠ ['.', '.'] ∧
    '\x00' ∉ name ∧ (Text.encode name).length ≤ maxNameBytes :=
  ⟨fun h => ⟨h.notIdle, h.notParent, h.noNul, h.short⟩, fun h => ⟨h.1, h.2.1, h.2.2.1, h.2.2.2⟩⟩

instance (name : FileName) : Decidable name.IsEntry := decidable_of_iff' _ FileName.isEntry_iff

/-- whether the names of a location can be those of entries -/
def Location.Named (place : Location) : Prop := ∀ name ∈ place, FileName.IsEntry name

instance (place : Location) : Decidable (Location.Named place) := inferInstanceAs (Decidable (∀ name ∈ place, _))

namespace Path

/-- whether a path is another one, or that of a directory on the way to it -/
def OnWayTo (p path : Path) : Prop := p.origin = path.origin ∧ p.names <+: path.names

/-- whether a path is too long to be followed -/
def TooLong (p : Path) : Prop := maxPathBytes < (Text.encode p.write).length

instance (p : Path) : Decidable p.TooLong := inferInstanceAs (Decidable (_ < _))

end Path

namespace FileTree

/-- whether the names in a tree can be those of entries -/
def Named (t : FileTree) : Prop := ∀ place ∈ t.entries.map Prod.fst, Location.Named place

instance (t : FileTree) : Decidable t.Named := inferInstanceAs (Decidable (∀ place ∈ t.entries.map Prod.fst, _))

/-- whether every directory of a tree is one of another -/
def Retains (before after : FileTree) : Prop :=
  ∀ place, before.get? place = some .directory → after.get? place = some .directory

/-- whether a tree is another with directories where nothing was, each of them at a path or on the way to it -/
def Widens (before after : FileTree) (workingDirectory : Location) (path : Path) : Prop :=
  ∀ place, after.get? place = before.get? place ∨
    before.get? place = none ∧ after.get? place = some .directory ∧
      ∃ p : Path, p.OnWayTo path ∧ p.location workingDirectory = place

end FileTree

/-! ## Paths as they are written -/

namespace Text

variable {mark c : Char} {pieces : List (List Char)}

theorem joinWith_cons (piece : List Char) (h : pieces ≠ []) :
    joinWith mark (piece :: pieces) = piece ++ mark :: joinWith mark pieces := by
  obtain ⟨next, rest, rfl⟩ := List.exists_cons_of_ne_nil h
  unfold joinWith
  rw [List.intercalate_cons_cons, List.append_assoc]
  rfl

theorem joinWith_append_singleton (h : pieces ≠ []) (last : List Char) :
    joinWith mark (pieces ++ [last]) = joinWith mark pieces ++ mark :: last := by
  induction pieces with
  | nil => exact (h rfl).elim
  | cons piece pieces ih =>
    cases pieces with
    | nil =>
      rw [List.singleton_append, joinWith_cons _ (List.cons_ne_nil _ _)]
      simp [joinWith]
    | cons next pieces =>
      rw [List.cons_append, joinWith_cons _ (List.append_ne_nil_of_left_ne_nil (List.cons_ne_nil _ _) _),
        ih (List.cons_ne_nil _ _), joinWith_cons _ (List.cons_ne_nil _ _), List.append_assoc, List.cons_append]

theorem mem_joinWith (hc : c ≠ mark) : c ∈ joinWith mark pieces ↔ ∃ piece ∈ pieces, c ∈ piece := by
  induction pieces with
  | nil => simp [joinWith, List.intercalate]
  | cons piece pieces ih =>
    cases pieces with
    | nil => simp [joinWith]
    | cons next pieces =>
      rw [joinWith_cons piece (List.cons_ne_nil next pieces)]
      simp [hc, ih]

/-- a joined text ends with its last piece -/
theorem suffix_joinWith (pieces : List (List Char)) (last : List Char) : last <:+ joinWith mark (pieces ++ [last]) := by
  induction pieces with
  | nil => simp [joinWith]
  | cons piece pieces ih =>
    rw [List.cons_append, joinWith_cons piece (List.append_ne_nil_of_right_ne_nil _ (List.cons_ne_nil _ _))]
    exact ih.trans ((List.suffix_cons _ _).trans (List.suffix_append _ _))

end Text

namespace Path

theorem nul_mem_write {p : Path} : '\x00' ∈ p.write ↔ ∃ name ∈ p.names, '\x00' ∈ name := by
  have horigin : '\x00' ∉ p.origin.text := by
    cases p.origin <;> decide
  unfold write
  split
  · rename_i h
    simp [h.2]
  · rw [List.mem_append, Text.mem_joinWith (by decide), or_iff_right horigin]

theorem nul_mem_write_child {p : Path} {name : FileName} :
    '\x00' ∈ (p.child name).write ↔ '\x00' ∈ p.write ∨ '\x00' ∈ name := by
  rw [nul_mem_write, nul_mem_write]
  simp [child, or_and_right, exists_or]

theorem write_child (p : Path) (name : FileName) :
    (p.child name).write = p.origin.text ++ Text.joinWith '/' (p.names ++ [name]) := by
  have hnames : (p.child name).names ≠ [] := List.append_ne_nil_of_right_ne_nil _ (List.cons_ne_nil _ _)
  unfold write
  rw [if_neg fun h => hnames h.2]
  rfl

theorem write_child_ne_nil (p : Path) {name : FileName} (hname : name ≠ []) : (p.child name).write ≠ [] := by
  intro h
  rw [write_child, List.append_eq_nil_iff] at h
  exact hname (List.eq_nil_of_suffix_nil (h.2 ▸ Text.suffix_joinWith p.names name))

/-- a path is no longer than that of an entry inside -/
theorem not_tooLong_of_child {p : Path} {name : FileName} (hname : name ≠ []) (h : ¬(p.child name).TooLong) :
    ¬p.TooLong := by
  have hlength : (Text.encode p.write).length ≤ (Text.encode (p.child name).write).length := by
    rw [write_child]
    by_cases hnames : p.names = []
    · rw [hnames, List.nil_append, Text.encode_append, List.length_append]
      unfold write
      split
      · have hone : Text.joinWith '/' [name] = name := by simp [Text.joinWith]
        have hdot : (Text.encode ['.']).length = 1 := by decide
        rw [hone, hdot]
        exact Nat.le_add_left_of_le (Text.length_encode_pos hname)
      · rw [hnames, Text.encode_append, List.length_append]
        exact Nat.add_le_add_left (Nat.zero_le _) _
    · rw [Text.joinWith_append_singleton hnames, ← List.append_assoc, Text.encode_append, List.length_append]
      unfold write
      rw [if_neg fun h => hnames h.2]
      exact Nat.le_add_right _ _
  exact fun hlong => h (lt_of_lt_of_le hlong hlength)

theorem location_child (p : Path) (name : FileName) (workingDirectory : Location) :
    (p.child name).location workingDirectory = (p.location workingDirectory).step name := by
  unfold location
  rw [child, List.foldl_append]
  rfl

end Path

theorem FileName.IsEntry.step {name : FileName} (h : name.IsEntry) (place : Location) :
    place.step name = place ++ [name] := by
  unfold Location.step
  rw [h.notIdle, if_neg Bool.false_ne_true, if_neg h.notParent]

theorem FileName.IsEntry.ne_nil {name : FileName} (h : name.IsEntry) : name ≠ [] := by
  rintro rfl
  exact absurd h.notIdle (by decide)

/-! ## Following paths -/

namespace FileTree

variable {t t' : FileTree} {workingDirectory place target : Location} {path p : Path} {names : List FileName}
  {name : FileName}

theorem follow_eq_ok (h : t.follow place names = .ok target) : names.foldl Location.step place = target := by
  induction names generalizing place with
  | nil => exact Except.ok.inj h
  | cons name names ih =>
    rw [follow] at h
    split at h
    · cases h
    · cases h
    · split_ifs at h
      exact ih h

theorem locate_eq_ok : t.locate workingDirectory path = .ok place ↔
    '\x00' ∉ path.write ∧ path.write ≠ [] ∧ ¬path.TooLong ∧
      t.follow (path.start workingDirectory) path.names = .ok place := by
  unfold locate Path.TooLong
  split_ifs with hnul hempty hlong
  · simp [hnul]
  · simp [hempty]
  · simp [hlong]
  · rw [mapError_eq_ok]
    simp [hnul, hempty, hlong]

/-- a path leads to its location, or nowhere -/
theorem location_of_locate (h : t.locate workingDirectory path = .ok place) : path.location workingDirectory = place :=
  follow_eq_ok (locate_eq_ok.1 h).2.2.2

theorem Retains.follow (hkept : t.Retains t') (h : t.follow place names = .ok target) :
    t'.follow place names = .ok target := by
  induction names generalizing place with
  | nil => exact h
  | cons name names ih =>
    rw [FileTree.follow] at h ⊢
    split at h
    · cases h
    · cases h
    · rename_i hdirectory
      rw [hkept place hdirectory]
      split_ifs at h ⊢ with hlong
      exact ih h

/-- a path that leads somewhere leads there in every tree that retains the directories -/
theorem Retains.locate (hkept : t.Retains t') (h : t.locate workingDirectory path = .ok place) :
    t'.locate workingDirectory path = .ok place := by
  obtain ⟨hnul, hempty, hlong, hfollow⟩ := locate_eq_ok.1 h
  exact locate_eq_ok.2 ⟨hnul, hempty, hlong, hkept.follow hfollow⟩

/-- names are followed one after another -/
theorem follow_append (t : FileTree) (place : Location) (names others : List FileName) :
    t.follow place (names ++ others) = t.follow place names >>= fun halfway => t.follow halfway others := by
  induction names generalizing place with
  | nil => rfl
  | cons name names ih =>
    rw [List.cons_append, follow, follow]
    cases t.get? place with
    | none => rfl
    | some entry =>
      cases entry with
      | file content => rfl
      | directory =>
        simp only
        split_ifs
        · rfl
        · exact ih _

/-- the path of an entry of a directory leads to it, unless it is too long -/
theorem locate_child (h : t.locate workingDirectory path = .ok place) (hdirectory : t.get? place = some .directory)
    (hname : name.IsEntry) :
    t.locate workingDirectory (path.child name) =
      if (path.child name).TooLong then .error (.problem .nameTooLong (path.child name).text)
      else .ok (place ++ [name]) := by
  obtain ⟨hnul, -, -, hfollow⟩ := locate_eq_ok.1 h
  have hnul' : '\x00' ∉ (path.child name).write := by
    rw [Path.nul_mem_write_child]
    exact not_or.2 ⟨hnul, hname.noNul⟩
  have hnext : t.follow (path.start workingDirectory) (path.names ++ [name]) = .ok (place ++ [name]) := by
    rw [follow_append, bind_of_ok hfollow, follow, hdirectory]
    simp only
    rw [if_neg (Nat.not_lt.2 hname.short), hname.step]
    rfl
  have hempty := path.write_child_ne_nil hname.ne_nil
  by_cases hlong : (path.child name).TooLong
  · unfold locate
    rw [if_pos hlong, if_neg hnul', if_neg hempty, if_pos (show maxPathBytes < _ from hlong)]
  · rw [if_neg hlong]
    exact locate_eq_ok.2 ⟨hnul', hempty, hlong, hnext⟩

/-! ## Making directories and writing files -/

theorem makeDirectory_eq_ok : t.makeDirectory workingDirectory path = .ok t' ↔
    ∃ place, t.locate workingDirectory path = .ok place ∧ t.get? place = none ∧ t' = t.put place .directory := by
  unfold makeDirectory
  rw [bind_eq_ok]
  refine exists_congr fun place => and_congr_right fun _ => ?_
  cases t.get? place with
  | none =>
    show Except.ok (t.put place .directory) = Except.ok t' ↔ _
    simp [eq_comm]
  | some entry => exact ⟨nofun, nofun⟩

theorem write_eq_ok {content : List UInt8} : t.write workingDirectory path content = .ok t' ↔
    ∃ place, t.locate workingDirectory path = .ok place ∧ t.get? place ≠ some .directory ∧
      t' = t.put place (.file content) := by
  unfold write
  rw [bind_eq_ok]
  refine exists_congr fun place => and_congr_right fun _ => ?_
  split
  · rename_i hdirectory
    exact ⟨nofun, fun h => (h.1 hdirectory).elim⟩
  · rename_i hnot
    show Except.ok (t.put place (.file content)) = Except.ok t' ↔ _
    exact ⟨fun h => ⟨hnot, (Except.ok.inj h).symm⟩, fun h => congrArg Except.ok h.2.symm⟩

theorem list_eq_ok : t.list workingDirectory path = .ok names ↔
    ∃ place, t.locate workingDirectory path = .ok place ∧ t.get? place = some .directory ∧ names = t.namesIn place := by
  unfold list
  rw [bind_eq_ok]
  refine exists_congr fun place => and_congr_right fun _ => ?_
  cases t.get? place with
  | none => exact ⟨nofun, nofun⟩
  | some entry =>
    cases entry with
    | file content => exact ⟨nofun, nofun⟩
    | directory =>
      show Except.ok (t.namesIn place) = Except.ok names ↔ _
      simp [eq_comm]

theorem find_eq_ok {entry : Entry} : t.find workingDirectory path = .ok entry ↔
    ∃ place, t.locate workingDirectory path = .ok place ∧ t.get? place = some entry := by
  unfold find
  rw [bind_eq_ok]
  refine exists_congr fun place => and_congr_right fun _ => ?_
  cases t.get? place with
  | none => exact ⟨nofun, nofun⟩
  | some found => exact ⟨fun h => congrArg some (Except.ok.inj h), fun h => congrArg Except.ok (Option.some.inj h)⟩

theorem isDirectory_iff : t.isDirectory workingDirectory path = true ↔
    ∃ place, t.locate workingDirectory path = .ok place ∧ t.get? place = some .directory := by
  rw [← find_eq_ok]
  unfold isDirectory
  split
  · rename_i hfind
    exact ⟨fun _ => hfind, fun _ => rfl⟩
  · rename_i hnot
    exact ⟨nofun, fun hfind => (hnot hfind).elim⟩

theorem isDirectory_of_child (hempty : path.write ≠ []) (hname : name ≠ [])
    (h : t.locate workingDirectory (path.child name) = .ok target) : t.isDirectory workingDirectory path = true := by
  obtain ⟨hnul, -, hlong, hfollow⟩ := locate_eq_ok.1 h
  rw [Path.nul_mem_write_child, not_or] at hnul
  obtain ⟨halfway, hpath, hlast⟩ := bind_eq_ok.1 ((follow_append t _ path.names [name]).symm.trans hfollow)
  have hdirectory : t.get? halfway = some .directory := by
    rw [follow] at hlast
    split at hlast
    · cases hlast
    · cases hlast
    · assumption
  exact isDirectory_iff.2 ⟨halfway, locate_eq_ok.2 ⟨hnul.1, hempty, Path.not_tooLong_of_child hname hlong, hpath⟩,
    hdirectory⟩

theorem read_eq_ok {content : List UInt8} : t.read workingDirectory path = .ok content ↔
    ∃ place, t.locate workingDirectory path = .ok place ∧ t.get? place = some (.file content) := by
  rw [← find_eq_ok]
  unfold read
  rw [bind_eq_ok]
  constructor
  · rintro ⟨entry, hfind, h⟩
    cases entry with
    | file raw => exact Except.ok.inj h ▸ hfind
    | directory => cases h
  · exact fun hfind => ⟨_, hfind, rfl⟩

/-- a directory that is there is not made -/
theorem ensureDirectories_of_isDirectory (h : t.isDirectory workingDirectory path = true) :
    t.ensureDirectories workingDirectory path = (.ok (), t) := by
  obtain ⟨place, hplace, hdirectory⟩ := isDirectory_iff.1 h
  have hmade : t.makeDirectory workingDirectory path = .error (.problem .occupied path.text) := by
    unfold makeDirectory
    rw [bind_of_ok hplace, hdirectory]
    rfl
  have hensured : t.ensureDirectory workingDirectory path = .ok t := by
    unfold ensureDirectory
    rw [hmade]
    exact if_pos h
  rw [ensureDirectories, hensured]

/-- a path that cannot be followed for another reason than a missing directory is given up -/
theorem ensureDirectories_of_locate_error {e : FileError} (h : t.locate workingDirectory path = .error e)
    (hfound : ∀ text, e ≠ .problem .missing text) : t.ensureDirectories workingDirectory path = (.error e, t) := by
  have hmade : t.makeDirectory workingDirectory path = .error e := bind_of_error h
  have hfind : t.find workingDirectory path = .error e := bind_of_error h
  have hnone : t.isDirectory workingDirectory path = false := by
    unfold isDirectory
    rw [hfind]
  have hensured : t.ensureDirectory workingDirectory path = .error e := by
    unfold ensureDirectory
    rw [hmade, hnone]
    rfl
  rw [ensureDirectories, hensured]
  split
  · rename_i hok
    cases hok
  · rename_i text herror
    exact (hfound text (Except.error.inj herror)).elim
  · rename_i herror
    rw [Except.error.inj herror]

/-- nothing can be made inside a file -/
theorem ensureDirectories_in_file {content : List UInt8} (h : t.find workingDirectory path = .ok (.file content))
    (hname : name ≠ []) (hnul : '\x00' ∉ name) :
    ∃ kind, t.ensureDirectories workingDirectory (path.child name) =
      (.error (.problem kind (path.child name).text), t) := by
  obtain ⟨place, hplace, hfile⟩ := find_eq_ok.1 h
  obtain ⟨hnone, -, -, hfollow⟩ := locate_eq_ok.1 hplace
  have hnone' : '\x00' ∉ (path.child name).write := by
    rw [Path.nul_mem_write_child]
    exact not_or.2 ⟨hnone, hnul⟩
  have hstop : t.follow (path.start workingDirectory) (path.names ++ [name]) = .error .notDirectory := by
    rw [follow_append, bind_of_ok hfollow, follow, hfile]
  have hempty := path.write_child_ne_nil hname
  by_cases hlong : (path.child name).TooLong
  · refine ⟨.nameTooLong, ensureDirectories_of_locate_error ?_ (by rintro _ ⟨⟩)⟩
    rw [locate, if_neg hnone', if_neg hempty, if_pos (show maxPathBytes < _ from hlong)]
  · refine ⟨.notDirectory, ensureDirectories_of_locate_error ?_ (by rintro _ ⟨⟩)⟩
    rw [locate, if_neg hnone', if_neg hempty, if_neg (show ¬maxPathBytes < _ from hlong)]
    exact mapError_of_error hstop

/-- the root is a directory, and nothing else is put there -/
theorem ne_root (h : t.get? place ≠ some .directory) : place ≠ [] := by
  rintro rfl
  exact h rfl

theorem retains_put {entry : Entry} (h : t.get? place ≠ some .directory) : t.Retains (t.put place entry) := by
  intro other hother
  have hne : other ≠ place := by
    rintro rfl
    exact h hother
  rw [get?_put_of_ne t entry hne]
  exact hother

/-- a directory is there, or made where there is nothing -/
theorem ensureDirectory_cases (t : FileTree) (workingDirectory : Location) (path : Path) :
    (∃ e, t.ensureDirectory workingDirectory path = .error e) ∨ t.ensureDirectory workingDirectory path = .ok t ∨
      ∃ place, t.ensureDirectory workingDirectory path = .ok (t.put place .directory) ∧
        t.locate workingDirectory path = .ok place ∧ t.get? place = none := by
  unfold ensureDirectory
  cases hmade : t.makeDirectory workingDirectory path with
  | error e =>
    simp only
    split_ifs
    · exact .inr (.inl rfl)
    · exact .inl ⟨e, rfl⟩
  | ok t' =>
    obtain ⟨place, hplace, hnone, rfl⟩ := makeDirectory_eq_ok.1 hmade
    exact .inr (.inr ⟨place, rfl, hplace, hnone⟩)

/-- **Making directories.** What is kept when a directory is put where nothing is, at a path or on the way to it, is
kept when all of them are made. -/
theorem ensureDirectories_induction {P : FileTree → Prop}
    (hput : ∀ (t : FileTree) (p : Path) (place : Location), p.OnWayTo path → t.locate workingDirectory p = .ok place →
      t.get? place = none → P t → P (t.put place .directory))
    (h : P t) : P (t.ensureDirectories workingDirectory path).2 := by
  have hone {t t' : FileTree} {path : Path}
      (hput : ∀ (t : FileTree) (p : Path) (place : Location), p.OnWayTo path →
        t.locate workingDirectory p = .ok place → t.get? place = none → P t → P (t.put place .directory))
      (h : P t) (hmade : t.ensureDirectory workingDirectory path = .ok t') : P t' := by
    rcases ensureDirectory_cases t workingDirectory path with ⟨e, he⟩ | hsame | ⟨place, hnew, hplace, hnone⟩
    · rw [he] at hmade
      cases hmade
    · rw [hsame] at hmade
      exact Except.ok.inj hmade ▸ h
    · rw [hnew] at hmade
      exact Except.ok.inj hmade ▸ hput t path place ⟨rfl, List.prefix_rfl⟩ hplace hnone h
  have hparent {path : Path}
      (hput : ∀ (t : FileTree) (p : Path) (place : Location), p.OnWayTo path →
        t.locate workingDirectory p = .ok place → t.get? place = none → P t → P (t.put place .directory))
      (t : FileTree) (p : Path) (place : Location) (hp : p.OnWayTo path.parent) :
      t.locate workingDirectory p = .ok place → t.get? place = none → P t → P (t.put place .directory) :=
    hput t p place ⟨hp.1, hp.2.trans (List.dropLast_prefix _)⟩
  fun_induction ensureDirectories t workingDirectory path with
  | case1 path made hmade => exact hone hput h hmade
  | case2 => exact h
  | case3 path text hmissing hnames hless error made hfailed ih =>
    have hkept := ih (hparent hput)
    rw [hfailed] at hkept
    exact hkept
  | case4 path text hmissing hnames hless made hparents last hlast ih =>
    have hkept := ih (hparent hput)
    rw [hparents] at hkept
    exact hone hput hkept hlast
  | case5 path text hmissing hnames hless made hparents error hlast ih =>
    have hkept := ih (hparent hput)
    rw [hparents] at hkept
    exact hkept
  | case6 => exact h

theorem isDirectory_of_ensureDirectory (h : t.ensureDirectory workingDirectory path = .ok t') :
    t'.isDirectory workingDirectory path = true := by
  unfold ensureDirectory at h
  split at h
  · split_ifs at h with hdirectory
    exact Except.ok.inj h ▸ hdirectory
  · obtain ⟨place, hplace, hnone, rfl⟩ := makeDirectory_eq_ok.1 h
    have hnot : t.get? place ≠ some .directory := by
      rw [hnone]
      nofun
    exact isDirectory_iff.2 ⟨place, (retains_put hnot).locate hplace, get?_put_self t _ (ne_root hnot)⟩

/-- a directory that is made without an error is there -/
theorem isDirectory_of_ensureDirectories (h : (t.ensureDirectories workingDirectory path).1 = .ok ()) :
    (t.ensureDirectories workingDirectory path).2.isDirectory workingDirectory path = true := by
  revert h
  fun_cases ensureDirectories t workingDirectory path with
  | case1 made hmade => exact fun _ => isDirectory_of_ensureDirectory hmade
  | case2 => exact nofun
  | case3 => exact nofun
  | case4 text hmissing hnames hless made hparents last hlast => exact fun _ => isDirectory_of_ensureDirectory hlast
  | case5 => exact nofun
  | case6 => exact nofun

/-- a directory that is made without an error leaves the tree as it is only where it was there before -/
theorem ensureDirectories_eq_self_iff (h : (t.ensureDirectories workingDirectory path).1 = .ok ()) :
    (t.ensureDirectories workingDirectory path).2 = t ↔ t.isDirectory workingDirectory path = true := by
  refine ⟨fun hsame => ?_, fun hthere => congrArg Prod.snd (ensureDirectories_of_isDirectory hthere)⟩
  have hafter := isDirectory_of_ensureDirectories h
  rwa [hsame] at hafter

/-- **What making a directory can do.** Nothing but to make it, and those on the way to it, where nothing was. -/
theorem widens_ensureDirectories (t : FileTree) (workingDirectory : Location) (path : Path) :
    t.Widens (t.ensureDirectories workingDirectory path).2 workingDirectory path := by
  refine ensureDirectories_induction (P := fun t' => t.Widens t' workingDirectory path)
    (fun t' p place hp hplace hnone hwidens other => ?_) fun _ => .inl rfl
  by_cases hother : other = place
  · subst hother
    have hroot : other ≠ [] := ne_root (by rw [hnone]; nofun)
    rw [get?_put_self t' _ hroot]
    rcases hwidens other with hsame | ⟨-, hdirectory, -⟩
    · exact .inr ⟨hsame ▸ hnone, rfl, p, hp, location_of_locate hplace⟩
    · rw [hnone] at hdirectory
      cases hdirectory
  · rw [get?_put_of_ne t' _ hother]
    exact hwidens other

theorem Widens.retains (h : t.Widens t' workingDirectory path) : t.Retains t' := by
  intro place hplace
  rcases h place with hsame | ⟨hnone, -, -⟩
  · rw [hsame, hplace]
  · rw [hplace] at hnone
    cases hnone

/-- the files are those that there were -/
theorem Widens.file_iff (h : t.Widens t' workingDirectory path) {content : List UInt8} :
    t'.get? place = some (.file content) ↔ t.get? place = some (.file content) := by
  rcases h place with hsame | ⟨hnone, hdirectory, -⟩
  · rw [hsame]
  · rw [hnone, hdirectory]
    exact ⟨nofun, nofun⟩

/-! ## Names -/

theorem Named.put (h : t.Named) (hplace : Location.Named place) (entry : Entry) : (t.put place entry).Named := by
  intro other hother
  rcases mem_map_fst_putEntry.1 hother with rfl | hother
  · exact hplace
  · exact h other hother

/-- a path that is followed leads to a location with names of entries -/
theorem named_of_follow (hplace : Location.Named place) (hnames : ∀ name ∈ names, '\x00' ∉ name)
    (h : t.follow place names = .ok target) : Location.Named target := by
  induction names generalizing place with
  | nil => exact Except.ok.inj h ▸ hplace
  | cons name names ih =>
    rw [follow] at h
    split at h
    · cases h
    · cases h
    · split_ifs at h with hlong
      refine ih ?_ (fun other hother => hnames other (List.mem_cons_of_mem _ hother)) h
      unfold Location.step
      split_ifs with hidle hparent
      · exact hplace
      · exact fun other hother => hplace other (List.dropLast_subset _ hother)
      · intro other hother
        rcases List.mem_append.1 hother with hother | hother
        · exact hplace other hother
        · rw [List.mem_singleton.1 hother]
          exact ⟨Bool.eq_false_iff.2 hidle, hparent, hnames name List.mem_cons_self, Nat.not_lt.1 hlong⟩

theorem named_of_locate (hdirectory : Location.Named workingDirectory)
    (h : t.locate workingDirectory path = .ok place) : Location.Named place := by
  obtain ⟨hnul, -, -, hfollow⟩ := locate_eq_ok.1 h
  rw [Path.nul_mem_write] at hnul
  refine named_of_follow ?_ (fun name hname hmem => hnul ⟨name, hname, hmem⟩) hfollow
  unfold Path.start
  split_ifs
  · exact hdirectory
  · exact fun _ hname => (List.not_mem_nil hname).elim

theorem Named.ensureDirectories (h : t.Named) (hdirectory : Location.Named workingDirectory) (path : Path) :
    (t.ensureDirectories workingDirectory path).2.Named :=
  ensureDirectories_induction (fun _ _ _ _ hplace _ hnamed => hnamed.put (named_of_locate hdirectory hplace) _) h

/-! ## Listings -/

theorem mem_places_iff (hplace : place ≠ []) : place ∈ t.entries.map Prod.fst ↔ t.get? place ≠ none := by
  unfold get?
  rw [if_neg hplace, ← Option.isSome_iff_ne_none, List.lookup_isSome_iff, List.mem_map]
  exact exists_congr fun entry => and_congr_right fun _ => (beq_iff_eq.trans eq_comm).symm

/-- the last name of a place directly inside another -/
def nameIn? (place inner : Location) : Option FileName :=
  if inner.dropLast = place then inner.getLast? else none

theorem nameIn?_eq_some {inner : Location} : nameIn? place inner = some name ↔ inner = place ++ [name] := by
  unfold nameIn?
  constructor
  · intro h
    split_ifs at h with hplace
    obtain ⟨start, rfl⟩ := List.getLast?_eq_some_iff.1 h
    rw [← hplace, List.dropLast_concat]
  · rintro rfl
    rw [if_pos List.dropLast_concat, List.getLast?_concat]

theorem namesIn_eq (t : FileTree) (place : Location) :
    t.namesIn place = ((t.entries.map Prod.fst).filterMap (nameIn? place)).mergeSort fun a b => !decide (b < a) := by
  unfold namesIn
  rw [List.filterMap_map]
  rfl

/-- a listing holds the names of the entries of its directory -/
theorem mem_namesIn : name ∈ t.namesIn place ↔ t.get? (place ++ [name]) ≠ none := by
  have hroot : place ++ [name] ≠ [] := List.append_ne_nil_of_right_ne_nil _ (List.cons_ne_nil _ _)
  rw [namesIn_eq, List.mem_mergeSort, List.mem_filterMap, ← mem_places_iff hroot]
  simp [nameIn?_eq_some]

/-- a listing is in the order of code points, and holds each name once -/
theorem pairwise_namesIn (t : FileTree) (place : Location) : (t.namesIn place).Pairwise (· < ·) := by
  have hsorted : (t.namesIn place).Pairwise fun a b => ¬b < a := by
    rw [namesIn_eq]
    refine (List.pairwise_mergeSort ?_ ?_ _).imp fun h => ?_
    · intro a b c hab hbc
      rw [Bool.not_eq_true', decide_eq_false_iff_not, List.not_lt] at hab hbc ⊢
      exact List.le_trans hab hbc
    · intro a b
      rw [Bool.or_eq_true, Bool.not_eq_true', Bool.not_eq_true', decide_eq_false_iff_not, decide_eq_false_iff_not]
      exact List.le_total a b
    · rw [Bool.not_eq_true', decide_eq_false_iff_not] at h
      exact h
  have hdistinct : (t.namesIn place).Nodup := by
    rw [namesIn_eq, (List.mergeSort_perm _ _).nodup_iff]
    refine t.distinct.filterMap fun inner inner' name hname hname' => ?_
    rw [nameIn?_eq_some.1 hname, nameIn?_eq_some.1 hname']
  refine hsorted.imp₂ (fun a b hle hne => Decidable.byContradiction fun hnot => hne ?_) hdistinct
  exact List.le_antisymm (List.not_lt.1 hle) (List.not_lt.1 hnot)

end FileTree

end Drumline

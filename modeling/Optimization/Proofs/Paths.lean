import Optimization.Engine
import Mathlib.Data.List.Basic

/-!
# Paths and the files that they name

Where a path leads depends on the directories and links only, so that files come and go without
any effect on it. What an operation changes is told by two lists: the files that get a name, and
the files whose content changes.

* `landing_eq_ok` : a path leads to the same place before and after;
* `Confined` : from files to later ones, with the two lists;
* `opened_confined`, `print_confined` : opening a file, and writing it;
* `confined_without`, `remove_of_landing` : a new file whose name is taken away again.
-/

namespace Optimization.Files

variable {files files' files'' : Files} {path : String} {place : Place} {file other : Ref ByteArray}
  {branches : List (Place × Branch)}

/-! ### Where paths lead -/

/-- Directories, links and the working directory are the same. -/
structure SameTree (files files' : Files) : Prop where
  branches : files'.branches = files.branches
  here : files'.here = files.here

theorem SameTree.refl (files : Files) : SameTree files files := ⟨rfl, rfl⟩

theorem SameTree.trans (h : SameTree files files') (h' : SameTree files' files'') :
    SameTree files files'' :=
  ⟨h'.branches.trans h.branches, h'.here.trans h.here⟩

/-- **A path leads to the same place before and after**, whatever files there are. -/
theorem landing_eq_ok (h : SameTree files files') {through : Bool} {found : Landing} :
    files'.landing through path = .ok found ↔ files.landing through path = .ok found := by
  rw [landing, landing, h.branches, h.here]
  by_cases hempty : path.isEmpty
  · rw [if_pos hempty, if_pos hempty]
  · rw [if_neg hempty, if_neg hempty]
    cases walk files.branches through linkLimit (origin files.here path) (parts path) with
    | ok landing => exact Iff.rfl
    | error stray =>
      cases stray with
      | blocked place => exact ⟨nofun, nofun⟩
      | links => exact ⟨nofun, nofun⟩

theorem file?_eq_some : files.file? path = some file ↔
    ∃ place, files.landing true path = .ok (.leaf place) ∧
      files.leaves.lookup place = some file := by
  rw [file?]
  cases files.landing true path with
  | error fault => exact ⟨nofun, nofun⟩
  | ok found =>
    cases found with
    | directory place => exact ⟨nofun, nofun⟩
    | leaf place =>
      constructor
      · exact fun h => ⟨place, rfl, h⟩
      · rintro ⟨place', hplace, h⟩
        cases hplace
        exact h

theorem read_of_file? (h : files.file? path = some file) :
    files.read path = .ok (files.content file) := by
  obtain ⟨place, hlanding, hfile⟩ := file?_eq_some.1 h
  rw [read, hlanding]
  simp only [Bind.bind, Except.bind, hfile]
  rfl

theorem isSome_of_file? (h : files.file? path = some file) : (files.contents.get? file).isSome := by
  obtain ⟨place, -, hfile⟩ := file?_eq_some.1 h
  obtain ⟨before, after, hleaves, -⟩ := List.lookup_eq_some_iff.1 hfile
  exact files.sound (place, file) (hleaves ▸ by simp)

/-- A directory with a link to a file beside it, a second name of that file and a link to itself. -/
def linkedTree : Files where
  branches := [(["d"], .directory), (["d", "link"], .link "../m"), (["d", "loop"], .link "loop")]
  leaves := [(["m"], ⟨0⟩), (["d", "n"], ⟨0⟩)]
  contents := ⟨#[ByteArray.empty]⟩
  here := ["d"]
  sound := by simp [Store.get?]

example : ["/m", "../m", "link", ".././d//link", "n"].map linkedTree.file? =
    List.replicate 5 (some ⟨0⟩) := by decide +kernel

example : ["m", "loop", "../m/", ""].map linkedTree.file? = List.replicate 4 none := by
  decide +kernel

/-! #### Links at the end of a path -/

/-- Whether a last link is followed makes no difference where there is none. -/
theorem follow_through {jump jump' : Place → List String → Except Stray Landing}
    (hjump : ∀ d names, jump d names = .ok (.leaf place) → jump' d names = .ok (.leaf place))
    (hplace : branches.lookup place = none) {d : Place} {names : List String}
    (h : follow branches false jump d names = .ok (.leaf place)) :
    follow branches true jump' d names = .ok (.leaf place) := by
  induction names generalizing d with
  | nil => exact h
  | cons name rest ih =>
    rw [follow] at h ⊢
    by_cases hpoint : name = "."
    · rw [if_pos hpoint] at h ⊢
      exact ih h
    rw [if_neg hpoint] at h ⊢
    by_cases hback : name = ".."
    · rw [if_pos hback] at h ⊢
      exact ih h
    rw [if_neg hback] at h ⊢
    cases hbranch : branches.lookup (d ++ [name]) with
    | none =>
      simp only [hbranch] at h ⊢
      exact h
    | some branch =>
      cases branch with
      | directory =>
        simp only [hbranch] at h ⊢
        exact ih h
      | link target =>
        simp only [hbranch, Bool.not_false, Bool.and_true, Bool.not_true, Bool.and_false,
          Bool.false_eq_true, if_false] at h ⊢
        by_cases hlast : rest.isEmpty
        · -- the path would lead to the link itself
          rw [if_pos hlast] at h
          cases h
          rw [hplace] at hbranch
          cases hbranch
        · rw [if_neg hlast] at h
          exact hjump _ _ h

theorem walk_through (hplace : branches.lookup place = none) {n : Nat} {d : Place}
    {names : List String} (h : walk branches false n d names = .ok (.leaf place)) :
    walk branches true n d names = .ok (.leaf place) := by
  induction n generalizing d names with
  | zero => exact follow_through (fun _ _ h => h) hplace h
  | succ n ih => exact follow_through (fun _ _ h => ih h) hplace h

theorem landing_through (hplace : files.branches.lookup place = none)
    (h : files.landing false path = .ok (.leaf place)) :
    files.landing true path = .ok (.leaf place) := by
  rw [landing] at h ⊢
  by_cases hempty : path.isEmpty
  · rw [if_pos hempty] at h
    cases h
  · rw [if_neg hempty] at h ⊢
    cases hwalk : walk files.branches false linkLimit (origin files.here path) (parts path) with
    | ok found =>
      rw [hwalk] at h
      cases h
      rw [walk_through hplace hwalk]
      rfl
    | error stray =>
      rw [hwalk] at h
      cases stray <;> cases h

/-! ### What changes -/

/-- From files to later ones: only the files `named` get a name, no file loses one, and only the
files `changed` change their content. -/
structure Confined (named changed : List (Ref ByteArray)) (files files' : Files) : Prop where
  tree : SameTree files files'
  kept : ∀ place file, files.leaves.lookup place = some file →
    files'.leaves.lookup place = some file
  fresh : ∀ place file, files'.leaves.lookup place = some file →
    files.leaves.lookup place = some file ∨ file ∈ named
  live : ∀ file, (files.contents.get? file).isSome → (files'.contents.get? file).isSome
  same : ∀ file, (files.contents.get? file).isSome → file ∉ changed →
    files'.contents.get? file = files.contents.get? file

namespace Confined

variable {named changed named' changed' : List (Ref ByteArray)}

theorem refl (named changed : List (Ref ByteArray)) (files : Files) :
    Confined named changed files files :=
  ⟨.refl files, fun _ _ h => h, fun _ _ => .inl, fun _ h => h, fun _ _ _ => rfl⟩

theorem trans (h : Confined named changed files files')
    (h' : Confined named changed files' files'') :
    Confined named changed files files'' where
  tree := h.tree.trans h'.tree
  kept place file hfile := h'.kept place file (h.kept place file hfile)
  fresh place file hfile := by
    rcases h'.fresh place file hfile with hold | hnamed
    · exact h.fresh place file hold
    · exact .inr hnamed
  live file hlive := h'.live file (h.live file hlive)
  same file hlive hchanged :=
    (h'.same file (h.live file hlive) hchanged).trans (h.same file hlive hchanged)

theorem mono (h : Confined named changed files files') (hnamed : named ⊆ named')
    (hchanged : changed ⊆ changed') : Confined named' changed' files files' where
  tree := h.tree
  kept := h.kept
  fresh place file hfile := (h.fresh place file hfile).imp_right fun hn => hnamed hn
  live := h.live
  same file hlive hother := h.same file hlive fun hc => hother (hchanged hc)

/-- No file loses a name. -/
theorem file? (h : Confined named changed files files') (hfile : files.file? path = some file) :
    files'.file? path = some file := by
  obtain ⟨place, hlanding, hleaf⟩ := file?_eq_some.1 hfile
  exact file?_eq_some.2 ⟨place, (landing_eq_ok h.tree).2 hlanding, h.kept place file hleaf⟩

/-- A name that a file has afterwards is an old one, or it is that of a file that gets names. -/
theorem file?_or (h : Confined named changed files files') (hfile : files'.file? path = some file) :
    files.file? path = some file ∨ file ∈ named := by
  obtain ⟨place, hlanding, hleaf⟩ := file?_eq_some.1 hfile
  exact (h.fresh place file hleaf).imp_left fun hold =>
    file?_eq_some.2 ⟨place, (landing_eq_ok h.tree).1 hlanding, hold⟩

theorem content (h : Confined named changed files files')
    (hlive : (files.contents.get? file).isSome) (hother : file ∉ changed) :
    files'.content file = files.content file := by
  rw [Files.content, Files.content, h.same file hlive hother]

/-- What is there is there afterwards. -/
theorem exists? (h : Confined named changed files files') (hfile : files.isFile path = true) :
    files'.exists? path = true := by
  obtain ⟨file, hfile⟩ := Option.isSome_iff_exists.1 hfile
  obtain ⟨place, hlanding, hleaf⟩ := file?_eq_some.1 (h.file? hfile)
  simp only [Files.exists?, hlanding, hleaf, Option.isSome_some]

end Confined

/-- A content changes alone. -/
theorem setContent_confined (files : Files) (file : Ref ByteArray) (content : ByteArray) :
    Confined [] [file] files (files.setContent file content) where
  tree := ⟨rfl, rfl⟩
  kept _ _ h := h
  fresh _ _ := .inl
  live _ hlive := (Store.isSome_get?_put content).trans hlive
  same _ _ hother := Store.get?_put_of_ne content (List.ne_of_not_mem_cons hother)

theorem content_setContent (h : (files.contents.get? file).isSome) (content : ByteArray) :
    (files.setContent file content).content file = content := by
  obtain ⟨old, hold⟩ := Option.isSome_iff_exists.1 h
  rw [Files.content, setContent, Store.get?_put_self hold]
  rfl

/-- A new file gets a name alone. -/
theorem create_confined (files : Files) (place : Place) :
    Confined [files.contents.next] [] files (files.create place) where
  tree := ⟨rfl, rfl⟩
  kept place' file h := by
    show (files.leaves ++ [(place, files.contents.next)]).lookup place' = some file
    rw [List.lookup_append, h]
    rfl
  fresh place' file h := by
    replace h : (files.leaves ++ [(place, files.contents.next)]).lookup place' = some file := h
    rw [List.lookup_append] at h
    cases hold : files.leaves.lookup place' with
    | some old =>
      rw [hold] at h
      exact .inl h
    | none =>
      rw [hold, Option.none_or, List.lookup_cons] at h
      cases hsame : place' == place with
      | true =>
        rw [hsame] at h
        exact .inr (List.mem_singleton.2 (Option.some.inj h).symm)
      | false =>
        rw [hsame] at h
        cases h
  live file h := by
    show ((files.contents.push ByteArray.empty).get? file).isSome
    rw [Store.get?_push _ h]
    exact h
  same file h _ := Store.get?_push _ h

theorem lookup_create (h : files.leaves.lookup place = none) :
    (files.create place).leaves.lookup place = some files.contents.next := by
  show (files.leaves ++ [(place, files.contents.next)]).lookup place = _
  rw [List.lookup_append, h, Option.none_or, List.lookup_cons, beq_self_eq_true]

/-! ### Opening and writing -/

theorem opened_of_landing (h : files.landing true path = .ok (.leaf place)) :
    files.opened path = .ok (match files.leaves.lookup place with
      | some file => (file, files)
      | none => (files.contents.next, files.create place)) := by
  rw [opened, h]
  cases hleaf : files.leaves.lookup place <;>
    simp [hleaf, Bind.bind, Except.bind, Pure.pure, Except.pure]

/-- **Opening a file gives a name to that file alone**, and changes no content. -/
theorem opened_confined (h : files.opened path = .ok (file, files')) :
    Confined [file] [] files files' ∧ files'.file? path = some file ∧
      (files.file? path = some file ∧ files' = files ∨
        files.file? path = none ∧ file = files.contents.next) := by
  cases hlanding : files.landing true path with
  | error fault =>
    rw [opened, hlanding] at h
    cases h
  | ok found =>
    cases found with
    | directory place =>
      rw [opened, hlanding] at h
      cases h
    | leaf place =>
      rw [opened_of_landing hlanding] at h
      cases hleaf : files.leaves.lookup place with
      | some old =>
        rw [hleaf] at h
        cases h
        have hfile := file?_eq_some.2 ⟨place, hlanding, hleaf⟩
        exact ⟨.refl _ _ _, hfile, .inl ⟨hfile, rfl⟩⟩
      | none =>
        rw [hleaf] at h
        cases h
        have hconfined := create_confined files place
        refine ⟨hconfined, ?_, .inr ⟨?_, rfl⟩⟩
        · exact file?_eq_some.2
            ⟨place, (landing_eq_ok hconfined.tree).2 hlanding, lookup_create hleaf⟩
        · rw [Files.file?, hlanding]
          exact hleaf

/-- A file that is there is opened as it is. -/
theorem opened_of_file? (h : files.file? path = some file) :
    files.opened path = .ok (file, files) := by
  obtain ⟨place, hlanding, hleaf⟩ := file?_eq_some.1 h
  rw [opened_of_landing hlanding, hleaf]

/-- An opened file gets a content. -/
theorem opened_setContent (h : files.opened path = .ok (file, files')) (bytes : ByteArray) :
    (files'.setContent file bytes).file? path = some file ∧
      Confined [file] [file] files (files'.setContent file bytes) := by
  have hset := setContent_confined files' file bytes
  obtain ⟨hopened, hfile, -⟩ := opened_confined h
  exact ⟨hset.file? hfile, (hopened.mono (List.Subset.refl _) (List.nil_subset _)).trans
    (hset.mono (List.nil_subset _) (List.Subset.refl _))⟩

/-- Writing a file, or at its end, gives a name and a content to that file alone. -/
theorem print_confined {s s' : System} {atEnd : Bool} {bytes : ByteArray}
    (h : s.print path atEnd bytes = .ok s') :
    s'.output = s.output ∧ ∃ file, s'.files.file? path = some file ∧
      Confined [file] [file] s.files s'.files := by
  rw [System.print, write, append] at h
  cases hopened : s.files.opened path with
  | error fault =>
    rw [hopened] at h
    cases atEnd <;> cases h
  | ok found =>
    obtain ⟨file, opened⟩ := found
    rw [hopened] at h
    cases atEnd with
    | false =>
      cases h
      exact ⟨rfl, file, opened_setContent hopened bytes⟩
    | true =>
      cases h
      exact ⟨rfl, file, opened_setContent hopened _⟩

/-! ### Free paths -/

theorem isFree_iff : files.isFree path = true ↔
    ∃ place, files.landing false path = .ok (.leaf place) ∧
      files.branches.lookup place = none ∧ files.leaves.lookup place = none := by
  rw [isFree]
  cases files.landing false path with
  | error fault => exact ⟨nofun, nofun⟩
  | ok found =>
    cases found with
    | directory place => exact ⟨nofun, nofun⟩
    | leaf place => simp [isVacant]

/-- **At a free path a new file is opened.** -/
theorem opened_of_isFree (h : files.isFree path = true) : ∃ place,
    files.landing false path = .ok (.leaf place) ∧ files.branches.lookup place = none ∧
      files.leaves.lookup place = none ∧
      files.opened path = .ok (files.contents.next, files.create place) := by
  obtain ⟨place, hlanding, hbranch, hleaf⟩ := isFree_iff.1 h
  refine ⟨place, hlanding, hbranch, hleaf, ?_⟩
  rw [opened_of_landing (landing_through hbranch hlanding), hleaf]

theorem lookup_without_of_ne {other : Place} (h : other ≠ place) :
    (files.without place).leaves.lookup other = files.leaves.lookup other := by
  show (files.leaves.filter fun x => x.1 != place).lookup other = _
  induction files.leaves with
  | nil => rfl
  | cons x rest ih =>
    obtain ⟨key, file⟩ := x
    by_cases hkey : key = place
    · have hother : (other == key) = false := by simpa [hkey] using h
      rw [List.filter_cons_of_neg (by simp [hkey]), ih, List.lookup_cons, hother]
    · rw [List.filter_cons_of_pos (by simpa using hkey), List.lookup_cons, List.lookup_cons, ih]

theorem lookup_without_self (files : Files) (place : Place) :
    (files.without place).leaves.lookup place = none := by
  rw [List.lookup_eq_none_iff]
  intro x hx
  have hne := (List.mem_filter.1 hx).2
  rw [bne_iff_ne] at hne ⊢
  exact hne.symm

/-- **A new file leaves no trace once its name is taken away**, whatever happened to its content. -/
theorem confined_without {named changed : List (Ref ByteArray)}
    (hplace : files.leaves.lookup place = none)
    (h : Confined named (files.contents.next :: changed) (files.create place) files') :
    Confined named changed files (files'.without place) where
  tree := ⟨h.tree.branches, h.tree.here⟩
  kept other file hfile := by
    have hne : other ≠ place := by
      rintro rfl
      rw [hplace] at hfile
      cases hfile
    rw [lookup_without_of_ne hne]
    exact h.kept other file ((create_confined files place).kept other file hfile)
  fresh other file hfile := by
    have hne : other ≠ place := by
      rintro rfl
      rw [lookup_without_self] at hfile
      cases hfile
    rw [lookup_without_of_ne hne] at hfile
    refine (h.fresh other file hfile).imp_left fun hold => ?_
    replace hold : (files.leaves ++ [(place, files.contents.next)]).lookup other = some file := hold
    have hkey : (other == place) = false := by simpa using hne
    rwa [List.lookup_append, List.lookup_cons, hkey, List.lookup_nil, Option.or_none] at hold
  live file hlive := h.live file ((create_confined files place).live file hlive)
  same file hlive hother := by
    have hcreated := create_confined files place
    have hne : file ∉ files.contents.next :: changed := by
      rw [List.mem_cons, not_or]
      exact ⟨Store.ne_next_of_get? hlive, hother⟩
    exact (h.same file (hcreated.live file hlive) hne).trans
      (hcreated.same file hlive List.not_mem_nil)

/-- **A name of a file is taken away**, where there is no link. -/
theorem remove_of_landing (hlanding : files.landing false path = .ok (.leaf place))
    (hbranch : files.branches.lookup place = none) (hfile : files.leaves.lookup place = some file) :
    files.remove path = .ok (files.without place) := by
  rw [remove, hlanding]
  simp only [hbranch, hfile, Option.isSome_none, Option.isSome_some, Bind.bind, Except.bind,
    Bool.false_eq_true, if_false, if_true]
  rfl

end Optimization.Files

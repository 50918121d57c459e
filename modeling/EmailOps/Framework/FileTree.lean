import Mathlib.Data.Finset.Card
import Mathlib.Data.Finset.Image
import Mathlib.Data.List.Infix
import EmailOps.Framework.Text

/-!
# Files and directories

A tree of files and directories under one root, without links. A path is the list of the names
that lead to it from the root.

* `FileTree.locate` is where a file opened for writing under a name goes: a name may lead up and
  down through directories that are there, or from the root.
* `FileTree.entries` are what a directory lists, each once.
* `mem_entries_write`: a write adds an entry to the directory that it goes to, if there was
  none.
* `suffix` is what a name has from its last dot on.
-/

namespace Framework

/-- The names that lead from the root to a file or directory. -/
abbrev Path := List Text

namespace Path

/-- The path lies directly in the directory. -/
def In (p dir : Path) : Prop :=
  p ≠ [] ∧ p.dropLast = dir

instance (p dir : Path) : Decidable (p.In dir) :=
  inferInstanceAs (Decidable (_ ∧ _))

theorem in_append_singleton (dir : Path) (name : Text) : Path.In (dir ++ [name]) dir :=
  ⟨by simp, by simp⟩

end Path

/-- What a name has from its last dot on, unless it begins or ends there. -/
def suffix (name : Text) : Text :=
  match name.reverse.dropWhile (· ≠ '.') with
  | _ :: _ :: _ =>
    if name.getLast? = some '.' then [] else '.' :: (name.reverse.takeWhile (· ≠ '.')).reverse
  | _ => []

/-- The suffix of a name that is continued by a dot and further characters without one. -/
theorem suffix_append {stem ext : Text} (hstem : stem ≠ []) (hext : ext ≠ [])
    (hdot : '.' ∉ ext) : suffix (stem ++ '.' :: ext) = '.' :: ext := by
  have hpass : ∀ c ∈ ext.reverse, (decide (c ≠ '.')) = true := by
    intro c hc
    refine decide_eq_true ?_
    rintro rfl
    exact hdot (List.mem_reverse.mp hc)
  have hrev : (stem ++ '.' :: ext).reverse = ext.reverse ++ '.' :: stem.reverse := by simp
  have hlast : (stem ++ '.' :: ext).getLast? ≠ some '.' := by
    rw [← List.head?_reverse, hrev, List.head?_append_of_ne_nil _ (by simpa using hext)]
    intro hhead
    have hmem := List.mem_of_head? hhead
    exact hdot (List.mem_reverse.mp hmem)
  obtain ⟨c, rest, hstemRev⟩ := List.exists_cons_of_ne_nil (mt List.reverse_eq_nil_iff.mp hstem)
  rw [suffix, hrev, List.dropWhile_append_of_pos hpass, List.takeWhile_append_of_pos hpass,
    hstemRev]
  simp only [ne_eq, not_true_eq_false, decide_false, Bool.false_eq_true, not_false_eq_true,
    List.dropWhile_cons_of_neg, List.takeWhile_cons_of_neg, List.append_nil, List.reverse_reverse,
    if_neg hlast]

/-- Directories, under the root, and files with what is in them, the last written first. -/
structure FileTree (Content : Type*) where
  dirs : List Path
  files : List (Path × Content)

namespace FileTree

variable {Content : Type*}

def isDir (t : FileTree Content) (p : Path) : Bool :=
  p = [] || p ∈ t.dirs

def read (t : FileTree Content) (p : Path) : Option Content :=
  (t.files.find? fun f => f.1 = p).map Prod.snd

def hasFile (t : FileTree Content) (p : Path) : Bool :=
  (t.read p).isSome

def write (t : FileTree Content) (p : Path) (c : Content) : FileTree Content :=
  { t with files := (p, c) :: t.files }

/-- The directories on the way to a path, and the path as one. -/
def withDirs (t : FileTree Content) (p : Path) : FileTree Content :=
  { t with dirs := p.inits ++ t.dirs }

/-- Make a directory and those on the way to it, unless a file is in the way. -/
def makeDirs (t : FileTree Content) (p : Path) : Option (FileTree Content) :=
  if p.inits.any t.hasFile then none else some (t.withDirs p)

/-- What a directory lists. -/
def entries (t : FileTree Content) (dir : Path) : Finset Path :=
  (t.files.map Prod.fst ++ t.dirs).toFinset.filter (·.In dir)

/-- The directory that some names lead to. -/
def enter (t : FileTree Content) : Path → List Text → Option Path
  | dir, [] => some dir
  | dir, name :: names =>
    if name = [] ∨ name = ['.'] then t.enter dir names
    else if name = ['.', '.'] then t.enter dir.dropLast names
    else if t.isDir (dir ++ [name]) then t.enter (dir ++ [name]) names
    else none

/-- Where a file goes that is opened for writing under a name in a directory. -/
def locate (t : FileTree Content) (dir : Path) (name : Text) : Option Path :=
  let parts := name.splitOn '/'
  let last := parts.getLastD []
  if last = [] ∨ last = ['.'] ∨ last = ['.', '.'] then none
  else
    ((t.enter (if name.head? = some '/' then [] else dir) parts.dropLast).map (· ++ [last])).filter
      fun p => !t.isDir p

variable {t : FileTree Content} {p p' dir : Path} {c : Content} {name : Text}

@[simp] theorem dirs_write : (t.write p c).dirs = t.dirs :=
  rfl

@[simp] theorem isDir_write : (t.write p c).isDir p' = t.isDir p' :=
  rfl

@[simp] theorem read_write_self : (t.write p c).read p = some c := by
  simp [read, write]

@[simp] theorem hasFile_withDirs : (t.withDirs p).hasFile p' = t.hasFile p' :=
  rfl

theorem isDir_withDirs_self : (t.withDirs p).isDir p = true := by
  simp [isDir, withDirs]

theorem isDir_withDirs_of_prefix (h : p' <+: p) : (t.withDirs p).isDir p' = true := by
  simp [isDir, withDirs, h]

theorem hasFile_write : (t.write p c).hasFile p' = true ↔ p' = p ∨ t.hasFile p' = true := by
  by_cases hp : p = p'
  · simp [hasFile, read, write, hp]
  · simp [hasFile, read, write, hp, Ne.symm hp]

/-- Where a file goes depends on the directories only, so no write moves one. -/
theorem locate_congr {t' : FileTree Content} (h : t'.dirs = t.dirs) (dir : Path) (name : Text) :
    t'.locate dir name = t.locate dir name := by
  have hdir : ∀ p, t'.isDir p = t.isDir p := fun p => by rw [isDir, isDir, h]
  have henter : ∀ names dir, t'.enter dir names = t.enter dir names := by
    intro names
    induction names with
    | nil => intro dir; rfl
    | cons name names ih =>
      intro dir
      simp only [enter, ih, hdir]
  simp only [locate, henter, hdir]

/-- A file does not go where a directory is. -/
theorem isDir_of_locate (h : t.locate dir name = some p) : t.isDir p = false := by
  simp only [locate] at h
  split at h
  · cases h
  · simpa using (Option.filter_eq_some_iff.mp h).2

theorem makeDirs_eq_some {t' : FileTree Content} :
    t.makeDirs p = some t' ↔ (∀ p' ∈ p.inits, t.hasFile p' = false) ∧ t' = t.withDirs p := by
  rw [makeDirs]
  split
  · next h =>
    obtain ⟨p', hp', hfile⟩ := List.any_eq_true.mp h
    refine iff_of_false nofun fun hnone => ?_
    rw [hnone.1 p' hp'] at hfile
    cases hfile
  · next h =>
    simp only [List.any_eq_true, not_exists, not_and, Bool.not_eq_true] at h
    rw [Option.some.injEq, eq_comm]
    exact (and_iff_right h).symm

theorem mem_entries :
    p ∈ t.entries dir ↔ (p ∈ t.files.map Prod.fst ∨ p ∈ t.dirs) ∧ p.In dir := by
  rw [entries, Finset.mem_filter, List.mem_toFinset, List.mem_append]

/-- **A write** adds an entry to the directory that it goes to. -/
theorem mem_entries_write :
    p' ∈ (t.write p c).entries dir ↔ p' = p ∧ p.In dir ∨ p' ∈ t.entries dir := by
  simp only [mem_entries, write, List.map_cons, List.mem_cons]
  constructor
  · rintro ⟨(rfl | hfile) | hdir, hin⟩
    · exact .inl ⟨rfl, hin⟩
    · exact .inr ⟨.inl hfile, hin⟩
    · exact .inr ⟨.inr hdir, hin⟩
  · rintro (⟨rfl, hin⟩ | ⟨hfile | hdir, hin⟩)
    · exact ⟨.inl (.inl rfl), hin⟩
    · exact ⟨.inl (.inr hfile), hin⟩
    · exact ⟨.inr hdir, hin⟩

/-- A plain name stays in its directory. -/
theorem locate_plain (hslash : '/' ∉ name) (hproper : name ≠ [] ∧ name ≠ ['.'] ∧ name ≠ ['.', '.'])
    (hfree : t.isDir (dir ++ [name]) = false) : t.locate dir name = some (dir ++ [name]) := by
  have hparts : name.splitOn '/' = [name] := List.splitOn_eq_singleton hslash
  have hhead : name.head? ≠ some '/' := fun h => hslash (List.mem_of_head? h)
  simp [locate, hparts, hproper, hhead, enter, hfree]

end FileTree

end Framework

import MiniDB.Core.Text

/-!
# Storage/Disk — the part of the file system the program touches

Directories and files under the paths the program builds for them; two paths are the same file when
they are the same text.  A path can be created when the directory it lies in exists, the working
directory and the root always do, and a directory can be removed when nothing lies in it — unless
the system refuses the path.  A run touches finitely many paths, so those it refuses are a list.
-/

namespace MiniDB.Storage

open MiniDB.Core

structure Disk where
  dirs : List Text := []
  /-- Paths and contents. -/
  files : List (Text × Text) := []
  /-- Paths that are neither opened, made nor removed, for a reason that is not in the tree: a name
  that is too long, a permission that is missing. -/
  refused : List Text := []
  deriving DecidableEq, Repr

namespace Disk

/-- The directory a path lies in; none for the working directory. -/
def parentDir (path : Text) : Option Text :=
  match path.reverse.dropWhile (· != '/') with
  | [] => none
  | _ :: dir => some dir.reverse

/-- A path without the slashes it ends in. -/
def trimmed (path : Text) : Text := (path.reverse.dropWhile (· == '/')).reverse

/-- Whether the directory a path lies in exists. -/
def hasParent (disk : Disk) (path : Text) : Bool :=
  match parentDir path with
  | none => true
  | some dir => (trimmed dir).isEmpty || disk.dirs.contains dir

def hasFile (disk : Disk) (path : Text) : Bool := disk.files.any (·.1 == path)

/-- `mkdir`: whether the directory was made, and the disk after it. -/
def mkdir (disk : Disk) (path : Text) : Bool × Disk :=
  if (trimmed path).isEmpty || disk.dirs.contains path || disk.hasFile path
      || !disk.hasParent (trimmed path) || disk.refused.contains path then
    (false, disk)
  else (true, { disk with dirs := path :: disk.dirs })

/-- `rmdir`: only an empty directory is removed. -/
def rmdir (disk : Disk) (path : Text) : Bool × Disk :=
  if disk.dirs.contains path && !disk.dirs.any (parentDir · == some path)
      && !disk.files.any (parentDir ·.1 == some path) && !disk.refused.contains path then
    (true, { disk with dirs := disk.dirs.filter (· != path) })
  else (false, disk)

/-- `fopen(path, "w")`, the writes and `fclose`. -/
def write (disk : Disk) (path text : Text) : Bool × Disk :=
  if disk.hasParent path && !disk.dirs.contains path && !disk.refused.contains path then
    (true, { disk with files := (path, text) :: disk.files.filter (·.1 != path) })
  else (false, disk)

/-- `fopen(path, "r")` and what it reads. -/
def read (disk : Disk) (path : Text) : Option Text :=
  if disk.refused.contains path then none else (disk.files.find? (·.1 == path)).map Prod.snd

/-- `remove`, of a file. -/
def remove (disk : Disk) (path : Text) : Disk :=
  { disk with files := disk.files.filter (·.1 != path) }

/-- What was written is read. -/
theorem read_write {disk : Disk} {path text : Text} (h : (disk.write path text).1 = true) :
    (disk.write path text).2.read path = some text := by
  rw [write] at h ⊢
  split_ifs at h ⊢ with hw
  have hrefused : disk.refused.contains path = false := by
    simp only [Bool.and_eq_true, Bool.not_eq_true'] at hw
    exact hw.2
  simp only [read, hrefused]
  simp

/-- The directory of a path is shorter than the path. -/
theorem length_parentDir {path dir : Text} (h : parentDir path = some dir) :
    dir.length < path.length := by
  rw [parentDir] at h
  split at h
  · cases h
  · next c rest hrest =>
    cases h
    have hle := (List.dropWhile_suffix (· != '/') (l := path.reverse)).length_le
    rw [hrest, List.length_cons, List.length_reverse] at hle
    rw [List.length_reverse]
    omega

/-- Some disk takes a file: one with its directory. -/
theorem exists_write (path text : Text) : ∃ disk : Disk, (disk.write path text).1 = true := by
  refine ⟨{ dirs := (parentDir path).toList }, ?_⟩
  rw [write, if_pos]
  cases hdir : parentDir path with
  | none => simp [hasParent, hdir]
  | some dir =>
    have hne : path ≠ dir := fun h => absurd (length_parentDir hdir) (by simp [h])
    simp [hasParent, hdir, hne]

end Disk

end MiniDB.Storage

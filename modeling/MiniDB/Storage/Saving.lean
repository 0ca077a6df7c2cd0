import MiniDB.Storage.Slots

/-!
# Storage/Saving — what `save_all` leaves on the disk

Tables are saved one after the other, each into its own file.  A write changes no directory, so
which files can be written is settled before the first one is: `saveTables_iff`.  When all can, each
file holds its table (`saveTables_read`); when the first can, that file is there
(`saveTables_first`), and it lies in the directory of the database (`parentDir_dat`); when it
cannot, nothing is written.
-/

namespace MiniDB.Storage

open MiniDB.Core MiniDB.Parser

namespace Disk

variable {disk : Disk} {path path' text : Text}

/-- Whether a file can be opened for writing: its directory exists, it is no directory, and the
system does not refuse it. -/
def writable (disk : Disk) (path : Text) : Bool :=
  disk.hasParent path && !disk.dirs.contains path && !disk.refused.contains path

theorem write_of_writable (h : disk.writable path = true) (text : Text) : disk.write path text
    = (true, { disk with files := (path, text) :: disk.files.filter (·.1 != path) }) :=
  if_pos h

theorem write_of_not (h : disk.writable path = false) (text : Text) :
    disk.write path text = (false, disk) := by
  rw [write, ← writable, h]
  rfl

/-- A write changes nothing about which files can be written. -/
@[simp]
theorem writable_write (disk : Disk) (path text path' : Text) :
    (disk.write path text).2.writable path' = disk.writable path' := by
  cases h : disk.writable path with
  | true => rw [write_of_writable h]; rfl
  | false => rw [write_of_not h]

/-- A write leaves the other files. -/
theorem read_write_ne (h : path' ≠ path) :
    (disk.write path text).2.read path' = disk.read path' := by
  cases hw : disk.writable path with
  | true =>
    rw [write_of_writable hw]
    have hfirst : (path == path') = false := beq_false_of_ne h.symm
    simp only [read, List.find?_cons, hfirst, List.find?_filter]
    congr 3
    funext f
    by_cases hf : f.1 = path'
    · simp [hf, h]
    · simp [hf]
  | false => rw [write_of_not hw]

theorem hasFile_write (h : disk.writable path = true) (text : Text) :
    (disk.write path text).2.hasFile path = true := by
  rw [write_of_writable h]
  simp [hasFile]

/-- No write makes a file go away. -/
theorem hasFile_write_of_hasFile (h : disk.hasFile path' = true) (path text : Text) :
    (disk.write path text).2.hasFile path' = true := by
  cases hw : disk.writable path with
  | true =>
    by_cases hp : path' = path
    · rw [hp]
      exact hasFile_write hw text
    · rw [write_of_writable hw]
      obtain ⟨f, hf, hpath⟩ := List.any_eq_true.mp h
      refine List.any_eq_true.mpr ⟨f, List.mem_cons_of_mem _ (List.mem_filter.mpr ⟨hf, ?_⟩), hpath⟩
      rw [eq_of_beq hpath]
      simpa using hp
  | false => rwa [write_of_not hw]

end Disk

namespace Database

variable {disk : Disk} {t : Table} {ts : List Table}

/-! ## The tables, one after the other -/

theorem saveTables_cons (h : disk.writable t.dataPath = true) (ts : List Table) :
    saveTables (t :: ts) disk = saveTables ts (disk.write t.dataPath t.fileText).2 := by
  rw [saveTables, Table.saveToFile, Disk.write_of_writable h]

theorem saveTables_cons_of_not (h : disk.writable t.dataPath = false) (ts : List Table) :
    saveTables (t :: ts) disk = (false, disk) := by
  rw [saveTables, Table.saveToFile, Disk.write_of_not h]

/-- **Saving succeeds exactly when every file can be written.** -/
theorem saveTables_iff (ts : List Table) (disk : Disk) :
    (saveTables ts disk).1 = true ↔ ∀ t ∈ ts, disk.writable t.dataPath = true := by
  induction ts generalizing disk with
  | nil => simp [saveTables]
  | cons t ts ih =>
    rw [List.forall_mem_cons]
    cases h : disk.writable t.dataPath with
    | true =>
      rw [saveTables_cons h, ih, and_iff_right rfl]
      simp only [Disk.writable_write]
    | false =>
      rw [saveTables_cons_of_not h]
      simp

theorem saveTables_read_ne {path : Text} (h : ∀ t ∈ ts, t.dataPath ≠ path) (disk : Disk) :
    (saveTables ts disk).2.read path = disk.read path := by
  induction ts generalizing disk with
  | nil => rfl
  | cons t ts ih =>
    obtain ⟨ht, hts⟩ := List.forall_mem_cons.mp h
    cases hw : disk.writable t.dataPath with
    | true => rw [saveTables_cons hw, ih hts, Disk.read_write_ne (Ne.symm ht)]
    | false => rw [saveTables_cons_of_not hw]

/-- **Each file holds its table**, when no two tables share one. -/
theorem saveTables_read (hw : ∀ t ∈ ts, disk.writable t.dataPath = true)
    (hnodup : (ts.map Table.dataPath).Nodup) (ht : t ∈ ts) :
    (saveTables ts disk).2.read t.dataPath = some t.fileText := by
  induction ts generalizing disk with
  | nil => cases ht
  | cons u ts ih =>
    obtain ⟨hu, hts⟩ := List.forall_mem_cons.mp hw
    rw [List.map_cons, List.nodup_cons] at hnodup
    rw [saveTables_cons hu]
    rcases List.mem_cons.mp ht with rfl | ht
    · have hother : ∀ x ∈ ts, x.dataPath ≠ t.dataPath := fun x hx heq =>
        hnodup.1 (List.mem_map.mpr ⟨x, hx, heq⟩)
      rw [saveTables_read_ne hother, Disk.read_write]
      rw [Disk.write_of_writable hu]
    · refine ih (fun x hx => ?_) hnodup.2 ht
      rw [Disk.writable_write]
      exact hts x hx

theorem hasFile_saveTables {path : Text} (h : disk.hasFile path = true) (ts : List Table) :
    (saveTables ts disk).2.hasFile path = true := by
  induction ts generalizing disk with
  | nil => exact h
  | cons t ts ih =>
    cases hw : disk.writable t.dataPath with
    | true =>
      rw [saveTables_cons hw]
      exact ih (Disk.hasFile_write_of_hasFile h _ _)
    | false => rwa [saveTables_cons_of_not hw]

/-- The first table is saved whatever becomes of the others. -/
theorem saveTables_first (h : disk.writable t.dataPath = true) (ts : List Table) :
    (saveTables (t :: ts) disk).2.hasFile t.dataPath = true := by
  rw [saveTables_cons h]
  exact hasFile_saveTables (Disk.hasFile_write h _) ts

end Database

/-! ## The files of a database -/

theorem slash_notMem {n : Text} (h : IsName n) : '/' ∉ n := fun hmem => by
  have := h.2 _ hmem
  revert this
  decide

/-- **The file of a table lies in the directory of its database.** -/
theorem Disk.parentDir_dat {n : Text} (h : IsName n) (dir : Text) :
    parentDir (dir ++ '/' :: (n ++ ".dat".toList)) = some dir := by
  have hrun : ∀ c ∈ (n ++ ".dat".toList).reverse, (c != '/') = true := by
    intro c hc
    rw [List.mem_reverse, List.mem_append] at hc
    rcases hc with hc | hc
    · simpa using fun heq : c = '/' => slash_notMem h (heq ▸ hc)
    · revert hc c
      exact List.all_eq_true.mp (by decide)
  rw [parentDir, List.reverse_append, List.reverse_cons, List.append_assoc,
    List.dropWhile_append_of_pos hrun]
  simp

/-- A directory that `rmdir` removes: nothing lies in it, and the system does not refuse it. -/
def Disk.removable (disk : Disk) (path : Text) : Bool :=
  disk.dirs.contains path && !disk.dirs.any (parentDir · == some path)
    && !disk.files.any (parentDir ·.1 == some path) && !disk.refused.contains path

theorem Disk.rmdir_of_removable {disk : Disk} {path : Text} (h : disk.removable path = true) :
    disk.rmdir path = (true, { disk with dirs := disk.dirs.filter (· != path) }) := if_pos h

theorem Disk.rmdir_of_not {disk : Disk} {path : Text} (h : disk.removable path = false) :
    disk.rmdir path = (false, disk) := by
  rw [rmdir, ← removable, h]
  rfl

/-- **A directory can be removed after tables were saved in it** only if it could be before, and
not even the first of them was written. -/
theorem Database.removable_saveTables {disk : Disk} {t : Table} {dir : Text}
    (ht : Disk.parentDir t.dataPath = some dir) (ts : List Table) :
    (saveTables (t :: ts) disk).2.removable dir = true ↔
      disk.removable dir = true ∧ disk.writable t.dataPath = false := by
  cases hw : disk.writable t.dataPath with
  | true =>
    obtain ⟨f, hf, hpath⟩ := List.any_eq_true.mp (saveTables_first hw ts)
    have hany :
        (saveTables (t :: ts) disk).2.files.any (Disk.parentDir ·.1 == some dir) = true := by
      refine List.any_eq_true.mpr ⟨f, hf, ?_⟩
      rw [eq_of_beq hpath, ht, beq_self_eq_true]
    simp [Disk.removable, hany]
  | false =>
    rw [saveTables_cons_of_not hw]
    exact (and_iff_left rfl).symm

end MiniDB.Storage

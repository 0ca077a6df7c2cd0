import MiniDB.Machinery.Run
import MiniDB.Storage.Slots

/-!
# Storage/DropFiles — which files a drop removes

A table keeps the path it was constructed with, and `drop_table` builds a path anew, from the
directory the database has by then.  Without a directory the constructor still writes the slash, and
`drop_table` does not.

**`drop_files_iff`**: a drop removes the file of its table and no other exactly when the directory
is the one the table was made under, and no other table has a file at a path that is removed.
-/

namespace MiniDB.Storage

open MiniDB.Core Machine

/-- Calls on a database and its tables. -/
inductive FileCall where
  | setDataDir (dir : Text)
  | create (name : Text) (columns : List Column)
  /-- `get_table(name)->save_to_file()`, where there is a table. -/
  | save (name : Text)
  | saveAll
  | drop (name : Text)

namespace Database

def fileStep : Database × Disk → FileCall → Option (Bool × (Database × Disk))
  | (db, disk), .setDataDir dir => some (true, ({ db with dataDir := dir }, disk))
  | (db, disk), .create name columns =>
    let (ok, db) := db.createTable name columns
    some (ok, (db, disk))
  | (db, disk), .save name =>
    match db.getTable name with
    | none => some (false, (db, disk))
    | some i => do
      let table ← db.tables[i]?
      let (ok, disk) := table.saveToFile disk
      return (ok, (db, disk))
  | (db, disk), .saveAll =>
    let (ok, disk) := db.saveAll disk
    some (ok, (db, disk))
  | (db, disk), .drop name => do
    let (ok, db, disk) ← db.dropTable name disk
    return (ok, (db, disk))

/-- The table at position `i` leaves no file, and every other table keeps its own. -/
def CleanDrop (db : Database) (i : Nat) (disk disk' : Disk) : Prop :=
  (∀ t, db.tables[i]? = some t → disk'.hasFile t.dataPath = false) ∧
    ∀ j u, j ≠ i → db.tables[j]? = some u → disk.hasFile u.dataPath = true →
      disk'.hasFile u.dataPath = true

/-- The file of the table, if there is one, lies where a table of its name would be put now. -/
def SamePlace (db : Database) (i : Nat) (disk : Disk) : Prop :=
  ∀ t, db.tables[i]? = some t → disk.hasFile t.dataPath = true →
    db.dataDir ≠ [] ∧ t.dataPath = (Table.inDir t.name db.dataDir).dataPath

/-- No other table has a file at a path that a drop removes. -/
def Unshared (db : Database) (n : Text) (i : Nat) (disk : Disk) : Prop :=
  ∀ j u, j ≠ i → db.tables[j]? = some u → disk.hasFile u.dataPath = true →
    u.dataPath ≠ db.filePath n ".dat" ∧ u.dataPath ≠ db.filePath n ".idx"

/-! ## Paths -/

section Paths

variable {db : Database} {disk : Disk} {n path : Text}

theorem hasFile_remove (disk : Disk) (p q : Text) :
    (disk.remove p).hasFile q = true ↔ disk.hasFile q = true ∧ q ≠ p := by
  simp only [Disk.remove, Disk.hasFile, List.any_eq_true, List.mem_filter, bne_iff_ne, beq_iff_eq]
  constructor
  · rintro ⟨f, ⟨hf, hne⟩, rfl⟩
    exact ⟨⟨f, hf, rfl⟩, hne⟩
  · rintro ⟨⟨f, hf, rfl⟩, hne⟩
    exact ⟨f, ⟨hf, hne⟩, rfl⟩

/-- **What is left of a drop**: every file but two. -/
theorem hasFile_dropFiles : (dropFiles db n disk).hasFile path = true ↔
    disk.hasFile path = true ∧ path ≠ db.filePath n ".dat" ∧ path ≠ db.filePath n ".idx" := by
  rw [dropFiles, hasFile_remove, hasFile_remove, and_assoc]

/-- The path of a drop without a directory is too short for a table's. -/
theorem length_filePath_lt (hdir : db.dataDir = []) (dir : Text) {ext : String}
    (hext : ext.toList.length = 4) :
    (db.filePath n ext).length < (Table.inDir n dir).dataPath.length := by
  have hpath : (Table.inDir n dir).dataPath.length
      = (cString dir).length + 1 + (cString n).length + 4 := by
    simp [Table.inDir]
    omega
  have htake := List.length_take_le' (512 - 1) (cString n ++ ext.toList)
  rw [List.length_append, hext] at htake
  rw [filePath, hdir, List.isEmpty_nil, if_pos rfl, snprintf, hpath]
  omega

/-- **The constructor and the drop agree on a path** when there is a directory, and it is the
same. -/
theorem filePath_eq_iff (dir : Text) :
    ((Table.inDir n dir).dataPath = db.filePath n ".dat" ∨
      (Table.inDir n dir).dataPath = db.filePath n ".idx") ↔
    db.dataDir ≠ [] ∧ (Table.inDir n dir).dataPath = (Table.inDir n db.dataDir).dataPath := by
  by_cases hdir : db.dataDir = []
  · refine iff_of_false ?_ fun h => h.1 hdir
    rintro (h | h)
    · exact absurd (congrArg List.length h) (length_filePath_lt hdir dir rfl).ne'
    · exact absurd (congrArg List.length h) (length_filePath_lt hdir dir rfl).ne'
  · have hdat : db.filePath n ".dat" = (Table.inDir n db.dataDir).dataPath :=
      if_neg (by simpa using hdir)
    have hidx : (Table.inDir n dir).dataPath ≠ db.filePath n ".idx" := by
      intro h
      rw [filePath, if_neg (by simpa using hdir)] at h
      exact absurd (List.append_inj' h rfl).2 (by decide)
    rw [hdat]
    exact ⟨fun h => ⟨hdir, h.resolve_right hidx⟩, fun h => .inl h.2⟩

end Paths

/-! ## Runs -/

section Runs

variable {db db' : Database} {disk disk' : Disk} {n : Text}

/-- The table was made under some directory. -/
def MadeUnder (s : Slot) : Prop :=
  ∃ dir, s.table.dataPath = (Table.inDir s.table.name dir).dataPath

/-- The vectors are views of one list of slots, each made under some directory. -/
def Placed (db : Database) : Prop :=
  ∃ slots, db = ofSlots db.name db.dataDir slots ∧ ∀ s ∈ slots, MadeUnder s

theorem placed_create (h : Placed db) (n : Text) (columns : List Column) :
    Placed (db.createTable n columns).2 := by
  obtain ⟨slots, hdb, hplaced⟩ := id h
  rw [createTable]
  split
  · exact h
  · refine ⟨slots ++ [⟨freshTable n db.dataDir columns, {}⟩], ?_, ?_⟩
    · rw [hdb]
      simp [ofSlots, foldl_addColumn, freshTable, Table.inDir]
    · rw [List.forall_mem_append, List.forall_mem_singleton]
      exact ⟨hplaced, db.dataDir, rfl⟩

/-- A drop takes the first table of the name, or finds none. -/
theorem placed_drop (h : Placed db) (n : Text) (disk : Disk) :
    (db.getTable n = none ∧ db.dropTable n disk = some (false, db, disk)) ∨
      ∃ pre s post, db = ofSlots db.name db.dataDir (pre ++ s :: post) ∧
        (∀ x ∈ pre ++ s :: post, MadeUnder x) ∧ s.table.name = cString n ∧
        db.getTable n = some pre.length ∧ db.dropTable n disk = some (true,
          ofSlots db.name db.dataDir (pre ++ post), dropFiles db n disk) := by
  obtain ⟨slots, hdb, hplaced⟩ := h
  have h0 : '\x00' ∉ cString n := notMem_cString n
  have hdrop : db.dropTable n disk = db.dropTable (cString n) disk := by
    simp only [dropTable, filePath, cString_of_notMem h0]
  have hfiles : dropFiles db n disk = dropFiles db (cString n) disk := by
    simp only [dropFiles, filePath, cString_of_notMem h0]
  have hget : db.getTable n = db.getTable (cString n) := by
    rw [getTable, getTable, cString_of_notMem h0]
  rw [hdrop, hfiles, hget]
  rcases absent_or_split slots (cString n) with habs | ⟨pre, s, post, rfl, hname, hfirst⟩
  · rw [hdb]
    exact .inl ⟨getTable_absent h0 habs, dropTable_absent h0 habs disk⟩
  · refine .inr ⟨pre, s, post, hdb, hplaced, hname, ?_, ?_⟩
    · rw [hdb]
      exact getTable_present h0 hname hfirst
    · rw [hdb]
      exact dropTable_present h0 hname hfirst disk

theorem placed_fileStep {c : FileCall} {ok : Bool} (h : Placed db)
    (hstep : fileStep (db, disk) c = some (ok, (db', disk'))) : Placed db' := by
  cases c with
  | setDataDir dir =>
    cases hstep
    obtain ⟨slots, hdb, hplaced⟩ := h
    exact ⟨slots, by rw [hdb]; rfl, hplaced⟩
  | create n columns =>
    cases hstep
    exact placed_create h n columns
  | save n =>
    rw [fileStep] at hstep
    split at hstep
    · cases hstep
      exact h
    · obtain ⟨t, -, hstep⟩ := Option.bind_eq_some_iff.mp hstep
      cases hstep
      exact h
  | saveAll =>
    cases hstep
    exact h
  | drop n =>
    obtain ⟨⟨ok', db₁, disk₁⟩, hdrop, hpair⟩ := Option.bind_eq_some_iff.mp hstep
    cases hpair
    rcases placed_drop h n disk with ⟨-, hnone⟩ | ⟨pre, s, post, -, hplaced, -, -, hsome⟩
    · cases hnone.symm.trans hdrop
      exact h
    · cases hsome.symm.trans hdrop
      have hsub : (pre ++ post).Sublist (pre ++ s :: post) :=
        (List.Sublist.refl pre).append (List.sublist_cons_self s post)
      exact ⟨pre ++ post, rfl, fun x hx => hplaced x (hsub.subset hx)⟩

/-- **Every database a run reaches is placed.** -/
theorem placed_of_reaches {name : Text} {disk₀ : Disk}
    (h : Reaches fileStep (fun _ _ => True) ({ name }, disk₀) (db, disk)) : Placed db :=
  h.invariant (I := fun s => Placed s.1) ⟨[], rfl, nofun⟩ fun hI _ hstep =>
    placed_fileStep hI hstep

end Runs

/-- **A drop that succeeds removes the file of its table and no other** exactly when that file, if
there is one, lies under the directory the database has now, and no other table has a file at one
of the two paths it removes: in every state that any calls on a fresh database lead to. -/
theorem drop_files_iff {name n : Text} {disk₀ disk disk' : Disk} {db db' : Database}
    (h : Reaches fileStep (fun _ _ => True) ({ name }, disk₀) (db, disk))
    (hdrop : db.dropTable n disk = some (true, db', disk')) :
    ∃ i, db.getTable n = some i ∧
      (CleanDrop db i disk disk' ↔ SamePlace db i disk ∧ Unshared db n i disk) := by
  rcases placed_drop (placed_of_reaches h) n disk with
    ⟨-, hnone⟩ | ⟨pre, s, post, hdb, hplaced, hname, hget, hsome⟩
  · cases hnone.symm.trans hdrop
  cases hsome.symm.trans hdrop
  have htable : db.tables[pre.length]? = some s.table := by
    rw [hdb]
    exact tables_split
  refine ⟨pre.length, hget, and_congr ?_ ?_⟩
  · refine forall₂_congr fun t ht => ?_
    obtain rfl := Option.some.inj (htable.symm.trans ht)
    obtain ⟨dir, hpath⟩ := hplaced s (by simp)
    have hinDir (d : Text) :
        (Table.inDir s.table.name d).dataPath = (Table.inDir n d).dataPath := by
      rw [hname]
      simp only [Table.inDir, cString_of_notMem (notMem_cString n)]
    rw [hinDir, hpath, hinDir, ← filePath_eq_iff, Bool.eq_false_iff, ne_eq, hasFile_dropFiles]
    tauto
  · refine forall₄_congr fun j u hj hu => forall_congr' fun hfile => ?_
    rw [hasFile_dropFiles]
    exact and_iff_right hfile

/-- The state behind one creation and one save, under the directory `d`. -/
theorem drop_files_same :
    let db : Database :=
      { dataDir := ['d'], tableNames := [['t']], tables := [Table.inDir ['t'] ['d']],
        indexes := [{}] }
    CleanDrop db 0 { dirs := [['d']], files := [("d/t.dat".toList, "0\n0\n".toList)] }
      { dirs := [['d']] } := by
  intro db
  have hexec : exec fileStep ({}, { dirs := [['d']] })
      [.setDataDir ['d'], .create ['t'] [], .saveAll] = some ([true, true, true],
          (db, { dirs := [['d']], files := [("d/t.dat".toList, "0\n0\n".toList)] })) := by
    decide +kernel
  have hdrop : db.dropTable ['t']
      { dirs := [['d']], files := [("d/t.dat".toList, "0\n0\n".toList)] }
      = some (true, { dataDir := ['d'] }, { dirs := [['d']] }) := by decide +kernel
  obtain ⟨i, hi, hiff⟩ := drop_files_iff ((run_of_exec hexec).reaches fun _ _ _ => trivial) hdrop
  cases hi
  refine hiff.mpr ⟨fun t ht _ => ?_, fun j u hj hu => ?_⟩
  · cases ht
    exact ⟨List.cons_ne_nil _ _, rfl⟩
  · obtain ⟨j, rfl⟩ := Nat.exists_eq_succ_of_ne_zero hj
    cases hu

/-- **Without a directory the file stays**: a table is saved at `/t.dat`, and its drop removes
`t.dat`. -/
theorem dropped_file_stays :
    (exec fileStep ({}, {}) [.create ['t'] [], .save ['t'], .drop ['t']]).map
        (fun run => (run.1, run.2.2.hasFile (Table.inDir ['t'] []).dataPath))
      = some ([true, true, true], true) := by
  decide +kernel

end Database

end MiniDB.Storage

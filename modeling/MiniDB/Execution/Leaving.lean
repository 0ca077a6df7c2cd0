import MiniDB.Execution.Frame
import MiniDB.Execution.Reachable
import MiniDB.Storage.Saving

/-!
# Execution/Leaving — what becomes of a database that USE or DROP DATABASE leaves

Both save the selected database and let it go, whatever the saving came to.  The tables of the
selected database lie in the directory of its name (`placed_of_reachable`), so whether they can be
saved depends on that directory and on the paths the system refuses, and once one is saved the
directory cannot be removed.

**`use_no_loss_iff`**: USE loses no data exactly when every table of the selected database can be
saved.  **`dropDatabase_iff`**: DROP DATABASE works exactly on a directory that can be removed and
in which no table will be saved, and a failure changes nothing exactly when the database was not the
selected one.
-/

namespace MiniDB.Execution

open MiniDB.Core MiniDB.Parser MiniDB.Storage Executor

/-! ## Where tables lie -/

/-- The selected database and its tables lie where the data root and their names put them. -/
structure Placed (e : Executor) (db : Database) : Prop where
  dataDir : db.dataDir = dbPath e.dataRoot e.currentDbName
  tables : ∀ t ∈ db.tables, t.dataPath = (Table.inDir t.name db.dataDir).dataPath

theorem SlotStep.dataPath {s s' : Slot} {stmt : SQLStatement} (h : SlotStep s stmt s') :
    s'.table.dataPath = s.table.dataPath := by
  cases h <;> rfl

section Placed

variable {e e' : Executor} {stmt : SQLStatement} {r : ExecResult} {name dir : Text}
  {slots slots' : List Slot}

/-- Tables that lie where they lay, or where CREATE TABLE puts them. -/
theorem Placed.holds (h : Placed e (.ofSlots name dir slots)) (hroot : e'.dataRoot = e.dataRoot)
    (hname : e'.currentDbName = e.currentDbName)
    (hslots : ∀ s' ∈ slots', (∃ s ∈ slots, s'.table.name = s.table.name ∧
      s'.table.dataPath = s.table.dataPath) ∨
        s'.table.dataPath = (Table.inDir s'.table.name dir).dataPath) :
    Placed e' (.ofSlots name dir slots') where
  dataDir := by
    rw [hroot, hname]
    exact h.dataDir
  tables t ht := by
    obtain ⟨s', hs', rfl⟩ := List.mem_map.mp ht
    rcases hslots s' hs' with ⟨s, hs, hn, hpath⟩ | hpath
    · rw [hpath, hn]
      exact h.tables _ (List.mem_map_of_mem hs)
    · exact hpath

theorem placed_step (hexec : e.execute stmt = some (r, e')) (hmoves : Moves e stmt e')
    (h : ∀ db, e.currentDb = some db → Placed e db) :
    ∀ db, e'.currentDb = some db → Placed e' db := by
  by_cases huse : stmt.kind = .use
  · rw [execute, huse] at hexec
    cases hexec
    intro db hdb
    cases hdb
    refine ⟨rfl, fun t ht => ?_⟩
    cases ht
  · have hroot := (rooted_execute hexec).dataRoot
    have hkept (hdrop : stmt.kind ≠ .dropDatabase) : e'.currentDbName = e.currentDbName :=
      (tame_execute huse hdrop hexec).name
    intro db hdb
    cases hmoves with
    | same hname hsame =>
      obtain ⟨hdir, htables⟩ := h db (hsame.symm.trans hdb)
      exact ⟨by rw [hroot, hname, hdir], htables⟩
    | deselected _ _ hnone => cases hnone.symm.trans hdb
    | opened hk => exact absurd hk huse
    | created hk hh _ _ _ _ _ _ hh' =>
      cases hdb.symm.trans hh'.db
      refine (h _ hh.db).holds hroot (hkept (by simp [hk])) fun s' hs' => ?_
      rcases List.mem_append.mp hs' with hs' | hs'
      · exact .inl ⟨s', hs', rfl, rfl⟩
      · rw [List.mem_singleton.mp hs']
        exact .inr rfl
    | dropped hk hh _ hh' =>
      cases hdb.symm.trans hh'.db
      refine (h _ hh.db).holds hroot (hkept (by simp [hk])) fun s' hs' => .inl ⟨s', ?_, rfl, rfl⟩
      simp only [List.mem_append, List.mem_cons] at hs' ⊢
      tauto
    | @stepped _ _ pre post s s' hh _ hst hh' =>
      cases hdb.symm.trans hh'.db
      have hdrop : stmt.kind ≠ .dropDatabase := by
        cases hst <;> simp [*]
      refine (h _ hh.db).holds hroot (hkept hdrop) fun x hx => ?_
      rcases List.mem_append.mp hx with hx | hx
      · exact .inl ⟨x, List.mem_append_left _ hx, rfl, rfl⟩
      · rcases List.mem_cons.mp hx with rfl | hx
        · exact .inl ⟨s, by simp, hst.schema.1, hst.dataPath⟩
        · exact .inl ⟨x, List.mem_append_right _ (List.mem_cons_of_mem _ hx), rfl, rfl⟩

/-- **The tables of the selected database lie in its directory**, in every reachable state. -/
theorem placed_of_reachable {db : Database} (he : Reachable e) (hdb : e.currentDb = some db) :
    Placed e db := by
  obtain ⟨root, disk, hreach⟩ := he
  refine (hreach.invariant (I := fun e => e.WellFormed ∧ ∀ db, e.currentDb = some db → Placed e db)
    ⟨new_wellFormed root disk, nofun⟩ ?_).2 db hdb
  rintro e sql r e' ⟨he, hplaced⟩ - hrun
  obtain ⟨stmt, -, hexec, hmoves⟩ := run_moves he hrun
  exact ⟨hmoves.wellFormed he, placed_step hexec hmoves hplaced⟩

end Placed

section Paths

variable {e : Executor} {db : Database} {t : Table}

theorem nul_notMem_dbPath (root n : Text) : '\x00' ∉ dbPath root n := by
  rw [dbPath, List.mem_append, List.mem_cons]
  rintro (h | h | h)
  · exact notMem_cString root h
  · cases h
  · exact notMem_cString n h

/-- The file of a table that lies in its place. -/
theorem Placed.dataPath_eq (h : Placed e db) (ht : t ∈ db.tables) (hn : IsName t.name) :
    t.dataPath = dbPath e.dataRoot e.currentDbName ++ '/' :: (t.name ++ ".dat".toList) := by
  rw [h.tables t ht, h.dataDir, Table.inDir]
  simp only [cString_of_notMem (nul_notMem_dbPath _ _), cString_of_notMem hn.noNul,
    List.append_assoc, List.cons_append]

theorem dbPath_ne_nil (root n : Text) : dbPath root n ≠ [] :=
  List.append_ne_nil_of_right_ne_nil _ (List.cons_ne_nil _ _)

/-- A table of a reachable state: its file lies in the directory of the database. -/
theorem parentDir_of_reachable (he : Reachable e) (hdb : e.currentDb = some db)
    (ht : t ∈ db.tables) :
    Disk.parentDir t.dataPath = some (dbPath e.dataRoot e.currentDbName) := by
  have hplaced := placed_of_reachable he hdb
  obtain ⟨root, disk, hreach⟩ := he
  obtain ⟨s, -, hwf, rfl⟩ := (wellFormed_of_reaches hreach).exists_slot hdb ht
  rw [hplaced.dataPath_eq ht hwf.table.name]
  exact Disk.parentDir_dat hwf.table.name _

/-- No two tables of a reachable state share a file. -/
theorem dataPaths_nodup (he : Reachable e) (hdb : e.currentDb = some db) :
    (db.tables.map Table.dataPath).Nodup := by
  have hplaced := placed_of_reachable he hdb
  obtain ⟨root, disk, hreach⟩ := he
  cases wellFormed_of_reaches hreach with
  | idle _ hnone => cases hnone.symm.trans hdb
  | @holds name dir slots hh hwf =>
    cases hdb.symm.trans hh.db
    have hpath : (slots.map Slot.table).map Table.dataPath = (slots.map (·.table.name)).map
        fun n => dbPath e.dataRoot e.currentDbName ++ '/' :: (n ++ ".dat".toList) := by
      rw [List.map_map, List.map_map]
      refine List.map_congr_left fun s hs => ?_
      exact hplaced.dataPath_eq (List.mem_map_of_mem hs) (hwf.slot s hs).table.name
    change ((slots.map Slot.table).map Table.dataPath).Nodup
    rw [hpath]
    refine hwf.names.map fun n n' heq => ?_
    exact List.append_cancel_right (List.cons.inj (List.append_cancel_left heq)).2

/-- Saving a database of a reachable state is saving its tables. -/
theorem saveAll_of_reachable (he : Reachable e) (hdb : e.currentDb = some db) (disk : Disk) :
    db.saveAll disk = Database.saveTables db.tables disk := by
  have hdir : db.dataDir.isEmpty = false := by
    rw [(placed_of_reachable he hdb).dataDir]
    exact List.isEmpty_eq_false_iff.mpr (dbPath_ne_nil _ _)
  rw [Database.saveAll, hdir]
  rfl

end Paths

/-! ## USE -/

/-- After USE was answered OK, every table of the database that was selected is in its file; and if
one could not be written, it was not answered OK, and nothing happened to them. -/
structure NoLoss (e : Executor) (r : ExecResult) (e' : Executor) : Prop where
  saved : r.status = .ok → ∀ db, e.currentDb = some db → ∀ t ∈ db.tables,
    e'.disk.read t.dataPath = some t.fileText
  reported : ∀ db, e.currentDb = some db →
    (∃ t ∈ db.tables, e.disk.writable t.dataPath = false) →
    r.status = .error ∧ e'.currentDbName = e.currentDbName ∧ e'.currentDb = e.currentDb

/-- **USE loses no data exactly when every table of the selected database can be written.** -/
theorem use_no_loss_iff {e e' : Executor} {stmt : SQLStatement} {r : ExecResult} (he : Reachable e)
    (hk : stmt.kind = .use) (hexec : e.execute stmt = some (r, e')) :
    NoLoss e r e' ↔ ∀ db, e.currentDb = some db → ∀ t ∈ db.tables,
      e.disk.writable t.dataPath = true := by
  rw [execute, hk] at hexec
  constructor
  · intro h db hdb t ht
    by_contra hw
    have hok := ((rooted_use stmt.useStmt) hexec).1
    cases hok.symm.trans (h.reported db hdb ⟨t, ht, by simpa using hw⟩).1
  · intro hw
    refine ⟨fun _ db hdb t ht => ?_, fun db hdb hlost => ?_⟩
    · cases hexec
      simp only [hdb, saveAll_of_reachable he hdb]
      exact Database.saveTables_read (hw db hdb) (dataPaths_nodup he hdb) ht
    · obtain ⟨t, ht, hnot⟩ := hlost
      cases hnot.symm.trans (hw db hdb t ht)

/-- A table in a database that was made. -/
def madeSample : Executor :=
  { dataRoot := "data".toList, currentDbName := ['d']
    currentDb := some (.ofSlots ['d'] "data/d".toList [⟨sampleTable [], {}⟩])
    disk := { dirs := ["data/d".toList, "data".toList] } }

theorem madeSample_reachable : Reachable madeSample := by
  have hexec : (Machine.exec run (new "data".toList {}) ["create database d".toList,
      "use d".toList, "create table t (a int primary)".toList]).map Prod.snd
      = some madeSample := by decide +kernel
  obtain ⟨⟨rs, _⟩, hexec, rfl⟩ := Option.map_eq_some_iff.mp hexec
  exact reachable_of_exec hexec

theorem use_no_loss_sample : ∃ r e',
    madeSample.execute { kind := .use, useStmt := { databaseName := ['b'] } } = some (r, e') ∧
      NoLoss madeSample r e' := by
  obtain ⟨r, e', hexec⟩ : ∃ r e', madeSample.execute
      { kind := .use, useStmt := { databaseName := ['b'] } } = some (r, e') := ⟨_, _, rfl⟩
  refine ⟨r, e', hexec, (use_no_loss_iff madeSample_reachable rfl hexec).mpr fun db hdb t ht => ?_⟩
  cases hdb
  rw [List.mem_singleton.mp ht]
  decide

/-- The tables of a database that was never made are lost. -/
theorem use_loses_table : ∃ e r e', Reachable e ∧ e.run "use b".toList = some (r, e') ∧
    ¬ NoLoss e r e' := by
  let e := sampleState [[.int 1]] [{ key := 1, rowId := 0 }]
  have hrun : (e.run "use b".toList).map (fun out => (out.1.status, out.2.disk))
      = some (.ok, { dirs := ["data".toList] }) := by decide +kernel
  obtain ⟨⟨r, e'⟩, hrun, hout⟩ := Option.map_eq_some_iff.mp hrun
  obtain ⟨hok, hdisk⟩ := Prod.mk.inj hout
  refine ⟨e, r, e', sample_reachable, hrun, fun h => ?_⟩
  have hread := h.saved hok _ rfl _ (List.mem_singleton_self _)
  rw [hdisk] at hread
  cases hread

/-- A file that is refused, though its directory is there: USE answers OK, and the table is gone. -/
example :
    (Machine.exec run (new "data".toList { refused := ["data/d/t.dat".toList] })
      ["create database d".toList, "use d".toList, "create table t (a int)".toList,
        "use b".toList]).map (fun out => (out.1.map ExecResult.status, out.2.disk.files))
      = some ([.ok, .ok, .ok, .ok], []) := by decide +kernel

/-! ## DROP DATABASE -/

/-- DROP DATABASE does what it says. -/
structure Effective (e : Executor) (d : Text) (r : ExecResult) (e' : Executor) : Prop where
  ok : r.status = .ok
  removed : dbPath e.dataRoot d ∉ e'.disk.dirs
  deselected : e.currentDbName = d → e'.currentDbName = [] ∧ e'.currentDb = none

/-- After an error the selected database, with its tables, rows and indexes, and the disk are as
before. -/
def Atomic (e : Executor) (r : ExecResult) (e' : Executor) : Prop :=
  r.status = .error → e'.currentDbName = e.currentDbName ∧ e'.currentDb = e.currentDb ∧
    e'.disk = e.disk

/-- The directory of the database can be removed, and no table will be saved in it: saving stops at
the first table that cannot be written. -/
def Droppable (e : Executor) (d : Text) : Prop :=
  e.disk.removable (dbPath e.dataRoot d) = true ∧
    (e.currentDbName = d → ∀ db, e.currentDb = some db → ∀ t ∈ db.tables.head?,
      e.disk.writable t.dataPath = false)

section Drop

variable {e e₁ e' : Executor} {stmt : SQLStatement} {r : ExecResult} {db : Database} {d : Text}

/-- The end of DROP DATABASE: the directory is removed, or it is not. -/
theorem rmdir_answer (e₁ : Executor) {path msg msg' : Text}
    (hexec : (if !(e₁.disk.rmdir path).1 then
        some (ExecResult.error msg, { e₁ with disk := (e₁.disk.rmdir path).2 })
      else some (ExecResult.ok msg', { e₁ with disk := (e₁.disk.rmdir path).2 })) = some (r, e')) :
    if e₁.disk.removable path then
      r.status = .ok ∧
        e' = { e₁ with disk := { e₁.disk with dirs := e₁.disk.dirs.filter (· != path) } }
    else r.status = .error ∧ e' = e₁ := by
  cases hrem : e₁.disk.removable path with
  | true =>
    rw [Disk.rmdir_of_removable hrem] at hexec
    cases hexec
    exact ⟨rfl, rfl⟩
  | false =>
    rw [Disk.rmdir_of_not hrem] at hexec
    cases hexec
    exact ⟨rfl, rfl⟩

/-- Where the selected database leaves its directory empty. -/
theorem removable_left (he : Reachable e) (hdb : e.currentDb = some db) :
    (db.saveAll e.disk).2.removable (dbPath e.dataRoot e.currentDbName) = true
      ↔ Droppable e e.currentDbName := by
  have hselected : Droppable e e.currentDbName ↔
      e.disk.removable (dbPath e.dataRoot e.currentDbName) = true ∧
        ∀ t ∈ db.tables.head?, e.disk.writable t.dataPath = false := by
    refine and_congr_right fun _ => ⟨fun h => h rfl db hdb, fun h _ db' hdb' => ?_⟩
    cases hdb.symm.trans hdb'
    exact h
  rw [saveAll_of_reachable he hdb, hselected]
  cases htables : db.tables with
  | nil => simp [Database.saveTables]
  | cons t ts =>
    have ht : t ∈ db.tables := htables ▸ List.mem_cons_self
    rw [Database.removable_saveTables (parentDir_of_reachable he hdb ht)]
    simp

/-- **DROP DATABASE works exactly on a directory that can be removed**, with no table that is saved
in it if the database is selected; and it fails without a trace exactly when it is not selected. -/
theorem dropDatabase_iff {sql : Text} (he : Reachable e) (hparse : parse sql = some stmt)
    (hk : stmt.kind = .dropDatabase) (hd : stmt.dropDatabase.databaseName = d)
    (hexec : e.execute stmt = some (r, e')) :
    (Effective e d r e' ↔ Droppable e d) ∧
      (Atomic e r e' ↔ (e.currentDbName = d → Droppable e d)) := by
  have hname := (parse_wellFormed hparse).resolve_right (by simp [hk])
  simp only [SQLStatement.WellFormed, hk, hd] at hname
  rw [execute, hk] at hexec
  by_cases hcur : e.currentDbName = d
  · obtain ⟨root, disk, hreach⟩ := id he
    obtain ⟨db, hdb⟩ : ∃ db, e.currentDb = some db := by
      cases wellFormed_of_reaches hreach with
      | idle hnone _ => exact absurd (hcur.symm.trans hnone) hname.1
      | holds hh _ => exact ⟨_, hh.db⟩
    simp only [execDropDatabase, hd, cString_of_notMem hname.noNul, hcur, beq_self_eq_true, if_true,
      hdb, Option.bind_eq_bind, Option.bind_some] at hexec
    have hleft := rmdir_answer
      { e with disk := (db.saveAll e.disk).2, currentDb := none, currentDbName := [] } hexec
    have hrem := removable_left he hdb
    rw [hcur] at hrem
    split at hleft
    · next h =>
      obtain ⟨hok, rfl⟩ := hleft
      have hdrop := hrem.mp h
      refine ⟨iff_of_true ⟨hok, by simp, fun _ => ⟨rfl, rfl⟩⟩ hdrop, iff_of_true ?_ fun _ => hdrop⟩
      intro herr
      cases hok.symm.trans herr
    · next h =>
      obtain ⟨herr, rfl⟩ := hleft
      have hdrop := mt hrem.mpr h
      refine ⟨iff_of_false (fun h => ?_) hdrop, iff_of_false (fun h => ?_) fun h => hdrop (h hcur)⟩
      · cases h.ok.symm.trans herr
      · cases (h herr).2.1.trans hdb
  · simp only [execDropDatabase, hd, cString_of_notMem hname.noNul, beq_false_of_ne hcur,
      Bool.false_eq_true, if_false, Option.bind_eq_bind, Option.bind_some] at hexec
    have hleft := rmdir_answer e hexec
    split at hleft
    · next h =>
      obtain ⟨hok, rfl⟩ := hleft
      refine ⟨iff_of_true ⟨hok, by simp, fun heq => absurd heq hcur⟩
        ⟨h, fun heq => absurd heq hcur⟩, iff_of_true ?_ fun heq => absurd heq hcur⟩
      intro herr
      cases hok.symm.trans herr
    · next h =>
      obtain ⟨herr, rfl⟩ := hleft
      refine ⟨iff_of_false (fun h => ?_) fun hdrop => h hdrop.1,
        iff_of_true (fun _ => ⟨rfl, rfl, rfl⟩) fun heq => absurd heq hcur⟩
      cases h.ok.symm.trans herr

end Drop

/-- With a first table that is refused nothing is saved, and the directory is removed. -/
example :
    (Machine.exec run (new "data".toList { refused := ["data/d/t.dat".toList] })
      ["create database d".toList, "use d".toList, "create table t (a int)".toList,
        "drop database d".toList]).map (fun out => (out.1.map ExecResult.status, out.2.disk.dirs))
      = some ([.ok, .ok, .ok, .ok], ["data".toList]) := by decide +kernel

/-- A database that was made and not used. -/
theorem drop_unused : ∃ e r e', e.run "drop database d".toList = some (r, e') ∧
    Effective e ['d'] r e' ∧ Atomic e r e' := by
  let e : Executor :=
    { dataRoot := "data".toList, disk := { dirs := ["data/d".toList, "data".toList] } }
  have hexec : (Machine.exec run (new "data".toList {}) ["create database d".toList]).map Prod.snd
      = some e := by decide +kernel
  obtain ⟨⟨rs, _⟩, hexec, rfl⟩ := Option.map_eq_some_iff.mp hexec
  have hparse : parse "drop database d".toList = some
      { kind := .dropDatabase, dropDatabase := { databaseName := ['d'] } } := by decide +kernel
  obtain ⟨r, e', hdrop⟩ : ∃ r e', e.execute
      { kind := .dropDatabase, dropDatabase := { databaseName := ['d'] } } = some (r, e') :=
    ⟨_, _, rfl⟩
  have hiff := dropDatabase_iff (reachable_of_exec hexec) hparse rfl rfl hdrop
  exact ⟨e, r, e', (run_of_parse hparse).trans hdrop, hiff.1.mpr ⟨by decide, nofun⟩,
    hiff.2.mpr nofun⟩

/-- The selected database is deselected, and its directory is left with the file of its table. -/
theorem drop_selected_fails : ∃ r e', Reachable madeSample ∧
    madeSample.run "drop database d".toList = some (r, e') ∧
    ¬ Effective madeSample ['d'] r e' ∧ ¬ Atomic madeSample r e' := by
  have hrun : (madeSample.run "drop database d".toList).map
      (fun out => (out.1.status, out.2.currentDbName)) = some (.error, []) := by decide +kernel
  obtain ⟨⟨r, e'⟩, hrun, hout⟩ := Option.map_eq_some_iff.mp hrun
  obtain ⟨herr, hname⟩ := Prod.mk.inj hout
  refine ⟨r, e', madeSample_reachable, hrun, fun h => ?_, fun h => ?_⟩
  · cases h.ok.symm.trans herr
  · cases hname.symm.trans (h herr).1

end MiniDB.Execution

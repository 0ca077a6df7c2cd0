import MiniDB.Execution.Relational
import MiniDB.Storage.RoundTrip

/-!
# Execution/Durability — a database is forgotten when it is left

USE and `shutdown` save every table of the selected database, and USE then starts the database it
names without tables: the files are never loaded.  So what a database held is there again after
`USE b; USE a`, or after a restart, exactly when it held nothing (`durable_iff`).

Loading the files would bring back the portable tables only (`roundTrips_iff_of_reachable`), and
not every table that SQL can make is portable: literals of any type and content go into any column.
-/

namespace MiniDB.Execution

open MiniDB.Core MiniDB.Parser MiniDB.Storage Executor

/-! ## Switching and restarting -/

/-- A CREATE DATABASE of that name was answered OK on the way to the state. -/
def Made (n : Text) (e : Executor) : Prop := ∃ root disk e₀ e₁ sql stmt r,
  Machine.Reaches run (fun _ _ => True) (new root disk) e₀ ∧ parse sql = some stmt ∧
  stmt.kind = .createDatabase ∧ stmt.createDatabase.databaseName = n ∧
  e₀.run sql = some (r, e₁) ∧ r.status = .ok ∧ Machine.Reaches run (fun _ _ => True) e₁ e

/-- The statement `USE n`. -/
def useStatement (n : Text) : SQLStatement := { kind := .use, useStmt := { databaseName := n } }

/-- `USE n` is defined, and finds these relations in the database. -/
def Finds (e : Executor) (n : Text) (rs : List Relation) (e' : Executor) : Prop :=
  ∃ r db, e.execute (useStatement n) = some (r, e') ∧ e'.currentDb = some db ∧ relations db = rs

/-- The tables of the selected database are there again after a switch to any database that was made
and back, and after a restart. -/
def Durable (e : Executor) : Prop := ∀ db, e.currentDb = some db →
  (∀ b, Made b e → ∃ rs e₁ e₂, Finds e b rs e₁ ∧ Finds e₁ e.currentDbName (relations db) e₂) ∧
  ∃ e', Finds (new e.dataRoot e.shutdown.disk) e.currentDbName (relations db) e'

/-- **USE finds nothing**, whatever is on the disk. -/
theorem finds_iff {e : Executor} {n : Text} {rs : List Relation} :
    (∃ e', Finds e n rs e') ↔ rs = [] := by
  constructor
  · rintro ⟨e', r, db, hexec, hdb, rfl⟩
    cases hexec
    cases hdb
    rfl
  · rintro rfl
    exact ⟨_, _, _, rfl, rfl, rfl⟩

theorem relations_eq_nil {db : Database} : relations db = [] ↔ db.tables = [] := List.map_eq_nil_iff

/-- A switch to the database itself is enough to lose a table. -/
theorem tables_eq_nil_of_durable {e : Executor} {db : Database} (hdb : e.currentDb = some db)
    (hmade : Made e.currentDbName e) (h : Durable e) : db.tables = [] := by
  obtain ⟨rs, e₁, e₂, -, hback⟩ := (h db hdb).1 _ hmade
  exact relations_eq_nil.mp (finds_iff.mp ⟨e₂, hback⟩)

/-- **Durability holds of empty databases only.** -/
theorem durable_iff {e : Executor} {db : Database} (hdb : e.currentDb = some db)
    (hmade : Made e.currentDbName e) : Durable e ↔ db.tables = [] := by
  refine ⟨tables_eq_nil_of_durable hdb hmade, fun hnil db' hdb' => ?_⟩
  cases hdb.symm.trans hdb'
  have hrs := relations_eq_nil.mpr hnil
  refine ⟨fun b _ => ?_, finds_iff.mpr hrs⟩
  obtain ⟨e₁, hfinds⟩ := (finds_iff (e := e) (n := b)).mpr rfl
  obtain ⟨e₂, hback⟩ := (finds_iff (e := e₁) (n := e.currentDbName)).mpr hrs
  exact ⟨[], e₁, e₂, hfinds, hback⟩

/-- A database that the first statement made, in a run that is computed. -/
theorem made_of_exec {root sql n : Text} {disk : Disk} {stmt : SQLStatement} {r : ExecResult}
    {rs : List ExecResult} {e₁ e : Executor} {sqls : List Text} (hparse : parse sql = some stmt)
    (hk : stmt.kind = .createDatabase) (hn : stmt.createDatabase.databaseName = n)
    (hrun : (new root disk).run sql = some (r, e₁)) (hok : r.status = .ok)
    (hexec : Machine.exec run e₁ sqls = some (rs, e)) : Made n e :=
  ⟨root, disk, _, e₁, sql, stmt, r, .refl, hparse, hk, hn, hrun, hok,
    (Machine.run_of_exec hexec).reaches fun _ _ _ => trivial⟩

/-- The database `d`, made and selected, with these slots. -/
def madeState (slots : List Slot) : Executor :=
  { dataRoot := "data".toList, currentDbName := ['d']
    currentDb := some (.ofSlots ['d'] "data/d".toList slots)
    disk := { dirs := ["data/d".toList, "data".toList] } }

theorem made_sample {sqls : List Text} {slots : List Slot}
    (hexec : (Machine.exec run { new "data".toList {} with
        disk := { dirs := ["data/d".toList, "data".toList] } } sqls).map Prod.snd
      = some (madeState slots)) : Made ['d'] (madeState slots) := by
  obtain ⟨⟨rs, e⟩, hexec, rfl⟩ := Option.map_eq_some_iff.mp hexec
  have hparse : parse "create database d".toList = some
      { kind := .createDatabase, createDatabase := { databaseName := ['d'] } } := by
    decide +kernel
  have hrun : (new "data".toList {}).run "create database d".toList
      = some (.ok "Database 'd' created".toList, { new "data".toList {} with
        disk := { dirs := ["data/d".toList, "data".toList] } }) := by decide +kernel
  exact made_of_exec hparse rfl rfl hrun rfl hexec

theorem durable_sample : Durable (madeState []) :=
  (@durable_iff (madeState []) _ rfl
    (@made_sample ["use d".toList] [] (by decide +kernel))).mpr rfl

/-- A table of a database that was made is lost. -/
theorem table_forgotten : ∃ e, Made e.currentDbName e ∧ ¬ Durable e := by
  let state := madeState [⟨sampleTable [[.int 1]], ⟨[{ key := 1, rowId := 0 }]⟩⟩]
  have hmade : Made state.currentDbName state :=
    @made_sample ["use d".toList, "create table t (a int primary)".toList,
      "insert into t values (1)".toList] _ (by decide +kernel)
  refine ⟨state, hmade, fun h => ?_⟩
  cases tables_eq_nil_of_durable rfl hmade h

/-! ## The files of reachable tables -/

/-- **A table made through SQL survives its file exactly when it is portable.** -/
theorem roundTrips_iff_of_reachable {e : Executor} {db : Database} {t : Table} (he : Reachable e)
    (hdb : e.currentDb = some db) (ht : t ∈ db.tables) : RoundTrips t ↔ t.Portable := by
  obtain ⟨root, disk, hreach⟩ := he
  obtain ⟨s, -, hwf, rfl⟩ := (wellFormed_of_reaches hreach).exists_slot hdb ht
  exact roundTrips_iff hwf.table

/-- Two rows with an int and a string that has white space in it. -/
def portableTable : Table :=
  { name := ['t'], dataPath := "data/d/t.dat".toList
    columns := [{ name := ['a'], type := .int, isPrimary := true },
      { name := ['b'], type := .string }]
    rows := [[.int 1, .string "x y".toList], [.int 2, .string ['z']]] }

theorem roundTrips_sample : RoundTrips portableTable := by
  have hrun : (Machine.exec run (new "data".toList {}) ["use d".toList,
      "create table t (a int primary, b string)".toList,
      "insert into t values (1, \"x y\")".toList, "insert into t values (2, \"z\")".toList]).bind
        (fun r => r.2.currentDb.map Database.tables) = some [portableTable] := by decide +kernel
  obtain ⟨⟨rs, e⟩, hexec, hdb⟩ := Option.bind_eq_some_iff.mp hrun
  obtain ⟨db, hdb, htables⟩ := Option.map_eq_some_iff.mp hdb
  refine (roundTrips_iff_of_reachable (reachable_of_exec hexec) hdb (by simp [htables])).mpr
    { columnCount := by decide
      rowCount := by decide
      cells := fun row hrow => ?_
      columnLines := Scan.fit_of_lt (by decide)
      columnEnds := Or.inr (by decide)
      rowLines := Scan.fit_of_lt (by decide) }
  rcases List.mem_cons.mp hrow with rfl | hrow
  · exact .cons trivial (.cons ⟨by decide, by simp⟩ .nil)
  · obtain rfl := List.mem_singleton.mp hrow
    exact .cons trivial (.cons ⟨by decide, by simp⟩ .nil)

/-- A string with the separator in it comes back short. -/
theorem separator_lost : ∃ e db t, Reachable e ∧ e.currentDb = some db ∧ t ∈ db.tables ∧
    ¬ RoundTrips t := by
  let table : Table :=
    { name := ['t'], dataPath := "data/d/t.dat".toList
      columns := [{ name := ['a'], type := .string }], rows := [[.string "x|y".toList]] }
  have hrun : (Machine.exec run (new "data".toList {}) ["use d".toList,
      "create table t (a string)".toList, "insert into t values (\"x|y\")".toList]).bind
        (fun r => r.2.currentDb.map Database.tables) = some [table] := by decide +kernel
  obtain ⟨⟨rs, e⟩, hexec, hdb⟩ := Option.bind_eq_some_iff.mp hrun
  obtain ⟨db, hdb, htables⟩ := Option.map_eq_some_iff.mp hdb
  refine ⟨e, db, table, reachable_of_exec hexec, hdb, by simp [htables], fun h => ?_⟩
  have hrows := (h { dirs := ["data/d".toList] } (by decide +kernel)).2.2
  exact absurd hrows (by decide +kernel)

end MiniDB.Execution

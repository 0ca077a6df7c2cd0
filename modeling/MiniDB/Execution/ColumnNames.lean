import MiniDB.Execution.Reachable

/-!
# Execution/ColumnNames — a column is found by its name as long as …

A column is selected, filtered on and updated by its name, and `find_column` returns the first of
the name.  The parser refuses a second primary column, and the database a second table of a name,
but nobody looks for a second column of a name.  So every column is found exactly in the runs that
create no table with a repeated column name: `DeclaresOnce`.

**`columns_found_of_reaches`**: every state such a run reaches finds all its columns, and the next
state does exactly when the condition is met once more.
-/

namespace MiniDB.Execution

open MiniDB.Core MiniDB.Parser MiniDB.Storage Executor

/-- Every column of every table is found by its name. -/
def ColumnsFound (e : Executor) : Prop := ∀ db, e.currentDb = some db → ∀ t ∈ db.tables,
  ∀ (i : Nat) (col : Column), t.columns[i]? = some col → t.findColumn col.name = some i

/-- A CREATE TABLE that makes a table declares no column name twice. -/
def DeclaresOnce (e : Executor) (sql : Text) : Prop := ∀ stmt db, parse sql = some stmt →
  stmt.kind = .createTable → e.currentDb = some db →
  db.getTable stmt.createTable.tableName = none →
    (stmt.createTable.columns.map ColumnDef.name).Nodup

/-! ## Found, and distinct -/

section Names

variable {e e' : Executor}

/-- The columns of a table are found exactly when their names are distinct. -/
theorem findColumn_iff {t : Table} (h : ∀ col ∈ t.columns, IsName col.name) :
    (∀ (i : Nat) (col : Column), t.columns[i]? = some col → t.findColumn col.name = some i) ↔
      (t.columns.map Column.name).Nodup := by
  rw [← Selection.findIdx?_key_iff]
  refine forall_congr' fun i => forall_congr' fun col => forall_congr' fun hcol => ?_
  rw [Table.findColumn, cString_of_notMem (h col (List.mem_of_getElem? hcol)).noNul]

theorem columnsFound_iff (he : e.WellFormed) : ColumnsFound e ↔
    ∀ s ∈ e.slots, (s.table.columns.map Column.name).Nodup := by
  constructor
  · intro h s hs
    obtain ⟨name, dir, pre, post, hat⟩ := he.at_of_mem hs
    refine (findColumn_iff hat.slot.table.columnNames).mp (h _ hat.db s.table ?_)
    exact List.mem_of_getElem? Database.tables_split
  · intro h db hdb t ht
    obtain ⟨s, hs, hwf, rfl⟩ := he.exists_slot hdb ht
    exact (findColumn_iff hwf.table.columnNames).mpr (h s hs)

theorem map_columnOf (columns : List ColumnDef) :
    (columns.map columnOf).map Column.name = columns.map ColumnDef.name :=
  List.map_map

/-- **A step that meets the condition leaves distinct names.** -/
theorem nodup_of_moves {stmt : SQLStatement} {sql : Text} (hparse : parse sql = some stmt)
    (hmoves : Moves e stmt e') (hok : DeclaresOnce e sql)
    (h : ∀ s ∈ e.slots, (s.table.columns.map Column.name).Nodup) :
    ∀ s ∈ e'.slots, (s.table.columns.map Column.name).Nodup := by
  cases hmoves with
  | same _ hdb => rwa [Executor.slots, hdb]
  | deselected _ _ hdb => simp [slots_of_none hdb]
  | opened _ hh => simp [hh.slots_eq]
  | created hk hh hn hcols hname habs _ _ hh' =>
    subst hn hcols
    rw [hh.slots_eq] at h
    rw [hh'.slots_eq, List.forall_mem_append, List.forall_mem_singleton]
    refine ⟨h, ?_⟩
    change ((stmt.createTable.columns.map columnOf).map Column.name).Nodup
    rw [map_columnOf]
    exact hok stmt _ hparse hk hh.db (Database.getTable_absent hname.noNul habs)
  | dropped _ hh _ hh' =>
    rw [hh.slots_eq] at h
    rw [hh'.slots_eq]
    exact fun s hs => h s (by simp only [List.mem_append, List.mem_cons] at hs ⊢; tauto)
  | stepped hh _ hst hh' =>
    rw [hh.slots_eq, List.forall_mem_append, List.forall_mem_cons] at h
    rw [hh'.slots_eq, List.forall_mem_append, List.forall_mem_cons, hst.schema.2]
    exact h

/-- **A step that does not meet the condition makes a table with a column that is not found.** -/
theorem declaresOnce_of_nodup (he : e.WellFormed) {sql : Text} {r : ExecResult}
    (hrun : e.run sql = some (r, e'))
    (h : ∀ s ∈ e'.slots, (s.table.columns.map Column.name).Nodup) : DeclaresOnce e sql := by
  intro stmt db hparse hk hdb hnone
  have hwf := (parse_wellFormed hparse).resolve_right (by simp [hk])
  simp only [SQLStatement.WellFormed, hk] at hwf
  cases he with
  | idle _ hidle => cases hidle.symm.trans hdb
  | @holds name dir slots hh _ =>
    cases hh.db.symm.trans hdb
    have habs : Database.Absent slots stmt.createTable.tableName := by
      rcases Database.absent_or_split slots stmt.createTable.tableName with
        habs | ⟨pre, s, post, rfl, hs, hpre⟩
      · exact habs
      · cases (Database.getTable_present hwf.1.noNul hs hpre).symm.trans hnone
    rw [run_of_parse hparse, execute, hk] at hrun
    cases hrun.symm.trans (execCreateTable_absent hh hwf.1.noNul habs)
    have hh' : (e.withSlots name dir (slots ++ [⟨Database.freshTable stmt.createTable.tableName dir
        (stmt.createTable.columns.map columnOf), {}⟩])).Holds name dir _ := ⟨hh.selected, rfl⟩
    rw [hh'.slots_eq] at h
    have hnodup := h _ (List.mem_append_right _ (List.mem_singleton_self _))
    exact map_columnOf stmt.createTable.columns ▸ hnodup

end Names

/-- **Columns are found by their names** in every run that creates no table with a repeated column
name; and a statement keeps it so exactly when it creates no such table. -/
theorem columns_found_of_reaches {root : Text} {disk : Disk} {e : Executor}
    (h : Machine.Reaches run DeclaresOnce (new root disk) e) :
    ColumnsFound e ∧ ∀ sql r e', e.run sql = some (r, e') →
      (ColumnsFound e' ↔ DeclaresOnce e sql) := by
  have he := wellFormed_of_reaches h
  have hnodup : ∀ s ∈ e.slots, (s.table.columns.map Column.name).Nodup := by
    have hnone : (new root disk).slots = [] := rfl
    refine (h.invariant (I := fun e => e.WellFormed ∧
      ∀ s ∈ e.slots, (s.table.columns.map Column.name).Nodup)
      ⟨new_wellFormed root disk, by simp [hnone]⟩ ?_).2
    rintro e sql r e' ⟨he, hI⟩ hok hrun
    obtain ⟨stmt, hparse, -, hmoves⟩ := run_moves he hrun
    exact ⟨hmoves.wellFormed he, nodup_of_moves hparse hmoves hok hI⟩
  refine ⟨(columnsFound_iff he).mpr hnodup, fun sql r e' hrun => ?_⟩
  obtain ⟨stmt, hparse, -, hmoves⟩ := run_moves he hrun
  rw [columnsFound_iff (hmoves.wellFormed he)]
  exact ⟨declaresOnce_of_nodup he hrun, fun hok => nodup_of_moves hparse hmoves hok hnodup⟩

theorem declaresOnce_of_parse {e : Executor} {sql : Text} {stmt : SQLStatement}
    (hparse : parse sql = some stmt)
    (h : (stmt.createTable.columns.map ColumnDef.name).Nodup) : DeclaresOnce e sql := by
  intro stmt' _ hparse' _ _ _
  cases hparse.symm.trans hparse'
  exact h

/-- The database `d` with a table of two columns. -/
theorem columns_found_two : ColumnsFound { sampleUsed with
    currentDb := some (.ofSlots ['d'] "data/d".toList [⟨Database.freshTable ['t'] "data/d".toList
      [{ name := ['a'], isPrimary := true }, { name := ['b'], type := .string }], {}⟩]) } := by
  have huse : run (new "data".toList {}) "use d".toList
      = some (.ok "Using database 'd'".toList, sampleUsed) := by decide +kernel
  have hcreate : run sampleUsed "create table t (a int primary, b string)".toList
      = some (.ok "Table 't' created".toList, { sampleUsed with
          currentDb := some (.ofSlots ['d'] "data/d".toList [⟨Database.freshTable ['t']
            "data/d".toList
            [{ name := ['a'], isPrimary := true }, { name := ['b'], type := .string }],
            {}⟩]) }) := by
    decide +kernel
  have hparse : parse "use d".toList
      = some { kind := .use, useStmt := { databaseName := ['d'] } } := by decide +kernel
  have hparse' : parse "create table t (a int primary, b string)".toList
      = some { kind := .createTable, createTable := { tableName := ['t'], columns :=
          [{ name := ['a'], type := "int".toList, isPrimary := true },
           { name := ['b'], type := "string".toList }] } } := by decide +kernel
  exact (columns_found_of_reaches ((Machine.Reaches.refl.step
    (declaresOnce_of_parse hparse List.nodup_nil) huse).step
    (declaresOnce_of_parse hparse' (by decide)) hcreate)).1

/-- The second column `a` is not found. -/
theorem column_not_found : ∃ e, Reachable e ∧ ¬ ColumnsFound e := by
  let table : Table := Database.freshTable ['t'] "data/d".toList
    [{ name := ['a'] }, { name := ['a'], type := .string }]
  have hrun : (Machine.exec run (new "data".toList {}) ["use d".toList,
      "create table t (a int, a string)".toList]).bind
        (fun r => r.2.currentDb.map Database.tables) = some [table] := by decide +kernel
  obtain ⟨⟨rs, e⟩, hexec, hdb⟩ := Option.bind_eq_some_iff.mp hrun
  obtain ⟨db, hdb, htables⟩ := Option.map_eq_some_iff.mp hdb
  refine ⟨e, reachable_of_exec hexec, fun h => ?_⟩
  have hfound := h db hdb table (by simp [htables]) 1 { name := ['a'], type := .string } rfl
  cases hfound

end MiniDB.Execution

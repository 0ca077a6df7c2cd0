import MiniDB.Execution.LiveKeys

/-!
# Execution/Duplicates — int keys are refused exactly when they are taken

From the CREATE TABLE of a table with a primary key on, as long as only ints are inserted as keys
and no UPDATE sets one, the index is the set of the keys of the rows.  That joins the two halves of
it, `UniqueSlot` and `LiveSlot`, whose conditions such steps meet.

**`duplicates_exact_of_reaches`**: along every such run the keys are distinct, the index holds
exactly them, and INSERT answers a duplicate key exactly when a row has it.
-/

namespace MiniDB.Execution

open MiniDB.Core MiniDB.Parser MiniDB.Storage Executor

/-- The rows have distinct int keys, and the index holds exactly these. -/
structure ExactKeys (t : Table) (idx : Index) (c : Nat) : Prop where
  ints : ∀ row ∈ t.rows, ∃ k, keyCell c row = some (.int k)
  distinct : (t.rows.map (keyCell c)).Nodup
  keys : ∀ k, k ∈ idx.keys ↔ ∃ row ∈ t.rows, keyCell c row = some (.int k)

/-- The table `n` is there with a primary key, its index is exact, and an INSERT of the right arity
answers a duplicate key exactly when a row has its key. -/
def DuplicatesExact (n : Text) (e : Executor) : Prop :=
  ∃ db i t idx c, e.currentDb = some db ∧ db.getTable n = some i ∧ db.tables[i]? = some t ∧
    db.indexes[i]? = some idx ∧ t.primaryKeyIndex = some c ∧ ExactKeys t idx c ∧
    ∀ sql stmt, parse sql = some stmt → stmt.kind = .insert → stmt.insertStmt.tableName = n →
      stmt.insertStmt.values.length = t.columns.length →
      ∃ r e', e.run sql = some (r, e') ∧
        ((∃ k, keyCell c (insertedRow stmt.insertStmt) = some (.int k) ∧ r = duplicateKey k) ↔
          ∃ row ∈ t.rows, keyCell c row = keyCell c (insertedRow stmt.insertStmt))

/-- INSERT has an int literal for the key; UPDATE sets another column. -/
structure IntStep (stmt : SQLStatement) (s : Slot) : Prop where
  insert : ∀ {c}, stmt.kind = .insert → s.table.primaryKeyIndex = some c →
    stmt.insertStmt.values.length = s.table.columns.length →
    stmt.insertStmt.isInt[c]? = some true
  update : ∀ {c}, stmt.kind = .update → s.table.primaryKeyIndex = some c →
    s.table.findColumn stmt.updateStmt.setColumn ≠ some c

/-- The statements after the CREATE TABLE: INSERT, DELETE, SELECT and UPDATE, those on the table `n`
as `IntStep` has it. -/
def KeepsInts (n : Text) (e : Executor) (sql : Text) : Prop := ∀ stmt, parse sql = some stmt →
  stmt.kind ∈ [.insert, .delete, .select, .update] ∧
    ∀ s ∈ e.slots, s.table.name = target stmt → target stmt = n → IntStep stmt s

/-- The invariant: unique, live and int keys. -/
structure IntSlot (s : Slot) : Prop where
  unique : UniqueSlot s
  live : LiveSlot s
  ints : ∀ c, s.table.primaryKeyIndex = some c →
    ∀ row ∈ s.table.rows, ∃ k, keyCell c row = some (.int k)

theorem IntStep.keyCell {stmt : SQLStatement} {s : Slot} (h : IntStep stmt s) {c : Nat}
    (hk : stmt.kind = .insert) (hc : s.table.primaryKeyIndex = some c)
    (hlen : stmt.insertStmt.values.length = s.table.columns.length) :
    ∃ k, keyCell c (insertedRow stmt.insertStmt) = some (.int k) := by
  have hlt : c < stmt.insertStmt.values.length := hlen ▸ Table.primaryKeyIndex_lt hc
  refine ⟨atoi (cString stmt.insertStmt.values[c]), ?_⟩
  have hzip : (stmt.insertStmt.values.zip stmt.insertStmt.isInt)[c]?
      = some (stmt.insertStmt.values[c], true) :=
    List.getElem?_zip_eq_some.mpr ⟨List.getElem?_eq_getElem hlt, h.insert hk hc hlen⟩
  rw [Execution.keyCell, insertedRow, List.getElem?_map, hzip]
  rfl

theorem IntStep.uniqueStep {stmt : SQLStatement} {s : Slot} (h : IntStep stmt s) :
    UniqueStep stmt s where
  insert hk hc hlen htext := by
    obtain ⟨k, hint⟩ := h.keyCell hk hc hlen
    cases hint.symm.trans htext
  update hk hc hcol _ := absurd hcol (h.update hk hc)

theorem IntStep.liveStep {stmt : SQLStatement} {s : Slot} (h : IntStep stmt s) :
    LiveStep stmt s where
  insert hk hc hlen htext := by
    obtain ⟨k, hint⟩ := h.keyCell hk hc hlen
    cases hint.symm.trans htext
  update hk hc hcol _ _ _ _ _ := absurd hcol (h.update hk hc)

/-- **A step on int keys that sets none keeps all three.** -/
theorem IntSlot.step {s s' : Slot} {stmt : SQLStatement} (hs : s.WellFormed) (h : IntSlot s)
    (hok : IntStep stmt s) (hst : SlotStep s stmt s') : IntSlot s' := by
  refine ⟨h.unique.step hs hok.uniqueStep hst, h.live.step hs hok.liveStep hst, ?_⟩
  intro c hc row hrow
  cases hst with
  | insert hk hlen _ _ _ _ =>
    rcases List.mem_append.mp hrow with hrow | hrow
    · exact h.ints c hc row hrow
    · exact List.mem_singleton.mp hrow ▸ hok.keyCell hk hc hlen
  | delete _ _ _ _ => exact h.ints c hc row (List.mem_of_mem_filter hrow)
  | @update sel setCol _ hk _ hcol _ _ _ =>
    obtain ⟨old, hold, rfl⟩ := List.mem_map.mp hrow
    have hne : setCol ≠ c := fun heq => hok.update hk hc (heq ▸ hcol)
    rw [keyCell_updateRow_ne hne]
    exact h.ints c hc old hold

theorem intSlot_fresh (n dir : Text) (columns : List Column) :
    IntSlot ⟨Database.freshTable n dir columns, {}⟩ :=
  ⟨uniqueSlot_fresh n dir columns, liveSlot_fresh n dir columns, fun _ _ _ h => nomatch h⟩

theorem IntSlot.exactKeys {s : Slot} (h : IntSlot s) {c : Nat}
    (hc : s.table.primaryKeyIndex = some c) : ExactKeys s.table s.index c where
  ints := h.ints c hc
  distinct := h.unique.nodup c hc
  keys k := by
    rw [← Index.isSome_rowOf]
    constructor
    · intro hsome
      obtain ⟨row, hrow, hkey⟩ := h.live k hsome
      exact ⟨row, hrow, intKey_eq_some.mp (hc ▸ hkey)⟩
    · rintro ⟨row, hrow, hcell⟩
      exact h.unique.indexed k (mem_keysOf.mpr ⟨row, hrow, hc ▸ intKey_eq_some.mpr hcell⟩)

/-- The index knows a key exactly when a row has it. -/
theorem IntSlot.taken_iff {s : Slot} (h : IntSlot s) {c : Nat}
    (hc : s.table.primaryKeyIndex = some c) (new : Row) :
    taken s.index s.table.primaryKeyIndex new = true
      ↔ ∃ row ∈ s.table.rows, keyCell c row = keyCell c new := by
  have hkeys := (h.exactKeys hc).keys
  rw [taken, Option.any_eq_true]
  constructor
  · rintro ⟨k, hnew, hsome⟩
    obtain ⟨row, hrow, hcell⟩ := (hkeys k).mp (Index.isSome_rowOf.mp hsome)
    exact ⟨row, hrow, hcell.trans (intKey_eq_some.mp (hc ▸ hnew)).symm⟩
  · rintro ⟨row, hrow, hcell⟩
    obtain ⟨k, hk⟩ := h.ints c hc row hrow
    refine ⟨k, hc ▸ intKey_eq_some.mpr (hcell.symm.trans hk), ?_⟩
    exact Index.isSome_rowOf.mpr ((hkeys k).mpr ⟨row, hrow, hk⟩)

/-! ## Runs -/

/-- The table `n` is there with a primary key, and its slot meets the invariant. -/
def HasIntSlot (n : Text) (e : Executor) : Prop := e.WellFormed ∧
  ∃ s ∈ e.slots, s.table.name = n ∧ s.table.primaryKeyIndex.isSome ∧ IntSlot s

theorem HasIntSlot.step {n sql : Text} {e e' : Executor} {r : ExecResult} (h : HasIntSlot n e)
    (hok : KeepsInts n e sql) (hrun : e.run sql = some (r, e')) : HasIntSlot n e' := by
  obtain ⟨he, s, hs, hname, hkey, hint⟩ := h
  obtain ⟨stmt, hparse, -, hmoves⟩ := run_moves he hrun
  obtain ⟨hkind, hguard⟩ := hok stmt hparse
  refine ⟨hmoves.wellFormed he, ?_⟩
  cases hmoves with
  | same _ hdb => exact ⟨s, by rwa [Executor.slots, hdb], hname, hkey, hint⟩
  | deselected hk _ _ => simp [hk] at hkind
  | opened hk _ => simp [hk] at hkind
  | created hk _ _ _ _ _ _ _ _ => simp [hk] at hkind
  | dropped hk _ _ _ => simp [hk] at hkind
  | @stepped _ _ pre post s₀ s' hh htarget hst hh' =>
    rw [hh'.slots_eq]
    have hs₀ : s₀ ∈ e.slots := by simp [hh.slots_eq]
    rw [hh.slots_eq] at hs
    rcases List.mem_append.mp hs with hs | hs
    · exact ⟨s, List.mem_append_left _ hs, hname, hkey, hint⟩
    · rcases List.mem_cons.mp hs with rfl | hs
      · refine ⟨s', by simp, hst.schema.1.trans hname, ?_, ?_⟩
        · rwa [Table.primaryKeyIndex, hst.schema.2]
        · exact hint.step ((he.slots hh).slot s (by simp))
            (hguard s hs₀ htarget (htarget.symm.trans hname)) hst
      · exact ⟨s, List.mem_append_right _ (List.mem_cons_of_mem _ hs), hname, hkey, hint⟩

theorem HasIntSlot.duplicatesExact {n : Text} {e : Executor} (h : HasIntSlot n e) :
    DuplicatesExact n e := by
  obtain ⟨he, s, hs, rfl, hkey, hint⟩ := h
  obtain ⟨c, hc⟩ := Option.isSome_iff_exists.mp hkey
  obtain ⟨name, dir, pre, post, hat⟩ := he.at_of_mem hs
  refine ⟨_, pre.length, s.table, s.index, c, hat.db,
    Database.getTable_present hat.clean hat.name hat.first, Database.tables_split,
    Database.indexes_split, hc, hint.exactKeys hc, fun sql stmt hparse hk hn hlen => ?_⟩
  have hstmt := (parse_wellFormed hparse).resolve_right (by simp [hk])
  simp only [SQLStatement.WellFormed, hk] at hstmt
  obtain ⟨-, -, hvals, hlit⟩ := hstmt
  have hrun : e.run sql = e.execInsert stmt.insertStmt := by rw [run_of_parse hparse, execute, hk]
  have hfits := insertedRow_fits hvals hlit hlen
  have htaken := hint.taken_iff hc (insertedRow stmt.insertStmt)
  rw [← hn] at hat
  rw [hrun, ← htaken]
  cases hfree : taken s.index s.table.primaryKeyIndex (insertedRow stmt.insertStmt) with
  | true =>
    refine ⟨_, _, execInsert_taken hat hlen hvals hfits hfree, iff_of_true ?_ rfl⟩
    obtain ⟨k, hnew, -⟩ := (Option.any_eq_true _ _).mp hfree
    exact ⟨k, intKey_eq_some.mp (hc ▸ hnew), congrArg duplicateKey (entryKey_of_intKey hnew)⟩
  | false =>
    obtain ⟨idx', hexec, -, -⟩ := execInsert_done hat hlen hvals hfits hfree
    refine ⟨_, _, hexec, iff_of_false ?_ (by simp)⟩
    rintro ⟨_, _, hr⟩
    cases congrArg ExecResult.status hr

/-- A CREATE TABLE that is answered OK leaves a fresh table of the name. -/
theorem hasIntSlot_of_created {sql : Text} {stmt : SQLStatement} {e e' : Executor} {r : ExecResult}
    (he : e.WellFormed) (hparse : parse sql = some stmt) (hk : stmt.kind = .createTable)
    (hkey : ∃ col ∈ stmt.createTable.columns, col.isPrimary = true)
    (hrun : e.run sql = some (r, e')) (hok : r.status = .ok) :
    HasIntSlot stmt.createTable.tableName e' := by
  obtain ⟨stmt', hparse', hexec, hmoves⟩ := run_moves he hrun
  cases hparse.symm.trans hparse'
  refine ⟨hmoves.wellFormed he, ?_⟩
  have hstmt := (parse_wellFormed hparse).resolve_right (by simp [hk])
  simp only [SQLStatement.WellFormed, hk] at hstmt
  have hcreate : e.execCreateTable stmt.createTable = some (r, e') := by
    rwa [execute, hk] at hexec
  cases he with
  | idle hname _ =>
    -- without a database the answer is an error
    rw [execCreateTable, withDb, if_pos (by simp [hname])] at hcreate
    cases hcreate
    cases hok
  | @holds name dir slots hh hwf =>
    rcases Database.absent_or_split slots stmt.createTable.tableName with
      habs | ⟨pre, s, post, rfl, hs, hfirst⟩
    · rw [execCreateTable_absent hh hstmt.1.noNul habs] at hcreate
      cases hcreate
      have hh' : Executor.Holds { e with currentDb := some (.ofSlots name dir (slots ++
          [⟨Database.freshTable stmt.createTable.tableName dir
            (stmt.createTable.columns.map columnOf), {}⟩])) } name dir _ := ⟨hh.selected, rfl⟩
      refine ⟨_, hh'.slots_eq ▸ List.mem_append_right _ (List.mem_singleton_self _), rfl, ?_,
        intSlot_fresh ..⟩
      obtain ⟨col, hcol, hprimary⟩ := hkey
      rw [Table.primaryKeyIndex, List.findIdx?_isSome, List.any_eq_true]
      exact ⟨columnOf col, List.mem_map_of_mem hcol, hprimary⟩
    · rw [execCreateTable_present hh hstmt.1.noNul hs hfirst] at hcreate
      cases hcreate
      cases hok

/-- **Int keys that are never set are refused exactly when they are taken**: after a CREATE TABLE
with a primary key, in every state that INSERTs of int keys, DELETEs, SELECTs and UPDATEs of other
columns reach, while tables stay below 2³¹ rows. -/
theorem duplicates_exact_of_reaches {e₀ e₁ e : Executor} {sql : Text} {stmt : SQLStatement}
    {r : ExecResult} (he : Reachable e₀) (hparse : parse sql = some stmt)
    (hk : stmt.kind = .createTable)
    (hkey : ∃ col ∈ stmt.createTable.columns, col.isPrimary = true)
    (hrun : e₀.run sql = some (r, e₁)) (hok : r.status = .ok)
    (h : Machine.Reaches run (KeepsInts stmt.createTable.tableName) e₁ e) :
    DuplicatesExact stmt.createTable.tableName e := by
  obtain ⟨root, disk, hreach⟩ := he
  have hstart := hasIntSlot_of_created (wellFormed_of_reaches hreach) hparse hk hkey hrun hok
  exact (h.invariant hstart HasIntSlot.step).duplicatesExact

/-- Two keys are inserted, and the first is deleted. -/
theorem duplicates_exact_sample :
    DuplicatesExact ['t'] (sampleState [[.int 2]] [{ key := 2, rowId := 1 }]) := by
  have huse : (Machine.exec run (new "data".toList {}) ["use d".toList]).map Prod.snd
      = some sampleUsed := by decide +kernel
  obtain ⟨⟨rs, _⟩, huse, rfl⟩ := Option.map_eq_some_iff.mp huse
  have hparse : parse "create table t (a int primary)".toList = some
      { kind := .createTable
        createTable :=
          { tableName := ['t']
            columns := [{ name := ['a'], type := "int".toList, isPrimary := true }] } } := by
    decide +kernel
  have hcreate : run sampleUsed "create table t (a int primary)".toList
      = some (.ok "Table 't' created".toList, sampleState [] []) := by decide +kernel
  have hone : run (sampleState [] []) "insert into t values (1)".toList
      = some (.ok "1 row inserted".toList, sampleState [[.int 1]] [{ key := 1, rowId := 0 }]) := by
    decide +kernel
  have htwo : run (sampleState [[.int 1]] [{ key := 1, rowId := 0 }])
      "insert into t values (2)".toList = some (.ok "1 row inserted".toList, sampleTwo) := by
    decide +kernel
  have hdelete : run sampleTwo "delete from t where a = 1".toList
      = some (.ok "1 row(s) deleted".toList,
          sampleState [[.int 2]] [{ key := 2, rowId := 1 }]) := by
    decide +kernel
  have hinserts {rows : List Row} {entries : List Entry} {sql : Text} {stmt : SQLStatement}
      (hparse : parse sql = some stmt) (hk : stmt.kind = .insert)
      (hint : stmt.insertStmt.isInt = [true]) : KeepsInts ['t'] (sampleState rows entries) sql := by
    intro stmt' hparse'
    cases hparse.symm.trans hparse'
    refine ⟨by simp [hk], fun s hs _ _ => ?_⟩
    obtain rfl := List.mem_singleton.mp hs
    refine ⟨fun _ hc _ => ?_, fun hk' => by cases hk.symm.trans hk'⟩
    cases hc
    rw [hint]
    rfl
  have hpasses : parse "delete from t where a = 1".toList = some
      { deleteTwo with
        deleteStmt :=
          { deleteTwo.deleteStmt with
            cond :=
              { column := ['a'], op := ['='], constValue := ['1'], isIntLiteral := true } } } := by
    decide +kernel
  refine duplicates_exact_of_reaches (reachable_of_exec huse) hparse rfl
    ⟨_, List.mem_singleton_self _, rfl⟩ hcreate rfl
    (((Machine.Reaches.refl.step ?_ hone).step ?_ htwo).step (fun stmt h => ?_) hdelete)
  · exact @hinserts _ _ _ insertOne (by decide +kernel) rfl rfl
  · exact @hinserts _ _ _ insertTwo (by decide +kernel) rfl rfl
  · cases hpasses.symm.trans h
    exact ⟨by decide, fun s _ _ _ => ⟨nofun, nofun⟩⟩

end MiniDB.Execution

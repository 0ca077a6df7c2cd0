import MiniDB.Execution.Handlers
import MiniDB.Machinery.Run

/-!
# Execution/Reachable — what one statement can do, and what holds in every reachable state

`Executor.Moves` lists what a statement can do to the tables, guards included: nothing, deselect or
select a database, create or drop a table, or step one slot (`SlotStep`, by INSERT, DELETE or
UPDATE).  In a well-formed state every statement the parser returns is defined and is one of these
(`execute_moves`), and well-formedness is kept.  As everywhere, tables stay below 2³¹ rows, where
the source's `int` row numbers are exact.

**`slots_invariant`** is the rule every invariant of tables is proved by: what holds of a fresh
slot, and is kept by each guarded step of a slot, holds of every slot of every state that guarded
statements reach.
-/

namespace MiniDB.Execution

open MiniDB.Core MiniDB.Parser MiniDB.Storage Executor

/-- What a statement can do to the table it names and its index. -/
inductive SlotStep (s : Slot) (stmt : SQLStatement) : Slot → Prop
  | insert {idx' : Index} : stmt.kind = .insert →
      stmt.insertStmt.values.length = s.table.columns.length →
      Row.Fits (insertedRow stmt.insertStmt) s.table.columns →
      taken s.index s.table.primaryKeyIndex (insertedRow stmt.insertStmt) = false →
      idx'.Sorted →
      (∀ k, idx'.rowOf k = if s.table.primaryKeyIndex.isSome ∧
          k = entryKey s.table.primaryKeyIndex (insertedRow stmt.insertStmt)
        then some (s.table.rows.length : Int) else s.index.rowOf k) →
      SlotStep s stmt ⟨s.table.insertRow (insertedRow stmt.insertStmt), idx'⟩
  | delete {sel : Row → Bool} {idx' : Index} : stmt.kind = .delete →
      sel = selects stmt.deleteStmt.hasWhere stmt.deleteStmt.cond s.table →
      idx'.Sorted →
      (∀ k, idx'.rowOf k =
        if k ∈ keysOf s.table.primaryKeyIndex (s.table.rows.filter sel) then none
        else s.index.rowOf k) →
      SlotStep s stmt ⟨withoutRows s.table sel, idx'⟩
  | update {sel : Row → Bool} {setCol : Nat} {idx' : Index} : stmt.kind = .update →
      sel = selects stmt.updateStmt.hasWhere stmt.updateStmt.cond s.table →
      s.table.findColumn stmt.updateStmt.setColumn = some setCol →
      (newValue stmt.updateStmt).Stored →
      idx'.Sorted →
      (∀ k, idx'.rowOf k =
        if rewrites (some setCol == s.table.primaryKeyIndex) (newValue stmt.updateStmt) k then
          ((lastPos sel 0 s.table.rows).map Nat.cast).or (s.index.rowOf k)
        else s.index.rowOf k) →
      SlotStep s stmt ⟨withCells s.table sel setCol (newValue stmt.updateStmt), idx'⟩

/-- A step keeps the name and the columns of the table. -/
theorem SlotStep.schema {s s' : Slot} {stmt : SQLStatement} (h : SlotStep s stmt s') :
    s'.table.name = s.table.name ∧ s'.table.columns = s.table.columns := by
  cases h <;> exact ⟨rfl, rfl⟩

theorem SlotStep.wellFormed {s s' : Slot} {stmt : SQLStatement} (h : SlotStep s stmt s')
    (hs : s.WellFormed) : s'.WellFormed := by
  have build {rows : List Row} (hrows : ∀ row ∈ rows, Row.Fits row s.table.columns) :
      Table.WellFormed { s.table with rows } :=
    ⟨hs.table.name, hs.table.columns, hs.table.columnNames, hrows⟩
  cases h with
  | insert _ _ hfits _ hsort _ =>
    refine ⟨build fun row hrow => ?_, hsort⟩
    rcases List.mem_append.mp hrow with hrow | hrow
    · exact hs.table.rows row hrow
    · exact List.mem_singleton.mp hrow ▸ hfits
  | delete _ _ hsort _ =>
    exact ⟨build fun row hrow => hs.table.rows row (List.mem_of_mem_filter hrow), hsort⟩
  | update _ _ _ hval hsort _ =>
    refine ⟨build fun row hrow => ?_, hsort⟩
    obtain ⟨row, hmem, rfl⟩ := List.mem_map.mp hrow
    rw [updateRow]
    split
    · exact (hs.table.rows row hmem).set _ hval
    · exact hs.table.rows row hmem

/-! ## Well-formed states -/

namespace Executor

/-- No database is selected, or one with well-formed tables. -/
inductive WellFormed (e : Executor) : Prop
  | idle : e.currentDbName = [] → e.currentDb = none → WellFormed e
  | holds {name dir : Text} {slots : List Slot} : e.Holds name dir slots →
      Slots.WellFormed slots → WellFormed e

/-- The tables of the selected database with their indexes. -/
def slots (e : Executor) : List Slot :=
  match e.currentDb with
  | none => []
  | some db => List.zipWith Slot.mk db.tables db.indexes

theorem Holds.slots_eq {e : Executor} {name dir : Text} {slots : List Slot}
    (h : e.Holds name dir slots) : e.slots = slots := by
  rw [Executor.slots, h.db]
  simp [Database.ofSlots, List.zipWith_map]

theorem slots_of_none {e : Executor} (h : e.currentDb = none) : e.slots = [] := by
  rw [slots, h]

/-- The table a statement names. -/
def target (stmt : SQLStatement) : Text :=
  match stmt.kind with
  | .createTable => stmt.createTable.tableName
  | .dropTable => stmt.dropTable.tableName
  | .select => stmt.selectStmt.tableName
  | .delete => stmt.deleteStmt.tableName
  | .insert => stmt.insertStmt.tableName
  | .update => stmt.updateStmt.tableName
  | _ => []

/-- What a statement can do to the selected database and its tables. -/
inductive Moves (e : Executor) (stmt : SQLStatement) (e' : Executor) : Prop
  | same : e'.currentDbName = e.currentDbName → e'.currentDb = e.currentDb → Moves e stmt e'
  | deselected : stmt.kind = .dropDatabase → e'.currentDbName = [] → e'.currentDb = none →
      Moves e stmt e'
  | opened {name dir : Text} : stmt.kind = .use → e'.Holds name dir [] → Moves e stmt e'
  | created {name dir n : Text} {slots : List Slot} {columns : List Column} :
      stmt.kind = .createTable → e.Holds name dir slots → n = stmt.createTable.tableName →
      columns = stmt.createTable.columns.map columnOf → IsName n → Database.Absent slots n →
      columns ≠ [] → (∀ col ∈ columns, IsName col.name) →
      e'.Holds name dir (slots ++ [⟨Database.freshTable n dir columns, {}⟩]) → Moves e stmt e'
  | dropped {name dir : Text} {pre post : List Slot} {s : Slot} : stmt.kind = .dropTable →
      e.Holds name dir (pre ++ s :: post) → s.table.name = target stmt →
      e'.Holds name dir (pre ++ post) → Moves e stmt e'
  | stepped {name dir : Text} {pre post : List Slot} {s s' : Slot} :
      e.Holds name dir (pre ++ s :: post) → s.table.name = target stmt → SlotStep s stmt s' →
      e'.Holds name dir (pre ++ s' :: post) → Moves e stmt e'

/-- A fresh slot is well formed. -/
theorem fresh_wellFormed {n dir : Text} {columns : List Column} (hn : IsName n)
    (hne : columns ≠ []) (hcols : ∀ col ∈ columns, IsName col.name) :
    Slot.WellFormed ⟨Database.freshTable n dir columns, {}⟩ :=
  ⟨⟨hn, hne, hcols, nofun⟩, Index.sorted_empty⟩

theorem WellFormed.slots {e : Executor} (h : e.WellFormed) {name dir : Text} {slots : List Slot}
    (hh : e.Holds name dir slots) : Slots.WellFormed slots := by
  cases h with
  | idle _ hnone => cases hnone.symm.trans hh.db
  | holds hh' hwf => exact hh.slots_eq ▸ hh'.slots_eq ▸ hwf

/-- The slot of a table of the selected database, found by position. -/
theorem WellFormed.slot_at {e : Executor} (h : e.WellFormed) {db : Database}
    (hdb : e.currentDb = some db) {i : Nat} {t : Table} (ht : db.tables[i]? = some t) :
    ∃ s, e.slots[i]? = some s ∧ s.WellFormed ∧ s.table = t ∧ db.indexes[i]? = some s.index := by
  cases h with
  | idle _ hnone => cases hnone.symm.trans hdb
  | holds hh hwf =>
    cases hdb.symm.trans hh.db
    simp only [Database.ofSlots, List.getElem?_map, Option.map_eq_some_iff] at ht
    obtain ⟨s, hs, rfl⟩ := ht
    refine ⟨s, hh.slots_eq ▸ hs, hwf.slot s (List.mem_of_getElem? hs), rfl, ?_⟩
    simp [Database.ofSlots, hs]

theorem WellFormed.exists_slot {e : Executor} (h : e.WellFormed) {db : Database}
    (hdb : e.currentDb = some db) {t : Table} (ht : t ∈ db.tables) :
    ∃ s ∈ e.slots, s.WellFormed ∧ s.table = t := by
  obtain ⟨i, hi⟩ := List.mem_iff_getElem?.mp ht
  obtain ⟨s, hs, hwf, heq, -⟩ := h.slot_at hdb hi
  exact ⟨s, List.mem_of_getElem? hs, hwf, heq⟩

/-- A slot is where the name of its table finds it. -/
theorem WellFormed.at_of_mem {e : Executor} (h : e.WellFormed) {s : Slot} (hs : s ∈ e.slots) :
    ∃ name dir pre post, e.At s.table.name name dir pre s post := by
  cases h with
  | idle _ hnone => simp [slots_of_none hnone] at hs
  | @holds name dir slots hh hwf =>
    rw [hh.slots_eq] at hs
    obtain ⟨pre, post, rfl⟩ := List.append_of_mem hs
    have hwfs := hwf.slot s hs
    refine ⟨name, dir, pre, post, hh, hwfs.table.name.noNul, rfl, ?_, hwfs⟩
    have hnodup := hwf.names
    rw [List.map_append, List.map_cons] at hnodup
    exact fun x hx hname => (List.nodup_append.mp hnodup).2.2 _ (List.mem_map_of_mem hx) _
      (List.mem_cons_self ..) hname

/-- A name that is found is the name of the table there. -/
theorem WellFormed.at_of_getTable {e : Executor} (h : e.WellFormed) {db : Database}
    (hdb : e.currentDb = some db) {n : Text} (h0 : '\x00' ∉ n) {i : Nat}
    (hget : db.getTable n = some i) : ∃ name dir pre s post, e.At n name dir pre s post ∧
      s ∈ e.slots ∧ i = pre.length ∧ db = .ofSlots name dir (pre ++ s :: post) := by
  cases h with
  | idle _ hnone => cases hnone.symm.trans hdb
  | @holds name dir slots hh hwf =>
    cases hdb.symm.trans hh.db
    rcases Database.absent_or_split slots n with habs | ⟨pre, s, post, rfl, hs, hfirst⟩
    · cases (Database.getTable_absent h0 habs).symm.trans hget
    · refine ⟨name, dir, pre, s, post, ⟨hh, h0, hs, hfirst, hwf.slot s (by simp)⟩,
        by simp [hh.slots_eq], ?_, rfl⟩
      exact Option.some.inj (hget.symm.trans (Database.getTable_present h0 hs hfirst))

/-- **What a statement can do keeps a state well formed.** -/
theorem Moves.wellFormed {e e' : Executor} {stmt : SQLStatement} (h : Moves e stmt e')
    (he : e.WellFormed) : e'.WellFormed := by
  cases h with
  | same hname hdb =>
    cases he with
    | idle h₁ h₂ => exact .idle (hname.trans h₁) (hdb.trans h₂)
    | holds hh hwf => exact .holds ⟨hname ▸ hh.selected, hdb.trans hh.db⟩ hwf
  | deselected _ hname hdb => exact .idle hname hdb
  | opened _ hh => exact .holds hh ⟨List.nodup_nil, nofun⟩
  | created _ hh _ _ hn habs hne hcols hh' =>
    exact .holds hh' ((he.slots hh).append (fresh_wellFormed hn hne hcols) habs)
  | dropped _ hh _ hh' => exact .holds hh' (he.slots hh).erase
  | stepped hh _ hst hh' =>
    have hwf := he.slots hh
    exact .holds hh' (hwf.replace (hst.wellFormed (hwf.slot _ (by simp))) hst.schema.1)

/-! ## What a statement does -/

section Execute

variable {e : Executor} {stmt : SQLStatement}

/-- A handler that needs a database answers an error without one. -/
theorem moves_of_idle (hname : e.currentDbName = []) (go : Database → Outcome) :
    ∃ r e', withDb e go = some (r, e') ∧ Moves e stmt e' :=
  ⟨_, e, by rw [withDb, if_pos (by simp [hname])], .same rfl rfl⟩

/-- An answer that changes nothing. -/
theorem moves_same {out : Outcome} {r : ExecResult} (h : out = some (r, e)) :
    ∃ r e', out = some (r, e') ∧ Moves e stmt e' := ⟨r, e, h, .same rfl rfl⟩

/-- A handler that needs a table is settled once it is where the table is. -/
theorem moves_of_at (he : e.WellFormed) {n : Text} (hn : IsName n)
    {go : Database → Nat → Table → Outcome}
    (hat : ∀ {name dir pre s post}, e.At n name dir pre s post →
      ∃ r e', withTable e n go = some (r, e') ∧ Moves e stmt e') :
    ∃ r e', withTable e n go = some (r, e') ∧ Moves e stmt e' := by
  cases he with
  | idle hname _ => exact moves_of_idle hname _
  | @holds name dir slots hh hwf =>
    rcases Database.absent_or_split slots n with habs | ⟨pre, s, post, rfl, hs, hfirst⟩
    · exact moves_same (withTable_absent hh hn.noNul habs go)
    · exact hat ⟨hh, hn.noNul, hs, hfirst, hwf.slot s (by simp)⟩

theorem moves_select (he : e.WellFormed) (hk : stmt.kind = .select) (hs : stmt.WellFormed) :
    ∃ r e', e.execSelect stmt.selectStmt = some (r, e') ∧ Moves e stmt e' := by
  simp only [SQLStatement.WellFormed, hk] at hs
  refine moves_of_at he hs.1 fun hat => ?_
  have h := execSelect_at hat
  rw [execSelect] at h
  rw [h]
  split_ifs
  · exact moves_same rfl
  · exact moves_same rfl
  · exact ⟨_, _, rfl, .same rfl rfl⟩

theorem moves_delete (he : e.WellFormed) (hk : stmt.kind = .delete) (hs : stmt.WellFormed) :
    ∃ r e', e.execDelete stmt.deleteStmt = some (r, e') ∧ Moves e stmt e' := by
  simp only [SQLStatement.WellFormed, hk] at hs
  refine moves_of_at he hs.1 fun {name dir pre s post} hat => ?_
  cases hw : missesWhere stmt.deleteStmt.hasWhere stmt.deleteStmt.cond s.table with
  | true => exact moves_same (execDelete_missesWhere hat hw)
  | false =>
    obtain ⟨idx', hexec, hsort, hmap⟩ := execDelete_at hat hw
    refine ⟨_, _, hexec, .stepped hat.toHolds ?_ (.delete hk rfl hsort hmap) ⟨hat.selected, rfl⟩⟩
    rw [hat.name, target, hk]

theorem moves_insert (he : e.WellFormed) (hk : stmt.kind = .insert) (hs : stmt.WellFormed) :
    ∃ r e', e.execInsert stmt.insertStmt = some (r, e') ∧ Moves e stmt e' := by
  simp only [SQLStatement.WellFormed, hk] at hs
  obtain ⟨hn, -, hint, hlit⟩ := hs
  refine moves_of_at he hn fun {name dir pre s post} hat => ?_
  by_cases hlen : stmt.insertStmt.values.length = s.table.columns.length
  · have hfits := insertedRow_fits hint hlit hlen
    cases hfree : taken s.index s.table.primaryKeyIndex (insertedRow stmt.insertStmt) with
    | true => exact moves_same (execInsert_taken hat hlen hint hfits hfree)
    | false =>
      obtain ⟨idx', hexec, hsort, hmap⟩ := execInsert_done hat hlen hint hfits hfree
      refine ⟨_, _, hexec, .stepped hat.toHolds ?_ (.insert hk hlen hfits hfree hsort hmap)
        ⟨hat.selected, rfl⟩⟩
      rw [hat.name, target, hk]
  · exact moves_same (execInsert_arity hat hlen)

theorem moves_update (he : e.WellFormed) (hk : stmt.kind = .update) (hs : stmt.WellFormed) :
    ∃ r e', e.execUpdate stmt.updateStmt = some (r, e') ∧ Moves e stmt e' := by
  simp only [SQLStatement.WellFormed, hk] at hs
  obtain ⟨hn, -, hlit, -⟩ := hs
  refine moves_of_at he hn fun {name dir pre s post} hat => ?_
  cases hcol : s.table.findColumn stmt.updateStmt.setColumn with
  | none => exact moves_same (execUpdate_noColumn hat hcol)
  | some setCol =>
    cases hw : missesWhere stmt.updateStmt.hasWhere stmt.updateStmt.cond s.table with
    | true => exact moves_same (execUpdate_missesWhere hat hcol hw)
    | false =>
      obtain ⟨idx', hexec, hsort, hmap⟩ := execUpdate_at hat hcol hw
      refine ⟨_, _, hexec, .stepped hat.toHolds ?_
        (.update hk rfl hcol (literal_stored hlit) hsort hmap) ⟨hat.selected, rfl⟩⟩
      rw [hat.name, target, hk]

theorem moves_createTable (he : e.WellFormed) (hk : stmt.kind = .createTable)
    (hs : stmt.WellFormed) :
    ∃ r e', e.execCreateTable stmt.createTable = some (r, e') ∧ Moves e stmt e' := by
  simp only [SQLStatement.WellFormed, hk] at hs
  obtain ⟨hn, hne, hcols, -⟩ := hs
  cases he with
  | idle hname _ => exact moves_of_idle hname _
  | @holds name dir slots hh hwf =>
    rcases Database.absent_or_split slots stmt.createTable.tableName with
      habs | ⟨pre, s, post, rfl, hs, hfirst⟩
    · rw [execCreateTable_absent hh hn.noNul habs]
      refine ⟨_, _, rfl, .created hk hh rfl rfl hn habs (by simpa using hne) ?_ ⟨hh.selected, rfl⟩⟩
      rintro _ hcol
      obtain ⟨cd, hcd, rfl⟩ := List.mem_map.mp hcol
      exact hcols cd hcd
    · rw [execCreateTable_present hh hn.noNul hs hfirst]
      exact ⟨_, _, rfl, .same rfl rfl⟩

theorem moves_dropTable (he : e.WellFormed) (hk : stmt.kind = .dropTable) (hs : stmt.WellFormed) :
    ∃ r e', e.execDropTable stmt.dropTable = some (r, e') ∧ Moves e stmt e' := by
  simp only [SQLStatement.WellFormed, hk] at hs
  cases he with
  | idle hname _ => exact moves_of_idle hname _
  | @holds name dir slots hh hwf =>
    rcases Database.absent_or_split slots stmt.dropTable.tableName with
      habs | ⟨pre, s, post, rfl, hname, hfirst⟩
    · rw [execDropTable_absent hh hs.noNul habs]
      exact ⟨_, _, rfl, .same rfl rfl⟩
    · rw [execDropTable_present hh hs.noNul hname hfirst]
      refine ⟨_, _, rfl, .dropped hk hh ?_ ⟨hh.selected, rfl⟩⟩
      rw [hname, target, hk]

theorem moves_dropDatabase (he : e.WellFormed) (hk : stmt.kind = .dropDatabase)
    (hs : stmt.WellFormed) :
    ∃ r e', e.execDropDatabase stmt.dropDatabase = some (r, e') ∧ Moves e stmt e' := by
  simp only [SQLStatement.WellFormed, hk] at hs
  by_cases hcur : e.currentDbName = stmt.dropDatabase.databaseName
  · obtain ⟨name, dir, slots, hh⟩ : ∃ name dir slots, e.Holds name dir slots := by
      cases he with
      | idle hname _ => exact absurd (hcur.symm.trans hname) hs.1
      | holds hh _ => exact ⟨_, _, _, hh⟩
    simp only [execDropDatabase, cString_of_notMem hs.noNul, hcur, beq_self_eq_true, if_true, hh.db,
      Option.bind_eq_bind, Option.bind_some]
    split_ifs
    · exact ⟨_, _, rfl, .deselected hk rfl rfl⟩
    · exact ⟨_, _, rfl, .deselected hk rfl rfl⟩
  · simp only [execDropDatabase, cString_of_notMem hs.noNul, beq_false_of_ne hcur,
      Bool.false_eq_true, if_false, Option.bind_eq_bind, Option.bind_some]
    split_ifs
    · exact ⟨_, _, rfl, .same rfl rfl⟩
    · exact ⟨_, _, rfl, .same rfl rfl⟩

/-- **Every statement the parser returns is defined, and moves the tables as listed.** -/
theorem execute_moves (he : e.WellFormed) (hs : stmt.WellFormed ∨ stmt.kind = .invalid) :
    ∃ r e', e.execute stmt = some (r, e') ∧ Moves e stmt e' := by
  have hwf (hk : stmt.kind ≠ .invalid) : stmt.WellFormed := hs.resolve_right hk
  cases hk : stmt.kind <;> simp only [execute, hk]
  case createDatabase =>
    rw [execCreateDatabase]
    dsimp only
    split_ifs
    · exact ⟨_, _, rfl, .same rfl rfl⟩
    · exact ⟨_, _, rfl, .same rfl rfl⟩
  case dropDatabase => exact moves_dropDatabase he hk (hwf (by simp [hk]))
  case use =>
    have hs' := hwf (by simp [hk])
    simp only [SQLStatement.WellFormed, hk] at hs'
    exact ⟨_, _, rfl, .opened hk ⟨hs'.1, rfl⟩⟩
  case createTable => exact moves_createTable he hk (hwf (by simp [hk]))
  case dropTable => exact moves_dropTable he hk (hwf (by simp [hk]))
  case select => exact moves_select he hk (hwf (by simp [hk]))
  case delete => exact moves_delete he hk (hwf (by simp [hk]))
  case insert => exact moves_insert he hk (hwf (by simp [hk]))
  case update => exact moves_update he hk (hwf (by simp [hk]))
  case invalid => exact ⟨_, _, rfl, .same rfl rfl⟩

/-- A text that runs is a statement that moves the tables. -/
theorem run_moves (he : e.WellFormed) {sql : Text} {r : ExecResult} {e' : Executor}
    (h : e.run sql = some (r, e')) : ∃ stmt, parse sql = some stmt ∧ e.execute stmt = some (r, e') ∧
      Moves e stmt e' := by
  obtain ⟨stmt, hparse, hexec⟩ := Option.bind_eq_some_iff.mp h
  obtain ⟨r₁, e₁, hexec₁, hmoves⟩ := execute_moves he (parse_wellFormed hparse)
  cases hexec.symm.trans hexec₁
  exact ⟨stmt, hparse, hexec, hmoves⟩

end Execute

/-! ## Reachable states -/

/-- A state some sequence of statements reaches from a fresh executor. -/
def Reachable (e : Executor) : Prop :=
  ∃ root disk, Machine.Reaches run (fun _ _ => True) (new root disk) e

theorem new_wellFormed (root : Text) (disk : Disk) : (new root disk).WellFormed := .idle rfl rfl

/-- **Every reachable state is well formed**, under any guard. -/
theorem wellFormed_of_reaches {ok : Executor → Text → Prop} {root : Text} {disk : Disk}
    {e : Executor} (h : Machine.Reaches run ok (new root disk) e) : e.WellFormed := by
  refine h.invariant (new_wellFormed root disk) fun he _ hrun => ?_
  obtain ⟨_, _, _, hmoves⟩ := run_moves he hrun
  exact hmoves.wellFormed he

/-- A guard on the table a statement names, as a guard on steps of the executor. -/
def Guarded (guard : SQLStatement → Slot → Prop) (e : Executor) (sql : Text) : Prop :=
  ∀ stmt, parse sql = some stmt → ∀ s ∈ e.slots, s.table.name = target stmt → guard stmt s

/-- **The invariant rule for tables.**  What holds of every fresh slot, and is kept by each guarded
step of a well-formed slot, holds of every slot that guarded statements reach. -/
theorem slots_invariant {P : Slot → Prop} {guard : SQLStatement → Slot → Prop} {root : Text}
    {disk : Disk} {e : Executor}
    (hfresh : ∀ n dir columns, P ⟨Database.freshTable n dir columns, {}⟩)
    (hstep : ∀ {s stmt s'}, s.WellFormed → P s → guard stmt s → SlotStep s stmt s' → P s')
    (h : Machine.Reaches run (Guarded guard) (new root disk) e) : ∀ s ∈ e.slots, P s := by
  have hnone : (new root disk).slots = [] := rfl
  refine (h.invariant (I := fun e => e.WellFormed ∧ ∀ s ∈ e.slots, P s)
    ⟨new_wellFormed root disk, by simp [hnone]⟩ ?_).2
  rintro e sql r e' ⟨he, hP⟩ hok hrun
  obtain ⟨stmt, hparse, _, hmoves⟩ := run_moves he hrun
  refine ⟨hmoves.wellFormed he, ?_⟩
  cases hmoves with
  | same _ hdb => rwa [Executor.slots, hdb]
  | deselected _ _ hdb => simp [slots_of_none hdb]
  | opened _ hh => simp [hh.slots_eq]
  | created _ hh _ _ _ _ _ _ hh' =>
    rw [hh.slots_eq] at hP
    rw [hh'.slots_eq]
    intro s hs
    rcases List.mem_append.mp hs with hs | hs
    · exact hP s hs
    · exact List.mem_singleton.mp hs ▸ hfresh _ _ _
  | dropped _ hh _ hh' =>
    rw [hh.slots_eq] at hP
    rw [hh'.slots_eq]
    intro s hs
    exact hP s (by simp only [List.mem_append, List.mem_cons] at hs ⊢; tauto)
  | @stepped _ _ pre post s₀ _ hh hname hst hh' =>
    have hmem : s₀ ∈ e.slots := by simp [hh.slots_eq]
    have hkeep := hstep ((he.slots hh).slot _ (by simp)) (hP s₀ hmem)
      (hok stmt hparse s₀ hmem hname) hst
    rw [hh.slots_eq] at hP
    rw [hh'.slots_eq]
    intro s hs
    rcases List.mem_append.mp hs with hs | hs
    · exact hP s (List.mem_append_left _ hs)
    · rcases List.mem_cons.mp hs with rfl | hs
      · exact hkeep
      · exact hP s (List.mem_append_right _ (List.mem_cons_of_mem _ hs))

/-! ## Runs that are computed -/

/-- A state that is computed is reachable. -/
theorem reachable_of_exec {root : Text} {disk : Disk} {sqls : List Text} {rs : List ExecResult}
    {e : Executor} (h : Machine.exec run (new root disk) sqls = some (rs, e)) : Reachable e :=
  ⟨root, disk, (Machine.run_of_exec h).reaches fun _ _ _ => trivial⟩

/-- Without tables every guard is met. -/
theorem guarded_of_no_slots {guard : SQLStatement → Slot → Prop} {e : Executor}
    (h : e.slots = []) (sql : Text) : Guarded guard e sql :=
  fun _ _ s hs => absurd hs (by simp [h])

/-- A guard on a text is a guard on its statement. -/
theorem guarded_of_parse {guard : SQLStatement → Slot → Prop} {e : Executor} {sql : Text}
    {stmt : SQLStatement} (hparse : parse sql = some stmt)
    (h : ∀ s ∈ e.slots, s.table.name = target stmt → guard stmt s) : Guarded guard e sql := by
  intro stmt' hparse'
  cases hparse.symm.trans hparse'
  exact h

/-- The table `t` with an int key `a`, in the database `d` of the data root `data`. -/
def sampleTable (rows : List Row) : Table :=
  { name := ['t'], dataPath := "data/d/t.dat".toList
    columns := [{ name := ['a'], type := .int, isPrimary := true }], rows }

/-- The state with that table alone. -/
def sampleState (rows : List Row) (entries : List Entry) : Executor :=
  { dataRoot := "data".toList, currentDbName := ['d']
    currentDb := some (.ofSlots ['d'] "data/d".toList [⟨sampleTable rows, ⟨entries⟩⟩])
    disk := { dirs := ["data".toList] } }

/-- The state in front of it. -/
def sampleUsed : Executor :=
  { dataRoot := "data".toList, currentDbName := ['d']
    currentDb := some { name := ['d'], dataDir := "data/d".toList }
    disk := { dirs := ["data".toList] } }

/-- `insert into t values (1)`. -/
def insertOne : SQLStatement :=
  { kind := .insert, insertStmt := { tableName := ['t'], values := [['1']], isInt := [true] } }

/-- `insert into t values (2)`. -/
def insertTwo : SQLStatement :=
  { kind := .insert, insertStmt := { tableName := ['t'], values := [['2']], isInt := [true] } }

/-- `update t set a = 3 where a = 2`. -/
def updateTwo : SQLStatement :=
  { kind := .update
    updateStmt :=
      { tableName := ['t'], setColumn := ['a'], setValue := ['3'], setIsInt := true
        hasWhere := true
        cond := { column := ['a'], op := ['='], constValue := ['2'], isIntLiteral := true } } }

/-- `delete from t where a = 2`. -/
def deleteTwo : SQLStatement :=
  { kind := .delete
    deleteStmt :=
      { tableName := ['t'], hasWhere := true
        cond := { column := ['a'], op := ['='], constValue := ['2'], isIntLiteral := true } } }

/-- The state with the rows 1 and 2. -/
def sampleTwo : Executor :=
  sampleState [[.int 1], [.int 2]] [{ key := 1, rowId := 0 }, { key := 2, rowId := 1 }]

section Samples

variable {guard : SQLStatement → Slot → Prop}

/-- One more statement on the table `t`, under a guard that it meets. -/
theorem sample_step {e₀ : Executor} {sql : Text} {stmt : SQLStatement} {rows rows' : List Row}
    {entries entries' : List Entry}
    (h : Machine.Reaches run (Guarded guard) e₀ (sampleState rows entries))
    (hparse : parse sql = some stmt)
    (hrun : (run (sampleState rows entries) sql).map Prod.snd = some (sampleState rows' entries'))
    (hguard : guard stmt ⟨sampleTable rows, ⟨entries⟩⟩) :
    Machine.Reaches run (Guarded guard) e₀ (sampleState rows' entries') := by
  obtain ⟨⟨r, _⟩, hrun, rfl⟩ := Option.map_eq_some_iff.mp hrun
  refine h.step (guarded_of_parse hparse fun s hs _ => ?_) hrun
  rw [List.mem_singleton.mp hs]
  exact hguard

/-- A run of three statements, under a guard that its INSERT meets. -/
theorem sample_reaches (h : guard insertOne ⟨sampleTable [], {}⟩) :
    Machine.Reaches run (Guarded guard) (new "data".toList {})
      (sampleState [[.int 1]] [{ key := 1, rowId := 0 }]) := by
  have huse : run (new "data".toList {}) "use d".toList
      = some (.ok "Using database 'd'".toList, sampleUsed) := by decide +kernel
  have hcreate : run sampleUsed "create table t (a int primary)".toList
      = some (.ok "Table 't' created".toList, sampleState [] []) := by decide +kernel
  have hempty : Machine.Reaches run (Guarded guard) (new "data".toList {}) (sampleState [] []) :=
    (Machine.Reaches.refl.step (guarded_of_no_slots rfl _) huse).step (guarded_of_no_slots rfl _)
      hcreate
  have hparse : parse "insert into t values (1)".toList = some insertOne := by decide +kernel
  exact sample_step hempty hparse (by decide +kernel) h

theorem sample_reachable : Reachable (sampleState [[.int 1]] [{ key := 1, rowId := 0 }]) :=
  ⟨_, _, (@sample_reaches (fun _ _ => True) trivial).mono fun _ _ _ => trivial⟩

/-- A run of four statements, under a guard that its INSERTs meet. -/
theorem sampleTwo_reaches (h : ∀ stmt, stmt = insertOne ∨ stmt = insertTwo → ∀ rows entries,
    guard stmt ⟨sampleTable rows, ⟨entries⟩⟩) :
    Machine.Reaches run (Guarded guard) (new "data".toList {}) sampleTwo := by
  have hparse : parse "insert into t values (2)".toList = some insertTwo := by decide +kernel
  exact sample_step (sample_reaches (h _ (.inl rfl) _ _)) hparse (by decide +kernel)
    (h _ (.inr rfl) _ _)

theorem sampleTwo_reachable : Reachable sampleTwo :=
  ⟨_, _, (@sampleTwo_reaches (fun _ _ => True) fun _ _ _ _ => trivial).mono fun _ _ _ => trivial⟩

end Samples

end Executor

end MiniDB.Execution

import MiniDB.Execution.Reachable

/-!
# Execution/Types — cells are of the types of their columns as long as …

A literal is an int or a string by its token, a column by its declaration, and no handler compares
the two: an INSERT that has the right number of values and a key that is free is accepted, and so is
an UPDATE whose columns exist (`accepted_iff`).

**`types_kept_of_reaches`**: where every INSERT and UPDATE that passes these checks has literals of
the declared types, every row of every table conforms to its columns.
-/

namespace MiniDB.Execution

open MiniDB.Core MiniDB.Parser MiniDB.Storage Executor

/-! ## Types of cells -/

/-- The type of a value; NONE has none. -/
def typeOf : Value → Option ColumnType
  | .int _ => some .int
  | .string _ => some .string
  | .none => none

/-- A cell for each column, of its type. -/
def Conforms (columns : List Column) (row : Row) : Prop :=
  List.Forall₂ (fun v col => typeOf v = some col.type) row columns

/-- Every row of every table of the selected database conforms. -/
def RowsConform (e : Executor) : Prop :=
  ∀ db, e.currentDb = some db → ∀ t ∈ db.tables, ∀ row ∈ t.rows, Conforms t.columns row

/-- A literal of an INSERT or UPDATE is not of the type of the column it is for. -/
inductive Mismatch (stmt : SQLStatement) (t : Table) : Prop
  | insert {j : Nat} {v : Value} {col : Column} : stmt.kind = .insert →
      (insertedRow stmt.insertStmt)[j]? = some v → t.columns[j]? = some col →
      typeOf v ≠ some col.type → Mismatch stmt t
  | update {j : Nat} {col : Column} : stmt.kind = .update →
      t.findColumn stmt.updateStmt.setColumn = some j → t.columns[j]? = some col →
      typeOf (newValue stmt.updateStmt) ≠ some col.type → Mismatch stmt t

/-- What the handlers of INSERT and UPDATE check: the number of values and the key, or that the
columns exist. -/
inductive Passes (stmt : SQLStatement) (s : Slot) : Prop
  | insert : stmt.kind = .insert → stmt.insertStmt.values.length = s.table.columns.length →
      taken s.index s.table.primaryKeyIndex (insertedRow stmt.insertStmt) = false → Passes stmt s
  | update : stmt.kind = .update → (s.table.findColumn stmt.updateStmt.setColumn).isSome →
      missesWhere stmt.updateStmt.hasWhere stmt.updateStmt.cond s.table = false → Passes stmt s

/-- A statement that passes has literals of the declared types. -/
def TypedStep (stmt : SQLStatement) (s : Slot) : Prop := Passes stmt s → ¬ Mismatch stmt s.table

/-! ## One step -/

theorem conforms_iff {columns : List Column} {row : Row} : Conforms columns row ↔
    row.length = columns.length ∧
      ∀ (j : Nat) (v : Value) (col : Column), row[j]? = some v → columns[j]? = some col →
        typeOf v = some col.type := by
  rw [Conforms, List.forall₂_iff_get]
  refine and_congr_right fun hlen => ⟨fun h j v col hv hcol => ?_, fun h j hj hj' => ?_⟩
  · obtain ⟨hj, rfl⟩ := List.getElem?_eq_some_iff.mp hv
    obtain ⟨hj', rfl⟩ := List.getElem?_eq_some_iff.mp hcol
    exact h j hj hj'
  · exact h j _ _ (List.getElem?_eq_getElem hj) (List.getElem?_eq_getElem hj')

theorem Conforms.set {columns : List Column} {row : Row} (h : Conforms columns row) {c : Nat}
    {v : Value} (hv : ∀ col, columns[c]? = some col → typeOf v = some col.type) :
    Conforms columns (row.set c v) := by
  obtain ⟨hlen, hcells⟩ := conforms_iff.mp h
  refine conforms_iff.mpr ⟨by rw [List.length_set, hlen], fun j w col hw hcol => ?_⟩
  by_cases hj : c = j
  · subst hj
    rw [List.getElem?_set_self'] at hw
    obtain ⟨_, -, rfl⟩ := Option.map_eq_some_iff.mp hw
    exact hv col hcol
  · rw [List.getElem?_set_ne hj] at hw
    exact hcells j w col hw hcol

/-- A condition on a column that is missing selects nothing. -/
theorem selects_of_missesWhere {hasWhere : Bool} {cond : WhereClause} {t : Table}
    (h : missesWhere hasWhere cond t = true) (row : Row) : selects hasWhere cond t row = false := by
  simp only [missesWhere, Bool.and_eq_true, Option.isNone_iff_eq_none] at h
  rw [selects, h.2, h.1]
  rfl

/-- **A step that meets the condition keeps the rows conforming.** -/
theorem conforms_step {s s' : Slot} {stmt : SQLStatement} (_ : s.WellFormed)
    (h : ∀ row ∈ s.table.rows, Conforms s.table.columns row) (hok : TypedStep stmt s)
    (hst : SlotStep s stmt s') : ∀ row ∈ s'.table.rows, Conforms s'.table.columns row := by
  cases hst with
  | insert hk hlen hfits hfree =>
    intro row hrow
    rcases List.mem_append.mp hrow with hrow | hrow
    · exact h row hrow
    · rw [List.mem_singleton.mp hrow]
      refine conforms_iff.mpr ⟨hfits.arity, fun j v col hv hcol => ?_⟩
      by_contra hne
      exact hok (.insert hk hlen hfree) (.insert hk hv hcol hne)
  | delete => exact fun row hrow => h row (List.mem_of_mem_filter hrow)
  | @update sel setCol _ hk hsel hset =>
    intro row hrow
    obtain ⟨row, hmem, rfl⟩ := List.mem_map.mp hrow
    rw [updateRow]
    split
    · next hrow =>
      refine (h row hmem).set fun col hcol => ?_
      by_contra hne
      refine hok (.update hk (by rw [hset]; rfl) ?_) (.update hk hset hcol hne)
      -- a row is selected, so the column of the condition exists
      by_contra hmiss
      rw [hsel, selects_of_missesWhere (by simpa using hmiss)] at hrow
      cases hrow
    · exact h row hmem

/-! ## What is rejected -/

section Accepted

variable {e e' : Executor} {stmt : SQLStatement} {r : ExecResult} {name dir : Text}
  {pre post : List Slot} {s : Slot}

theorem insert_accepted_iff (hk : stmt.kind = .insert) (hs : stmt.WellFormed)
    (hat : e.At stmt.insertStmt.tableName name dir pre s post)
    (hexec : e.execInsert stmt.insertStmt = some (r, e')) : r.status = .ok ↔ Passes stmt s := by
  simp only [SQLStatement.WellFormed, hk] at hs
  obtain ⟨-, -, hint, hlit⟩ := hs
  by_cases hlen : stmt.insertStmt.values.length = s.table.columns.length
  · have hfits := insertedRow_fits hint hlit hlen
    cases hfree : taken s.index s.table.primaryKeyIndex (insertedRow stmt.insertStmt) with
    | true =>
      cases hexec.symm.trans (execInsert_taken hat hlen hint hfits hfree)
      refine iff_of_false (fun h => by cases h) ?_
      rintro (⟨-, -, h⟩ | ⟨h, -, -⟩)
      · cases hfree.symm.trans h
      · cases hk.symm.trans h
    | false =>
      obtain ⟨idx', hdone, -⟩ := execInsert_done hat hlen hint hfits hfree
      cases hexec.symm.trans hdone
      exact iff_of_true rfl (.insert hk hlen hfree)
  · cases hexec.symm.trans (execInsert_arity hat hlen)
    refine iff_of_false (fun h => by cases h) ?_
    rintro (⟨-, h, -⟩ | ⟨h, -, -⟩)
    · exact hlen h
    · cases hk.symm.trans h

theorem update_accepted_iff (hk : stmt.kind = .update)
    (hat : e.At stmt.updateStmt.tableName name dir pre s post)
    (hexec : e.execUpdate stmt.updateStmt = some (r, e')) : r.status = .ok ↔ Passes stmt s := by
  cases hcol : s.table.findColumn stmt.updateStmt.setColumn with
  | none =>
    cases hexec.symm.trans (execUpdate_noColumn hat hcol)
    refine iff_of_false (fun h => by cases h) ?_
    rintro (⟨h, -, -⟩ | ⟨-, h, -⟩)
    · cases hk.symm.trans h
    · rw [hcol] at h
      cases h
  | some setCol =>
    cases hw : missesWhere stmt.updateStmt.hasWhere stmt.updateStmt.cond s.table with
    | true =>
      cases hexec.symm.trans (execUpdate_missesWhere hat hcol hw)
      refine iff_of_false (fun h => by cases h) ?_
      rintro (⟨h, -, -⟩ | ⟨-, -, h⟩)
      · cases hk.symm.trans h
      · cases hw.symm.trans h
    | false =>
      obtain ⟨idx', hdone, -⟩ := execUpdate_at hat hcol hw
      cases hexec.symm.trans hdone
      exact iff_of_true rfl (.update hk (by rw [hcol]; rfl) hw)

/-- **INSERT and UPDATE are accepted exactly when they pass.** -/
theorem accepted_iff (he : e.WellFormed) {sql : Text} (hparse : parse sql = some stmt)
    (hk : stmt.kind = .insert ∨ stmt.kind = .update) (hs : s ∈ e.slots)
    (hname : s.table.name = target stmt) (hexec : e.execute stmt = some (r, e')) :
    r.status = .ok ↔ Passes stmt s := by
  obtain ⟨name, dir, pre, post, hat⟩ := he.at_of_mem hs
  rw [hname] at hat
  rcases hk with hk | hk
  · have hwf := (parse_wellFormed hparse).resolve_right (by simp [hk])
    rw [execute, hk] at hexec
    rw [target, hk] at hat
    exact insert_accepted_iff hk hwf hat hexec
  · rw [execute, hk] at hexec
    rw [target, hk] at hat
    exact update_accepted_iff hk hat hexec

end Accepted

/-- An INSERT or UPDATE with a literal of another type is an error. -/
def RejectsMismatch (e : Executor) (stmt : SQLStatement) : Prop :=
  ∀ s ∈ e.slots, s.table.name = target stmt → Mismatch stmt s.table →
    ∀ r e', e.execute stmt = some (r, e') → r.status = .error

theorem Mismatch.kind {stmt : SQLStatement} {t : Table} (h : Mismatch stmt t) :
    stmt.kind = .insert ∨ stmt.kind = .update := by
  cases h with
  | insert hk => exact .inl hk
  | update hk => exact .inr hk

/-- The condition is what it takes to reject them. -/
theorem guarded_typedStep_iff {e : Executor} {sql : Text} {stmt : SQLStatement} (he : e.WellFormed)
    (hparse : parse sql = some stmt) : Guarded TypedStep e sql ↔ RejectsMismatch e stmt := by
  constructor
  · intro h s hs hname hmiss r e' hexec
    have hok := accepted_iff he hparse hmiss.kind hs hname hexec
    have hnot := mt hok.mp fun hpass => h stmt hparse s hs hname hpass hmiss
    cases hr : r.status with
    | ok => exact absurd hr hnot
    | error => rfl
  · intro h stmt' hparse' s hs hname hpass hmiss
    cases hparse.symm.trans hparse'
    obtain ⟨r, e', hexec, -⟩ := execute_moves he (parse_wellFormed hparse)
    have hok := (accepted_iff he hparse hmiss.kind hs hname hexec).mpr hpass
    cases hok.symm.trans (h s hs hname hmiss r e' hexec)

/-- **Rows conform to their columns** in every run whose INSERTs and UPDATEs have literals of the
declared types when they pass the other checks; and only there are literals of other types
rejected.  Tables stay below 2³¹ rows. -/
theorem types_kept_of_reaches {root : Text} {disk : Disk} {e : Executor}
    (h : Machine.Reaches run (Guarded TypedStep) (new root disk) e) :
    RowsConform e ∧ ∀ sql stmt, parse sql = some stmt →
      (Guarded TypedStep e sql ↔ RejectsMismatch e stmt) := by
  have he := wellFormed_of_reaches h
  constructor
  · intro db hdb t ht
    obtain ⟨s, hs, -, rfl⟩ := he.exists_slot hdb ht
    exact slots_invariant (fun _ _ _ _ => nofun) conforms_step h s hs
  · exact fun sql stmt hparse => guarded_typedStep_iff he hparse

/-- Three statements with int literals for the int column. -/
theorem types_kept_sample : RowsConform (sampleState [[.int 1], [.int 3]]
    [{ key := 1, rowId := 0 }, { key := 2, rowId := 1 }, { key := 3, rowId := 1 }]) := by
  have hparse : parse "update t set a = 3 where a = 2".toList = some updateTwo := by decide +kernel
  have hcolumn {rows : List Row} {j : Nat} {col : Column}
      (hcol : (sampleTable rows).columns[j]? = some col) : j = 0 ∧ col.type = .int := by
    obtain ⟨hj, rfl⟩ := List.getElem?_eq_some_iff.mp hcol
    obtain rfl := Nat.lt_one_iff.mp hj
    exact ⟨rfl, rfl⟩
  refine (types_kept_of_reaches (sample_step (sampleTwo_reaches ?_) hparse (by decide +kernel)
    ?_)).1
  · rintro _ (rfl | rfl) rows entries - (⟨-, hv, hcol, hne⟩ | ⟨hk, -, -, -⟩)
    any_goals cases hk
    all_goals
      obtain ⟨rfl, htype⟩ := hcolumn hcol
      cases hv
      exact hne (congrArg some htype.symm)
  · rintro - (⟨hk, -, -, -⟩ | ⟨-, -, hcol, hne⟩)
    · cases hk
    · exact hne (congrArg some (hcolumn hcol).2.symm)

/-- A string goes into an int column. -/
theorem string_in_int_column : ∃ e, Reachable e ∧ ¬ RowsConform e := by
  let table : Table :=
    { name := ['t'], dataPath := "data/d/t.dat".toList
      columns := [{ name := ['a'] }], rows := [[.string ['x']]] }
  have hrun : (Machine.exec run (new "data".toList {}) ["use d".toList,
      "create table t (a int)".toList, "insert into t values (\"x\")".toList]).bind
        (fun r => r.2.currentDb.map Database.tables) = some [table] := by decide +kernel
  obtain ⟨⟨rs, e⟩, hexec, hdb⟩ := Option.bind_eq_some_iff.mp hrun
  obtain ⟨db, hdb, htables⟩ := Option.map_eq_some_iff.mp hdb
  refine ⟨e, reachable_of_exec hexec, fun h => ?_⟩
  cases h db hdb table (by simp [htables]) [.string ['x']] (List.mem_singleton_self _) with
  | cons htype => cases htype

/-- The number of cells is the number of columns, whatever was run. -/
theorem arity_of_reachable {e : Executor} (he : Reachable e) {db : Database}
    (hdb : e.currentDb = some db) {t : Table} (ht : t ∈ db.tables) {row : Row}
    (hrow : row ∈ t.rows) :
    row.length = t.columns.length := by
  obtain ⟨root, disk, hreach⟩ := he
  obtain ⟨s, -, hwf, rfl⟩ := (wellFormed_of_reaches hreach).exists_slot hdb ht
  exact (hwf.table.rows row hrow).arity

end MiniDB.Execution

import MiniDB.Execution.Reachable

/-!
# Execution/Safety — no access goes outside a vector

In the model a read or a write outside a vector, and a use of `_current_db` where it is null, has no
value, and neither has a statement that meets one.  So the accesses of a run are in bounds exactly
when the run is defined.  What carries it is well-formedness (`Executor.Shaped` is what it says
about lengths): the three vectors of a database run in parallel, a row has a cell for each column,
and the parser's literals come with their flags.

**`accesses_in_bounds`**: in every reachable state every statement the parser returns is defined.
-/

namespace MiniDB.Execution

open MiniDB.Core MiniDB.Parser MiniDB.Storage

namespace Executor

/-- The lengths that the unchecked accesses rely on. -/
structure Shaped (db : Database) : Prop where
  names : db.tableNames.length = db.tables.length
  indexes : db.indexes.length = db.tables.length
  rows : ∀ t ∈ db.tables, ∀ row ∈ t.rows, row.length = t.columns.length

/-- A database is selected exactly when it has a name. -/
theorem WellFormed.name_iff {e : Executor} (h : e.WellFormed) :
    e.currentDbName = [] ↔ e.currentDb = none := by
  cases h with
  | idle hname hdb => simp [hname, hdb]
  | holds hh _ => simp [hh.selected, hh.db]

theorem WellFormed.shaped {e : Executor} (h : e.WellFormed) {db : Database}
    (hdb : e.currentDb = some db) : Shaped db := by
  cases h with
  | idle _ hnone => cases hnone.symm.trans hdb
  | holds hh hwf =>
    cases hdb.symm.trans hh.db
    refine ⟨by simp [Database.ofSlots], by simp [Database.ofSlots], fun t ht row hrow => ?_⟩
    obtain ⟨s, hs, rfl⟩ := List.mem_map.mp ht
    exact ((hwf.slot s hs).table.rows row hrow).arity

/-- A run of texts that parse is defined from every well-formed state on. -/
theorem exec_isSome {e : Executor} (he : e.WellFormed) {sqls : List Text}
    (hparse : ∀ sql ∈ sqls, ∃ stmt, parse sql = some stmt) :
    ∃ rs e', Machine.exec run e sqls = some (rs, e') := by
  induction sqls generalizing e with
  | nil => exact ⟨[], e, rfl⟩
  | cons sql sqls ih =>
    obtain ⟨hsql, hsqls⟩ := List.forall_mem_cons.mp hparse
    obtain ⟨stmt, hstmt⟩ := hsql
    obtain ⟨r, e₁, hexec, hmoves⟩ := execute_moves he (parse_wellFormed hstmt)
    obtain ⟨rs, e', hrun⟩ := ih (hmoves.wellFormed he) hsqls
    refine ⟨r :: rs, e', ?_⟩
    simp [Machine.exec, run_of_parse hstmt, hexec, hrun]

/-- **Every access is in bounds, and no null pointer is followed**: in every reachable state a
database is selected exactly when it has a name, the lengths agree, and each statement the parser
returns has a value; and so has every run of such statements from a fresh executor.  Tables stay
below 2³¹ rows: behind that the `int` counter of DELETE's loop would wrap. -/
theorem accesses_in_bounds :
    (∀ e, Reachable e → (e.currentDbName = [] ↔ e.currentDb = none) ∧
      (∀ db, e.currentDb = some db → Shaped db) ∧
      ∀ sql stmt, parse sql = some stmt → ∃ r e', e.execute stmt = some (r, e')) ∧
    ∀ root disk sqls, (∀ sql ∈ sqls, ∃ stmt, parse sql = some stmt) →
      ∃ rs e', Machine.exec run (new root disk) sqls = some (rs, e') := by
  refine ⟨?_, fun root disk sqls => exec_isSome (new_wellFormed root disk)⟩
  rintro e ⟨root, disk, hreach⟩
  have he := wellFormed_of_reaches hreach
  refine ⟨he.name_iff, fun db => he.shaped, fun sql stmt hparse => ?_⟩
  obtain ⟨r, e', hexec, -⟩ := execute_moves he (parse_wellFormed hparse)
  exact ⟨r, e', hexec⟩

theorem accesses_in_bounds_sample : ∃ r e',
    (sampleState [[.int 1]] [{ key := 1, rowId := 0 }]).execute insertOne = some (r, e') :=
  (accesses_in_bounds.1 _ sample_reachable).2.2 "insert into t values (1)".toList insertOne
    (by decide +kernel)

end Executor

end MiniDB.Execution

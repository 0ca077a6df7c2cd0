import MiniDB.Execution.Executor

/-!
# Execution/Frame — what a statement leaves alone

A handler `Ends` in a postcondition when each answer it can give, with the state behind it, meets
it; the rules for `Ends` follow the way the handlers are put together, so a postcondition is checked
at their exits.  `Tame` is the one that every statement but USE and DROP DATABASE ends in.

**`failed_changes_nothing`**: an error leaves the selected database and the last SELECT result as
they were, DROP DATABASE apart.
-/

namespace MiniDB.Execution

open MiniDB.Core MiniDB.Parser MiniDB.Storage

/-- A table comes with the answer to a query only. -/
def ExecResult.TableIsAnswer (r : ExecResult) : Prop :=
  ∀ t, r.resultTable = some t → r.status = .ok ∧ r.message = "Query OK".toList

namespace Executor

/-- Each answer, with the state behind it, meets the postcondition. -/
def Ends (Q : ExecResult → Executor → Prop) (out : Outcome) : Prop :=
  ∀ ⦃r e'⦄, out = some (r, e') → Q r e'

/-! ## The rules -/

section Rules

variable {Q : ExecResult → Executor → Prop} {e : Executor} {n : Text}

theorem ends_some {r : ExecResult} {e' : Executor} (h : Q r e') : Ends Q (some (r, e')) := by
  intro _ _ heq
  cases heq
  exact h

theorem ends_bind {α : Type} {x : Option α} {f : α → Outcome}
    (h : ∀ a, x = some a → Ends Q (f a)) : Ends Q (x >>= f) := by
  intro r e' heq
  obtain ⟨a, ha, hf⟩ := Option.bind_eq_some_iff.mp heq
  exact h a ha hf

theorem ends_ite {c : Prop} [Decidable c] {out out' : Outcome} (h : c → Ends Q out)
    (h' : ¬ c → Ends Q out') : Ends Q (if c then out else out') := by
  split
  · next hc => exact h hc
  · next hc => exact h' hc

/-- What a handler says without a database. -/
def noDatabase : List Text :=
  ["No database selected. Use 'use <dbname>' first.".toList, "No database selected".toList]

theorem ends_withDb {go : Database → Outcome} (herr : ∀ msg ∈ noDatabase, Q (.error msg) e)
    (hgo : ∀ db, e.currentDb = some db → Ends Q (go db)) : Ends Q (withDb e go) := by
  rw [withDb]
  split
  · exact ends_some (herr _ (by simp [noDatabase]))
  · split
    · exact ends_some (herr _ (by simp [noDatabase]))
    · next db hdb => exact hgo db hdb

theorem ends_withTable {go : Database → Nat → Table → Outcome}
    (herr : ∀ msg ∈ noDatabase, Q (.error msg) e) (hnone : Q (noTable n) e)
    (hgo : ∀ db i t, Ends Q (go db i t)) : Ends Q (withTable e n go) := by
  refine ends_withDb herr fun db _ => ?_
  split
  · exact ends_some hnone
  · exact ends_bind fun t _ => hgo _ _ t

end Rules

/-! ## Tame handlers -/

/-- The data root stays. -/
structure Rooted (e : Executor) (r : ExecResult) (e' : Executor) : Prop where
  dataRoot : e'.dataRoot = e.dataRoot
  answer : r.TableIsAnswer

/-- So does the name of the database; after an error, so do the database and the last SELECT
result. -/
structure Tame (e : Executor) (r : ExecResult) (e' : Executor) : Prop extends Rooted e r e' where
  name : e'.currentDbName = e.currentDbName
  failed : r.status = .error → e'.currentDb = e.currentDb ∧ e'.resultTable = e.resultTable

section Tame

variable {e : Executor}

theorem tame_error (msg : Text) : Tame e (.error msg) e :=
  ⟨⟨rfl, nofun⟩, rfl, fun _ => ⟨rfl, rfl⟩⟩

theorem tame_createDatabase (stmt : CreateDatabaseStmt) :
    Ends (Tame e) (e.execCreateDatabase stmt) :=
  ends_ite (fun _ => ends_some ⟨⟨rfl, nofun⟩, rfl, fun _ => ⟨rfl, rfl⟩⟩)
    (fun _ => ends_some ⟨⟨rfl, nofun⟩, rfl, nofun⟩)

theorem rooted_use (stmt : UseStmt) :
    Ends (fun r e' => r.status = .ok ∧ Rooted e r e') (e.execUse stmt) :=
  ends_some ⟨rfl, rfl, nofun⟩

theorem rooted_dropDatabase (stmt : DropDatabaseStmt) :
    Ends (Rooted e) (e.execDropDatabase stmt) := by
  refine ends_ite (fun _ => ends_bind fun db _ => ?_) fun _ => ?_
  · exact ends_ite (fun _ => ends_some ⟨rfl, nofun⟩) fun _ => ends_some ⟨rfl, nofun⟩
  · exact ends_ite (fun _ => ends_some ⟨rfl, nofun⟩) fun _ => ends_some ⟨rfl, nofun⟩

theorem tame_createTable (stmt : CreateTableStmt) : Ends (Tame e) (e.execCreateTable stmt) := by
  refine ends_withDb (fun _ _ => tame_error _) fun db hdb => ends_ite (fun hok => ?_) fun _ => ?_
  · have hsame : (db.createTable stmt.tableName (stmt.columns.map columnOf)).2 = db := by
      cases hget : db.getTable stmt.tableName with
      | none => simp [hget] at hok
      | some i => simp [Database.createTable, hget]
    exact ends_some ⟨⟨rfl, nofun⟩, rfl,
      fun _ => ⟨(congrArg some hsame).trans hdb.symm, rfl⟩⟩
  · exact ends_some ⟨⟨rfl, nofun⟩, rfl, nofun⟩

theorem tame_dropTable (stmt : DropTableStmt) : Ends (Tame e) (e.execDropTable stmt) := by
  refine ends_withDb (fun _ _ => tame_error _) fun db hdb => ends_bind fun ⟨ok, db', disk⟩ hdrop =>
    ends_ite (fun hok => ?_) fun _ => ?_
  · have hsame : db' = db := by
      rw [Database.dropTable] at hdrop
      split at hdrop
      · cases hdrop
        rfl
      · obtain ⟨_, -, hdrop⟩ := Option.bind_eq_some_iff.mp hdrop
        obtain ⟨_, -, hdrop⟩ := Option.bind_eq_some_iff.mp hdrop
        obtain ⟨_, -, hdrop⟩ := Option.bind_eq_some_iff.mp hdrop
        cases hdrop
        cases hok
    exact ends_some ⟨⟨rfl, nofun⟩, rfl,
      fun _ => ⟨(congrArg some hsame).trans hdb.symm, rfl⟩⟩
  · exact ends_some ⟨⟨rfl, nofun⟩, rfl, nofun⟩

theorem tame_select (stmt : SelectStmt) : Ends (Tame e) (e.execSelect stmt) := by
  refine ends_withTable (fun _ _ => tame_error _) (tame_error _) fun _ _ t =>
    ends_ite (fun _ => ends_some (tame_error _)) fun _ =>
    ends_ite (fun _ => ends_some (tame_error _)) fun _ => ?_
  exact ends_bind fun _ _ => ends_bind fun _ _ =>
    ends_some ⟨⟨rfl, fun _ _ => ⟨rfl, rfl⟩⟩, rfl, nofun⟩

theorem tame_delete (stmt : DeleteStmt) : Ends (Tame e) (e.execDelete stmt) := by
  refine ends_withTable (fun _ _ => tame_error _) (tame_error _) fun _ _ t => ends_bind fun _ _ =>
    ends_ite (fun _ => ends_some (tame_error _)) fun _ => ?_
  exact ends_bind fun _ _ => ends_some ⟨⟨rfl, nofun⟩, rfl, nofun⟩

theorem tame_insert (stmt : InsertStmt) : Ends (Tame e) (e.execInsert stmt) := by
  refine ends_withTable (fun _ _ => tame_error _) (tame_error _) fun _ _ t =>
    ends_ite (fun _ => ends_some (tame_error _)) fun _ =>
    ends_bind fun _ _ => ends_bind fun _ _ => ends_bind fun _ _ => ?_
  refine ends_ite (fun _ => ends_some (tame_error _)) fun _ => ?_
  exact ends_bind fun _ _ => ends_some ⟨⟨rfl, nofun⟩, rfl, nofun⟩

theorem tame_update (stmt : UpdateStmt) : Ends (Tame e) (e.execUpdate stmt) := by
  refine ends_withTable (fun _ _ => tame_error _) (tame_error _) fun _ _ t => ?_
  split
  · exact ends_some (tame_error _)
  · refine ends_ite (fun _ => ends_some (tame_error _)) fun _ => ends_bind fun _ _ => ?_
    exact ends_bind fun _ _ => ends_some ⟨⟨rfl, nofun⟩, rfl, nofun⟩

/-- **Every statement but USE and DROP DATABASE is tame.** -/
theorem tame_execute {stmt : SQLStatement} (huse : stmt.kind ≠ .use)
    (hdrop : stmt.kind ≠ .dropDatabase) : Ends (Tame e) (e.execute stmt) := by
  cases hk : stmt.kind <;> simp only [execute, hk]
  case createDatabase => exact tame_createDatabase _
  case dropDatabase => exact absurd hk hdrop
  case use => exact absurd hk huse
  case createTable => exact tame_createTable _
  case dropTable => exact tame_dropTable _
  case select => exact tame_select _
  case delete => exact tame_delete _
  case insert => exact tame_insert _
  case update => exact tame_update _
  case invalid => exact ends_some (tame_error _)

theorem rooted_execute {stmt : SQLStatement} : Ends (Rooted e) (e.execute stmt) := by
  by_cases huse : stmt.kind = .use
  · rw [execute, huse]
    exact fun r e' h => (rooted_use _ h).2
  · by_cases hdrop : stmt.kind = .dropDatabase
    · rw [execute, hdrop]
      exact rooted_dropDatabase _
    · exact fun r e' h => (tame_execute huse hdrop h).toRooted

end Tame

/-- **Failed statements change nothing**, DROP DATABASE apart: not which database is selected, not
its tables, columns, rows and index entries, and not the last SELECT result. -/
theorem failed_changes_nothing {e e' : Executor} {stmt : SQLStatement} {r : ExecResult}
    (hdrop : stmt.kind ≠ .dropDatabase) (hexec : e.execute stmt = some (r, e'))
    (herr : r.status = .error) : e'.currentDbName = e.currentDbName ∧
      e'.currentDb = e.currentDb ∧ e'.resultTable = e.resultTable := by
  by_cases huse : stmt.kind = .use
  · rw [execute, huse] at hexec
    have hok := (rooted_use stmt.useStmt hexec).1
    cases hok.symm.trans herr
  · have htame := tame_execute huse hdrop hexec
    exact ⟨htame.name, htame.failed herr⟩

/-- A key that is taken is refused; the two rows and the last SELECT result stay. -/
theorem failed_duplicate : ∃ (e e' : Executor) (r : ExecResult) (table : Table),
    e.currentDb.map Database.tables = some [table] ∧ table.rows = [[.int 1], [.int 2]] ∧
    e.resultTable.rows = [[.int 2]] ∧
    e.execute
      { kind := .insert, insertStmt := { tableName := ['t'], values := [['1']], isInt := [true] } }
      = some (r, e') ∧ r = .error "Duplicate primary key: 1".toList ∧
    e'.currentDbName = e.currentDbName ∧ e'.currentDb = e.currentDb ∧
    e'.resultTable = e.resultTable := by
  let table : Table :=
    { name := ['t'], dataPath := "data/d/t.dat".toList
      columns := [{ name := ['a'], type := .int, isPrimary := true }]
      rows := [[.int 1], [.int 2]] }
  let e : Executor :=
    { dataRoot := "data".toList, currentDbName := ['d']
      currentDb := some
        { name := ['d'], dataDir := "data/d".toList, tableNames := [['t']], tables := [table]
          indexes := [{ entries := [{ key := 1, rowId := 0 }, { key := 2, rowId := 1 }] }] }
      resultTable :=
        { Table.ofName "__result__".toList with
          columns := [{ name := ['a'], type := .int }], rows := [[.int 2]] } }
  have hexec : e.execute
      { kind := .insert, insertStmt := { tableName := ['t'], values := [['1']], isInt := [true] } }
      = some (.error "Duplicate primary key: 1".toList, e) := by decide +kernel
  refine ⟨e, e, _, table, rfl, rfl, rfl, hexec, rfl, failed_changes_nothing ?_ hexec rfl⟩
  decide

end Executor

end MiniDB.Execution

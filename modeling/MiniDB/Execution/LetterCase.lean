import MiniDB.Execution.Executor
import MiniDB.Parser.Respelling
import MiniDB.Storage.Slots

/-!
# Execution/LetterCase — keywords in another case, end to end

The executor asks of a type word whether it is spelt `int`, so the case of a keyword that no other
function looks at decides the type of a column.

* `sameMeaning_iff` — a respelt text has the same statement and the same effect unless a type word
  that is taken is spelt differently;
* `run_respelt_iff` — the effect alone is the same unless one spelling is `int` and the other not.
-/

namespace MiniDB.Execution

open MiniDB.Core MiniDB.Parser MiniDB.Storage

/-- The two texts are parsed to one statement, and do the same to every executor. -/
def SameMeaning (s s' : Text) : Prop := parse s = parse s' ∧ ∀ e : Executor, e.run s = e.run s'

/-- **Keywords are case-insensitive** unless the parser takes a type word that is spelt
differently. -/
theorem sameMeaning_iff {s s' : Text} (h : Respelt (cString s) (cString s')) :
    SameMeaning s s' ↔ ¬ RespellsType s s' := by
  rw [← parse_respelt_iff h]
  refine ⟨And.left, fun hparse => ⟨hparse, fun e => ?_⟩⟩
  rw [Executor.run, Executor.run, hparse]

/-- A word in front of a character that ends it. -/
theorem spells_word {w s : Text} (h : isWord w = true) {c : Char} (hc : isIdentChar c = false) :
    Spells w (matchKeyword w) w (c :: s) :=
  .word h (by rintro _ ⟨⟩; exact hc)

theorem respelt_use : Respelt (cString "USE d".toList) (cString "use d".toList) := by
  have h : Respelt ("USE".toList ++ [' ', 'd']) ("use".toList ++ [' ', 'd']) :=
    .keyword (spells_word (by decide) (by decide)) (by decide) (by decide) (.same _)
  have hs : cString "USE d".toList = "USE".toList ++ [' ', 'd'] := by decide
  have hs' : cString "use d".toList = "use".toList ++ [' ', 'd'] := by decide
  rwa [hs, hs']

theorem sameMeaning_use :
    SameMeaning "USE d".toList "use d".toList ↔ ¬ RespellsType "USE d".toList "use d".toList :=
  sameMeaning_iff respelt_use

/-- The types of the columns of the selected database, table by table. -/
def declaredTypes (e : Executor) : Option (List (List ColumnType)) :=
  e.currentDb.map fun db => db.tables.map fun t => t.columns.map Column.type

/-- `INT` declares a string. -/
theorem create_int_upper : ¬ SameMeaning "create table t (a INT)".toList
      "create table t (a int)".toList ∧
    Respelt (cString "create table t (a INT)".toList) (cString "create table t (a int)".toList) ∧
    ∃ e : Executor,
      ((e.run "create table t (a INT)".toList).map fun p => declaredTypes p.2)
          = some (some [[.string]]) ∧
        ((e.run "create table t (a int)".toList).map fun p => declaredTypes p.2)
          = some (some [[.int]]) := by
  have hrun : ∃ e : Executor,
      ((e.run "create table t (a INT)".toList).map fun p => declaredTypes p.2)
          = some (some [[.string]]) ∧
        ((e.run "create table t (a int)".toList).map fun p => declaredTypes p.2)
          = some (some [[.int]]) := by
    refine ⟨{ dataRoot := "data".toList, currentDbName := ['d']
              currentDb := some { name := ['d'], dataDir := "data/d".toList } }, ?_, ?_⟩
    · decide +kernel
    · decide +kernel
  refine ⟨fun h => ?_, ?_, hrun⟩
  · obtain ⟨e, hupper, hlower⟩ := hrun
    rw [h.2 e, hlower] at hupper
    cases hupper
  · let before : Text → Text := fun s => "create".toList ++ ' ' :: ("table".toList ++
      ' ' :: (['t'] ++ ' ' :: (['('] ++ (['a'] ++ ' ' :: s))))
    have hs : cString "create table t (a INT)".toList = before ("INT".toList ++ [')']) := by decide
    have hs' : cString "create table t (a int)".toList = before ("int".toList ++ [')']) := by decide
    rw [hs, hs']
    refine .token (spells_word (by decide) (by decide)) (.blank (by decide) ?_)
    refine .token (spells_word (by decide) (by decide)) (.blank (by decide) ?_)
    refine .token (spells_word (by decide) (by decide)) (.blank (by decide) ?_)
    refine .token (.mark (show punctuation '(' = some .lparen from rfl)) ?_
    refine .token (spells_word (by decide) (by decide)) (.blank (by decide) ?_)
    exact .keyword (spells_word (by decide) (by decide)) (by decide) (by decide) (.same _)

/-! ## What the executor makes of a type word -/

/-- The parser takes a type word that one of the texts, and not the other, spells `int`. -/
def RespellsInt (s s' : Text) : Prop := ∃ ts ts', TakesTypes s s' ts ts' ∧
  ts.map Column.typeFromString ≠ ts'.map Column.typeFromString

theorem columnOf_eq_iff {cols cols' : List ColumnDef}
    (hu : cols.map ColumnDef.untyped = cols'.map ColumnDef.untyped) :
    cols.map Executor.columnOf = cols'.map Executor.columnOf ↔
      (cols.map ColumnDef.type).map Column.typeFromString
        = (cols'.map ColumnDef.type).map Column.typeFromString := by
  induction cols generalizing cols' with
  | nil =>
    obtain rfl := List.map_eq_nil_iff.mp hu.symm
    simp
  | cons col cols ih =>
    obtain ⟨col', cols', rfl, hc, hu⟩ := List.map_eq_cons_iff.mp hu.symm
    have hname : col'.untyped.name = col.untyped.name := by rw [hc]
    have hprimary : col'.untyped.isPrimary = col.untyped.isPrimary := by rw [hc]
    change col'.name = col.name at hname
    change col'.isPrimary = col.isPrimary at hprimary
    rw [List.map_cons, List.map_cons, List.cons.injEq, ih hu.symm]
    simp [Executor.columnOf, hname, hprimary]

/-- Statements with columns of the same types do the same. -/
theorem execute_eq_of_columns {stmt stmt' : SQLStatement} (h : stmt.untyped = stmt'.untyped)
    (hcols : stmt.createTable.columns.map Executor.columnOf
      = stmt'.createTable.columns.map Executor.columnOf)
    (e : Executor) : e.execute stmt = e.execute stmt' := by
  have hname : stmt.createTable.tableName = stmt'.createTable.tableName :=
    congrArg (fun s => s.createTable.tableName) h
  have hcreate : e.execCreateTable stmt.createTable = e.execCreateTable stmt'.createTable := by
    rw [Executor.execCreateTable, Executor.execCreateTable, hname, hcols]
  have hs : { stmt with createTable := stmt'.createTable } = stmt' := by
    calc { stmt with createTable := stmt'.createTable }
        = { stmt.untyped with createTable := stmt'.createTable } := rfl
      _ = { stmt'.untyped with createTable := stmt'.createTable } := by rw [h]
      _ = stmt' := rfl
  rw [← hs, Executor.execute, Executor.execute, hcreate]

/-- CREATE TABLE in an empty database shows the columns. -/
theorem columns_of_execute {stmt stmt' : SQLStatement} (hk : stmt.kind = .createTable)
    (hk' : stmt'.kind = .createTable) (h : ∀ e : Executor, e.execute stmt = e.execute stmt') :
    stmt.createTable.columns.map Executor.columnOf
      = stmt'.createTable.columns.map Executor.columnOf := by
  let e : Executor := { dataRoot := [], currentDbName := ['d'], currentDb := some {} }
  have hshown {st : SQLStatement} (hk : st.kind = .createTable) :
      (e.execute st).map (fun p => p.2.currentDb.map fun db => db.tables.map Table.columns)
        = some (some [st.createTable.columns.map Executor.columnOf]) := by
    simp [Executor.execute, hk, Executor.execCreateTable, Executor.withDb, e, Database.createTable,
      Database.getTable, Database.foldl_addColumn, Table.inDir]
  have heq := hshown hk
  rw [h e, hshown hk'] at heq
  simpa using heq.symm

/-- **A text and a respelt one do the same** unless the parser takes a type word that only one of
them spells `int`. -/
theorem run_respelt_iff {s s' : Text} (h : Respelt (cString s) (cString s')) :
    (∀ e : Executor, e.run s = e.run s') ↔ ¬ RespellsInt s s' := by
  obtain ⟨hparse, hnone⟩ | ⟨stmt, stmt', hparse, hparse', hsame, htypes⟩ := parse_respelt h
  · refine iff_of_true (fun e => ?_) fun ⟨ts, ts', htakes, _⟩ => hnone ts ts' htakes
    rw [Executor.run, Executor.run, hparse]
  · simp only [Executor.run_of_parse hparse, Executor.run_of_parse hparse']
    obtain rfl | ⟨hk, hu⟩ := hsame
    · refine iff_of_true (fun _ => rfl) fun ⟨ts, ts', htakes, hne⟩ => hne ?_
      obtain ⟨rfl, rfl⟩ := (htypes ts ts').mp htakes
      rfl
    · have hcols := columnOf_eq_iff (congrArg (fun s => s.createTable.columns) hu)
      have hk' : stmt'.kind = .createTable := (congrArg SQLStatement.kind hu).symm.trans hk
      constructor
      · rintro heq ⟨ts, ts', htakes, hne⟩
        obtain ⟨rfl, rfl⟩ := (htypes ts ts').mp htakes
        exact hne (hcols.mp (columns_of_execute hk hk' heq))
      · intro hnot
        refine execute_eq_of_columns hu (hcols.mpr ?_)
        by_contra hne
        exact hnot ⟨_, _, (htypes _ _).mpr ⟨rfl, rfl⟩, hne⟩

end MiniDB.Execution

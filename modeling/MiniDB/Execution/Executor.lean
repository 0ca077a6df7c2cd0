import MiniDB.Parser.Parser
import MiniDB.Storage.Database

/-!
# Execution/Executor — the execution engine

`Executor.execute` interprets a statement: it answers with an `ExecResult` and moves the state,
which holds the selected database, the last SELECT result and the disk.  An access outside a vector,
or through a null pointer, has no value.  Row numbers are naturals, and the source narrows them to
`int`: tables are taken to stay below 2³¹ rows.

The handlers of table statements start alike — a database must be selected, the table must exist —
and that beginning is `withTable`.
-/

namespace MiniDB.Execution

open MiniDB.Core MiniDB.Parser MiniDB.Storage

inductive Status where
  | ok | error
  deriving DecidableEq, Repr

structure ExecResult where
  status : Status := .ok
  message : Text := []
  /-- The table a SELECT points at. -/
  resultTable : Option Table := none
  deriving DecidableEq, Repr

namespace ExecResult

def ok (msg : Text) : ExecResult := { status := .ok, message := cString msg }

def error (msg : Text) : ExecResult := { status := .error, message := cString msg }

end ExecResult

/-- The executor, `g_result_table`, and the disk under both. -/
structure Executor where
  dataRoot : Text
  currentDbName : Text := []
  currentDb : Option Database := none
  resultTable : Table := Table.ofName "__result__".toList
  disk : Disk := {}
  deriving DecidableEq, Repr

/-- What a handler returns: the answer and the state after it, unless an access was undefined. -/
abbrev Outcome := Option (ExecResult × Executor)

namespace Executor

/-- `Executor(data_root)`: the directory is made if it is not there. -/
def new (dataRoot : Text) (disk : Disk) : Executor :=
  { dataRoot, disk := (disk.mkdir dataRoot).2 }

/-! ## Databases -/

/-- `data_root/name`. -/
def dbPath (dataRoot name : Text) : Text := cString dataRoot ++ '/' :: cString name

/-- A formatted message with one name in it, printed into a buffer of 512 bytes. -/
def nameMessage (before name after : Text) : Text :=
  snprintf 512 (before ++ cString name ++ after)

def execCreateDatabase (e : Executor) (stmt : CreateDatabaseStmt) : Outcome :=
  let disk := (e.disk.mkdir e.dataRoot).2
  let (ok, disk) := disk.mkdir (dbPath e.dataRoot stmt.databaseName)
  let e := { e with disk }
  if !ok then
    some (.error (nameMessage "Failed to create database '".toList stmt.databaseName ['\'']), e)
  else
    some (.ok (nameMessage "Database '".toList stmt.databaseName "' created".toList), e)

/-- The current database is saved and deselected before the directory is removed. -/
def execDropDatabase (e : Executor) (stmt : DropDatabaseStmt) : Outcome := do
  let e ←
    if e.currentDbName == cString stmt.databaseName then do
      let db ← e.currentDb
      some { e with disk := (db.saveAll e.disk).2, currentDb := none, currentDbName := [] }
    else some e
  let (ok, disk) := e.disk.rmdir (dbPath e.dataRoot stmt.databaseName)
  let e := { e with disk }
  if !ok then
    some (.error (nameMessage "Failed to drop database '".toList stmt.databaseName ['\'']), e)
  else
    some (.ok (nameMessage "Database '".toList stmt.databaseName "' dropped".toList), e)

/-- The previous database is saved and deleted; the new one starts without tables. -/
def execUse (e : Executor) (stmt : UseStmt) : Outcome :=
  let disk :=
    match e.currentDb with
    | some db => (db.saveAll e.disk).2
    | none => e.disk
  let db : Database := { name := stmt.databaseName, dataDir := dbPath e.dataRoot stmt.databaseName }
  some (.ok (nameMessage "Using database '".toList stmt.databaseName ['\'']),
    { e with disk, currentDbName := stmt.databaseName, currentDb := some db })

/-! ## The common beginning -/

/-- `require_db`, and the null check that follows it. -/
def withDb (e : Executor) (go : Database → Outcome) : Outcome :=
  if e.currentDbName.isEmpty then
    some (.error "No database selected. Use 'use <dbname>' first.".toList, e)
  else
    match e.currentDb with
    | none => some (.error "No database selected".toList, e)
    | some db => go db

def noTable (name : Text) : ExecResult :=
  .error (nameMessage "Table '".toList name "' does not exist".toList)

/-- `get_table`, and the error without one; the handler gets the table and its position. -/
def withTable (e : Executor) (tableName : Text) (go : Database → Nat → Table → Outcome) : Outcome :=
  withDb e fun db =>
    match db.getTable tableName with
    | none => some (noTable tableName, e)
    | some i => do
      let table ← db.tables[i]?
      go db i table

def noColumn (colName tableName : Text) : ExecResult :=
  .error (snprintf 512 ("Column '".toList ++ cString colName ++ "' not found in table '".toList
    ++ cString tableName ++ ['\'']))

/-- The column of the WHERE clause; without one, or without the clause, there is none. -/
def whereColumn (table : Table) (hasWhere : Bool) (cond : WhereClause) : Option Nat :=
  if hasWhere then table.findColumn cond.column else none

/-! ## Tables -/

def columnOf (cd : ColumnDef) : Column :=
  { name := cd.name, type := Column.typeFromString cd.type, isPrimary := cd.isPrimary }

def execCreateTable (e : Executor) (stmt : CreateTableStmt) : Outcome :=
  withDb e fun db =>
    let (ok, db) := db.createTable stmt.tableName (stmt.columns.map columnOf)
    let e := { e with currentDb := some db }
    if !ok then
      some (.error (nameMessage "Table '".toList stmt.tableName "' already exists".toList), e)
    else
      some (.ok (nameMessage "Table '".toList stmt.tableName "' created".toList), e)

def execDropTable (e : Executor) (stmt : DropTableStmt) : Outcome :=
  withDb e fun db => do
    let (ok, db, disk) ← db.dropTable (cString stmt.tableName) e.disk
    let e := { e with currentDb := some db, disk }
    if !ok then
      some (noTable stmt.tableName, e)
    else
      some (.ok (nameMessage "Table '".toList stmt.tableName "' dropped".toList), e)

/-! ## Conditions and literals -/

/-- A literal as a value: the text of an int through `atoi`. -/
def literal (text : Text) (isInt : Bool) : Value :=
  if isInt then .int (atoi (cString text)) else .string text

def parseWhereValue (cond : WhereClause) : Value := literal cond.constValue cond.isIntLiteral

/-- A row without the column does not match. -/
def matchesWhere (row : Row) (col : Option Nat) (cond : WhereClause) : Bool :=
  match col.bind (row[·]?) with
  | none => false
  | some cell =>
    let cmp := Value.compare cell (parseWhereValue cond)
    if cond.op == ['='] then cmp == 0
    else if cond.op == ['<'] then cmp < 0
    else if cond.op == ['>'] then cmp > 0
    else false

/-- `if (has_where) { if (!matches_where(..)) continue; }`. -/
def selected (hasWhere : Bool) (cond : WhereClause) (whereCol : Option Nat) (row : Row) : Bool :=
  !hasWhere || matchesWhere row whereCol cond

/-! ## SELECT -/

/-- The cells of a row that SELECT returns; no target is all of them. -/
def projectRow (target : Option Nat) (row : Row) : Option Row :=
  match target with
  | none => some row
  | some col => do return [← row[col]?]

/-- The loop over the rows, on the result so far. -/
def selectLoop (sel : Row → Bool) (target : Option Nat) : List Row → Table → Option Table
  | [], result => some result
  | row :: rows, result =>
    if !sel row then selectLoop sel target rows result
    else do
      let newRow ← projectRow target row
      selectLoop sel target rows (result.insertRow newRow)

/-- The result table with its columns, before the rows. -/
def resultSchema (table : Table) (target : Option Nat) : Option Table :=
  let result := Table.ofName "__result__".toList
  match target with
  | none => some (table.columns.foldl Table.addColumn result)
  | some col => do
    let c ← table.columns[col]?
    return result.addColumn c

def execSelect (e : Executor) (stmt : SelectStmt) : Outcome :=
  withTable e stmt.tableName fun _ _ table =>
    let selectAll := stmt.columnName == ['*']
    let target := if selectAll then none else table.findColumn stmt.columnName
    if !selectAll && target.isNone then some (noColumn stmt.columnName stmt.tableName, e)
    else
      let whereCol := whereColumn table stmt.hasWhere stmt.cond
      if stmt.hasWhere && whereCol.isNone then some (noColumn stmt.cond.column stmt.tableName, e)
      else do
        let result ← resultSchema table target
        let result ← selectLoop (selected stmt.hasWhere stmt.cond whereCol) target table.rows result
        some ({ ExecResult.ok "Query OK".toList with resultTable := some result },
          { e with resultTable := result })

/-! ## DELETE -/

/-- The index entry of a row that is about to go. -/
def unindex (idx : Option Index) (pkCol : Option Nat) (row : Row) : Option (Option Index) :=
  match idx, pkCol with
  | some idx, some col => do
    match ← row[col]? with
    | .int key => do
      let (_, idx) ← idx.remove key
      return some idx
    | _ => return some idx
  | _, _ => some idx

/-- The loop from the last row down, whose counter is an `int` in the source: the table, its index
and the number of rows deleted. -/
def deleteLoop (sel : Row → Bool) (pkCol : Option Nat) :
    Nat → Table → Option Index → Nat → Option (Table × Option Index × Nat)
  | 0, table, idx, deleted => some (table, idx, deleted)
  | i + 1, table, idx, deleted => do
    let row ← table.rows[i]?
    if !sel row then deleteLoop sel pkCol i table idx deleted
    else do
      let idx ← unindex idx pkCol row
      let table ← table.removeRow i
      deleteLoop sel pkCol i table idx (deleted + 1)

/-- A count and a text, printed into a buffer of 256 bytes. -/
def countMessage (n : Nat) (text : String) : Text := snprintf 256 (natText n ++ text.toList)

/-- The index `get_index` points at. -/
def indexAt (db : Database) (name : Text) : Option (Option Index) :=
  match db.getIndex name with
  | none => some none
  | some j => do return some (← db.indexes[j]?)

/-- The table at position `i` and the index `get_index` points at, after a handler wrote to them. -/
def putTable (e : Executor) (db : Database) (i : Nat) (name : Text) (table : Table)
    (idx : Option Index) : Executor :=
  let indexes :=
    match db.getIndex name, idx with
    | some j, some idx => db.indexes.set j idx
    | _, _ => db.indexes
  { e with currentDb := some { db with tables := db.tables.set i table, indexes } }

def execDelete (e : Executor) (stmt : DeleteStmt) : Outcome :=
  withTable e stmt.tableName fun db i table => do
    let idx ← indexAt db stmt.tableName
    let whereCol := whereColumn table stmt.hasWhere stmt.cond
    if stmt.hasWhere && whereCol.isNone then some (noColumn stmt.cond.column stmt.tableName, e)
    else do
      let (table, idx, deleted) ← deleteLoop (selected stmt.hasWhere stmt.cond whereCol)
        table.primaryKeyIndex table.rows.length table idx 0
      some (.ok (countMessage deleted " row(s) deleted"), putTable e db i stmt.tableName table idx)

/-! ## INSERT -/

/-- The loop that builds the row. -/
def buildRow : List Text → List Bool → Option Row
  | [], _ => some []
  | _ :: _, [] => none
  | v :: values, b :: isInt => do return literal v b :: (← buildRow values isInt)

/-- The key under which the row is entered in the index: `pk_val`, which stays 0 for a key that is
no int; and whether the index has it, which is asked of an int key only. -/
def insertKey (idx : Option Index) (pkCol : Option Nat) (row : Row) : Option (Int × Bool) :=
  match idx, pkCol with
  | some idx, some col => do
    match ← row[col]? with
    | .int key => do return (key, (← idx.find key).isSome)
    | _ => return (0, false)
  | _, _ => some (0, false)

/-- The index entry of the row inserted at `rowIdx`, which the source narrows to an `int`. -/
def enter (idx : Option Index) (pkCol : Option Nat) (pkVal : Int) (rowIdx : Nat) :
    Option (Option Index) :=
  match idx, pkCol with
  | some idx, some _ => do return some (← idx.insert pkVal rowIdx)
  | _, _ => some idx

def execInsert (e : Executor) (stmt : InsertStmt) : Outcome :=
  withTable e stmt.tableName fun db i table =>
    if stmt.values.length != table.columns.length then
      some (.error (snprintf 512 ("Column count mismatch: expected ".toList
        ++ natText table.columns.length ++ ", got ".toList ++ natText stmt.values.length)), e)
    else do
      let row ← buildRow stmt.values stmt.isInt
      let pkCol := table.primaryKeyIndex
      let idx ← indexAt db stmt.tableName
      let (pkVal, existing) ← insertKey idx pkCol row
      if existing then
        some (.error (snprintf 256 ("Duplicate primary key: ".toList ++ intText pkVal)), e)
      else do
        let idx ← enter idx pkCol pkVal table.rows.length
        some (.ok "1 row inserted".toList,
          putTable e db i stmt.tableName (table.insertRow row) idx)

/-! ## UPDATE -/

/-- The entry written for a row whose key was set: the old entry stays. -/
def reindex (idx : Option Index) (rewritesKey : Bool) (newVal : Value) (i : Nat) :
    Option (Option Index) :=
  match idx, newVal with
  | some idx, .int key =>
    if rewritesKey then do return some (← idx.insert key i) else some (some idx)
  | _, _ => some idx

/-- The loop over `k` rows from position `i` on: the table, its index, into which the source enters
`i` as an `int`, and the number updated. -/
def updateLoop (sel : Row → Bool) (setCol : Nat) (newVal : Value) (rewritesKey : Bool) :
    Nat → Nat → Table → Option Index → Nat → Option (Table × Option Index × Nat)
  | 0, _, table, idx, updated => some (table, idx, updated)
  | k + 1, i, table, idx, updated => do
    let row ← table.rows[i]?
    if !sel row then updateLoop sel setCol newVal rewritesKey k (i + 1) table idx updated
    else do
      let table ← table.setCell i setCol newVal
      let idx ← reindex idx rewritesKey newVal i
      updateLoop sel setCol newVal rewritesKey k (i + 1) table idx (updated + 1)

def execUpdate (e : Executor) (stmt : UpdateStmt) : Outcome :=
  withTable e stmt.tableName fun db i table =>
    match table.findColumn stmt.setColumn with
    | none => some (noColumn stmt.setColumn stmt.tableName, e)
    | some setCol =>
      let whereCol := whereColumn table stmt.hasWhere stmt.cond
      if stmt.hasWhere && whereCol.isNone then some (noColumn stmt.cond.column stmt.tableName, e)
      else do
        let idx ← indexAt db stmt.tableName
        let (table, idx, updated) ← updateLoop (selected stmt.hasWhere stmt.cond whereCol) setCol
          (literal stmt.setValue stmt.setIsInt) (some setCol == table.primaryKeyIndex)
          table.rows.length 0 table idx 0
        some (.ok (countMessage updated " row(s) updated"),
          putTable e db i stmt.tableName table idx)

/-! ## The engine -/

def execute (e : Executor) (stmt : SQLStatement) : Outcome :=
  match stmt.kind with
  | .createDatabase => e.execCreateDatabase stmt.createDatabase
  | .dropDatabase => e.execDropDatabase stmt.dropDatabase
  | .use => e.execUse stmt.useStmt
  | .createTable => e.execCreateTable stmt.createTable
  | .dropTable => e.execDropTable stmt.dropTable
  | .select => e.execSelect stmt.selectStmt
  | .delete => e.execDelete stmt.deleteStmt
  | .insert => e.execInsert stmt.insertStmt
  | .update => e.execUpdate stmt.updateStmt
  | .invalid =>
    some (.error (if stmt.errorMsg.isEmpty then "Unknown statement".toList else stmt.errorMsg), e)

/-- Shutdown: the current database is saved. -/
def shutdown (e : Executor) : Executor :=
  match e.currentDb with
  | some db => { e with disk := (db.saveAll e.disk).2 }
  | none => e

/-- A statement as it reaches the executor: parsed, then executed. -/
def run (e : Executor) (sql : Text) : Outcome := do
  let stmt ← parse sql
  e.execute stmt

theorem run_of_parse {e : Executor} {sql : Text} {stmt : SQLStatement} (h : parse sql = some stmt) :
    e.run sql = e.execute stmt := by
  rw [run, h]
  rfl

end Executor

end MiniDB.Execution

import MiniDB.Storage.Index
import MiniDB.Storage.TableFile

/-!
# Storage/Database — the tables of a database, in three parallel vectors

`_table_names`, `_tables` and `_indexes` are searched by name and read by position; `getTable` and
`getIndex` return the position a pointer would point at.  Dropping a table shifts all three.
-/

namespace MiniDB.Storage

open MiniDB.Core

structure Database where
  name : Text := []
  dataDir : Text := []
  tableNames : List Text := []
  tables : List Table := []
  indexes : List Index := []
  deriving DecidableEq, Repr

namespace Database

/-- The position of the table. -/
def getTable (db : Database) (name : Text) : Option Nat := db.tableNames.findIdx? (· == cString name)

/-- The position of its index. -/
def getIndex (db : Database) (name : Text) : Option Nat := db.tableNames.findIdx? (· == cString name)

/-- Whether the table was created, and the database after it; every table gets an index, with or
without a primary key. -/
def createTable (db : Database) (name : Text) (columns : List Column) : Bool × Database :=
  match db.getTable name with
  | some _ => (false, db)
  | none =>
    let table := columns.foldl Table.addColumn (Table.inDir name db.dataDir)
    (true, { db with
      indexes := db.indexes ++ [{}]
      tableNames := db.tableNames ++ [name]
      tables := db.tables ++ [table] })

/-- The path of a file of a table: `dir/name.ext`, or `name.ext` in a buffer of 512 bytes. -/
def filePath (db : Database) (name : Text) (ext : String) : Text :=
  if db.dataDir.isEmpty then snprintf 512 (cString name ++ ext.toList)
  else cString db.dataDir ++ '/' :: cString name ++ ext.toList

/-- Whether the table was dropped, the database and the disk after it. -/
def dropTable (db : Database) (name : Text) (disk : Disk) : Option (Bool × Database × Disk) :=
  match db.tableNames.findIdx? (· == cString name) with
  | none => some (false, db, disk)
  | some i => do
    let disk := (disk.remove (db.filePath name ".dat")).remove (db.filePath name ".idx")
    let rounds := db.tableNames.length - (i + 1)
    let tableNames ← InPlace.shiftLeft rounds i db.tableNames
    let tables ← InPlace.shiftLeft rounds i db.tables
    let indexes ← InPlace.shiftLeft rounds i db.indexes
    return (true, { db with
      tableNames := tableNames.dropLast
      tables := tables.dropLast
      indexes := indexes.dropLast }, disk)

/-- The tables are saved in order, up to the first that cannot be. -/
def saveTables : List Table → Disk → Bool × Disk
  | [], disk => (true, disk)
  | t :: ts, disk =>
    match t.saveToFile disk with
    | (false, disk) => (false, disk)
    | (true, disk) => saveTables ts disk

def saveAll (db : Database) (disk : Disk) : Bool × Disk :=
  if db.dataDir.isEmpty then (false, disk) else saveTables db.tables disk

end Database

end MiniDB.Storage

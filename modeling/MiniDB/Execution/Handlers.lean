import MiniDB.Execution.Loops
import MiniDB.Parser.WellFormed

/-!
# Execution/Handlers — what each table handler does to the table it names

`Executor.At e n … pre s post` says that a database is selected whose table `n` is the slot `s`,
well formed.  There every handler is defined, and its equation says what it answers and what becomes
of the slot; without the table, or without the database, it answers an error and changes nothing.
-/

namespace MiniDB.Execution

open MiniDB.Core MiniDB.Parser MiniDB.Storage Executor

/-! ## What a statement says about rows -/

/-- The row an INSERT statement builds. -/
def insertedRow (stmt : InsertStmt) : Row :=
  (stmt.values.zip stmt.isInt).map fun v => literal v.1 v.2

/-- The rows a condition selects in a table. -/
def selects (hasWhere : Bool) (cond : WhereClause) (t : Table) : Row → Bool :=
  selected hasWhere cond (whereColumn t hasWhere cond)

/-- The condition is on a column the table does not have. -/
def missesWhere (hasWhere : Bool) (cond : WhereClause) (t : Table) : Bool :=
  hasWhere && (whereColumn t hasWhere cond).isNone

/-- The value an UPDATE statement writes. -/
def newValue (stmt : UpdateStmt) : Value := literal stmt.setValue stmt.setIsInt

theorem literal_stored {v : Text × Bool} (h : IsLiteral v) : (literal v.1 v.2).Stored := by
  rw [literal]
  split
  · exact isInt32_atoi _
  · exact h.1

theorem insertedRow_fits {stmt : InsertStmt} {columns : List Column}
    (hlen : stmt.values.length = stmt.isInt.length)
    (hlit : ∀ v ∈ stmt.values.zip stmt.isInt, IsLiteral v)
    (hcols : stmt.values.length = columns.length) : Row.Fits (insertedRow stmt) columns where
  arity := by simp [insertedRow, ← hlen, hcols]
  stored v hv := by
    obtain ⟨lit, hm, rfl⟩ := List.mem_map.mp hv
    exact literal_stored (hlit lit hm)

namespace Executor

/-- The state with these tables in the selected database. -/
def withSlots (e : Executor) (name dir : Text) (slots : List Slot) : Executor :=
  { e with currentDb := some (.ofSlots name dir slots) }

/-- A selected database with these tables. -/
structure Holds (e : Executor) (name dir : Text) (slots : List Slot) : Prop where
  selected : e.currentDbName ≠ []
  db : e.currentDb = some (.ofSlots name dir slots)

/-- The table `n` of the selected database is the slot `s`. -/
structure At (e : Executor) (n name dir : Text) (pre : List Slot) (s : Slot) (post : List Slot) :
    Prop extends e.Holds name dir (pre ++ s :: post) where
  clean : '\x00' ∉ n
  name : s.table.name = n
  first : Database.Absent pre n
  slot : s.WellFormed

variable {e : Executor} {n name dir : Text} {pre post slots : List Slot} {s : Slot}

/-! ## The common beginning -/

theorem withDb_holds (h : e.Holds name dir slots) (go : Database → Outcome) :
    withDb e go = go (.ofSlots name dir slots) := by
  rw [withDb, h.db, if_neg (by simpa using h.selected)]

theorem withTable_absent (h : e.Holds name dir slots) (h0 : '\x00' ∉ n)
    (hn : Database.Absent slots n) (go : Database → Nat → Table → Outcome) :
    withTable e n go = some (noTable n, e) := by
  rw [withTable, withDb_holds h, Database.getTable_absent h0 hn]

theorem withTable_at (h : e.At n name dir pre s post) (go : Database → Nat → Table → Outcome) :
    withTable e n go = go (.ofSlots name dir (pre ++ s :: post)) pre.length s.table := by
  rw [withTable, withDb_holds h.toHolds, Database.getTable_present h.clean h.name h.first]
  simp only [Database.tables_split, Option.bind_eq_bind, Option.bind_some]

theorem indexAt_at (h : e.At n name dir pre s post) :
    indexAt (.ofSlots name dir (pre ++ s :: post)) n = some (some s.index) := by
  rw [indexAt, Database.getIndex_eq, Database.getTable_present h.clean h.name h.first]
  simp only [Database.indexes_split, Option.bind_eq_bind, Option.bind_some]
  rfl

theorem putTable_at (h : e.At n name dir pre s post) (table : Table) (index : Index)
    (hname : table.name = s.table.name := by rfl) :
    putTable e (.ofSlots name dir (pre ++ s :: post)) pre.length n table (some index)
      = e.withSlots name dir (pre ++ ⟨table, index⟩ :: post) := by
  have hget : (Database.ofSlots name dir (pre ++ s :: post)).getIndex n = some pre.length :=
    Database.getTable_present h.clean h.name h.first
  simp only [putTable, hget, withSlots, Database.set_split hname]

/-! ## CREATE TABLE and DROP TABLE -/

theorem eq_of_holds (h : e.Holds name dir slots) :
    { e with currentDb := some (.ofSlots name dir slots) } = e := by
  rw [← h.db]

/-- A table of a new name is made, and named in the answer. -/
theorem execCreateTable_absent {stmt : CreateTableStmt} (h : e.Holds name dir slots)
    (h0 : '\x00' ∉ stmt.tableName) (habs : Database.Absent slots stmt.tableName) :
    e.execCreateTable stmt
      = some (.ok (nameMessage "Table '".toList stmt.tableName "' created".toList),
          e.withSlots name dir (slots ++
            [⟨Database.freshTable stmt.tableName dir (stmt.columns.map columnOf), {}⟩])) := by
  rw [execCreateTable, withDb_holds h, Database.createTable_absent h0 habs]
  rfl

theorem execCreateTable_present {stmt : CreateTableStmt} (h : e.Holds name dir (pre ++ s :: post))
    (h0 : '\x00' ∉ stmt.tableName) (hs : s.table.name = stmt.tableName)
    (hpre : Database.Absent pre stmt.tableName) :
    e.execCreateTable stmt
      = some (.error (nameMessage "Table '".toList stmt.tableName "' already exists".toList),
          e) := by
  rw [execCreateTable, withDb_holds h, Database.createTable_present h0 hs hpre]
  simp only [Bool.not_false, if_true, eq_of_holds h]

theorem execDropTable_absent {stmt : DropTableStmt} (h : e.Holds name dir slots)
    (h0 : '\x00' ∉ stmt.tableName) (habs : Database.Absent slots stmt.tableName) :
    e.execDropTable stmt = some (noTable stmt.tableName, e) := by
  rw [execDropTable, withDb_holds h, cString_of_notMem h0, Database.dropTable_absent h0 habs]
  simp only [Option.bind_eq_bind, Option.bind_some, Bool.not_false, if_true, eq_of_holds h]

/-- The table goes, and its files. -/
theorem execDropTable_present {stmt : DropTableStmt} (h : e.Holds name dir (pre ++ s :: post))
    (h0 : '\x00' ∉ stmt.tableName) (hs : s.table.name = stmt.tableName)
    (hpre : Database.Absent pre stmt.tableName) :
    e.execDropTable stmt
      = some (.ok (nameMessage "Table '".toList stmt.tableName "' dropped".toList),
          { e.withSlots name dir (pre ++ post) with
            disk := Database.dropFiles (.ofSlots name dir (pre ++ s :: post)) stmt.tableName
              e.disk }) := by
  rw [execDropTable, withDb_holds h, cString_of_notMem h0, Database.dropTable_present h0 hs hpre]
  rfl

/-! ## SELECT -/

/-- The column SELECT asks for; none for all of them. -/
def selectTarget (stmt : SelectStmt) (t : Table) : Option Nat :=
  if stmt.columnName == ['*'] then none else t.findColumn stmt.columnName

/-- SELECT asks for a column the table does not have. -/
def missesTarget (stmt : SelectStmt) (t : Table) : Bool :=
  !(stmt.columnName == ['*']) && (selectTarget stmt t).isNone

/-- The columns of the answer. -/
def selectColumns (stmt : SelectStmt) (t : Table) : List Column :=
  match selectTarget stmt t with
  | none => t.columns
  | some col => t.columns[col]?.toList

/-- The table SELECT answers with. -/
def selectAnswer (stmt : SelectStmt) (t : Table) : Table :=
  { Table.ofName "__result__".toList with
    columns := selectColumns stmt t
    rows := (t.rows.filter (selects stmt.hasWhere stmt.cond t)).map (project (selectTarget stmt t)) }

theorem selectTarget_lt {stmt : SelectStmt} {t : Table} {c : Nat}
    (h : selectTarget stmt t = some c) : c < t.columns.length := by
  rw [selectTarget] at h
  split at h
  · cases h
  · exact Table.findColumn_lt h

/-- **SELECT answers with the selected rows, projected**, and keeps the answer. -/
theorem execSelect_at {stmt : SelectStmt} (h : e.At stmt.tableName name dir pre s post) :
    e.execSelect stmt =
      if missesTarget stmt s.table then some (noColumn stmt.columnName stmt.tableName, e)
      else if missesWhere stmt.hasWhere stmt.cond s.table then
        some (noColumn stmt.cond.column stmt.tableName, e)
      else some ({ ExecResult.ok "Query OK".toList with
          resultTable := some (selectAnswer stmt s.table) },
        { e with resultTable := selectAnswer stmt s.table }) := by
  have hrows : ∀ row ∈ s.table.rows, HasKeyCell (selectTarget stmt s.table) row :=
    fun row hrow c hc => ((h.slot.table.rows row hrow).cell (selectTarget_lt hc)).imp
      fun _ hv => hv.1
  have hschema : resultSchema s.table (selectTarget stmt s.table)
      = some { Table.ofName "__result__".toList with columns := selectColumns stmt s.table } := by
    cases hc : selectTarget stmt s.table with
    | none => simp [resultSchema, selectColumns, hc, Database.foldl_addColumn, Table.ofName]
    | some c =>
      simp [resultSchema, selectColumns, hc, List.getElem?_eq_getElem (selectTarget_lt hc),
        Table.addColumn, Table.ofName]
  rw [execSelect, withTable_at h]
  change (if missesTarget stmt s.table then _
    else if missesWhere stmt.hasWhere stmt.cond s.table then _
    else (resultSchema s.table (selectTarget stmt s.table)).bind fun result =>
      (selectLoop (selects stmt.hasWhere stmt.cond s.table) (selectTarget stmt s.table)
        s.table.rows result).bind _) = _
  rw [hschema, Option.bind_some, selectLoop_spec hrows, Option.bind_some]
  rfl

/-! ## DELETE -/

/-- The table without the rows that are selected. -/
def withoutRows (t : Table) (sel : Row → Bool) : Table :=
  { t with rows := t.rows.filter fun row => !sel row }

/-- **DELETE removes the selected rows**, reports their number, and unbinds their int keys. -/
theorem execDelete_at {stmt : DeleteStmt} (h : e.At stmt.tableName name dir pre s post)
    (hw : missesWhere stmt.hasWhere stmt.cond s.table = false) : ∃ idx', e.execDelete stmt
      = some (.ok (countMessage (s.table.rows.countP (selects stmt.hasWhere stmt.cond s.table))
            " row(s) deleted"),
          e.withSlots name dir (pre ++
            ⟨withoutRows s.table (selects stmt.hasWhere stmt.cond s.table), idx'⟩ :: post)) ∧
      idx'.Sorted ∧ ∀ k, idx'.rowOf k =
        if k ∈ keysOf s.table.primaryKeyIndex
          (s.table.rows.filter (selects stmt.hasWhere stmt.cond s.table)) then none
        else s.index.rowOf k := by
  obtain ⟨idx', hloop, hs', hmap⟩ := deleteLoop_spec (selects stmt.hasWhere stmt.cond s.table)
    h.slot.index s.table (fun row hrow => hasKeyCell_of_fits (h.slot.table.rows row hrow)) [] 0
  refine ⟨idx', ?_, hs', hmap⟩
  rw [List.append_nil, List.append_nil, Nat.zero_add] at hloop
  rw [execDelete, withTable_at h]
  change (indexAt _ _).bind (fun idx => if missesWhere stmt.hasWhere stmt.cond s.table then _
    else (deleteLoop (selects stmt.hasWhere stmt.cond s.table) s.table.primaryKeyIndex
      s.table.rows.length s.table idx 0).bind _) = _
  rw [indexAt_at h, Option.bind_some, if_neg (by simp [hw]), hloop, Option.bind_some]
  exact congrArg (fun e' => some (_, e')) (putTable_at h _ idx')

theorem execDelete_missesWhere {stmt : DeleteStmt} (h : e.At stmt.tableName name dir pre s post)
    (hw : missesWhere stmt.hasWhere stmt.cond s.table = true) :
    e.execDelete stmt = some (noColumn stmt.cond.column stmt.tableName, e) := by
  rw [execDelete, withTable_at h]
  change (indexAt _ _).bind (fun idx => if missesWhere stmt.hasWhere stmt.cond s.table then _
    else _) = _
  rw [indexAt_at h, Option.bind_some, if_pos hw]

/-! ## INSERT -/

/-- The answer to a wrong number of values. -/
def arityMismatch (stmt : InsertStmt) (t : Table) : ExecResult :=
  .error (snprintf 512 ("Column count mismatch: expected ".toList ++ natText t.columns.length
    ++ ", got ".toList ++ natText stmt.values.length))

/-- The answer to a key that is taken. -/
def duplicateKey (key : Int) : ExecResult :=
  .error (snprintf 256 ("Duplicate primary key: ".toList ++ intText key))

theorem execInsert_arity {stmt : InsertStmt} (h : e.At stmt.tableName name dir pre s post)
    (hlen : stmt.values.length ≠ s.table.columns.length) :
    e.execInsert stmt = some (arityMismatch stmt s.table, e) := by
  rw [execInsert, withTable_at h, if_pos (by simpa using hlen)]
  rfl

section Insert

variable {stmt : InsertStmt} (h : e.At stmt.tableName name dir pre s post)
  (hlen : stmt.values.length = s.table.columns.length)
  (hint : stmt.values.length = stmt.isInt.length)
  (hfits : Row.Fits (insertedRow stmt) s.table.columns)

include h hlen hint hfits

/-- INSERT, once the row is built and its key looked up. -/
theorem execInsert_at : e.execInsert stmt
    = if taken s.index s.table.primaryKeyIndex (insertedRow stmt) then
        some (duplicateKey (entryKey s.table.primaryKeyIndex (insertedRow stmt)), e)
      else (enter (some s.index) s.table.primaryKeyIndex
          (entryKey s.table.primaryKeyIndex (insertedRow stmt)) s.table.rows.length).bind fun idx =>
        some (.ok "1 row inserted".toList,
          putTable e (.ofSlots name dir (pre ++ s :: post)) pre.length stmt.tableName
            (s.table.insertRow (insertedRow stmt)) idx) := by
  rw [execInsert, withTable_at h, if_neg (by simpa using hlen)]
  simp only [buildRow_spec hint, indexAt_at h, Option.bind_eq_bind, Option.bind_some]
  rw [← insertedRow, insertKey_spec h.slot.index (hasKeyCell_of_fits hfits)]
  rfl

/-- **A key that is taken is refused.** -/
theorem execInsert_taken
    (hk : taken s.index s.table.primaryKeyIndex (insertedRow stmt) = true) :
    e.execInsert stmt
      = some (duplicateKey (entryKey s.table.primaryKeyIndex (insertedRow stmt)), e) := by
  rw [execInsert_at h hlen hint hfits, if_pos hk]

/-- **INSERT appends the row**, and enters it in the index of a table with a key. -/
theorem execInsert_done
    (hk : taken s.index s.table.primaryKeyIndex (insertedRow stmt) = false) :
    ∃ idx', e.execInsert stmt = some (.ok "1 row inserted".toList,
        e.withSlots name dir (pre ++ ⟨s.table.insertRow (insertedRow stmt), idx'⟩ :: post)) ∧
      idx'.Sorted ∧ ∀ k, idx'.rowOf k =
        if s.table.primaryKeyIndex.isSome ∧ k = entryKey s.table.primaryKeyIndex (insertedRow stmt)
        then some (s.table.rows.length : Int) else s.index.rowOf k := by
  obtain ⟨idx', henter, hs', hmap⟩ := enter_spec h.slot.index s.table.primaryKeyIndex
    (entryKey s.table.primaryKeyIndex (insertedRow stmt)) s.table.rows.length
  refine ⟨idx', ?_, hs', hmap⟩
  rw [execInsert_at h hlen hint hfits, if_neg (by simp [hk]), henter, Option.bind_some]
  exact congrArg (fun e' => some (_, e')) (putTable_at h _ idx')

end Insert

/-! ## UPDATE -/

/-- The table with the cell set in the rows that are selected. -/
def withCells (t : Table) (sel : Row → Bool) (setCol : Nat) (v : Value) : Table :=
  { t with rows := t.rows.map (updateRow sel setCol v) }

theorem execUpdate_noColumn {stmt : UpdateStmt} (h : e.At stmt.tableName name dir pre s post)
    (hcol : s.table.findColumn stmt.setColumn = none) :
    e.execUpdate stmt = some (noColumn stmt.setColumn stmt.tableName, e) := by
  rw [execUpdate, withTable_at h, hcol]

theorem execUpdate_missesWhere {stmt : UpdateStmt} (h : e.At stmt.tableName name dir pre s post)
    {setCol : Nat} (hcol : s.table.findColumn stmt.setColumn = some setCol)
    (hw : missesWhere stmt.hasWhere stmt.cond s.table = true) :
    e.execUpdate stmt = some (noColumn stmt.cond.column stmt.tableName, e) := by
  rw [execUpdate, withTable_at h, hcol]
  exact if_pos hw

/-- **UPDATE sets the cell in the selected rows**, reports their number, and binds the new key to
the last of them. -/
theorem execUpdate_at {stmt : UpdateStmt} (h : e.At stmt.tableName name dir pre s post)
    {setCol : Nat} (hcol : s.table.findColumn stmt.setColumn = some setCol)
    (hw : missesWhere stmt.hasWhere stmt.cond s.table = false) : ∃ idx', e.execUpdate stmt
      = some (.ok (countMessage (s.table.rows.countP (selects stmt.hasWhere stmt.cond s.table))
            " row(s) updated"),
          e.withSlots name dir (pre ++ ⟨withCells s.table (selects stmt.hasWhere stmt.cond s.table)
            setCol (newValue stmt), idx'⟩ :: post)) ∧
      idx'.Sorted ∧ ∀ k, idx'.rowOf k =
        if rewrites (some setCol == s.table.primaryKeyIndex) (newValue stmt) k then
          ((lastPos (selects stmt.hasWhere stmt.cond s.table) 0 s.table.rows).map Nat.cast).or
            (s.index.rowOf k)
        else s.index.rowOf k := by
  obtain ⟨idx', hloop, hs', hmap⟩ := updateLoop_spec (selects stmt.hasWhere stmt.cond s.table)
    (newValue stmt) (some setCol == s.table.primaryKeyIndex) h.slot.index s.table []
    (fun row hrow => (h.slot.table.rows row hrow).arity ▸ Table.findColumn_lt hcol) 0
  refine ⟨idx', ?_, hs', hmap⟩
  rw [List.nil_append, List.nil_append, Nat.zero_add] at hloop
  rw [execUpdate, withTable_at h, hcol]
  change (if missesWhere stmt.hasWhere stmt.cond s.table then _ else (indexAt _ _).bind fun idx =>
    (updateLoop (selects stmt.hasWhere stmt.cond s.table) setCol (newValue stmt)
      (some setCol == s.table.primaryKeyIndex) s.table.rows.length 0 s.table idx 0).bind _) = _
  rw [if_neg (by simp [hw]), indexAt_at h, Option.bind_some]
  have hloop' : updateLoop (selects stmt.hasWhere stmt.cond s.table) setCol (newValue stmt)
      (some setCol == s.table.primaryKeyIndex) s.table.rows.length 0 s.table (some s.index) 0 = _ :=
    hloop
  rw [hloop', Option.bind_some]
  exact congrArg (fun e' => some (_, e')) (putTable_at h _ idx')

end Executor

end MiniDB.Execution

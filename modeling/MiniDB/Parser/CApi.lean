import MiniDB.Machinery.Ledger
import MiniDB.Parser.Parser

/-!
# Parser/CApi — statements behind a C interface

A handle is a block with the statement, and with pointers to what the C accessors hand out: an array
of columns, two arrays of literals, a copy of each text in them, and a copy of the error, made anew
each time it is asked for.  What an accessor hands out is not copied for the caller; a caller reads
it where it is, later.
-/

namespace MiniDB.Parser.CApi

open MiniDB.Core Ledger

/-! ## Blocks -/

/-- `MiniDB_ColumnDef`. -/
structure CColumnDef where
  name : Pointer
  type : Pointer
  isPrimary : Nat
  deriving DecidableEq, Repr

/-- `MiniDB_Stmt`. -/
structure Stmt where
  ast : SQLStatement := {}
  columns : Pointer := none
  columnCount : Nat := 0
  insertValues : Pointer := none
  insertIsInt : Pointer := none
  valueCount : Nat := 0
  errorBuf : Pointer := none
  kindNameBuf : Pointer := none
  deriving DecidableEq, Repr

/-- A cell of an array. -/
inductive Cell where
  | column (col : CColumnDef)
  | text (p : Pointer)
  | int (n : Nat)
  deriving DecidableEq, Repr

/-- What is allocated: a text with its NUL, an array some of whose cells have been written, or a
statement. -/
inductive Block where
  | chars (s : Text)
  | array (cells : List (Option Cell))
  | stmt (s : Stmt)
  deriving DecidableEq, Repr

def loadStmt (a : Nat) : HeapM Block Stmt := do
  match ← load a with
  | .stmt s => return s
  | _ => throw .unsuitable

/-- `new T[n]`. -/
def newArray (n : Nat) : HeapM Block Nat := new (.array (List.replicate n none))

/-- `p[i] = cell`. -/
def setCell (a i : Nat) (cell : Cell) : HeapM Block Unit := do
  match ← load a with
  | .array cells =>
    if i < cells.length then store a (.array (cells.set i (some cell))) else throw .unsuitable
  | _ => throw .unsuitable

/-- `p[i]`. -/
def getCell (p : Pointer) (i : Nat) : HeapM Block Cell := do
  match p with
  | none => throw .unallocated
  | some a =>
    match ← load a with
    | .array cells =>
      match cells[i]?.join with
      | some cell => return cell
      | none => throw .unsuitable
    | _ => throw .unsuitable

/-! ## `minidb_parse` -/

/-- `strdup_own`. -/
def strdupOwn (s : Text) : HeapM Block Nat := new (.chars s)

/-- `b ? 1 : 0`. -/
def flag (b : Bool) : Nat := if b then 1 else 0

/-- The loop of `flatten_columns`, from column `i` on. -/
def fillColumns (a : Nat) : Nat → List ColumnDef → HeapM Block Unit
  | _, [] => return
  | i, col :: cols => do
    let name ← strdupOwn col.name
    let type ← strdupOwn col.type
    setCell a i (.column { name := some name, type := some type, isPrimary := flag col.isPrimary })
    fillColumns a (i + 1) cols

def flattenColumns (s : Stmt) : HeapM Block Stmt := do
  let cols := s.ast.createTable.columns
  if cols.length = 0 then return { s with columnCount := 0 }
  else
    let a ← newArray cols.length
    fillColumns a 0 cols
    return { s with columnCount := cols.length, columns := some a }

/-- The loop of `flatten_insert`, from value `i` on. -/
def fillValues (a b : Nat) (isInt : List Bool) : Nat → List Text → HeapM Block Unit
  | _, [] => return
  | i, value :: values => do
    let text ← strdupOwn value
    setCell a i (.text (some text))
    match isInt[i]? with
    | none => throw .unsuitable
    | some isIntLiteral =>
      setCell b i (.int (flag isIntLiteral))
      fillValues a b isInt (i + 1) values

def flattenInsert (s : Stmt) : HeapM Block Stmt := do
  let vals := s.ast.insertStmt.values
  if vals.length = 0 then return { s with valueCount := 0 }
  else
    let a ← newArray vals.length
    let b ← newArray vals.length
    fillValues a b s.ast.insertStmt.isInt 0 vals
    return { s with valueCount := vals.length, insertValues := some a, insertIsInt := some b }

def flatten (s : Stmt) : HeapM Block Stmt :=
  match s.ast.kind with
  | .createTable => flattenColumns s
  | .insert => flattenInsert s
  | _ => return s

def minidbParse (sql : Text) : HeapM Block Nat := do
  let a ← new (.stmt {})
  match parse sql with
  | none => throw .unsuitable
  | some ast =>
    store a (.stmt { ast })
    let s ← flatten { ast }
    store a (.stmt s)
    return a

/-! ## `minidb_stmt_free` -/

def freeColumn (columns : Pointer) (i : Nat) : HeapM Block Unit := do
  match ← getCell columns i with
  | .column col =>
    delete col.name
    delete col.type
  | _ => throw .unsuitable

def freeValue (values : Pointer) (i : Nat) : HeapM Block Unit := do
  match ← getCell values i with
  | .text p => delete p
  | _ => throw .unsuitable

/-- The texts of the columns. -/
def freeColumns (s : Stmt) : HeapM Block Unit :=
  if s.columns.isSome then (List.range s.columnCount).forM (freeColumn s.columns) else return

/-- The texts of the literals. -/
def freeValues (s : Stmt) : HeapM Block Unit :=
  if s.insertValues.isSome then (List.range s.valueCount).forM (freeValue s.insertValues)
  else return

/-- `minidb_stmt_free`, and the destructor of the statement. -/
def minidbStmtFree (a : Nat) : HeapM Block Unit := do
  let s ← loadStmt a
  freeColumns s
  freeValues s
  delete s.columns
  delete s.insertValues
  delete s.insertIsInt
  delete s.errorBuf
  delete s.kindNameBuf
  delete (some a)

/-! ## Accessors -/

/-- A text that is handed out: a block of its own, a string of the statement at `a`, or a
literal. -/
inductive CText where
  | block (p : Pointer)
  | inside (a : Nat) (string : SQLStatement → Text)
  | literal (s : Text)

/-- `MiniDB_WhereClause`. -/
structure CWhereClause (τ : Type) where
  column : τ
  op : τ
  constValue : τ
  isIntLiteral : Nat
  deriving DecidableEq

/-- What an accessor hands out, with texts of type `τ`, columns of type `κ`, and literals of type
`ν`. -/
inductive Reply (τ κ ν : Type) where
  /-- The statement is of another kind. -/
  | mismatch
  | kind (kind : StmtKind)
  | error (message : τ)
  | name (name : τ)
  | createTable (table : τ) (columns : κ) (count : Nat)
  | select (column table : τ) (hasWhere : Nat) (cond : Option (CWhereClause τ))
  | delete (table : τ) (hasWhere : Nat) (cond : Option (CWhereClause τ))
  | insert (table : τ) (values : ν) (count : Nat)
  | update (table column value : τ) (isInt hasWhere : Nat) (cond : Option (CWhereClause τ))
  deriving DecidableEq

inductive Accessor where
  | kind | error | databaseName | createTable | tableName | select | delete | insert | update
  deriving DecidableEq, Repr

section Accessors

variable {τ κ ν : Type} (text : (SQLStatement → Text) → τ) (ast : SQLStatement)

/-- The four fields of a condition. -/
def whereClause (cond : SQLStatement → WhereClause) : CWhereClause τ where
  column := text fun ast => (cond ast).column
  op := text fun ast => (cond ast).op
  constValue := text fun ast => (cond ast).constValue
  isIntLiteral := flag (cond ast).isIntLiteral

/-- A condition, where there is one. -/
def whereOf (hasWhere : Bool) (cond : SQLStatement → WhereClause) : Option (CWhereClause τ) :=
  if hasWhere then some (whereClause text ast cond) else none

def getDatabaseName : Reply τ κ ν :=
  match ast.kind with
  | .createDatabase => .name (text fun ast => ast.createDatabase.databaseName)
  | .dropDatabase => .name (text fun ast => ast.dropDatabase.databaseName)
  | .use => .name (text fun ast => ast.useStmt.databaseName)
  | _ => .mismatch

def getCreateTable (columns : κ) (count : Nat) : Reply τ κ ν :=
  if ast.kind ≠ .createTable then .mismatch
  else .createTable (text fun ast => ast.createTable.tableName) columns count

def getTableName : Reply τ κ ν :=
  if ast.kind ≠ .dropTable then .mismatch else .name (text fun ast => ast.dropTable.tableName)

def getSelect : Reply τ κ ν :=
  if ast.kind ≠ .select then .mismatch
  else .select (text fun ast => ast.selectStmt.columnName)
    (text fun ast => ast.selectStmt.tableName) (flag ast.selectStmt.hasWhere)
    (whereOf text ast ast.selectStmt.hasWhere fun ast => ast.selectStmt.cond)

def getDelete : Reply τ κ ν :=
  if ast.kind ≠ .delete then .mismatch
  else .delete (text fun ast => ast.deleteStmt.tableName) (flag ast.deleteStmt.hasWhere)
    (whereOf text ast ast.deleteStmt.hasWhere fun ast => ast.deleteStmt.cond)

def getInsert (values : ν) (count : Nat) : Reply τ κ ν :=
  if ast.kind ≠ .insert then .mismatch
  else .insert (text fun ast => ast.insertStmt.tableName) values count

def getUpdate : Reply τ κ ν :=
  if ast.kind ≠ .update then .mismatch
  else .update (text fun ast => ast.updateStmt.tableName) (text fun ast => ast.updateStmt.setColumn)
    (text fun ast => ast.updateStmt.setValue) (flag ast.updateStmt.setIsInt)
    (flag ast.updateStmt.hasWhere)
    (whereOf text ast ast.updateStmt.hasWhere fun ast => ast.updateStmt.cond)

/-- What an accessor other than `minidb_stmt_error` hands out. -/
def Accessor.reply (error : τ) (columns : κ) (columnCount : Nat) (values : ν) (valueCount : Nat) :
    Accessor → Reply τ κ ν
  | .kind => .kind ast.kind
  | .error => .error error
  | .databaseName => getDatabaseName text ast
  | .createTable => getCreateTable text ast columns columnCount
  | .tableName => getTableName text ast
  | .select => getSelect text ast
  | .delete => getDelete text ast
  | .insert => getInsert text ast values valueCount
  | .update => getUpdate text ast

end Accessors

/-- `minidb_stmt_error`: the copy handed out before is released. -/
def minidbStmtError (a : Nat) : HeapM Block CText := do
  let s ← loadStmt a
  if s.ast.kind ≠ .invalid then return .literal []
  else
    delete s.errorBuf
    let p ← strdupOwn s.ast.errorMsg
    store a (.stmt { s with errorBuf := some p })
    return .block (some p)

abbrev Answer := Reply CText Pointer (Pointer × Pointer)

def Accessor.run (acc : Accessor) (a : Nat) : HeapM Block Answer := do
  match acc with
  | .error => return .error (← minidbStmtError a)
  | acc =>
    let s ← loadStmt a
    return acc.reply (.inside a) s.ast (.literal []) s.columns s.columnCount
      (s.insertValues, s.insertIsInt) s.valueCount

/-! ## What the caller reads -/

/-- A C string is read up to its NUL. -/
def readText : CText → HeapM Block Text
  | .literal s => return cString s
  | .inside a string => do
    let s ← loadStmt a
    return cString (string s.ast)
  | .block none => throw .unallocated
  | .block (some a) => do
    match ← load a with
    | .chars s => return cString s
    | _ => throw .unsuitable

def readColumn (columns : Pointer) (i : Nat) : HeapM Block (Text × Text × Nat) := do
  match ← getCell columns i with
  | .column col =>
    return (← readText (.block col.name), ← readText (.block col.type), col.isPrimary)
  | _ => throw .unsuitable

def readValue (values isInt : Pointer) (i : Nat) : HeapM Block (Text × Nat) := do
  match ← getCell values i, ← getCell isInt i with
  | .text p, .int n => return (← readText (.block p), n)
  | _, _ => throw .unsuitable

def readWhere : Option (CWhereClause CText) → HeapM Block (Option (CWhereClause Text))
  | none => return none
  | some c => do
    return some ⟨← readText c.column, ← readText c.op, ← readText c.constValue, c.isIntLiteral⟩

abbrev View := Reply Text (List (Text × Text × Nat)) (List (Text × Nat))

/-- All texts and cells behind what an accessor has handed out. -/
def readAnswer : Answer → HeapM Block View
  | .mismatch => return .mismatch
  | .kind kind => return .kind kind
  | .error message => return .error (← readText message)
  | .name name => return .name (← readText name)
  | .createTable table columns count => do
    return .createTable (← readText table) (← (List.range count).mapM (readColumn columns)) count
  | .select column table hasWhere cond => do
    return .select (← readText column) (← readText table) hasWhere (← readWhere cond)
  | .delete table hasWhere cond => do
    return .delete (← readText table) hasWhere (← readWhere cond)
  | .insert table (values, isInt) count => do
    return .insert (← readText table) (← (List.range count).mapM (readValue values isInt)) count
  | .update table column value isInt hasWhere cond => do
    return .update (← readText table) (← readText column) (← readText value) isInt hasWhere
      (← readWhere cond)

/-- What there is to read of a statement. -/
def Accessor.view (acc : Accessor) (ast : SQLStatement) : View :=
  acc.reply (fun string => cString (string ast)) ast
    (if ast.kind ≠ .invalid then [] else cString ast.errorMsg)
    (ast.createTable.columns.map fun col =>
      (cString col.name, cString col.type, flag col.isPrimary))
    ast.createTable.columns.length
    ((ast.insertStmt.values.zip ast.insertStmt.isInt).map fun v => (cString v.1, flag v.2))
    ast.insertStmt.values.length

/-! ## Calls -/

inductive Call where
  | parse (sql : Text)
  | free (a : Nat)
  | get (acc : Accessor) (a : Nat)
  deriving DecidableEq, Repr

/-- What a call returns. -/
inductive Returned where
  | handle (a : Nat)
  | nothing
  | answer (answer : Answer)

/-- The heap, and the handles the caller holds, with the texts they were parsed from. -/
structure Session where
  heap : Heap Block := {}
  handles : List (Nat × Text) := []
  deriving DecidableEq, Repr

namespace Session

/-- A call, if it does no harm. -/
def step (y : Session) : Call → Option (Returned × Session)
  | .parse sql => do
    let (a, heap) ← ((minidbParse sql).run y.heap).toOption
    return (.handle a, { heap, handles := (a, sql) :: y.handles })
  | .free a => do
    let (_, heap) ← ((minidbStmtFree a).run y.heap).toOption
    return (.nothing, { heap, handles := y.handles.eraseP (·.1 == a) })
  | .get acc a => do
    let (answer, heap) ← ((acc.run a).run y.heap).toOption
    return (.answer answer, { y with heap })

/-- The caller uses handles it holds. -/
def Permits (y : Session) : Call → Prop
  | .parse _ => True
  | .free a => ∃ h ∈ y.handles, h.1 = a
  | .get _ a => ∃ h ∈ y.handles, h.1 = a

instance (y : Session) : (call : Call) → Decidable (y.Permits call)
  | .parse _ => inferInstanceAs (Decidable True)
  | .free a => inferInstanceAs (Decidable (∃ h ∈ y.handles, h.1 = a))
  | .get _ a => inferInstanceAs (Decidable (∃ h ∈ y.handles, h.1 = a))

end Session

end MiniDB.Parser.CApi

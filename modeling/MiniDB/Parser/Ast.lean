import MiniDB.Parser.Token

/-!
# Parser/Ast — the nine statements

A literal is kept as its text, paired with a flag that says whether it was an integer literal.
-/

namespace MiniDB.Parser

open MiniDB.Core

/-- A column definition in CREATE TABLE. -/
structure ColumnDef where
  name : Text := []
  /-- The type as it was spelt. -/
  type : Text := []
  isPrimary : Bool := false
  deriving DecidableEq, Repr

/-- A WHERE condition: column, operator, constant. -/
structure WhereClause where
  column : Text := []
  op : Text := []
  constValue : Text := []
  isIntLiteral : Bool := false
  deriving DecidableEq, Repr

structure CreateDatabaseStmt where
  databaseName : Text := []
  deriving DecidableEq, Repr

structure DropDatabaseStmt where
  databaseName : Text := []
  deriving DecidableEq, Repr

structure UseStmt where
  databaseName : Text := []
  deriving DecidableEq, Repr

structure CreateTableStmt where
  tableName : Text := []
  columns : List ColumnDef := []
  deriving DecidableEq, Repr

structure DropTableStmt where
  tableName : Text := []
  deriving DecidableEq, Repr

structure SelectStmt where
  /-- A column name, or `*`. -/
  columnName : Text := []
  tableName : Text := []
  hasWhere : Bool := false
  cond : WhereClause := {}
  deriving DecidableEq, Repr

structure DeleteStmt where
  tableName : Text := []
  hasWhere : Bool := false
  cond : WhereClause := {}
  deriving DecidableEq, Repr

structure InsertStmt where
  tableName : Text := []
  values : List Text := []
  /-- Parallel to `values`. -/
  isInt : List Bool := []
  deriving DecidableEq, Repr

structure UpdateStmt where
  tableName : Text := []
  setColumn : Text := []
  setValue : Text := []
  setIsInt : Bool := false
  hasWhere : Bool := false
  cond : WhereClause := {}
  deriving DecidableEq, Repr

inductive StmtKind where
  | createDatabase | dropDatabase | use | createTable | dropTable
  | select | delete | insert | update | invalid
  deriving DecidableEq, Repr

/-- A statement: the part named by `kind` is the one that counts. -/
structure SQLStatement where
  kind : StmtKind := .invalid
  createDatabase : CreateDatabaseStmt := {}
  dropDatabase : DropDatabaseStmt := {}
  useStmt : UseStmt := {}
  createTable : CreateTableStmt := {}
  dropTable : DropTableStmt := {}
  selectStmt : SelectStmt := {}
  deleteStmt : DeleteStmt := {}
  insertStmt : InsertStmt := {}
  updateStmt : UpdateStmt := {}
  errorMsg : Text := []
  deriving DecidableEq, Repr

end MiniDB.Parser

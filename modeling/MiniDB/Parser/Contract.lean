import MiniDB.Parser.Bounds
import MiniDB.Parser.WellFormed

/-!
# Parser/Contract — what `Parser::parse` promises its callers

The header says that a statement has a kind and no message, or a message and the kind INVALID; the
executor also relies on the fields of the kind.  `parse_usable` is the whole promise, on every text:
it is read off the nine forms a sentence denotes.
-/

namespace MiniDB.Parser

open MiniDB.Core

/-! ## What the executor relies on -/

/-- A condition: a column, an operator, and digits if the constant is flagged as an int. -/
structure WhereClause.Usable (wc : WhereClause) : Prop where
  column : wc.column ≠ []
  operator : IsOperator wc.op
  numeral : wc.isIntLiteral = true → IsNumeral wc.constValue

/-- The fields of the kind. -/
def SQLStatement.Usable (stmt : SQLStatement) : Prop :=
  match stmt.kind with
  | .createDatabase => stmt.createDatabase.databaseName ≠ []
  | .dropDatabase => stmt.dropDatabase.databaseName ≠ []
  | .use => stmt.useStmt.databaseName ≠ []
  | .createTable => stmt.createTable.tableName ≠ [] ∧ 1 ≤ stmt.createTable.columns.length ∧
      (∀ col ∈ stmt.createTable.columns, col.name ≠ []) ∧
      stmt.createTable.columns.countP ColumnDef.isPrimary ≤ 1
  | .dropTable => stmt.dropTable.tableName ≠ []
  | .select => stmt.selectStmt.tableName ≠ [] ∧ stmt.selectStmt.columnName ≠ [] ∧
      (stmt.selectStmt.hasWhere = true → stmt.selectStmt.cond.Usable)
  | .delete => stmt.deleteStmt.tableName ≠ [] ∧
      (stmt.deleteStmt.hasWhere = true → stmt.deleteStmt.cond.Usable)
  | .insert => stmt.insertStmt.tableName ≠ [] ∧
      stmt.insertStmt.values.length = stmt.insertStmt.isInt.length ∧
      1 ≤ stmt.insertStmt.values.length ∧
      ∀ v ∈ stmt.insertStmt.values.zip stmt.insertStmt.isInt, v.2 = true → IsNumeral v.1
  | .update => stmt.updateStmt.tableName ≠ [] ∧ stmt.updateStmt.setColumn ≠ [] ∧
      (stmt.updateStmt.setIsInt = true → IsNumeral stmt.updateStmt.setValue) ∧
      (stmt.updateStmt.hasWhere = true → stmt.updateStmt.cond.Usable)
  | .invalid => False

/-! ## The promise -/

theorem WhereClause.WellFormed.usable {wc : WhereClause} (h : wc.WellFormed ∧ IsOperator wc.op) :
    wc.Usable :=
  ⟨h.1.name.1, h.2, h.1.literal.2⟩

theorem Denoted.usable {stmt : SQLStatement} (h : Denoted stmt) : stmt.Usable := by
  cases h with
  | createDatabase hn => exact hn.1
  | dropDatabase hn => exact hn.1
  | use hn => exact hn.1
  | createTable hn hne hnames hone =>
    exact ⟨hn.1, List.length_pos_iff.mpr hne, fun col hcol => (hnames col hcol).1, hone⟩
  | dropTable hn => exact hn.1
  | select hn hcol hwhere =>
    refine ⟨hn.1, ?_, fun h => WhereClause.WellFormed.usable (hwhere h)⟩
    rcases hcol with hstar | hname
    · rw [hstar]
      exact List.cons_ne_nil _ _
    · exact hname.1
  | delete hn hwhere => exact ⟨hn.1, fun h => WhereClause.WellFormed.usable (hwhere h)⟩
  | insert hn hne hlen hlit =>
    exact ⟨hn.1, hlen, List.length_pos_iff.mpr hne, fun v hv => (hlit v hv).2⟩
  | update hn hcol hlit _ hwhere =>
    exact ⟨hn.1, hcol.1, hlit.2, fun h => WhereClause.WellFormed.usable (hwhere h)⟩

/-- Only a failure has the kind INVALID or a message. -/
theorem Denoted.valid {stmt : SQLStatement} (h : Denoted stmt) :
    stmt.kind ≠ .invalid ∧ stmt.errorMsg = [] := by
  cases h <;> exact ⟨nofun, rfl⟩

/-- **The promise of the parser**, on every text: a failure with a message, or a statement without
one that has all the executor relies on. -/
theorem parse_usable (sql : Text) : ∃ stmt, parse sql = some stmt ∧
    (stmt.kind = .invalid ∧ stmt.errorMsg ≠ [] ∨
      stmt.kind ≠ .invalid ∧ stmt.errorMsg = [] ∧ stmt.Usable) := by
  obtain ⟨stmt, hparse⟩ := parse_defined sql
  refine ⟨stmt, hparse, ?_⟩
  rcases parse_denoted hparse with hdenoted | hfailed
  · exact Or.inr ⟨hdenoted.valid.1, hdenoted.valid.2, hdenoted.usable⟩
  · exact Or.inl hfailed

example : (parse "insert into t values (1, \"a\")".toList).map (·.insertStmt.isInt)
    = some [true, false] := by decide +kernel

end MiniDB.Parser

import MiniDB.Execution.Reachable

/-!
# Execution/Relational — the executor computes relations

What a user sees of a table is its name, its columns and its rows: a `Relation`.  The reference
semantics says with filters and maps what a statement does to a list of relations and what it
answers (`Relations.Step`); only INSERT into a relation with a key is left a choice.

**`exec_relational`**: every run of table statements in a selected database is defined, and is a run
of the reference semantics with the same answers.
-/

namespace MiniDB.Execution

open MiniDB.Core MiniDB.Parser MiniDB.Storage Executor

/-! ## Relations -/

structure Relation where
  name : Text
  columns : List Column
  rows : List Row

/-- What a statement answers. -/
inductive Answer where
  | done
  | failed
  | deleted (n : Nat)
  | updated (n : Nat)
  | rows (columns : List Column) (rows : List Row)

/-- The condition of a statement, if it has one. -/
def whereOf (hasWhere : Bool) (cond : WhereClause) : Option WhereClause :=
  if hasWhere then some cond else none

/-- A cell compares with the constant as the operator says. -/
def satisfies (cond : WhereClause) (cell : Value) : Bool :=
  let cmp := Value.compare cell (parseWhereValue cond)
  (cond.op = ['='] ∧ cmp = 0) ∨ (cond.op = ['<'] ∧ cmp < 0) ∨ (cond.op = ['>'] ∧ 0 < cmp)

namespace Relation

/-- The first column of the name. -/
def column (r : Relation) (n : Text) : Option Nat := r.columns.findIdx? (·.name == n)

def HasKey (r : Relation) : Prop := ∃ col ∈ r.columns, col.isPrimary = true

/-- The condition is on a column of the relation. -/
def Knows (r : Relation) (w : Option WhereClause) : Prop :=
  ∀ cond, w = some cond → (r.column cond.column).isSome

/-- Whether a row meets the condition. -/
def picks (r : Relation) (w : Option WhereClause) (row : Row) : Bool :=
  w.all fun cond => ((r.column cond.column).bind (row[·]?)).any (satisfies cond)

/-- What a statement may answer on a relation, and what becomes of it. -/
inductive Step (r : Relation) (stmt : SQLStatement) : Answer → Relation → Prop
  | selectAll {w : Option WhereClause} : stmt.kind = .select →
      w = whereOf stmt.selectStmt.hasWhere stmt.selectStmt.cond →
      stmt.selectStmt.columnName = ['*'] → r.Knows w →
      Step r stmt (.rows r.columns (r.rows.filter (r.picks w))) r
  | selectColumn {w : Option WhereClause} {c : Nat} {col : Column} : stmt.kind = .select →
      w = whereOf stmt.selectStmt.hasWhere stmt.selectStmt.cond →
      stmt.selectStmt.columnName ≠ ['*'] → r.column stmt.selectStmt.columnName = some c →
      r.columns[c]? = some col → r.Knows w →
      Step r stmt (.rows [col] ((r.rows.filter (r.picks w)).map fun row => row[c]?.toList)) r
  | selectFails {w : Option WhereClause} : stmt.kind = .select →
      w = whereOf stmt.selectStmt.hasWhere stmt.selectStmt.cond →
      (stmt.selectStmt.columnName ≠ ['*'] ∧ r.column stmt.selectStmt.columnName = none) ∨
        ¬ r.Knows w →
      Step r stmt .failed r
  | delete {w : Option WhereClause} : stmt.kind = .delete →
      w = whereOf stmt.deleteStmt.hasWhere stmt.deleteStmt.cond → r.Knows w →
      Step r stmt (.deleted (r.rows.countP (r.picks w)))
        { r with rows := r.rows.filter fun row => !r.picks w row }
  | deleteFails {w : Option WhereClause} : stmt.kind = .delete →
      w = whereOf stmt.deleteStmt.hasWhere stmt.deleteStmt.cond → ¬ r.Knows w →
      Step r stmt .failed r
  | update {w : Option WhereClause} {c : Nat} : stmt.kind = .update →
      w = whereOf stmt.updateStmt.hasWhere stmt.updateStmt.cond →
      r.column stmt.updateStmt.setColumn = some c → r.Knows w →
      Step r stmt (.updated (r.rows.countP (r.picks w)))
        { r with rows := r.rows.map fun row =>
            if r.picks w row then row.set c (newValue stmt.updateStmt) else row }
  | updateFails {w : Option WhereClause} : stmt.kind = .update →
      w = whereOf stmt.updateStmt.hasWhere stmt.updateStmt.cond →
      r.column stmt.updateStmt.setColumn = none ∨ ¬ r.Knows w →
      Step r stmt .failed r
  | insert : stmt.kind = .insert → stmt.insertStmt.values.length = r.columns.length →
      Step r stmt .done { r with rows := r.rows ++ [insertedRow stmt.insertStmt] }
  | insertArity : stmt.kind = .insert → stmt.insertStmt.values.length ≠ r.columns.length →
      Step r stmt .failed r
  | insertRefused : stmt.kind = .insert → r.HasKey → Step r stmt .failed r

end Relation

/-- What a statement may answer on a list of relations, and what becomes of them. -/
inductive Relations.Step (rs : List Relation) (stmt : SQLStatement) : Answer → List Relation → Prop
  | create : stmt.kind = .createTable → (∀ r ∈ rs, r.name ≠ target stmt) →
      Step rs stmt .done (rs ++ [⟨target stmt, stmt.createTable.columns.map columnOf, []⟩])
  | createTaken {r : Relation} : stmt.kind = .createTable → r ∈ rs → r.name = target stmt →
      Step rs stmt .failed rs
  | missing : stmt.kind ≠ .createTable → (∀ r ∈ rs, r.name ≠ target stmt) → Step rs stmt .failed rs
  | drop {pre post : List Relation} {r : Relation} : stmt.kind = .dropTable →
      rs = pre ++ r :: post → r.name = target stmt → Step rs stmt .done (pre ++ post)
  | on {pre post : List Relation} {r r' : Relation} {a : Answer} : rs = pre ++ r :: post →
      r.name = target stmt → r.Step stmt a r' → Step rs stmt a (pre ++ r' :: post)

/-- The statement a text is, on a list of relations. -/
def Relations.Runs (rs : List Relation) (sql : Text) (a : Answer) (rs' : List Relation) : Prop :=
  ∃ stmt, parse sql = some stmt ∧ Relations.Step rs stmt a rs'

/-! ## The relations of the executor -/

def relationOf (t : Table) : Relation := ⟨t.name, t.columns, t.rows⟩

def relations (db : Database) : List Relation := db.tables.map relationOf

/-- A result gives an answer.  The rows of a table are fewer than 2³¹, so a count is printed. -/
def Agrees (r : ExecResult) : Answer → Prop
  | .done => r.status = .ok ∧ r.resultTable = none
  | .failed => r.status = .error ∧ r.resultTable = none
  | .deleted n => r.status = .ok ∧ r.resultTable = none ∧
      (n < 2 ^ 31 → r.message = natText n ++ " row(s) deleted".toList)
  | .updated n => r.status = .ok ∧ r.resultTable = none ∧
      (n < 2 ^ 31 → r.message = natText n ++ " row(s) updated".toList)
  | .rows columns rows => r.status = .ok ∧
      ∃ t, r.resultTable = some t ∧ t.columns = columns ∧ t.rows = rows

/-- A statement on tables of the selected database. -/
def IsTableStatement (sql : Text) : Prop := ∃ stmt, parse sql = some stmt ∧
  stmt.kind ∈ [.createTable, .dropTable, .insert, .select, .delete, .update]

/-! ## Columns and conditions -/

section Conditions

variable {t : Table} {n : Text} {hasWhere : Bool} {cond : WhereClause}

theorem column_relationOf (h0 : '\x00' ∉ n) : (relationOf t).column n = t.findColumn n := by
  rw [Table.findColumn, cString_of_notMem h0]
  rfl

theorem hasKey_relationOf (h : t.primaryKeyIndex.isSome) : (relationOf t).HasKey := by
  simpa [Table.primaryKeyIndex, Relation.HasKey, relationOf] using h

theorem satisfies_eq (cell : Value) : satisfies cond cell =
    (let cmp := Value.compare cell (parseWhereValue cond)
     if cond.op == ['='] then cmp == 0
     else if cond.op == ['<'] then cmp < 0
     else if cond.op == ['>'] then cmp > 0
     else false) := by
  rw [Bool.eq_iff_iff]
  simp only [satisfies, beq_iff_eq]
  split_ifs with h₁ h₂ h₃
  · simp [h₁]
  · simp [h₂]
  · simp [h₃]
  · simp [h₁, h₂, h₃]

theorem picks_relationOf (h : hasWhere = true → cond.WellFormed) :
    (relationOf t).picks (whereOf hasWhere cond) = selects hasWhere cond t := by
  funext row
  cases hasWhere with
  | false => rfl
  | true =>
    simp only [Relation.picks, whereOf, if_true, Option.all_some, selects, selected, whereColumn,
      Bool.not_true, Bool.false_or, column_relationOf (h rfl).name.noNul, matchesWhere]
    cases (t.findColumn cond.column).bind (row[·]?) with
    | none => rfl
    | some cell => exact satisfies_eq cell

theorem knows_relationOf (h : hasWhere = true → cond.WellFormed) :
    (relationOf t).Knows (whereOf hasWhere cond) ↔ missesWhere hasWhere cond t = false := by
  cases hasWhere with
  | false => simp [Relation.Knows, whereOf, missesWhere]
  | true =>
    simp [Relation.Knows, whereOf, missesWhere, whereColumn,
      column_relationOf (h rfl).name.noNul, Option.isSome_iff_ne_none]

end Conditions

/-! ## Counts -/

theorem message_countMessage {n : Nat} {text : String} (hn : n < 2 ^ 31)
    (htext : text.toList.length < 200) (h0 : '\x00' ∉ text.toList) :
    (ExecResult.ok (countMessage n text)).message = natText n ++ text.toList := by
  have hlen : (natText n).length ≤ 10 := (Nat.length_toDigits_le_iff (by decide) (by decide)).mpr
    (lt_trans hn (by decide))
  have hdigit : '\x00' ∉ natText n := fun h => absurd (isDigit_natText h) (by decide)
  rw [ExecResult.ok, countMessage, snprintf_of_lt (by rw [List.length_append]; omega),
    cString_of_notMem (by simpa using ⟨hdigit, h0⟩)]

/-! ## What a handler does to the table it names -/

/-- What the reference semantics allows for the slot `s`: the answer, and the slot after it. -/
def Simulates (stmt : SQLStatement) (name dir : Text) (pre : List Slot) (s : Slot)
    (post : List Slot) (out : Outcome) : Prop :=
  ∃ r e' a s', out = some (r, e') ∧ (relationOf s.table).Step stmt a (relationOf s'.table) ∧
    Agrees r a ∧ e'.Holds name dir (pre ++ s' :: post)

section Handlers

variable {e : Executor} {stmt : SQLStatement} {name dir : Text} {pre post : List Slot} {s : Slot}

theorem simulates_select (hat : e.At stmt.selectStmt.tableName name dir pre s post)
    (hk : stmt.kind = .select) (hs : stmt.WellFormed) :
    Simulates stmt name dir pre s post (e.execSelect stmt.selectStmt) := by
  simp only [SQLStatement.WellFormed, hk] at hs
  obtain ⟨-, hcol, hw⟩ := hs
  have hpicks := picks_relationOf (t := s.table) hw
  have hknows := knows_relationOf (t := s.table) hw
  have htarget : selectTarget stmt.selectStmt s.table
      = if stmt.selectStmt.columnName = ['*'] then none
      else (relationOf s.table).column stmt.selectStmt.columnName := by
    by_cases hall : stmt.selectStmt.columnName = ['*']
    · simp [selectTarget, hall]
    · rw [selectTarget, if_neg (by simpa using hall), if_neg hall,
        column_relationOf (hcol.resolve_left hall).noNul]
  rw [execSelect_at hat]
  split_ifs with h₁ h₂
  · -- the column is unknown
    simp only [missesTarget, Bool.and_eq_true, Bool.not_eq_true', beq_eq_false_iff_ne,
      Option.isNone_iff_eq_none] at h₁
    rw [htarget, if_neg h₁.1] at h₁
    exact ⟨_, e, .failed, s, rfl, .selectFails hk rfl (Or.inl h₁), ⟨rfl, rfl⟩, hat.toHolds⟩
  · -- the column of the condition is unknown
    exact ⟨_, e, .failed, s, rfl, .selectFails hk rfl (Or.inr fun h => by simp [hknows.mp h] at h₂),
      ⟨rfl, rfl⟩, hat.toHolds⟩
  · have hw := hknows.mpr (by simpa using h₂)
    by_cases hall : stmt.selectStmt.columnName = ['*']
    · rw [if_pos hall] at htarget
      have hstep := Relation.Step.selectAll (r := relationOf s.table) hk rfl hall hw
      rw [hpicks] at hstep
      refine ⟨_, _, _, s, rfl, hstep, ⟨rfl, _, rfl, ?_, ?_⟩, hat.selected, hat.db⟩
      · simp [selectAnswer, selectColumns, htarget, relationOf]
      · have hid : project none = id := rfl
        simp [selectAnswer, htarget, hid, relationOf]
    · rw [if_neg hall] at htarget
      obtain ⟨c, hc⟩ : ∃ c, (relationOf s.table).column stmt.selectStmt.columnName = some c := by
        by_contra hnone
        refine h₁ ?_
        rw [missesTarget, htarget]
        simpa [hall, Option.eq_none_iff_forall_ne_some] using hnone
      rw [hc] at htarget
      have hget := List.getElem?_eq_getElem (selectTarget_lt htarget)
      have hstep := Relation.Step.selectColumn (r := relationOf s.table) hk rfl hall hc hget hw
      rw [hpicks] at hstep
      refine ⟨_, _, _, s, rfl, hstep, ⟨rfl, _, rfl, ?_, ?_⟩, hat.selected, hat.db⟩
      · simp [selectAnswer, selectColumns, htarget, hget]
      · simp [selectAnswer, htarget, project, relationOf]

theorem simulates_delete (hat : e.At stmt.deleteStmt.tableName name dir pre s post)
    (hk : stmt.kind = .delete) (hs : stmt.WellFormed) :
    Simulates stmt name dir pre s post (e.execDelete stmt.deleteStmt) := by
  simp only [SQLStatement.WellFormed, hk] at hs
  have hpicks := picks_relationOf (t := s.table) hs.2
  have hknows := knows_relationOf (t := s.table) hs.2
  cases hw : missesWhere stmt.deleteStmt.hasWhere stmt.deleteStmt.cond s.table with
  | true =>
    exact ⟨_, e, .failed, s, execDelete_missesWhere hat hw,
      .deleteFails hk rfl fun h => by simp [hknows.mp h] at hw, ⟨rfl, rfl⟩, hat.toHolds⟩
  | false =>
    obtain ⟨idx', hexec, -, -⟩ := execDelete_at hat hw
    have hstep := Relation.Step.delete (r := relationOf s.table) hk rfl (hknows.mpr hw)
    rw [hpicks] at hstep
    exact ⟨_, _, _, ⟨withoutRows s.table _, idx'⟩, hexec, hstep,
      ⟨rfl, rfl, fun hn => message_countMessage hn (by decide) (by decide)⟩, hat.selected, rfl⟩

theorem simulates_update (hat : e.At stmt.updateStmt.tableName name dir pre s post)
    (hk : stmt.kind = .update) (hs : stmt.WellFormed) :
    Simulates stmt name dir pre s post (e.execUpdate stmt.updateStmt) := by
  simp only [SQLStatement.WellFormed, hk] at hs
  obtain ⟨-, hset, -, hwhere⟩ := hs
  have hpicks := picks_relationOf (t := s.table) hwhere
  have hknows := knows_relationOf (t := s.table) hwhere
  have hcolumn := column_relationOf (t := s.table) hset.noNul
  cases hcol : s.table.findColumn stmt.updateStmt.setColumn with
  | none =>
    exact ⟨_, e, .failed, s, execUpdate_noColumn hat hcol,
      .updateFails hk rfl (Or.inl (hcolumn.trans hcol)), ⟨rfl, rfl⟩, hat.toHolds⟩
  | some setCol =>
    cases hw : missesWhere stmt.updateStmt.hasWhere stmt.updateStmt.cond s.table with
    | true =>
      exact ⟨_, e, .failed, s, execUpdate_missesWhere hat hcol hw,
        .updateFails hk rfl (Or.inr fun h => by simp [hknows.mp h] at hw), ⟨rfl, rfl⟩, hat.toHolds⟩
    | false =>
      obtain ⟨idx', hexec, -, -⟩ := execUpdate_at hat hcol hw
      have hstep := Relation.Step.update (r := relationOf s.table) hk rfl (hcolumn.trans hcol)
        (hknows.mpr hw)
      rw [hpicks] at hstep
      exact ⟨_, _, _, ⟨withCells s.table _ setCol _, idx'⟩, hexec, hstep,
        ⟨rfl, rfl, fun hn => message_countMessage hn (by decide) (by decide)⟩, hat.selected, rfl⟩

theorem simulates_insert (hat : e.At stmt.insertStmt.tableName name dir pre s post)
    (hk : stmt.kind = .insert) (hs : stmt.WellFormed) :
    Simulates stmt name dir pre s post (e.execInsert stmt.insertStmt) := by
  simp only [SQLStatement.WellFormed, hk] at hs
  obtain ⟨-, -, hint, hlit⟩ := hs
  by_cases hlen : stmt.insertStmt.values.length = s.table.columns.length
  · have hfits := insertedRow_fits hint hlit hlen
    cases htaken : taken s.index s.table.primaryKeyIndex (insertedRow stmt.insertStmt) with
    | true =>
      have hkey : s.table.primaryKeyIndex.isSome := by
        cases hpk : s.table.primaryKeyIndex with
        | none => simp [taken, intKey, hpk] at htaken
        | some c => rfl
      exact ⟨_, e, .failed, s, execInsert_taken hat hlen hint hfits htaken,
        .insertRefused hk (hasKey_relationOf hkey), ⟨rfl, rfl⟩, hat.toHolds⟩
    | false =>
      obtain ⟨idx', hexec, -, -⟩ := execInsert_done hat hlen hint hfits htaken
      exact ⟨_, _, .done, ⟨s.table.insertRow (insertedRow stmt.insertStmt), idx'⟩, hexec,
        .insert hk hlen, ⟨rfl, rfl⟩, hat.selected, rfl⟩
  · exact ⟨_, e, .failed, s, execInsert_arity hat hlen, .insertArity hk hlen, ⟨rfl, rfl⟩,
      hat.toHolds⟩

end Handlers

/-! ## Runs -/

/-- The state is well formed, and its selected database shows these relations. -/
def Shows (e : Executor) (rs : List Relation) : Prop :=
  e.WellFormed ∧ ∃ db, e.currentDb = some db ∧ relations db = rs

section Execute

variable {e : Executor} {stmt : SQLStatement} {name dir : Text} {slots : List Slot}

theorem relations_ofSlots : relations (.ofSlots name dir slots)
    = slots.map fun s => relationOf s.table := by
  simp [relations, Database.ofSlots]

theorem relations_split {pre post : List Slot} {s : Slot} :
    relations (.ofSlots name dir (pre ++ s :: post))
      = relations (.ofSlots name dir pre) ++ relationOf s.table ::
        relations (.ofSlots name dir post) := by
  simp [relations_ofSlots]

theorem absent_relations {n : Text} (h : Database.Absent slots n) :
    ∀ r ∈ relations (.ofSlots name dir slots), r.name ≠ n := by
  rw [relations_ofSlots]
  simpa [Database.Absent, relationOf] using h

/-- A statement on a table is settled where the table is. -/
theorem simulates_table (hh : e.Holds name dir slots) (hwf : Slots.WellFormed slots)
    (hk : stmt.kind ≠ .createTable) {n : Text} (hn : IsName n) (hname : n = target stmt)
    {go : Database → Nat → Table → Outcome}
    (hat : ∀ {pre s post}, e.At n name dir pre s post →
      Simulates stmt name dir pre s post (withTable e n go)) :
    ∃ r e' a rs', withTable e n go = some (r, e') ∧
      Relations.Step (relations (.ofSlots name dir slots)) stmt a rs' ∧ Agrees r a ∧
      ∃ db, e'.currentDb = some db ∧ relations db = rs' := by
  rcases Database.absent_or_split slots n with habs | ⟨pre, s, post, rfl, hs, hfirst⟩
  · exact ⟨_, e, .failed, _, withTable_absent hh hn.noNul habs go,
      .missing hk (hname ▸ absent_relations habs), ⟨rfl, rfl⟩, _, hh.db, rfl⟩
  · obtain ⟨r, e', a, s', hout, hstep, hag, hh'⟩ :=
      hat ⟨hh, hn.noNul, hs, hfirst, hwf.slot s (by simp)⟩
    exact ⟨r, e', a, _, hout, .on relations_split (hs.trans hname) hstep, hag, _, hh'.db,
      relations_split⟩

theorem simulates_createTable (hh : e.Holds name dir slots) (hk : stmt.kind = .createTable)
    (hs : stmt.WellFormed) : ∃ r e' a rs', e.execCreateTable stmt.createTable = some (r, e') ∧
      Relations.Step (relations (.ofSlots name dir slots)) stmt a rs' ∧ Agrees r a ∧
      ∃ db, e'.currentDb = some db ∧ relations db = rs' := by
  simp only [SQLStatement.WellFormed, hk] at hs
  have htarget : target stmt = stmt.createTable.tableName := by rw [target, hk]
  rcases Database.absent_or_split slots stmt.createTable.tableName with
    habs | ⟨pre, s, post, rfl, hname, hfirst⟩
  · rw [execCreateTable_absent hh hs.1.noNul habs]
    refine ⟨_, _, .done, _, rfl, .create hk (htarget ▸ absent_relations habs), ⟨rfl, rfl⟩, _, rfl,
      ?_⟩
    simp [relations_ofSlots, relationOf, Database.freshTable, Table.inDir, htarget]
  · rw [execCreateTable_present hh hs.1.noNul hname hfirst]
    refine ⟨_, _, .failed, _, rfl, .createTaken (r := relationOf s.table) hk ?_ ?_, ⟨rfl, rfl⟩, _,
      hh.db, rfl⟩
    · simp [relations_ofSlots]
    · exact hname.trans htarget.symm

theorem simulates_dropTable (hh : e.Holds name dir slots) (hk : stmt.kind = .dropTable)
    (hs : stmt.WellFormed) : ∃ r e' a rs', e.execDropTable stmt.dropTable = some (r, e') ∧
      Relations.Step (relations (.ofSlots name dir slots)) stmt a rs' ∧ Agrees r a ∧
      ∃ db, e'.currentDb = some db ∧ relations db = rs' := by
  simp only [SQLStatement.WellFormed, hk] at hs
  have htarget : target stmt = stmt.dropTable.tableName := by rw [target, hk]
  rcases Database.absent_or_split slots stmt.dropTable.tableName with
    habs | ⟨pre, s, post, rfl, hname, hfirst⟩
  · rw [execDropTable_absent hh hs.noNul habs]
    exact ⟨_, _, .failed, _, rfl, .missing (by simp [hk]) (htarget ▸ absent_relations habs),
      ⟨rfl, rfl⟩, _, hh.db, rfl⟩
  · rw [execDropTable_present hh hs.noNul hname hfirst]
    refine ⟨_, _, .done, _, rfl, .drop hk relations_split (hname.trans htarget.symm), ⟨rfl, rfl⟩,
      _, rfl, ?_⟩
    simp [relations_ofSlots]

/-- **A table statement does what the reference semantics says.** -/
theorem execute_relational (hh : e.Holds name dir slots) (hwf : Slots.WellFormed slots)
    (hs : stmt.WellFormed)
    (hk : stmt.kind ∈ [.createTable, .dropTable, .insert, .select, .delete, .update]) :
    ∃ r e' a rs', e.execute stmt = some (r, e') ∧
      Relations.Step (relations (.ofSlots name dir slots)) stmt a rs' ∧ Agrees r a ∧
      ∃ db, e'.currentDb = some db ∧ relations db = rs' := by
  have hs' := hs
  cases hkind : stmt.kind <;> rw [hkind] at hk <;>
    simp only [SQLStatement.WellFormed, hkind] at hs' <;> simp only [execute, hkind]
  case createTable => exact simulates_createTable hh hkind hs
  case dropTable => exact simulates_dropTable hh hkind hs
  case select =>
    exact simulates_table hh hwf (by simp [hkind]) hs'.1 (by rw [target, hkind])
      fun hat => simulates_select hat hkind hs
  case delete =>
    exact simulates_table hh hwf (by simp [hkind]) hs'.1 (by rw [target, hkind])
      fun hat => simulates_delete hat hkind hs
  case insert =>
    exact simulates_table hh hwf (by simp [hkind]) hs'.1 (by rw [target, hkind])
      fun hat => simulates_insert hat hkind hs
  case update =>
    exact simulates_table hh hwf (by simp [hkind]) hs'.1 (by rw [target, hkind])
      fun hat => simulates_update hat hkind hs
  all_goals simp at hk

theorem shows_step {rs : List Relation} {sql : Text} (h : Shows e rs)
    (hsql : IsTableStatement sql) :
    ∃ r e' a rs', e.run sql = some (r, e') ∧ Relations.Runs rs sql a rs' ∧ Agrees r a ∧
      Shows e' rs' := by
  obtain ⟨he, db, hdb, rfl⟩ := h
  obtain ⟨stmt, hparse, hk⟩ := hsql
  have hs := (parse_wellFormed hparse).resolve_right fun hinv => by simp [hinv] at hk
  obtain ⟨name, dir, slots, hh⟩ : ∃ name dir slots, e.Holds name dir slots := by
    cases he with
    | idle _ hnone => cases hnone.symm.trans hdb
    | holds hh _ => exact ⟨_, _, _, hh⟩
  cases hdb.symm.trans hh.db
  obtain ⟨r, e', a, rs', hexec, hstep, hag, hdb'⟩ := execute_relational hh (he.slots hh) hs hk
  obtain ⟨_, _, hexec', hmoves⟩ := execute_moves he (.inl hs)
  cases hexec.symm.trans hexec'
  exact ⟨r, e', a, rs', (run_of_parse hparse).trans hexec, ⟨stmt, hparse, hstep⟩, hag,
    hmoves.wellFormed he, hdb'⟩

end Execute

/-- **Runs of table statements compute relations**: from a reachable state with a selected database,
any sequence of them is defined, and is a run of the reference semantics, answer by answer. -/
theorem exec_relational {e : Executor} {db : Database} {sqls : List Text} (he : Reachable e)
    (hdb : e.currentDb = some db) (hsqls : ∀ sql ∈ sqls, IsTableStatement sql) :
    ∃ results e' db' answers, Machine.exec run e sqls = some (results, e') ∧
      e'.currentDb = some db' ∧
      Machine.RelRun Relations.Runs (relations db) sqls answers (relations db') ∧
      List.Forall₂ Agrees results answers := by
  obtain ⟨root, disk, hreach⟩ := he
  have hshows : Shows e (relations db) := ⟨wellFormed_of_reaches hreach, db, hdb, rfl⟩
  obtain ⟨results, e', answers, rs', hexec, hrun, hall, -, db', hdb', rfl⟩ :=
    Machine.exec_simulate (R := Shows) shows_step hsqls hshows
  exact ⟨results, e', db', answers, hexec, hdb', hrun, hall⟩

theorem exec_relational_sample : ∃ results e' db' answers,
    Machine.exec run (sampleState [[.int 1]] [{ key := 1, rowId := 0 }])
      ["insert into t values (1)".toList] = some (results, e') ∧
    e'.currentDb = some db' ∧
    Machine.RelRun Relations.Runs [⟨['t'], (sampleTable []).columns, [[.int 1]]⟩]
      ["insert into t values (1)".toList] answers (relations db') ∧
    List.Forall₂ Agrees results answers :=
  exec_relational sample_reachable rfl fun sql hsql => by
    obtain rfl := List.mem_singleton.mp hsql
    exact ⟨insertOne, by decide +kernel, by decide⟩

end MiniDB.Execution

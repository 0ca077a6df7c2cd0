import MiniDB.Storage.RoundTrip

/-!
# Storage/Loading — what a load does on an arbitrary file

A file is empty, or breaks off in its columns, or has columns, a row count and some row lines
(`Content`).  What `load_from_file` returns, and what it leaves in the table, is a function of that
(`loadFrom_content`).

* `wellLoaded_iff` — a load that succeeds leaves a well-formed table exactly when no row line lacks
  a field and the row count is not negative;
* `leavesAlone_iff` — a load that fails leaves the table alone exactly when it fails on an empty
  file, or the table already is what the file has in front of the failure.
-/

namespace MiniDB.Storage

open MiniDB.Core

/-! ## The lines of a file -/

/-- The lines of at most `k` calls of `fgets`, and the stream behind them. -/
def readLines : Nat → Text → List Text × Text
  | 0, fp => ([], fp)
  | k + 1, fp =>
    match readLine fp with
    | none => ([], fp)
    | some (line, fp) => (line :: (readLines k fp).1, (readLines k fp).2)

/-- The columns of the leading column lines. -/
def columnsOf : List Text → List Column
  | [] => []
  | line :: lines =>
    match columnOfLine line with
    | none => []
    | some col => col :: columnsOf lines

/-- The first `k` fields of a row line. -/
def fields : Nat → Text → List Text
  | 0, _ => []
  | k + 1, line =>
    match strtok "|\n\r".toList line with
    | none => []
    | some (token, rest) => token :: fields k rest

/-- A row line: its fields as cells of the columns. -/
def rowOfLine (columns : List Column) (line : Text) : Row :=
  columns.zipWith cellOfToken (fields columns.length line)

/-- What is in a file: nothing; columns, and then no more column line or no row count; or columns, a
row count, and as many of the row lines as there are. -/
inductive Content where
  | empty
  | columnsOnly (columns : List Column)
  | rows (columns : List Column) (rowCount : Int) (lines : List Text)

def contentOf (fp : Text) : Content :=
  match readLine fp with
  | none => .empty
  | some (line, fp) =>
    let (lines, fp) := readLines (atoi line).toNat fp
    if (columnsOf lines).length < (atoi line).toNat then .columnsOnly (columnsOf lines)
    else
      match readLine fp with
      | none => .columnsOnly (columnsOf lines)
      | some (line, fp) => .rows (columnsOf lines) (atoi line) (readLines (atoi line).toNat fp).1

theorem readLines_length (k : Nat) (fp : Text) : (readLines k fp).1.length ≤ k := by
  induction k generalizing fp with
  | zero => exact le_rfl
  | succ k ih =>
    rw [readLines]
    split
    · exact Nat.zero_le _
    · exact Nat.succ_le_succ (ih _)

theorem columnsOf_length (lines : List Text) : (columnsOf lines).length ≤ lines.length := by
  induction lines with
  | nil => exact le_rfl
  | cons line lines ih =>
    rw [columnsOf]
    split
    · exact Nat.zero_le _
    · exact Nat.succ_le_succ ih

/-- **The column loop** reads the columns of the leading column lines, and comes through if that is
all of them. -/
theorem readColumns_eq (k : Nat) (fp : Text) (acc : List Column) :
    ((readColumns k fp acc).1 = true ↔ (columnsOf (readLines k fp).1).length = k) ∧
      (readColumns k fp acc).2.1 = acc ++ columnsOf (readLines k fp).1 ∧
      ((readColumns k fp acc).1 = true → (readColumns k fp acc).2.2 = (readLines k fp).2) := by
  induction k generalizing fp acc with
  | zero => simp [readColumns, readLines, columnsOf]
  | succ k ih =>
    rw [readColumns, readLines]
    cases hline : readLine fp with
    | none => simp [columnsOf]
    | some r =>
      obtain ⟨line, fp⟩ := r
      simp only [columnsOf]
      cases hcol : columnOfLine line with
      | none => simp
      | some col =>
        obtain ⟨h₁, h₂, h₃⟩ := ih fp (acc ++ [col])
        refine ⟨by simpa using h₁, by simpa using h₂, h₃⟩

/-- **The row loop** reads the lines there are. -/
theorem readRows_eq (columns : List Column) (n k : Nat) (fp : Text) (acc : List Row) :
    ((readRows columns n k fp acc).1 = true ↔ (readLines k fp).1.length = k) ∧
      (readRows columns n k fp acc).2
        = acc ++ (readLines k fp).1.map fun line => readCells columns n 0 line [] := by
  induction k generalizing fp acc with
  | zero => simp [readRows, readLines]
  | succ k ih =>
    rw [readRows, readLines]
    cases hline : readLine fp with
    | none => simp
    | some r =>
      obtain ⟨line, fp⟩ := r
      obtain ⟨h₁, h₂⟩ := ih fp (acc ++ [readCells columns n 0 line []])
      exact ⟨by simpa using h₁, by simpa using h₂⟩

/-- The cell loop takes the fields in turn. -/
theorem readCells_eq (columns : List Column) (k i : Nat) (hk : i + k = columns.length)
    (line : Text) (acc : Row) :
    readCells columns k i line acc
      = acc ++ (columns.drop i).zipWith cellOfToken (fields k line) := by
  induction k generalizing i line acc with
  | zero => simp [readCells, fields]
  | succ k ih =>
    rw [readCells, fields]
    cases htok : strtok "|\n\r".toList line with
    | none => simp
    | some r =>
      obtain ⟨token, rest⟩ := r
      have hi : i < columns.length := by omega
      simp only [List.getElem?_eq_getElem hi]
      rw [ih (i + 1) (by omega), List.drop_eq_getElem_cons hi, List.zipWith_cons_cons,
        List.append_assoc, List.singleton_append]

theorem readCells_rowOfLine (columns : List Column) (line : Text) :
    readCells columns columns.length 0 line [] = rowOfLine columns line := by
  rw [readCells_eq columns columns.length 0 (Nat.zero_add _), List.nil_append, List.drop_zero,
    rowOfLine]

/-- Behind the columns, a load reads the row count and the row lines there are. -/
theorem loadRows_eq (t : Table) {columns : List Column} {colCnt : Nat}
    (h : columns.length = colCnt) (fp : Text) :
    loadRows t colCnt (true, columns, fp) = match readLine fp with
      | none => (false, { t with columns })
      | some (line, fp) =>
        let lines := (readLines (atoi line).toNat fp).1
        (decide (lines.length = (atoi line).toNat),
          { t with columns, rows := lines.map (rowOfLine columns) }) := by
  subst h
  rw [loadRows]
  simp only [Bool.not_true, Bool.false_eq_true, if_false]
  cases readLine fp with
  | none => rfl
  | some r =>
    obtain ⟨line, fp⟩ := r
    obtain ⟨hok, hrows⟩ := readRows_eq columns columns.length (atoi line).toNat fp []
    simp only [hrows, List.nil_append, readCells_rowOfLine]
    rw [Bool.eq_iff_iff.mpr (hok.trans decide_eq_true_iff.symm)]

/-- **What a load does with a file.** -/
theorem loadFrom_content (t : Table) (fp : Text) :
    t.loadFrom fp = match contentOf fp with
      | .empty => (false, t)
      | .columnsOnly columns => (false, { t with columns })
      | .rows columns rowCount lines =>
        (decide (lines.length = rowCount.toNat),
          { t with columns, rows := lines.map (rowOfLine columns) }) := by
  rw [loadFrom_eq, contentOf]
  cases readLine fp with
  | none => rfl
  | some r =>
    obtain ⟨line, fp⟩ := r
    obtain ⟨hok, hcols, hrest⟩ := readColumns_eq (atoi line).toNat fp []
    have hle : (columnsOf (readLines (atoi line).toNat fp).1).length ≤ (atoi line).toNat :=
      (columnsOf_length _).trans (readLines_length _ _)
    rcases hread : readColumns (atoi line).toNat fp [] with ⟨ok, columns, rest⟩
    simp only [hread, List.nil_append] at hok hcols hrest
    subst hcols
    cases ok with
    | false =>
      have hshort : (columnsOf (readLines (atoi line).toNat fp).1).length < (atoi line).toNat :=
        hle.lt_of_ne fun h => Bool.false_ne_true (hok.mpr h)
      simp only [hread, loadRows, Bool.not_false, if_pos, if_pos hshort]
    | true =>
      have hall := hok.mp rfl
      obtain rfl := hrest rfl
      simp only [hread]
      rw [if_neg (not_lt_of_ge hall.ge), loadRows_eq t hall]
      cases readLine (readLines (atoi line).toNat fp).2 with
      | none => rfl
      | some r => rfl

/-! ## A load that succeeds -/

/-- A value of the type. -/
def Value.IsOf : Value → ColumnType → Prop
  | .int _, .int => True
  | .string _, .string => True
  | _, _ => False

/-- The number of rows the file declares. -/
def Content.declared : Content → Int
  | .rows _ rowCount _ => rowCount
  | _ => 0

/-- A table with the declared number of rows and a cell of its type for every column, so that a
column that is found lies inside every row. -/
structure Table.WellLoaded (t : Table) (declared : Int) : Prop where
  rowCount : (t.rows.length : Int) = declared
  cells : ∀ row ∈ t.rows, List.Forall₂ (fun v col => Value.IsOf v col.type) row t.columns
  inside : ∀ colName i, t.findColumn colName = some i → ∀ row ∈ t.rows, i < row.length

/-- A row count that is not negative, and row lines with a field for every column; a file with fewer
row lines than it declares is rejected, and may hold what it likes. -/
def Content.Whole : Content → Prop
  | .rows columns rowCount lines => lines.length = rowCount.toNat →
      0 ≤ rowCount ∧ ∀ line ∈ lines, (fields columns.length line).length = columns.length
  | _ => True

theorem fields_length (k : Nat) (line : Text) : (fields k line).length ≤ k := by
  induction k generalizing line with
  | zero => exact le_rfl
  | succ k ih =>
    rw [fields]
    split
    · exact Nat.zero_le _
    · exact Nat.succ_le_succ (ih _)

/-- A field becomes a cell of the type of its column. -/
theorem isOf_cellOfToken (col : Column) (token : Text) :
    (cellOfToken col token).IsOf col.type := by
  rw [cellOfToken]
  cases col.type <;> trivial

theorem forall₂_cellOfToken {columns : List Column} {tokens : List Text}
    (h : tokens.length = columns.length) :
    List.Forall₂ (fun v col => Value.IsOf v col.type) (columns.zipWith cellOfToken tokens)
      columns := by
  induction columns generalizing tokens with
  | nil => exact .nil
  | cons col columns ih =>
    cases tokens with
    | nil => cases h
    | cons token tokens => exact .cons (isOf_cellOfToken col token) (ih (Nat.succ.inj h))

/-- **A row line makes a row of its table** exactly when it has a field for every column. -/
theorem rowOfLine_cells_iff (columns : List Column) (line : Text) :
    List.Forall₂ (fun v col => Value.IsOf v col.type) (rowOfLine columns line) columns
      ↔ (fields columns.length line).length = columns.length := by
  refine ⟨fun h => ?_, forall₂_cellOfToken⟩
  have hlen := h.length_eq
  rw [rowOfLine, List.length_zipWith] at hlen
  have := fields_length columns.length line
  omega

/-- Full rows hold every column that is found. -/
theorem lt_of_findColumn {t : Table} {colName : Text} {i : Nat} (h : t.findColumn colName = some i)
    {row : Row} (hrow : List.Forall₂ (fun v col => Value.IsOf v col.type) row t.columns) :
    i < row.length := by
  obtain ⟨hi, -⟩ := List.findIdx?_eq_some_iff_getElem.mp h
  exact hrow.length_eq ▸ hi

/-- **A load that succeeds leaves a well-formed table** exactly when the file is whole. -/
theorem wellLoaded_iff (t : Table) (disk : Disk) :
    ((t.loadFromFile disk).1 = true → ∃ fp, disk.read t.dataPath = some fp ∧
      (t.loadFromFile disk).2.WellLoaded (contentOf fp).declared)
    ↔ ∀ fp, disk.read t.dataPath = some fp → (contentOf fp).Whole := by
  rw [Table.loadFromFile]
  cases hread : disk.read t.dataPath with
  | none => exact iff_of_true (fun h => by cases h) (fun _ h => by cases h)
  | some fp =>
    simp only [Option.some.injEq, exists_eq_left', forall_eq', loadFrom_content]
    cases contentOf fp with
    | empty => exact iff_of_true (fun h => by cases h) trivial
    | columnsOnly columns => exact iff_of_true (fun h => by cases h) trivial
    | rows columns rowCount lines =>
      simp only [decide_eq_true_eq, Content.Whole, Content.declared]
      refine forall_congr' fun hall => ?_
      constructor
      · intro h
        have hcount := h.rowCount
        refine ⟨by omega, fun line hline => (rowOfLine_cells_iff columns line).mp ?_⟩
        exact h.cells _ (List.mem_map_of_mem hline)
      · rintro ⟨hcount, hfields⟩
        have hcells : ∀ row ∈ lines.map (rowOfLine columns),
            List.Forall₂ (fun v col => Value.IsOf v col.type) row columns := by
          intro row hrow
          obtain ⟨line, hline, rfl⟩ := List.mem_map.mp hrow
          exact (rowOfLine_cells_iff columns line).mpr (hfields line hline)
        refine ⟨?_, hcells, fun colName i hcol row hrow => lt_of_findColumn hcol (hcells row hrow)⟩
        rw [List.length_map, hall, Int.toNat_of_nonneg hcount]

/-- A row line with one field, under two columns. -/
theorem not_wellLoaded : ¬ ∀ (t : Table) (disk : Disk) (fp : Text),
    disk.read t.dataPath = some fp → (t.loadFromFile disk).1 = true →
      (t.loadFromFile disk).2.WellLoaded (contentOf fp).declared := by
  intro h
  have hload := h { dataPath := ['t'] } { files := [(['t'], "2\na 0 0\nb 0 0\n1\n5\n".toList)] } _
    rfl (by decide +kernel)
  have hinside := hload.inside ['b'] 1 (by decide +kernel) [.int 5] (by decide +kernel)
  exact absurd hinside (by decide)

/-! ## A load that fails -/

/-- The file is empty, or has the declared row lines, or the table already is what the file has in
front of the place where it breaks off. -/
def Content.LeavesAlone (t : Table) : Content → Prop
  | .empty => True
  | .columnsOnly columns => t.columns = columns
  | .rows columns rowCount lines => lines.length = rowCount.toNat ∨
      (t.columns = columns ∧ t.rows = lines.map (rowOfLine columns))

/-- **A load that fails leaves the table alone** exactly when it fails on an empty or a missing
file, or reads what the table already holds. -/
theorem leavesAlone_iff (t : Table) (disk : Disk) :
    ((t.loadFromFile disk).1 = false →
      (t.loadFromFile disk).2.columns = t.columns ∧ (t.loadFromFile disk).2.rows = t.rows)
    ↔ ∀ fp, disk.read t.dataPath = some fp → (contentOf fp).LeavesAlone t := by
  rw [Table.loadFromFile]
  cases hread : disk.read t.dataPath with
  | none => exact iff_of_true (fun _ => ⟨rfl, rfl⟩) (fun _ h => by cases h)
  | some fp =>
    simp only [Option.some.injEq, forall_eq', loadFrom_content]
    cases contentOf fp with
    | empty => exact iff_of_true (fun _ => ⟨rfl, rfl⟩) trivial
    | columnsOnly columns =>
      simp only [true_imp_iff, and_true, Content.LeavesAlone]
      exact eq_comm
    | rows columns rowCount lines =>
      simp only [decide_eq_false_iff_not, Content.LeavesAlone, ← or_iff_not_imp_left]
      exact or_congr_right (and_congr eq_comm eq_comm)

/-- A file that breaks off behind its first column line: the row of the table stays, under another
schema. -/
theorem not_leavesAlone : ¬ ∀ (t : Table) (disk : Disk), (t.loadFromFile disk).1 = false →
    (t.loadFromFile disk).2.columns = t.columns ∧ (t.loadFromFile disk).2.rows = t.rows := by
  intro h
  have hload := h { dataPath := ['t'], columns := [{ name := ['a'] }], rows := [[.int 1]] }
    { files := [(['t'], "2\nx 0 0\n".toList)] } (by decide +kernel)
  exact absurd hload.1 (by decide +kernel)

end MiniDB.Storage

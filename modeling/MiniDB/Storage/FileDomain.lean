import MiniDB.Storage.RoundTrip

/-!
# Storage/FileDomain — the exact domain of the table file format

Among the tables whose names, types, counts and lines the format can hold, `load_from_file` restores
what `save_to_file` wrote exactly when every string cell is nonempty and free of the separators
(`restores_iff`).  A name is taken to hold no NUL: `fprintf` prints it up to there, so a table with
such a name is not restored whatever its cells (`restores_nul`).
-/

namespace MiniDB.Storage

open MiniDB.Core

/-- A cell of the declared type. -/
def Value.Declared : Value → ColumnType → Prop
  | .int n, .int => IsInt32 n
  | .string s, .string => '\x00' ∉ s
  | _, _ => False

/-- What is asked of a table: column names of some kind, rows with a cell of the declared type for
each column, and counts and written lines that fit. -/
structure Table.Writable (IsColumnName : Text → Prop) (t : Table) : Prop where
  names : ∀ col ∈ t.columns, IsColumnName col.name
  cells : ∀ row ∈ t.rows, List.Forall₂ (fun v col => v.Declared col.type) row t.columns
  columnCount : t.columns.length < 2 ^ 31
  rowCount : t.rows.length < 2 ^ 31
  lines : ∀ before l behind, t.fileText = before ++ l ++ '\n' :: behind → '\n' ∉ l →
    l.length ≤ 8190

/-- A string that is nonempty and contains neither `|` nor the end of a line. -/
def Storable (s : Text) : Prop := s ≠ [] ∧ '|' ∉ s ∧ '\n' ∉ s ∧ '\r' ∉ s

/-- Every string cell is storable. -/
def Table.StringsStorable (t : Table) : Prop := ∀ row ∈ t.rows, ∀ s, .string s ∈ row → Storable s

/-- Loaded into `f` behind a save of `t`, the table is there again. -/
def Restores (t f : Table) (disk : Disk) : Prop :=
  let r := f.loadFromFile (t.saveToFile disk).2
  r.1 = true ∧ r.2.columns = t.columns ∧ r.2.rows = t.rows

/-! ## Cells -/

theorem Value.Declared.stored {v : Value} {type : ColumnType} (h : v.Declared type) : v.Stored := by
  cases v <;> cases type <;> first | exact h | exact h.elim

theorem storable_iff {s : Text} :
    Storable s ↔ s ≠ [] ∧ ∀ c ∈ s, ("|\n\r".toList.contains c) = false := by
  have hsep (c : Char) : ("|\n\r".toList.contains c) = false ↔ c ≠ '|' ∧ c ≠ '\n' ∧ c ≠ '\r' := by
    have hlist : "|\n\r".toList = ['|', '\n', '\r'] := by decide
    simp [hlist]
  simp only [Storable, hsep, ne_eq, and_congr_right_iff]
  intro _
  constructor
  · rintro ⟨h₁, h₂, h₃⟩ c hc
    exact ⟨fun h => h₁ (h ▸ hc), fun h => h₂ (h ▸ hc), fun h => h₃ (h ▸ hc)⟩
  · intro h
    exact ⟨fun hc => (h _ hc).1 rfl, fun hc => (h _ hc).2.1 rfl, fun hc => (h _ hc).2.2 rfl⟩

theorem Value.Declared.kept_iff {v : Value} {type : ColumnType} (h : v.Declared type) :
    v.Kept type ↔ ∀ s, v = .string s → Storable s := by
  cases v with
  | int n =>
    cases type with
    | int => exact iff_of_true trivial nofun
    | string => exact h.elim
  | string s =>
    cases type with
    | int => exact h.elim
    | string =>
      rw [Value.Kept, ← storable_iff]
      constructor
      · rintro hs _ ⟨⟩
        exact hs
      · exact fun hs => hs s rfl
  | none => exact h.elim

/-- A row of declared cells is kept exactly when its strings are storable. -/
theorem kept_iff {row : Row} {columns : List Column}
    (h : List.Forall₂ (fun v col => Value.Declared v col.type) row columns) :
    Row.Kept row columns ↔ ∀ s, .string s ∈ row → Storable s := by
  induction h with
  | nil => exact iff_of_true .nil nofun
  | cons hv _ ih =>
    rw [Row.Kept, List.forall₂_cons, hv.kept_iff, ← Row.Kept, ih]
    simp only [List.mem_cons, or_imp, forall_and, eq_comm]

/-! ## Lines -/

section Lines

variable {P : Text → Prop} {t : Table}

/-- The line of a column fits the buffer. -/
theorem Table.Writable.columnFits (ht : t.Writable P) {col : Column} (hn : IsField col.name)
    (hcol : col ∈ t.columns) : (columnText col).length < 8191 := by
  obtain ⟨pre, post, hsplit⟩ := List.append_of_mem hcol
  have hlines : t.columns.flatMap columnLine
      = pre.flatMap columnLine ++ (columnText col ++ '\n' :: post.flatMap columnLine) := by
    simp [hsplit, columnLine_eq]
  have hfile : t.fileText = (natText t.columns.length ++ '\n' :: pre.flatMap columnLine)
      ++ columnText col ++ '\n' :: (post.flatMap columnLine ++ rowPart t) := by
    rw [fileText_eq, hlines]
    simp
  exact Nat.lt_succ_of_le (ht.lines _ _ _ hfile (columnText_clean hn).1)

/-- The line of a row that is kept fits the buffer. -/
theorem Table.Writable.rowFits (ht : t.Writable P) {row : Row} (hrow : row ∈ t.rows)
    (hs : ∀ v ∈ row, v.Stored) (hk : Row.Kept row t.columns) : (rowText row).length < 8191 := by
  obtain ⟨pre, post, hsplit⟩ := List.append_of_mem hrow
  have hlines : t.rows.flatMap rowLine
      = pre.flatMap rowLine ++ (rowText row ++ '\n' :: post.flatMap rowLine) := by
    simp [hsplit, rowLine, rowText]
  have hfile : t.fileText = (natText t.columns.length ++ '\n' :: (t.columns.flatMap columnLine
      ++ natText t.rows.length ++ '\n' :: pre.flatMap rowLine)) ++ rowText row
      ++ '\n' :: post.flatMap rowLine := by
    rw [fileText_eq, rowPart, hlines]
    simp
  exact Nat.lt_succ_of_le (ht.lines _ _ _ hfile (rowText_clean hs hk).1)

theorem Table.Writable.stored (ht : t.Writable P) {row : Row} (hrow : row ∈ t.rows) :
    ∀ v ∈ row, v.Stored := by
  intro v hv
  obtain ⟨i, hi, rfl⟩ := List.mem_iff_getElem.mp hv
  have hlen := (ht.cells row hrow).length_eq
  have hcell := (List.forall₂_iff_get.mp (ht.cells row hrow)).2 i hi (hlen ▸ hi)
  exact Value.Declared.stored hcell

/-- Rows that are kept are read back. -/
theorem loads_of_kept (f : Table) (ht : t.Writable IsField)
    (hk : ∀ row ∈ t.rows, Row.Kept row t.columns) : Loads f t := by
  have hs : ∀ row ∈ t.rows, ∀ v ∈ row, v.Stored := fun row hrow => ht.stored hrow
  have hcols := readColumns_append ht.names
    (fun col hcol => ht.columnFits (ht.names col hcol) hcol) 0 (rowPart t) []
  have hrows := readRows_append hs hk
    (fun row hrow => ht.rowFits hrow (hs row hrow) (hk row hrow)) 0 [] []
  rw [Nat.add_zero, List.nil_append] at hcols
  rw [Nat.add_zero, List.append_nil, List.nil_append] at hrows
  rw [Loads, loadFrom_fileText f ht.columnCount, hcols, readColumns, loadRows, rowPart,
    readLine_count ht.rowCount]
  simp [atoi_count ht.rowCount, hrows, readRows]

/-- What was read is kept. -/
theorem kept_of_loads {f : Table} (ht : t.Writable P) (h : Loads f t) :
    ∀ row ∈ t.rows, Row.Kept row t.columns := by
  obtain ⟨hok, hcols, hrows⟩ := h
  obtain ⟨-, -, hkept⟩ := loadFrom_bounds hok
  rw [hcols, hrows] at hkept
  intro row hrow
  obtain ⟨cols, hinit, hk⟩ := hkept row hrow
  have hlen : cols.length = t.columns.length :=
    hk.length_eq.symm.trans (ht.cells row hrow).length_eq
  rwa [hinit.eq_of_length hlen] at hk

end Lines

/-! ## The domain -/

/-- **The exact domain of the file format.**  A table with names, types, counts and lines that the
format can hold is restored by a load behind a save exactly when its string cells are nonempty and
contain no separator. -/
theorem restores_iff {t f : Table} {disk : Disk} (ht : t.Writable IsField)
    (hsave : (t.saveToFile disk).1 = true) (hpath : f.dataPath = t.dataPath) :
    Restores t f disk ↔ t.StringsStorable := by
  have hload : Restores t f disk ↔ Loads f t := by
    rw [Table.saveToFile] at hsave
    rw [Restores, Table.loadFromFile, hpath, Table.saveToFile, Disk.read_write hsave, Loads]
  have hkept : t.StringsStorable ↔ ∀ row ∈ t.rows, Row.Kept row t.columns :=
    forall₂_congr fun row hrow => (kept_iff (ht.cells row hrow)).symm
  rw [hload, hkept]
  exact ⟨kept_of_loads ht, loads_of_kept f ht⟩

/-- In a short file every line is short. -/
theorem line_le_of_length {t : Table} (h : t.fileText.length ≤ 8190) :
    ∀ before l behind, t.fileText = before ++ l ++ '\n' :: behind → '\n' ∉ l →
      l.length ≤ 8190 := by
  intro before l behind hfile _
  have hlen := congrArg List.length hfile
  simp only [List.length_append] at hlen
  omega

/-- A table with a string cell. -/
theorem restores_iff_string :
    let t : Table := { dataPath := ['t'], columns := [{ name := ['s'], type := .string }]
                       rows := [[.string ['x']]] }
    Restores t t {} ↔ t.StringsStorable := by
  intro t
  refine restores_iff ?_ (by decide) rfl
  exact
    { names := List.forall_mem_singleton.mpr
        ⟨by decide, List.forall_mem_singleton.mpr rfl, by decide⟩
      cells := List.forall_mem_singleton.mpr (.cons (by decide : '\x00' ∉ ['x']) .nil)
      columnCount := by decide
      rowCount := by decide
      lines := line_le_of_length (by decide) }

/-- A column name with a NUL in it comes back cut. -/
theorem restores_nul : ¬ ∀ (t f : Table) (disk : Disk),
    t.Writable (fun s => s ≠ [] ∧ ∀ c ∈ s, isSpace c = false) →
    (t.saveToFile disk).1 = true → f.dataPath = t.dataPath →
    (Restores t f disk ↔ t.StringsStorable) := by
  intro h
  let t : Table := { dataPath := ['t'], columns := [{ name := ['a', '\x00'] }] }
  have ht : t.Writable (fun s => s ≠ [] ∧ ∀ c ∈ s, isSpace c = false) :=
    { names := List.forall_mem_singleton.mpr
        ⟨by decide, List.forall_mem_cons.mpr ⟨rfl, List.forall_mem_singleton.mpr rfl⟩⟩
      cells := nofun
      columnCount := by decide
      rowCount := by decide
      lines := line_le_of_length (by decide) }
  have hrestores := (h t t {} ht (by decide) rfl).mpr nofun
  exact absurd hrestores.2.1 (by decide)

end MiniDB.Storage

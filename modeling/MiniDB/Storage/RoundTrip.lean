import MiniDB.Core.Numerals
import MiniDB.Storage.Slots

/-!
# Storage/RoundTrip — which tables survive their file

The file has no escapes, its fields are separated by runs of separators, and its lines are read into
a buffer.  So a table comes back exactly when it is `Portable`: its cells have the types of their
columns, its strings are nonempty and free of separators, and its lines fit the buffer — only the
last line may fit without its newline.

**`roundTrips_iff`**: a well-formed table round-trips exactly when it is portable.
-/

namespace MiniDB.Storage

open MiniDB.Core MiniDB.Parser

/-! ## The statement -/

/-- Saved and loaded into a fresh table of the same path, the table is there again. -/
def RoundTrips (t : Table) : Prop := ∀ disk, (t.saveToFile disk).1 = true →
  let r := Table.loadFromFile { name := t.name, dataPath := t.dataPath } (t.saveToFile disk).2
  r.1 = true ∧ r.2.columns = t.columns ∧ r.2.rows = t.rows

/-- A cell that its field gives back: of the type of its column, and a string nonempty and without
separators. -/
def Value.Kept : Value → ColumnType → Prop
  | .int _, .int => True
  | .string s, .string => s ≠ [] ∧ ∀ c ∈ s, ("|\n\r".toList.contains c) = false
  | _, _ => False

abbrev Row.Kept (row : Row) (columns : List Column) : Prop :=
  List.Forall₂ (fun v col => v.Kept col.type) row columns

/-- A column line without its newline. -/
def columnText (col : Column) : Text :=
  cString col.name ++ ' ' :: intText col.type.code ++ ' ' :: intText (if col.isPrimary then 1 else 0)

/-- A row line without its newline. -/
def rowText (row : Row) : Text := ['|'].intercalate (row.map cellText)

/-- What a table must meet to survive its file.  The buffer takes 8191 characters of a line, and the
newline that does not fit is read as the next line: as the count of 0 rows, behind the columns. -/
structure Table.Portable (t : Table) : Prop where
  columnCount : t.columns.length < 2 ^ 31
  rowCount : t.rows.length < 2 ^ 31
  cells : ∀ row ∈ t.rows, Row.Kept row t.columns
  columnLines : Scan.Fit 8191 (t.columns.map columnText)
  columnEnds : t.rows = [] ∨ ∀ col ∈ t.columns, (columnText col).length < 8191
  rowLines : Scan.Fit 8191 (t.rows.map rowText)

/-! ## Lines -/

section Lines

variable {l rest : Text}

theorem readLine_short (hl : '\n' ∉ l) (h0 : '\x00' ∉ l) (hlen : l.length < 8191) :
    readLine (l ++ '\n' :: rest) = some (l ++ ['\n'], rest) := by
  rw [readLine, fgets, if_neg (by simp), Scan.chunk_line rest hl hlen, Option.map_some,
    cString_of_notMem (by simp [h0])]

theorem readLine_long (hl : '\n' ∉ l) (h0 : '\x00' ∉ l) (hlen : ¬ l.length < 8191) :
    readLine (l ++ '\n' :: rest) = some (l.take 8191, l.drop 8191 ++ '\n' :: rest) := by
  rw [readLine, fgets, if_neg (by simp), Scan.chunk_long _ hl (Nat.le_of_not_lt hlen),
    Option.map_some, cString_of_notMem fun h => h0 (List.mem_of_mem_take h)]

/-- A line that is empty but for its newline. -/
theorem readLine_newline : readLine ('\n' :: rest) = some (['\n'], rest) :=
  readLine_short (l := []) (by simp) (by simp) (by simp)

/-- A count, read with the line it is on. -/
theorem readLine_count {n : Nat} (hn : n < 2 ^ 31) :
    readLine (natText n ++ '\n' :: rest) = some (natText n ++ ['\n'], rest) := by
  have hlen : (natText n).length ≤ 10 :=
    (Nat.length_toDigits_le_iff (by decide) (by decide)).mpr (lt_trans hn (by decide))
  refine readLine_short (fun h => ?_) (fun h => ?_) (by omega)
  · exact absurd (isDigit_natText h) (by decide)
  · exact absurd (isDigit_natText h) (by decide)

theorem atoi_count {n : Nat} (hn : n < 2 ^ 31) : (atoi (natText n ++ ['\n'])).toNat = n := by
  have hend : EndsDigits ['\n'] := rfl
  rw [atoi_natText_append hn hend, Int.toNat_natCast]

end Lines

/-! ## Columns -/

def ColumnType.digit : ColumnType → Char
  | .int => '0'
  | .string => '1'

def flagDigit (isPrimary : Bool) : Char := if isPrimary then '1' else '0'

theorem columnLine_eq (col : Column) : columnLine col = columnText col ++ ['\n'] := rfl

section Columns

variable {col : Column}

/-- A name that a column line gives back. -/
structure IsField (s : Text) : Prop where
  ne_nil : s ≠ []
  noBlank : ∀ c ∈ s, (" \t\n\r".toList.contains c) = false
  noNul : '\x00' ∉ s

/-- The characters of an identifier end no field. -/
theorem isField_of_isName {s : Text} (h : IsName s) : IsField s where
  ne_nil := h.1
  noBlank c hc := by
    by_contra hblank
    simp only [Bool.not_eq_false, List.contains_iff_mem] at hblank
    have hblanks : ∀ d ∈ " \t\n\r".toList, (!isIdentChar d) = true :=
      List.all_eq_true.mp (by decide)
    have hc' := hblanks c hblank
    rw [h.2 c hc] at hc'
    cases hc'
  noNul := h.noNul

theorem columnText_eq (hn : IsField col.name) :
    columnText col = col.name ++ [' ', col.type.digit, ' ', flagDigit col.isPrimary] := by
  have htype : intText col.type.code = [col.type.digit] := by cases col.type <;> decide
  have hflag : intText (if col.isPrimary then 1 else 0) = [flagDigit col.isPrimary] := by
    cases col.isPrimary <;> decide
  rw [columnText, cString_of_notMem hn.noNul, htype, hflag]
  simp

/-- A column line has no other newline, and no NUL. -/
theorem columnText_clean (hn : IsField col.name) :
    '\n' ∉ columnText col ∧ '\x00' ∉ columnText col := by
  have htail : '\n' ∉ [' ', col.type.digit, ' ', flagDigit col.isPrimary] ∧
      '\x00' ∉ [' ', col.type.digit, ' ', flagDigit col.isPrimary] := by
    cases col.type <;> cases col.isPrimary <;> decide
  have hname : '\n' ∉ col.name := fun h => absurd (hn.noBlank _ h) (by decide)
  rw [columnText_eq hn]
  simp only [List.mem_append, not_or]
  exact ⟨⟨hname, htail.1⟩, hn.noNul, htail.2⟩

/-- The fields of a column line. -/
theorem strtok_name (hn : IsField col.name) (rest : Text) :
    strtok " \t\n\r".toList (col.name ++ ' ' :: rest) = some (col.name, rest) :=
  Scan.token_field hn.ne_nil hn.noBlank (by decide) rest

theorem strtok_type (col : Column) (rest : Text) :
    strtok " \t\n\r".toList (col.type.digit :: ' ' :: rest) = some ([col.type.digit], rest) :=
  Scan.token_field (f := [col.type.digit]) (List.cons_ne_nil _ _)
    (List.forall_mem_singleton.mpr (by cases col.type <;> decide)) (by decide) rest

/-- **A column line read with or without its newline is the column.** -/
theorem columnOfLine_text (hn : IsField col.name) {tail : Text} (ht : tail = [] ∨ tail = ['\n']) :
    columnOfLine (columnText col ++ tail) = some col := by
  have hflag : strtok " \t\n\r".toList (flagDigit col.isPrimary :: tail)
      = some ([flagDigit col.isPrimary], []) := by
    have hdigit : " \t\n\r".toList.contains (flagDigit col.isPrimary) = false := by
      cases col.isPrimary <;> decide
    rcases ht with rfl | rfl
    · exact Scan.token_last (List.cons_ne_nil _ _) (List.forall_mem_singleton.mpr hdigit)
    · exact Scan.token_field (f := [flagDigit col.isPrimary]) (List.cons_ne_nil _ _)
        (List.forall_mem_singleton.mpr hdigit) (by decide) []
  have htype : (if atoi [col.type.digit] = 0 then ColumnType.int else .string) = col.type := by
    cases col.type <;> decide
  have hprimary : (atoi [flagDigit col.isPrimary] != 0) = col.isPrimary := by
    cases col.isPrimary <;> decide
  have htail : columnText col ++ tail
      = col.name ++ ' ' :: col.type.digit :: ' ' :: flagDigit col.isPrimary :: tail := by
    rw [columnText_eq hn]
    simp
  rw [htail, columnOfLine]
  simp only [strtok_name hn, strtok_type, hflag, Option.bind_eq_bind, Option.bind_some, htype,
    hprimary]
  rfl

/-- **A column line that was cut lacks a field.** -/
theorem columnOfLine_take (hn : IsField col.name) {n : Nat} (h : n < (columnText col).length) :
    columnOfLine ((columnText col).take n) = none := by
  have hnil : strtok " \t\n\r".toList [] = none := rfl
  rw [columnText_eq hn, List.length_append, List.length_cons] at h
  rw [columnText_eq hn, List.take_append]
  by_cases hle : n ≤ col.name.length
  · -- cut in the name
    rw [Nat.sub_eq_zero_of_le hle, List.take_zero, List.append_nil, columnOfLine]
    by_cases hempty : col.name.take n = []
    · rw [hempty, hnil]
      rfl
    · have hcut : strtok " \t\n\r".toList (col.name.take n) = some (col.name.take n, []) :=
        Scan.token_last hempty fun c hc => hn.noBlank c (List.mem_of_mem_take hc)
      rw [hcut]
      rfl
  · -- cut behind the name, in front of the flag
    obtain ⟨j, hj⟩ : ∃ j, n - col.name.length = j + 1 := ⟨n - col.name.length - 1, by omega⟩
    have hj3 : j < 3 := by simp at h; omega
    rw [List.take_of_length_le (Nat.le_of_not_le hle), hj, List.take_succ_cons, columnOfLine,
      strtok_name hn]
    match j, hj3 with
    | 0, _ => rfl
    | 1, _ =>
      have hlast : strtok " \t\n\r".toList [col.type.digit] = some ([col.type.digit], []) :=
        Scan.token_last (List.cons_ne_nil _ _)
          (List.forall_mem_singleton.mpr (by cases col.type <;> decide))
      simp only [List.take_succ_cons, List.take_zero, Option.bind_eq_bind, Option.bind_some, hlast,
        hnil, Option.bind_none]
    | 2, _ =>
      simp only [List.take_succ_cons, List.take_zero, Option.bind_eq_bind, Option.bind_some,
        strtok_type, hnil, Option.bind_none]

end Columns

/-! ## The column loop -/

/-- What comes through the column loop has a column for each round. -/
theorem readColumns_length {k : Nat} {fp : Text} {acc : List Column}
    (h : (readColumns k fp acc).1 = true) :
    (readColumns k fp acc).2.1.length = acc.length + k := by
  induction k generalizing fp acc with
  | zero => rfl
  | succ k ih =>
    rw [readColumns] at h ⊢
    split at h
    · cases h
    · next line fp hline =>
      split at h
      · cases h
      · next col hcol =>
        rw [ih h, List.length_append, List.length_singleton]
        omega

/-- **Columns whose lines fit are read**, and the loop goes on behind them. -/
theorem readColumns_append {pre : List Column} (hn : ∀ col ∈ pre, IsField col.name)
    (hfit : ∀ col ∈ pre, (columnText col).length < 8191) (k : Nat) (rest : Text)
    (acc : List Column) :
    readColumns (pre.length + k) (pre.flatMap columnLine ++ rest) acc
      = readColumns k rest (acc ++ pre) := by
  induction pre generalizing acc with
  | nil => simp
  | cons col pre ih =>
    obtain ⟨hncol, hnpre⟩ := List.forall_mem_cons.mp hn
    obtain ⟨hfcol, hfpre⟩ := List.forall_mem_cons.mp hfit
    obtain ⟨hnl, h0⟩ := columnText_clean hncol
    have hline : readLine ((col :: pre).flatMap columnLine ++ rest)
        = some (columnText col ++ ['\n'], pre.flatMap columnLine ++ rest) := by
      rw [List.flatMap_cons, columnLine_eq, List.append_assoc, List.append_assoc]
      exact readLine_short hnl h0 hfcol
    rw [List.length_cons, Nat.add_right_comm, readColumns, hline]
    simp only [columnOfLine_text hncol (Or.inr rfl)]
    rw [ih hnpre hfpre, List.append_assoc, List.singleton_append]

/-- **A line that does not fit**: without its newline it is read if it is the last, and the newline
stays in the stream. -/
theorem readColumns_long {col : Column} (hn : IsField col.name) (post : List Column)
    (hlong : ¬ (columnText col).length < 8191) (rest : Text) (acc : List Column) :
    if (columnText col).length = 8191 ∧ post = [] then
      readColumns (post.length + 1) ((col :: post).flatMap columnLine ++ rest) acc
        = (true, acc ++ [col], '\n' :: rest)
    else (readColumns (post.length + 1) ((col :: post).flatMap columnLine ++ rest) acc).1 = false := by
  obtain ⟨hnl, h0⟩ := columnText_clean hn
  have hline : readLine ((col :: post).flatMap columnLine ++ rest)
      = some ((columnText col).take 8191,
        (columnText col).drop 8191 ++ '\n' :: (post.flatMap columnLine ++ rest)) := by
    rw [List.flatMap_cons, columnLine_eq, List.append_assoc, List.append_assoc]
    exact readLine_long hnl h0 hlong
  by_cases hexact : (columnText col).length = 8191
  · have hcol := columnOfLine_text hn (Or.inl rfl)
    rw [List.append_nil] at hcol
    rw [readColumns, hline, List.take_of_length_le hexact.le, List.drop_of_length_le hexact.le,
      List.nil_append]
    simp only [hcol, hexact, true_and]
    cases post with
    | nil => rfl
    | cons col' post =>
      -- the newline is read as a line without fields
      have hblank : columnOfLine ['\n'] = none := rfl
      rw [if_neg (List.cons_ne_nil _ _), List.length_cons, readColumns, readLine_newline]
      simp only [hblank]
  · rw [if_neg fun h => hexact h.1, readColumns, hline]
    simp only [columnOfLine_take hn (show 8191 < (columnText col).length by omega)]

/-! ## Cells -/

section Cells

variable {columns : List Column} {v : Value} {col : Column}

/-- The text of a cell that is kept is a field. -/
theorem cellText_field (hs : v.Stored) (hv : v.Kept col.type) :
    cellText v ≠ [] ∧ ∀ c ∈ cellText v, ("|\n\r".toList.contains c) = false := by
  cases v with
  | int n =>
    refine ⟨intText_ne_nil n, fun c hc => ?_⟩
    by_contra hsep
    simp only [Bool.not_eq_false, List.contains_iff_mem] at hsep
    have hseps : ∀ d ∈ "|\n\r".toList, (!(d == '-' || isDigit d)) = true :=
      List.all_eq_true.mp (by decide)
    have hno := hseps c hsep
    simp only [Bool.not_eq_true', Bool.or_eq_false_iff, beq_eq_false_iff_ne] at hno
    exact (mem_intText hc).elim hno.1 (ne_true_of_eq_false hno.2)
  | string s =>
    have hs : '\x00' ∉ s := hs
    rw [cellText, cString_of_notMem hs]
    cases htype : col.type <;> rw [htype] at hv
    · exact absurd hv id
    · exact hv
  | none => exact absurd hs id

/-- **A field read back is the cell.** -/
theorem cellOfToken_self (hs : v.Stored) (hv : v.Kept col.type) :
    cellOfToken col (cellText v) = v := by
  rw [cellOfToken]
  cases v with
  | int n =>
    cases htype : col.type <;> rw [htype] at hv
    · exact congrArg Value.int (atoi_intText hs)
    · exact absurd hv id
  | string s =>
    cases htype : col.type <;> rw [htype] at hv
    · exact absurd hv id
    · exact congrArg Value.string (cString_of_notMem hs)
  | none => exact absurd hs id

/-- **A field that was cut is another cell.** -/
theorem cellOfToken_take_ne (hs : v.Stored) (hv : v.Kept col.type) {n : Nat}
    (hne : (cellText v).take n ≠ []) (hlt : n < (cellText v).length) :
    cellOfToken col ((cellText v).take n) ≠ v := by
  have hshort : ((cellText v).take n).length < (cellText v).length := by
    rw [List.length_take]
    omega
  rw [cellOfToken]
  cases v with
  | int k =>
    cases htype : col.type <;> rw [htype] at hv
    · exact fun h => atoi_prefix_ne hs ( List.take_prefix n _) hne hshort (Value.int.inj h)
    · exact absurd hv id
  | string s =>
    cases htype : col.type <;> rw [htype] at hv
    · exact absurd hv id
    · intro h
      have hs : cString s = s := cString_of_notMem hs
      rw [Value.string.inj h, cellText, hs] at hshort
      exact absurd hshort (lt_irrefl _)
  | none => exact absurd hs id

/-- A field as a cell is kept. -/
theorem cellOfToken_kept {s token rest : Text}
    (h : strtok "|\n\r".toList s = some (token, rest)) : (cellOfToken col token).Kept col.type := by
  have hclean := Scan.token_clean h
  rw [cellOfToken]
  cases col.type with
  | int => trivial
  | string => exact hclean

theorem rowText_cons (v v' : Value) (row : Row) :
    rowText (v :: v' :: row) = cellText v ++ '|' :: rowText (v' :: row) := by
  simp [rowText, List.intercalate_cons_cons]

theorem rowText_singleton (v : Value) : rowText [v] = cellText v := by
  simp [rowText]

/-! ## The cell loop -/

theorem readCells_nil (columns : List Column) (k i : Nat) (acc : Row) :
    readCells columns k i [] acc = acc := by
  cases k <;> rfl

/-- A field of the column that comes next. -/
theorem readCells_token {pre todo : List Column} {k : Nat} {line token rest : Text}
    (h : strtok "|\n\r".toList line = some (token, rest)) (acc : Row) :
    readCells (pre ++ col :: todo) (k + 1) pre.length line acc
      = readCells ((pre ++ [col]) ++ todo) k (pre ++ [col]).length rest
        (acc ++ [cellOfToken col token]) := by
  have hcol : (pre ++ col :: todo)[pre.length]? = some col := by simp
  rw [readCells, h]
  simp only [hcol, List.length_append, List.length_singleton, List.append_assoc,
    List.singleton_append]

/-- **A row line read with or without its newline is the row.** -/
theorem readCells_text {pre todo : List Column} {row : Row} (hs : ∀ v ∈ row, v.Stored)
    (hk : Row.Kept row todo) {tail : Text} (ht : tail = [] ∨ tail = ['\n']) (acc : Row) :
    readCells (pre ++ todo) row.length pre.length (rowText row ++ tail) acc = acc ++ row := by
  induction hk generalizing pre acc with
  | nil => simp [readCells]
  | @cons v col row todo hv _ ih =>
    obtain ⟨hsv, hsrow⟩ := List.forall_mem_cons.mp hs
    obtain ⟨hne, hclean⟩ := cellText_field hsv hv
    have hrest : readCells (pre ++ col :: todo) (row.length + 1) pre.length
        (rowText (v :: row) ++ tail) acc
        = readCells ((pre ++ [col]) ++ todo) row.length (pre ++ [col]).length (rowText row ++ tail)
          (acc ++ [v]) := by
      cases row with
      | nil =>
        -- the last field: nothing but the newline is left
        have htok : strtok "|\n\r".toList (rowText [v] ++ tail) = some (cellText v, []) := by
          rw [rowText_singleton]
          rcases ht with rfl | rfl
          · rw [List.append_nil]
            exact Scan.token_last hne hclean
          · exact Scan.token_field hne hclean (by decide) []
        rw [readCells_token htok, cellOfToken_self hsv hv]
        rfl
      | cons v' row =>
        have htok : strtok "|\n\r".toList (rowText (v :: v' :: row) ++ tail)
            = some (cellText v, rowText (v' :: row) ++ tail) := by
          rw [rowText_cons, List.append_assoc, List.cons_append]
          exact Scan.token_field hne hclean (by decide) _
        rw [readCells_token htok, cellOfToken_self hsv hv]
    rw [List.length_cons, hrest, ih hsrow, List.append_assoc, List.singleton_append]

/-- A piece of one field is read as one cell, or as none. -/
theorem readCells_piece {v : Value} {col : Column} (hsv : v.Stored) (hv : v.Kept col.type)
    (pre todo : List Column) (k n : Nat) (acc : Row) :
    readCells (pre ++ col :: todo) (k + 1) pre.length ((cellText v).take n) acc
      = if (cellText v).take n = [] then acc
        else acc ++ [cellOfToken col ((cellText v).take n)] := by
  obtain ⟨-, hclean⟩ := cellText_field hsv hv
  split
  · next hempty => rw [hempty, readCells_nil]
  · next hpiece =>
    have htok : strtok "|\n\r".toList ((cellText v).take n) = some ((cellText v).take n, []) :=
      Scan.token_last hpiece fun c hc => hclean c (List.mem_of_mem_take hc)
    rw [readCells_token htok, readCells_nil]

/-- **A row line that was cut is another row**: its last field was cut, or is missing. -/
theorem readCells_take_ne {pre todo : List Column} {row : Row} (hs : ∀ v ∈ row, v.Stored)
    (hk : Row.Kept row todo) {n : Nat} (hn : n < (rowText row).length) (acc : Row) :
    readCells (pre ++ todo) row.length pre.length ((rowText row).take n) acc ≠ acc ++ row := by
  induction hk generalizing pre acc n with
  | nil => simp [rowText] at hn
  | @cons v col row todo hv _ ih =>
    obtain ⟨hsv, hsrow⟩ := List.forall_mem_cons.mp hs
    obtain ⟨hne, hclean⟩ := cellText_field hsv hv
    rw [List.length_cons]
    cases row with
    | nil =>
      rw [rowText_singleton] at hn ⊢
      rw [readCells_piece hsv hv]
      split
      · simp
      · next hpiece => simpa using cellOfToken_take_ne hsv hv hpiece hn
    | cons v' row =>
      rw [rowText_cons, List.length_append, List.length_cons] at hn
      rw [rowText_cons, List.take_append]
      by_cases hle : n ≤ (cellText v).length
      · -- cut in the first field: the others are missing
        rw [Nat.sub_eq_zero_of_le hle, List.take_zero, List.append_nil, readCells_piece hsv hv]
        split <;> simp
      · obtain ⟨m, hm⟩ : ∃ m, n - (cellText v).length = m + 1 :=
          ⟨n - (cellText v).length - 1, by omega⟩
        have htok : strtok "|\n\r".toList (cellText v ++ '|' :: (rowText (v' :: row)).take m)
            = some (cellText v, (rowText (v' :: row)).take m) :=
          Scan.token_field hne hclean (by decide) _
        have hrest : readCells ((pre ++ [col]) ++ todo) (v' :: row).length (pre ++ [col]).length
            ((rowText (v' :: row)).take m) (acc ++ [v]) ≠ (acc ++ [v]) ++ v' :: row :=
          ih hsrow (by omega) _
        rw [List.take_of_length_le (Nat.le_of_not_le hle), hm, List.take_succ_cons,
          readCells_token htok, cellOfToken_self hsv hv]
        rwa [List.append_assoc acc] at hrest

/-- **Cells that were read are kept**, in the columns from `i` on. -/
theorem readCells_kept {k i : Nat} {line : Text} {acc : Row} (h : i + k ≤ columns.length) :
    ∃ row cols, readCells columns k i line acc = acc ++ row ∧ cols <+: columns.drop i ∧
      Row.Kept row cols := by
  induction k generalizing i line acc with
  | zero => exact ⟨[], [], by simp [readCells], List.nil_prefix, .nil⟩
  | succ k ih =>
    rw [readCells]
    split
    · exact ⟨[], [], by simp, List.nil_prefix, .nil⟩
    · next token rest htok =>
      have hlt : i < columns.length := by omega
      rw [List.getElem?_eq_getElem hlt]
      obtain ⟨row, cols, hread, hcols, hkept⟩ :=
        @ih (i + 1) rest (acc ++ [cellOfToken columns[i] token]) (by omega)
      refine ⟨cellOfToken columns[i] token :: row, columns[i] :: cols, ?_, ?_,
        .cons (cellOfToken_kept htok) hkept⟩
      · simpa using hread
      · rw [List.drop_eq_getElem_cons hlt]
        exact List.cons_prefix_cons.mpr ⟨rfl, hcols⟩

end Cells

/-! ## The row loop -/

section Rows

variable {columns : List Column}

/-- A kept row has no newline in its line, and no NUL. -/
theorem rowText_clean {row : Row} {cols : List Column} (hs : ∀ v ∈ row, v.Stored)
    (hk : Row.Kept row cols) : '\n' ∉ rowText row ∧ '\x00' ∉ rowText row := by
  induction hk with
  | nil => simp [rowText]
  | @cons v col row cols hv _ ih =>
    obtain ⟨hsv, hsrow⟩ := List.forall_mem_cons.mp hs
    have hcell : '\n' ∉ cellText v ∧ '\x00' ∉ cellText v := by
      refine ⟨fun h => absurd ((cellText_field hsv hv).2 _ h) (by decide), fun h => ?_⟩
      cases v with
      | int n => exact absurd (mem_intText h) (by decide)
      | string s => exact notMem_cString s h
      | none => cases h
    cases row with
    | nil => rwa [rowText_singleton]
    | cons v' row =>
      obtain ⟨hnl, h0⟩ := ih hsrow
      rw [rowText_cons]
      simp only [List.mem_append, List.mem_cons, not_or]
      exact ⟨⟨hcell.1, by decide, hnl⟩, hcell.2, by decide, h0⟩

/-- The rows read so far stay. -/
theorem readRows_prefix (columns : List Column) (n k : Nat) (fp : Text) (acc : List Row) :
    acc <+: (readRows columns n k fp acc).2 := by
  induction k generalizing fp acc with
  | zero => exact List.prefix_rfl
  | succ k ih =>
    rw [readRows]
    split
    · exact List.prefix_rfl
    · exact (List.prefix_append acc _).trans (ih _ _)

theorem readRows_length {n k : Nat} {fp : Text} {acc : List Row}
    (h : (readRows columns n k fp acc).1 = true) :
    (readRows columns n k fp acc).2.length = acc.length + k := by
  induction k generalizing fp acc with
  | zero => rfl
  | succ k ih =>
    rw [readRows] at h ⊢
    split at h
    · cases h
    · rw [ih h, List.length_append, List.length_singleton]
      omega

/-- **Rows that were read are kept**, in the columns they have cells for. -/
theorem readRows_kept {k : Nat} {fp : Text} {acc : List Row}
    (hacc : ∀ row ∈ acc, ∃ cols, cols <+: columns ∧ Row.Kept row cols) :
    ∀ row ∈ (readRows columns columns.length k fp acc).2,
      ∃ cols, cols <+: columns ∧ Row.Kept row cols := by
  induction k generalizing fp acc with
  | zero => exact hacc
  | succ k ih =>
    rw [readRows]
    split
    · exact hacc
    · next line fp _ =>
      refine ih fun row hrow => ?_
      rcases List.mem_append.mp hrow with hrow | hrow
      · exact hacc row hrow
      · obtain ⟨cells, cols, hread, hcols, hkept⟩ :=
          @readCells_kept columns columns.length 0 line [] (Nat.zero_add _).le
        rw [List.mem_singleton.mp hrow, hread]
        exact ⟨cols, hcols, hkept⟩

/-- **Rows whose lines fit are read**, and the loop goes on behind them. -/
theorem readRows_append {pre : List Row} (hs : ∀ row ∈ pre, ∀ v ∈ row, v.Stored)
    (hk : ∀ row ∈ pre, Row.Kept row columns) (hfit : ∀ row ∈ pre, (rowText row).length < 8191)
    (k : Nat) (rest : Text) (acc : List Row) :
    readRows columns columns.length (pre.length + k) (pre.flatMap rowLine ++ rest) acc
      = readRows columns columns.length k rest (acc ++ pre) := by
  induction pre generalizing acc with
  | nil => simp
  | cons row pre ih =>
    obtain ⟨hsrow, hspre⟩ := List.forall_mem_cons.mp hs
    obtain ⟨hkrow, hkpre⟩ := List.forall_mem_cons.mp hk
    obtain ⟨hfrow, hfpre⟩ := List.forall_mem_cons.mp hfit
    obtain ⟨hnl, h0⟩ := rowText_clean hsrow hkrow
    have hline : readLine ((row :: pre).flatMap rowLine ++ rest)
        = some (rowText row ++ ['\n'], pre.flatMap rowLine ++ rest) := by
      rw [List.flatMap_cons, rowLine, List.append_assoc, List.append_assoc]
      exact readLine_short hnl h0 hfrow
    have hcells : readCells columns columns.length 0 (rowText row ++ ['\n']) [] = row := by
      rw [← List.Forall₂.length_eq hkrow]
      exact @readCells_text [] columns row hsrow hkrow ['\n'] (Or.inr rfl) []
    rw [List.length_cons, Nat.add_right_comm, readRows, hline]
    simp only [hcells]
    rw [ih hspre hkpre hfpre, List.append_assoc, List.singleton_append]

/-- **A line that does not fit**: the row is read only without its newline, and only as the last. -/
theorem readRows_long {row : Row} {post : List Row} (hne : ∀ r ∈ post, r ≠ [])
    (hs : ∀ v ∈ row, v.Stored) (hk : Row.Kept row columns)
    (hlong : ¬ (rowText row).length < 8191) (acc : List Row) :
    (readRows columns columns.length (post.length + 1) ((row :: post).flatMap rowLine) acc
      = (true, acc ++ row :: post)) ↔ (rowText row).length = 8191 ∧ post = [] := by
  obtain ⟨hnl, h0⟩ := rowText_clean hs hk
  have hline : readLine ((row :: post).flatMap rowLine)
      = some ((rowText row).take 8191,
        (rowText row).drop 8191 ++ '\n' :: post.flatMap rowLine) := by
    rw [List.flatMap_cons, rowLine, List.append_assoc]
    exact readLine_long hnl h0 hlong
  rw [readRows, hline]
  by_cases hexact : (rowText row).length = 8191
  · have hcells : readCells columns columns.length 0 (rowText row) [] = row := by
      have hread := @readCells_text [] columns row hs hk [] (Or.inl rfl) []
      rwa [List.append_nil, List.Forall₂.length_eq hk] at hread
    rw [List.take_of_length_le hexact.le, List.drop_of_length_le hexact.le, List.nil_append]
    simp only [hcells, hexact, true_and]
    cases post with
    | nil => exact iff_of_true rfl rfl
    | cons r post =>
      -- the newline is read as a row without cells
      refine iff_of_false (fun h => ?_) (List.cons_ne_nil _ _)
      have hblank : readCells columns columns.length 0 ['\n'] [] = [] := by
        cases columns.length <;> rfl
      rw [List.length_cons, readRows, readLine_newline] at h
      simp only [hblank] at h
      have hpre := readRows_prefix columns columns.length post.length
        ((r :: post).flatMap rowLine) (acc ++ [row] ++ [[]])
      rw [h, List.append_assoc, List.prefix_append_right_inj] at hpre
      have hnil := (List.cons_prefix_cons.mp (List.cons_prefix_cons.mp hpre).2).1
      exact hne r List.mem_cons_self hnil.symm
  · refine iff_of_false (fun h => ?_) fun h => hexact h.1
    have hcut : readCells columns columns.length 0 ((rowText row).take 8191) [] ≠ row := by
      have hread := @readCells_take_ne [] columns row hs hk 8191 (by omega) []
      rwa [List.Forall₂.length_eq hk] at hread
    have hpre := readRows_prefix columns columns.length post.length
      ((rowText row).drop 8191 ++ '\n' :: post.flatMap rowLine)
      (acc ++ [readCells columns columns.length 0 ((rowText row).take 8191) []])
    simp only at h
    rw [h, List.prefix_append_right_inj] at hpre
    exact hcut (List.cons_prefix_cons.mp hpre).1

end Rows

/-! ## The whole file -/

section File

variable {t f : Table}

/-- What follows the column lines. -/
def rowPart (t : Table) : Text := natText t.rows.length ++ '\n' :: t.rows.flatMap rowLine

theorem fileText_eq (t : Table) :
    t.fileText
      = natText t.columns.length ++ '\n' :: (t.columns.flatMap columnLine ++ rowPart t) := by
  simp [Table.fileText, rowPart]

/-- The load behind the column loop. -/
def loadRows (f : Table) (colCnt : Nat) : Bool × List Column × Text → Bool × Table
  | (ok, columns, fp) =>
    if !ok then (false, { f with columns })
    else
      match readLine fp with
      | none => (false, { f with columns })
      | some (line, fp) =>
        ((readRows columns colCnt (atoi line).toNat fp []).1,
          { f with columns, rows := (readRows columns colCnt (atoi line).toNat fp []).2 })

theorem loadFrom_eq (f : Table) (fp : Text) : f.loadFrom fp =
    match readLine fp with
    | none => (false, f)
    | some (line, fp) =>
      loadRows f (atoi line).toNat (readColumns (atoi line).toNat fp []) := rfl

theorem loadFrom_fileText (f : Table) (hc : t.columns.length < 2 ^ 31) :
    f.loadFrom t.fileText = loadRows f t.columns.length
      (readColumns t.columns.length (t.columns.flatMap columnLine ++ rowPart t) []) := by
  rw [loadFrom_eq, fileText_eq, readLine_count hc]
  simp only [atoi_count hc]

/-- **A load that comes through** has fewer than 2³¹ columns and rows, and kept cells. -/
theorem loadFrom_bounds {fp : Text} (h : (f.loadFrom fp).1 = true) :
    (f.loadFrom fp).2.columns.length < 2 ^ 31 ∧ (f.loadFrom fp).2.rows.length < 2 ^ 31 ∧
      ∀ row ∈ (f.loadFrom fp).2.rows, ∃ cols, cols <+: (f.loadFrom fp).2.columns ∧
        Row.Kept row cols := by
  have hint (line : Text) : (atoi line).toNat < 2 ^ 31 := by
    have := (isInt32_atoi line).2
    omega
  rw [loadFrom_eq] at h ⊢
  cases hline : readLine fp with
  | none => simp [hline] at h
  | some r =>
    obtain ⟨line, fp⟩ := r
    simp only [hline] at h ⊢
    rcases hcols : readColumns (atoi line).toNat fp [] with ⟨ok, columns, rest⟩
    rw [hcols] at h
    rw [loadRows] at h ⊢
    cases ok with
    | false => simp at h
    | true =>
      have hlen : columns.length = (atoi line).toNat := by
        have := readColumns_length (congrArg Prod.fst hcols)
        rwa [hcols, List.length_nil, Nat.zero_add] at this
      cases hrest : readLine rest with
      | none => simp [hrest] at h
      | some r =>
        obtain ⟨line', rest⟩ := r
        simp only [hrest, Bool.not_true, Bool.false_eq_true, if_false, ← hlen] at h ⊢
        refine ⟨hlen ▸ hint line, ?_, readRows_kept (fun row hrow => nomatch hrow)⟩
        rw [readRows_length h, List.length_nil, Nat.zero_add]
        exact hint line'

/-- Loaded into a fresh table, the table is there again. -/
def Loads (f t : Table) : Prop :=
  (f.loadFrom t.fileText).1 = true ∧ (f.loadFrom t.fileText).2.columns = t.columns ∧
    (f.loadFrom t.fileText).2.rows = t.rows

/-- The rows, once the columns are read. -/
theorem readRows_iff (ht : t.WellFormed) (hk : ∀ row ∈ t.rows, Row.Kept row t.columns) :
    readRows t.columns t.columns.length t.rows.length (t.rows.flatMap rowLine) [] = (true, t.rows)
      ↔ Scan.Fit 8191 (t.rows.map rowText) := by
  have hs : ∀ row ∈ t.rows, ∀ v ∈ row, v.Stored := fun row hrow => (ht.rows row hrow).stored
  have hne : ∀ row ∈ t.rows, row ≠ [] := fun row hrow hnil => by
    have hlen := (ht.rows row hrow).arity
    rw [hnil, List.length_nil, eq_comm, List.length_eq_zero_iff] at hlen
    exact ht.columns hlen
  rcases Selection.all_or_first (fun row : Row => (rowText row).length < 8191) t.rows with
    hall | ⟨pre, row, post, hsplit, hpre, hlong⟩
  · have hread := readRows_append hs hk hall 0 [] []
    rw [Nat.add_zero, List.append_nil] at hread
    rw [hread]
    refine iff_of_true (by simp [readRows]) (Scan.fit_of_lt fun l hl => ?_)
    obtain ⟨row, hrow, rfl⟩ := List.mem_map.mp hl
    exact hall row hrow
  · rw [hsplit] at hs hk hne
    have hread := readRows_append (fun r hr => hs r (by simp [hr]))
      (fun r hr => hk r (by simp [hr]))
      hpre (post.length + 1) ((row :: post).flatMap rowLine) []
    have hnepost : ∀ r ∈ post, r ≠ [] := fun r hr => hne r (by simp [hr])
    have hlast := readRows_long hnepost (hs row (by simp)) (hk row (by simp)) hlong pre
    rw [hsplit, List.length_append, List.length_cons, List.flatMap_append, hread, List.nil_append,
      hlast, List.map_append, List.map_cons, Scan.fit_iff_of_first _ hlong, List.map_eq_nil_iff]
    intro l hl
    obtain ⟨r, hr, rfl⟩ := List.mem_map.mp hl
    exact hpre r hr

/-- The lines decide, once the counts and the cells are right. -/
theorem loads_iff_lines (f : Table) (ht : t.WellFormed) (hc : t.columns.length < 2 ^ 31)
    (hr : t.rows.length < 2 ^ 31) (hk : ∀ row ∈ t.rows, Row.Kept row t.columns) :
    Loads f t ↔ Scan.Fit 8191 (t.columns.map columnText) ∧
      (t.rows = [] ∨ ∀ col ∈ t.columns, (columnText col).length < 8191) ∧
      Scan.Fit 8191 (t.rows.map rowText) := by
  rw [Loads, loadFrom_fileText f hc]
  have hfields : ∀ col ∈ t.columns, IsField col.name := fun col hcol =>
    isField_of_isName (ht.columnNames col hcol)
  rcases Selection.all_or_first (fun col : Column => (columnText col).length < 8191) t.columns with
    hall | ⟨pre, col, post, hsplit, hpre, hlong⟩
  · -- every column line is read with its newline
    have hread := readColumns_append hfields hall 0 (rowPart t) []
    rw [Nat.add_zero, List.nil_append] at hread
    rw [hread, readColumns, loadRows, rowPart, readLine_count hr]
    simp only [atoi_count hr, Bool.not_true, Bool.false_eq_true, if_false, true_and]
    rw [← Prod.mk.injEq, Prod.mk.eta, readRows_iff ht hk]
    refine ⟨fun hrows => ⟨Scan.fit_of_lt fun l hl => ?_, Or.inr hall, hrows⟩, fun h => h.2.2⟩
    obtain ⟨col, hcol, rfl⟩ := List.mem_map.mp hl
    exact hall col hcol
  · have hn : ∀ c ∈ pre ++ col :: post, IsField c.name := by
      rw [← hsplit]
      exact hfields
    have hfirst : Scan.Fit 8191 (t.columns.map columnText)
        ↔ (columnText col).length = 8191 ∧ post = [] := by
      rw [hsplit, List.map_append, List.map_cons, Scan.fit_iff_of_first _ hlong,
        List.map_eq_nil_iff]
      intro l hl
      obtain ⟨c, hc, rfl⟩ := List.mem_map.mp hl
      exact hpre c hc
    have hnot : ¬ ∀ col ∈ t.columns, (columnText col).length < 8191 := fun h =>
      hlong (h col (by simp [hsplit]))
    have hread := readColumns_append (fun c hc => hn c (by simp [hc])) hpre (post.length + 1)
      ((col :: post).flatMap columnLine ++ rowPart t) []
    rw [← List.append_assoc, ← List.flatMap_append, ← hsplit, List.nil_append] at hread
    have hlen : t.columns.length = pre.length + (post.length + 1) := by simp [hsplit]
    rw [hfirst, hlen, hread]
    have hlast := readColumns_long (hn col (by simp)) post hlong (rowPart t) pre
    split at hlast
    · next hexact =>
      -- the newline behind the last column is read as the row count 0
      have hzero : (atoi ['\n']).toNat = 0 := by decide
      have hcols : t.columns = pre ++ [col] := by rw [hsplit, hexact.2]
      rw [hlast, loadRows, readLine_newline]
      simp only [hzero, readRows, Bool.not_true, Bool.false_eq_true, if_false, true_and, hcols]
      refine ⟨fun h => ⟨hexact, Or.inl h.symm, ?_⟩, fun h => (h.2.1.resolve_right ?_).symm⟩
      · rw [← h]
        exact Scan.fit_of_lt nofun
      · rwa [← hcols]
    · next hcut =>
      refine iff_of_false (fun h => ?_) fun h => hcut h.1
      rcases hres : readColumns (post.length + 1) ((col :: post).flatMap columnLine ++ rowPart t) pre
        with ⟨ok, columns, fp⟩
      rw [hres] at hlast h
      obtain rfl : ok = false := hlast
      cases h.1

/-- **A fresh table loads the file of a portable one, and of no other.** -/
theorem loads_iff (f : Table) (ht : t.WellFormed) : Loads f t ↔ t.Portable := by
  constructor
  · intro h
    have hlines := h
    obtain ⟨hok, hcols, hrows⟩ := h
    obtain ⟨hc, hr, hkept⟩ := loadFrom_bounds hok
    rw [hcols] at hc hkept
    rw [hrows] at hr hkept
    have hk : ∀ row ∈ t.rows, Row.Kept row t.columns := by
      intro row hrow
      obtain ⟨cols, hinit, hk⟩ := hkept row hrow
      rwa [hinit.eq_of_length (hk.length_eq.symm.trans (ht.rows row hrow).arity)] at hk
    obtain ⟨hcolumns, hends, hrowLines⟩ := (loads_iff_lines f ht hc hr hk).mp hlines
    exact ⟨hc, hr, hk, hcolumns, hends, hrowLines⟩
  · intro h
    exact (loads_iff_lines f ht h.columnCount h.rowCount h.cells).mpr
      ⟨h.columnLines, h.columnEnds, h.rowLines⟩

end File

/-- **A table survives its file exactly when it is portable.** -/
theorem roundTrips_iff {t : Table} (ht : t.WellFormed) : RoundTrips t ↔ t.Portable := by
  rw [← loads_iff { name := t.name, dataPath := t.dataPath } ht]
  constructor
  · intro h
    obtain ⟨disk, hdisk⟩ := Disk.exists_write t.dataPath t.fileText
    have hread := h disk hdisk
    rwa [Table.loadFromFile, Table.saveToFile, Disk.read_write hdisk] at hread
  · intro h disk hdisk
    rw [Table.saveToFile] at hdisk
    rw [Table.loadFromFile, Table.saveToFile, Disk.read_write hdisk]
    exact h

end MiniDB.Storage

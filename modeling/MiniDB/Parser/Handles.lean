import MiniDB.Machinery.Removal
import MiniDB.Parser.Bounds
import MiniDB.Parser.CApi
import MiniDB.Parser.WellFormed

/-!
# Parser/Handles — who owns what behind the C interface

All blocks that a handle points to belong to it, and are released with it.  A caller may mix its
handles as it likes, as long as it uses none it has released.

**`calls_owned`**: no call then touches what is not there, the blocks are at each time those of the
handles, and nothing is left when all of these are released.
**`replies_last`**: what an accessor has handed out reads as the parser's statement does until its
handle is released; the error, until it is asked for again.
-/

namespace MiniDB.Parser.CApi

open MiniDB.Core Ledger Machine

/-! ## What a handle owns -/

abbrev Blocks := List (Nat × Block)

/-- The texts of columns, at their addresses. -/
def columnTexts (cells : List (ColumnDef × Nat × Nat)) : Blocks :=
  cells.flatMap fun c => [(c.2.1, .chars c.1.name), (c.2.2, .chars c.1.type)]

def columnCells (cells : List (ColumnDef × Nat × Nat)) : List (Option Cell) :=
  cells.map fun c => some (.column ⟨some c.2.1, some c.2.2, flag c.1.isPrimary⟩)

/-- The texts of literals, at their addresses. -/
def valueTexts (cells : List ((Text × Bool) × Nat)) : Blocks :=
  cells.map fun c => (c.2, .chars c.1.1)

def valueCells (cells : List ((Text × Bool) × Nat)) : List (Option Cell) :=
  cells.map fun c => some (.text (some c.2))

def intCells (cells : List ((Text × Bool) × Nat)) : List (Option Cell) :=
  cells.map fun c => some (.int (flag c.1.2))

/-- The columns of a statement, as the accessors hand them out. -/
inductive OwnsColumns (s : Stmt) : List ColumnDef → Blocks → Prop
  | none (hp : s.columns = none) (hn : s.columnCount = 0) : OwnsColumns s [] []
  | some {a : Nat} (cells : List (ColumnDef × Nat × Nat)) (hp : s.columns = some a)
    (hn : s.columnCount = cells.length) :
    OwnsColumns s (cells.map Prod.fst) ((a, .array (columnCells cells)) :: columnTexts cells)

/-- The literals of a statement. -/
inductive OwnsValues (s : Stmt) : List (Text × Bool) → Blocks → Prop
  | none (hp : s.insertValues = none) (hq : s.insertIsInt = none) (hn : s.valueCount = 0) :
    OwnsValues s [] []
  | some {a b : Nat} (cells : List ((Text × Bool) × Nat)) (hp : s.insertValues = some a)
    (hq : s.insertIsInt = some b) (hn : s.valueCount = cells.length) :
    OwnsValues s (cells.map Prod.fst)
      ((a, .array (valueCells cells)) :: (b, .array (intCells cells)) :: valueTexts cells)

/-- The copy of the error. -/
inductive OwnsError (s : Stmt) : Blocks → Prop
  | none (hp : s.errorBuf = none) : OwnsError s []
  | some {e : Nat} (hp : s.errorBuf = some e) : OwnsError s [(e, .chars s.ast.errorMsg)]

/-- The columns that are flattened. -/
def shownColumns (ast : SQLStatement) : List ColumnDef :=
  if ast.kind = .createTable then ast.createTable.columns else []

/-- The literals that are flattened. -/
def shownValues (ast : SQLStatement) : List (Text × Bool) :=
  if ast.kind = .insert then ast.insertStmt.values.zip ast.insertStmt.isInt else []

/-- **What a handle owns**: its statement, and what this points to. -/
inductive Owns (a : Nat) (ast : SQLStatement) : Blocks → Prop
  | mk {s : Stmt} {cols vals err : Blocks} (hast : s.ast = ast) (hname : s.kindNameBuf = none)
    (hcols : OwnsColumns s (shownColumns ast) cols) (hvals : OwnsValues s (shownValues ast) vals)
    (herr : OwnsError s err) : Owns a ast ((a, .stmt s) :: (cols ++ (vals ++ err)))

/-! ## Cells -/

section Cells

variable {a i : Nat} {own : Blocks} {cell : Cell} {xs ys : List (Option Cell)} {s : Stmt}

theorem reads_loadStmt (hmem : (a, .stmt s) ∈ own) : Reads (loadStmt a) own s :=
  (reads_load hmem).bind (reads_pure _)

theorem does_setCell (xs : List (Option Cell)) (hi : i = xs.length) (cell : Cell) :
    Does (setCell a i cell) [(a, .array (xs ++ none :: ys))] fun _ after =>
      after = [(a, .array (xs ++ some cell :: ys))] := by
  refine (reads_load List.mem_cons_self).bind ?_
  have hlt : i < (xs ++ none :: ys).length := by
    simp [hi]
  have hset : (xs ++ none :: ys).set i (some cell) = xs ++ some cell :: ys := by
    rw [hi, List.set_append_right _ _ le_rfl, Nat.sub_self, List.set_cons_zero]
  simp only [if_pos hlt, hset]
  exact does_store _

theorem reads_getCell (hmem : (a, .array xs) ∈ own) (hi : xs[i]? = some (some cell)) :
    Reads (getCell (some a) i) own cell := by
  refine (reads_load hmem).bind ?_
  simp only [hi, Option.join_some]
  exact reads_pure cell

end Cells

/-! ## `minidb_parse` -/

section Parse

variable {a b : Nat} {s : Stmt}

theorem columnTexts_concat (cells : List (ColumnDef × Nat × Nat)) (col : ColumnDef) (n t : Nat) :
    columnTexts (cells ++ [(col, n, t)])
      = columnTexts cells ++ [(n, .chars col.name), (t, .chars col.type)] := by
  simp [columnTexts]

/-- The loop over the columns, from behind those that are done. -/
theorem does_fillColumns (done : List (ColumnDef × Nat × Nat)) (cols : List ColumnDef) :
    Does (fillColumns a done.length cols)
      ((a, .array (columnCells done ++ List.replicate cols.length none)) :: columnTexts done)
      fun _ after => ∃ cells, cells.map Prod.fst = cols ∧
        after = (a, .array (columnCells (done ++ cells))) :: columnTexts (done ++ cells) := by
  induction cols generalizing done with
  | nil => exact does_pure ⟨[], rfl, by simp⟩
  | cons col cols ih =>
    rw [fillColumns, List.length_cons, List.replicate_succ]
    refine (does_new _).bind_on (List.Perm.refl _) ?_
    rintro n _ rfl
    refine (does_new _).bind_on (List.Perm.refl _) ?_
    rintro t _ rfl
    have hfocus : ([(t, Block.chars col.type)] ++ ([(n, Block.chars col.name)] ++
        (a, .array (columnCells done ++ none :: List.replicate cols.length none)) ::
          columnTexts done)).Perm
        ([(a, .array (columnCells done ++ none :: List.replicate cols.length none))] ++
          columnTexts (done ++ [(col, n, t)])) := by
      rw [columnTexts_concat]
      simp [List.perm_iff_count, List.count_cons]
      omega
    refine (does_setCell (columnCells done) (by simp [columnCells]) _).bind_on hfocus ?_
    rintro _ _ rfl
    have hnext := ih (done ++ [(col, n, t)])
    rw [List.length_append, List.length_singleton] at hnext
    refine (hnext.perm ?_).imp ?_
    · simp [columnCells]
    · rintro _ _ ⟨cells, hcells, rfl⟩
      exact ⟨_, List.Perm.refl _, (col, n, t) :: cells, by simp [hcells], by simp⟩

theorem does_newArray (n : Nat) :
    Does (newArray n) [] fun a after => after = [(a, .array (List.replicate n none))] := does_new _

/-- The columns of a statement that owns none. -/
theorem does_flattenColumns {s : Stmt} (hp : s.columns = none) :
    Does (flattenColumns s) [] fun r after => ∃ columns columnCount,
      r = { s with columns, columnCount } ∧ OwnsColumns r s.ast.createTable.columns after := by
  simp only [flattenColumns]
  split
  · next hlen =>
    rw [List.eq_nil_of_length_eq_zero hlen]
    exact does_pure ⟨s.columns, 0, rfl, .none hp rfl⟩
  · refine (does_newArray _).bind_on (List.Perm.refl _) ?_
    rintro a _ rfl
    refine (does_fillColumns [] s.ast.createTable.columns).bind ?_
    rintro _ _ ⟨cells, hcells, rfl⟩
    refine does_pure ⟨some a, cells.length, ?_, ?_⟩
    · rw [← hcells, List.length_map]
    · have howns : OwnsColumns { s with columns := some a, columnCount := cells.length } _ _ :=
        .some cells rfl rfl
      rw [← hcells, List.length_map]
      simpa using howns

/-- The loop over the literals, from behind those that are done. -/
theorem does_fillValues (done : List ((Text × Bool) × Nat)) (values : List Text)
    (flags : List Bool) (hlen : values.length = flags.length) :
    Does (fillValues a b (done.map (·.1.2) ++ flags) done.length values)
      ((a, .array (valueCells done ++ List.replicate values.length none)) ::
        (b, .array (intCells done ++ List.replicate values.length none)) :: valueTexts done)
      fun _ after => ∃ cells, cells.map Prod.fst = values.zip flags ∧
        after = (a, .array (valueCells (done ++ cells))) ::
          (b, .array (intCells (done ++ cells))) :: valueTexts (done ++ cells) := by
  induction values generalizing done flags with
  | nil => exact does_pure ⟨[], rfl, by simp⟩
  | cons value values ih =>
    cases flags with
    | nil => simp at hlen
    | cons isInt flags =>
    rw [fillValues, List.length_cons, List.replicate_succ]
    refine (does_new _).bind_on (List.Perm.refl _) ?_
    rintro p _ rfl
    refine (does_setCell (valueCells done) (by simp [valueCells]) _).bind_on
      (List.Perm.swap _ _ _) ?_
    rintro _ _ rfl
    have hflag : (done.map (·.1.2) ++ isInt :: flags)[done.length]? = some isInt := by simp
    simp only [hflag]
    have hfocus : ([(a, Block.array (valueCells done ++ some (.text (some p)) ::
          List.replicate values.length none))] ++ (p, Block.chars value) ::
            (b, .array (intCells done ++ none :: List.replicate values.length none)) ::
              valueTexts done).Perm
        ([(b, .array (intCells done ++ none :: List.replicate values.length none))] ++
          (a, Block.array (valueCells done ++ some (.text (some p)) ::
            List.replicate values.length none)) :: (p, Block.chars value) :: valueTexts done) := by
      simp [List.perm_iff_count, List.count_cons]
      omega
    refine (does_setCell (intCells done) (by simp [intCells]) _).bind_on hfocus ?_
    rintro _ _ rfl
    have hnext := ih (done ++ [((value, isInt), p)]) flags (by simpa using hlen)
    rw [List.map_append, List.append_assoc, List.length_append, List.length_singleton] at hnext
    refine (hnext.perm ?_).imp ?_
    · simp [List.perm_iff_count, List.count_cons, valueCells, intCells, valueTexts]
      omega
    · rintro _ _ ⟨cells, hcells, rfl⟩
      exact ⟨_, List.Perm.refl _, ((value, isInt), p) :: cells, by simp [hcells], by simp⟩

theorem does_flattenInsert {s : Stmt} (hp : s.insertValues = none) (hq : s.insertIsInt = none)
    (hlen : s.ast.insertStmt.values.length = s.ast.insertStmt.isInt.length) :
    Does (flattenInsert s) [] fun r after => ∃ insertValues insertIsInt valueCount,
      r = { s with insertValues, insertIsInt, valueCount } ∧
        OwnsValues r (s.ast.insertStmt.values.zip s.ast.insertStmt.isInt) after := by
  simp only [flattenInsert]
  split
  · next hnil =>
    rw [List.eq_nil_of_length_eq_zero hnil]
    exact does_pure ⟨s.insertValues, s.insertIsInt, 0, rfl, .none hp hq rfl⟩
  · refine (does_newArray _).bind_on (List.Perm.refl _) ?_
    rintro a _ rfl
    refine (does_newArray _).bind_on (List.Perm.refl _) ?_
    rintro b _ rfl
    have hfill := does_fillValues (a := a) (b := b) [] s.ast.insertStmt.values
      s.ast.insertStmt.isInt hlen
    refine (hfill.perm (List.Perm.swap _ _ _)).bind ?_
    rintro _ _ ⟨cells, hcells, rfl⟩
    have hcount : s.ast.insertStmt.values.length = cells.length := by
      rw [← List.length_map (f := Prod.fst), hcells, List.length_zip, ← hlen, Nat.min_self]
    refine does_pure ⟨some a, some b, cells.length, by rw [hcount], ?_⟩
    have howns : OwnsValues
        { s with insertValues := some a, insertIsInt := some b, valueCount := cells.length } _ _ :=
      .some cells rfl rfl rfl
    rw [← hcells, hcount]
    simpa using howns

theorem insert_lengths {sql : Text} {ast : SQLStatement} (hparse : parse sql = some ast)
    (hk : ast.kind = .insert) : ast.insertStmt.values.length = ast.insertStmt.isInt.length := by
  have hwf := (parse_wellFormed hparse).resolve_right (by rw [hk]; decide)
  simp only [SQLStatement.WellFormed, hk] at hwf
  exact hwf.2.2.1

/-- What is flattened of a statement of the parser. -/
theorem does_flatten {sql : Text} {ast : SQLStatement} (hparse : parse sql = some ast) :
    Does (flatten { ast }) [] fun s after => s.ast = ast ∧ s.kindNameBuf = none ∧
      s.errorBuf = none ∧ ∃ cols vals, OwnsColumns s (shownColumns ast) cols ∧
        OwnsValues s (shownValues ast) vals ∧ after = cols ++ (vals ++ []) := by
  rw [flatten]
  split
  · next hk =>
    have hk : ast.kind = .createTable := hk
    refine (does_flattenColumns rfl).imp ?_
    rintro _ cols ⟨_, _, rfl, hcols⟩
    refine ⟨cols, List.Perm.refl _, rfl, rfl, rfl, cols, [], ?_, ?_, by simp⟩
    · rwa [shownColumns, if_pos hk]
    · rw [shownValues, if_neg (by rw [hk]; decide)]
      exact .none rfl rfl rfl
  · next hk =>
    have hk : ast.kind = .insert := hk
    refine (does_flattenInsert rfl rfl (insert_lengths hparse hk)).imp ?_
    rintro _ vals ⟨_, _, _, rfl, hvals⟩
    refine ⟨vals, List.Perm.refl _, rfl, rfl, rfl, [], vals, ?_, ?_, by simp⟩
    · rw [shownColumns, if_neg (by rw [hk]; decide)]
      exact .none rfl rfl
    · rwa [shownValues, if_pos hk]
  · next hcreate hinsert =>
    refine does_pure ⟨rfl, rfl, rfl, [], [], ?_, ?_, rfl⟩
    · rw [shownColumns, if_neg hcreate]
      exact .none rfl rfl
    · rw [shownValues, if_neg hinsert]
      exact .none rfl rfl rfl

/-- **A handle owns what is allocated for it.** -/
theorem does_minidbParse (sql : Text) :
    Does (minidbParse sql) [] fun a after => ∃ ast, parse sql = some ast ∧ Owns a ast after := by
  obtain ⟨ast, hparse⟩ := parse_defined sql
  refine (does_new _).bind ?_
  rintro a _ rfl
  simp only [hparse]
  refine (does_store _).bind ?_
  rintro _ _ rfl
  refine (does_flatten hparse).bind_on (List.Perm.refl _) ?_
  rintro s _ ⟨hast, hname, herror, cols, vals, hcols, hvals, rfl⟩
  refine (does_store _).bind_on List.perm_append_comm ?_
  rintro _ _ rfl
  have howns : Owns a ast ((a, .stmt s) :: (cols ++ (vals ++ []))) :=
    .mk hast hname hcols hvals (.none herror)
  exact does_pure ⟨ast, rfl, howns⟩

end Parse

/-! ## `minidb_stmt_free` -/

section Free

variable {a b i : Nat} {s : Stmt} {cols : List ColumnDef} {vals : List (Text × Bool)} {own : Blocks}

theorem getElem?_columnCells {cells : List (ColumnDef × Nat × Nat)} {c : ColumnDef × Nat × Nat}
    (hc : cells[i]? = some c) : (columnCells cells)[i]?
      = some (some (.column ⟨some c.2.1, some c.2.2, flag c.1.isPrimary⟩)) := by
  rw [columnCells, List.getElem?_map, hc]
  rfl

theorem getElem?_valueCells {cells : List ((Text × Bool) × Nat)} {c : (Text × Bool) × Nat}
    (hc : cells[i]? = some c) : (valueCells cells)[i]? = some (some (.text (some c.2))) := by
  rw [valueCells, List.getElem?_map, hc]
  rfl

theorem getElem?_intCells {cells : List ((Text × Bool) × Nat)} {c : (Text × Bool) × Nat}
    (hc : cells[i]? = some c) : (intCells cells)[i]? = some (some (.int (flag c.1.2))) := by
  rw [intCells, List.getElem?_map, hc]
  rfl

/-- The texts of the columns are released one after the other. -/
theorem does_freeColumns (cells : List (ColumnDef × Nat × Nat)) :
    Does ((List.range cells.length).forM (freeColumn (some a)))
      ((a, .array (columnCells cells)) :: columnTexts cells)
      fun _ after => after = [(a, .array (columnCells cells))] := by
  have hround : ∀ i < cells.length, Does (freeColumn (some a) i)
      ((a, .array (columnCells cells)) :: columnTexts (cells.drop i)) fun _ after =>
        after.Perm ((a, .array (columnCells cells)) :: columnTexts (cells.drop (i + 1))) := by
    intro i hi
    have hcell : cells[i]? = some cells[i] := List.getElem?_eq_getElem hi
    rw [List.drop_eq_getElem_cons hi]
    refine (reads_getCell List.mem_cons_self (getElem?_columnCells hcell)).bind ?_
    refine (does_delete (b := Block.chars cells[i].1.name)).bind_on (List.Perm.swap _ _ _) ?_
    rintro _ _ rfl
    have htype := (does_delete (a := cells[i].2.2) (b := Block.chars cells[i].1.type)).frame
      ((a, .array (columnCells cells)) :: columnTexts (cells.drop (i + 1)))
    refine (htype.perm (List.Perm.swap _ _ _)).imp ?_
    rintro _ _ ⟨_, rfl, rfl⟩
    exact ⟨_, List.Perm.refl _, List.Perm.refl _⟩
  have hloop := does_range _ hround
  rwa [List.drop_zero, List.drop_length] at hloop

/-- So are those of the literals. -/
theorem does_freeValues (cells : List ((Text × Bool) × Nat)) :
    Does ((List.range cells.length).forM (freeValue (some a)))
      ((a, .array (valueCells cells)) :: valueTexts cells)
      fun _ after => after = [(a, .array (valueCells cells))] := by
  have hround : ∀ i < cells.length, Does (freeValue (some a) i)
      ((a, .array (valueCells cells)) :: valueTexts (cells.drop i)) fun _ after =>
        after.Perm ((a, .array (valueCells cells)) :: valueTexts (cells.drop (i + 1))) := by
    intro i hi
    have hcell : cells[i]? = some cells[i] := List.getElem?_eq_getElem hi
    rw [List.drop_eq_getElem_cons hi]
    refine (reads_getCell List.mem_cons_self (getElem?_valueCells hcell)).bind ?_
    have htext := (does_delete (a := cells[i].2) (b := Block.chars cells[i].1.1)).frame
      ((a, .array (valueCells cells)) :: valueTexts (cells.drop (i + 1)))
    refine (htext.perm (List.Perm.swap _ _ _)).imp ?_
    rintro _ _ ⟨_, rfl, rfl⟩
    exact ⟨_, List.Perm.refl _, List.Perm.refl _⟩
  have hloop := does_range _ hround
  rwa [List.drop_zero, List.drop_length] at hloop

/-- The columns are released, their array last. -/
theorem OwnsColumns.does_free (h : OwnsColumns s cols own) : ∃ array,
    Does (freeColumns s) own (fun _ after => after = array) ∧
    Does (delete s.columns) array fun _ after => after = [] := by
  rw [freeColumns]
  cases h with
  | none hp hn =>
    rw [hp]
    exact ⟨[], does_pure rfl, does_delete_null⟩
  | some cells hp hn =>
    rw [hp, hn]
    exact ⟨_, does_freeColumns cells, does_delete⟩

theorem OwnsValues.does_free (h : OwnsValues s vals own) : ∃ values isInt,
    Does (freeValues s) own (fun _ after => after = values ++ isInt) ∧
    Does (delete s.insertValues) values (fun _ after => after = []) ∧
    Does (delete s.insertIsInt) isInt fun _ after => after = [] := by
  rw [freeValues]
  cases h with
  | none hp hq hn =>
    rw [hp, hq]
    exact ⟨[], [], does_pure rfl, does_delete_null, does_delete_null⟩
  | @some a b cells hp hq hn =>
    rw [hp, hq, hn]
    have hloop := (does_freeValues (a := a) cells).frame [(b, .array (intCells cells))]
    refine ⟨[(a, .array (valueCells cells))], [(b, .array (intCells cells))],
      (hloop.perm ?_).imp ?_, does_delete, does_delete⟩
    · simp [List.perm_iff_count, List.count_cons]
    · rintro _ _ ⟨_, rfl, rfl⟩
      exact ⟨_, List.Perm.refl _, rfl⟩

theorem OwnsError.does_free (h : OwnsError s own) :
    Does (delete s.errorBuf) own fun _ after => after = [] := by
  cases h with
  | none hp =>
    rw [hp]
    exact does_delete_null
  | some hp =>
    rw [hp]
    exact does_delete

/-- **All that a handle owns is released.** -/
theorem Owns.does_free {ast : SQLStatement} (h : Owns a ast own) :
    Does (minidbStmtFree a) own fun _ after => after = [] := by
  obtain ⟨hast, hname, hcols, hvals, herr⟩ := h
  rename_i s cols vals err
  obtain ⟨array, hcolumns, harray⟩ := hcols.does_free
  obtain ⟨values, isInt, hliterals, hvalues, hisInt⟩ := hvals.does_free
  rw [minidbStmtFree]
  refine (reads_loadStmt List.mem_cons_self).bind ?_
  refine hcolumns.bind_on List.perm_middle.symm ?_
  rintro _ array rfl
  have hfocus : (array ++ (a, .stmt s) :: (vals ++ err)).Perm
      (vals ++ (array ++ (a, .stmt s) :: err)) := by
    simp [List.perm_iff_count, List.count_cons]
    omega
  refine hliterals.bind_on hfocus ?_
  rintro _ _ rfl
  have hfocus : (values ++ isInt ++ (array ++ (a, .stmt s) :: err)).Perm
      (array ++ (values ++ (isInt ++ (err ++ [(a, .stmt s)])))) := by
    simp [List.perm_iff_count, List.count_cons]
    omega
  refine harray.bind_on hfocus ?_
  rintro _ _ rfl
  refine hvalues.bind_on (List.Perm.refl _) ?_
  rintro _ _ rfl
  refine hisInt.bind_on (List.Perm.refl _) ?_
  rintro _ _ rfl
  refine herr.does_free.bind_on (List.Perm.refl _) ?_
  rintro _ _ rfl
  rw [hname]
  refine does_delete_null.bind_on (List.Perm.refl _) ?_
  rintro _ _ rfl
  exact does_delete

end Free

/-! ## Accessors -/

/-- The pointers an accessor hands out of a statement. -/
def Accessor.answer (acc : Accessor) (a : Nat) (s : Stmt) : Answer :=
  acc.reply (.inside a) s.ast (if s.ast.kind ≠ .invalid then .literal [] else .block s.errorBuf)
    s.columns s.columnCount (s.insertValues, s.insertIsInt) s.valueCount

/-- The error has been asked for. -/
def Accessor.Copied (acc : Accessor) (s : Stmt) : Prop :=
  acc = .error → s.ast.kind = .invalid → s.errorBuf ≠ none

section Get

variable {a c : Nat} {ast : SQLStatement} {own : Blocks} {s s' : Stmt} {cols : List ColumnDef}
  {vals : List (Text × Bool)}

theorem OwnsColumns.notMem_stmt (h : OwnsColumns s cols own) : (c, .stmt s') ∉ own := by
  cases h <;> simp [columnTexts]

theorem OwnsValues.notMem_stmt (h : OwnsValues s vals own) : (c, .stmt s') ∉ own := by
  cases h <;> simp [valueTexts]

theorem OwnsError.notMem_stmt (h : OwnsError s own) : (c, .stmt s') ∉ own := by
  cases h <;> simp

theorem Owns.eq_cons (h : Owns a ast own) : ∃ s rest, own = (a, .stmt s) :: rest := by
  cases h
  exact ⟨_, _, rfl⟩

/-- A handle owns one statement, its own. -/
theorem Owns.stmt_mem (h : Owns a ast own) : ∃ s, (a, .stmt s) ∈ own ∧ s.ast = ast ∧
    ∀ c s', (c, .stmt s') ∈ own → c = a ∧ s' = s := by
  obtain ⟨hast, hname, hcols, hvals, herr⟩ := h
  rename_i s cols vals err
  refine ⟨s, List.mem_cons_self, hast, fun c s' hmem => ?_⟩
  simpa [hcols.notMem_stmt, hvals.notMem_stmt, herr.notMem_stmt] using hmem

/-- A new copy of the error does not touch the rest. -/
theorem OwnsColumns.copy (h : OwnsColumns s cols own) (errorBuf : Pointer) :
    OwnsColumns { s with errorBuf } cols own := by
  cases h with
  | none hp hn => exact .none hp hn
  | some cells hp hn => exact .some cells hp hn

theorem OwnsValues.copy (h : OwnsValues s vals own) (errorBuf : Pointer) :
    OwnsValues { s with errorBuf } vals own := by
  cases h with
  | none hp hq hn => exact .none hp hq hn
  | some cells hp hq hn => exact .some cells hp hq hn

/-- The copy handed out before is released, and a new one owned. -/
theorem Owns.does_error (h : Owns a ast own) (hs : (a, .stmt s) ∈ own) :
    Does (minidbStmtError a) own fun message after => Owns a ast after ∧ ∃ errorBuf,
      (a, .stmt { s with errorBuf }) ∈ after ∧
      message = (if s.ast.kind ≠ .invalid then .literal [] else .block errorBuf) ∧
      (s.ast.kind = .invalid → errorBuf ≠ none) := by
  have howns := h
  obtain ⟨hast, hname, hcols, hvals, herror⟩ := h
  rename_i s₀ cols vals err
  have hs₀ : s = s₀ := by
    simpa [hcols.notMem_stmt, hvals.notMem_stmt, herror.notMem_stmt] using hs
  subst hs₀
  rw [minidbStmtError]
  refine (reads_loadStmt hs).bind ?_
  by_cases hk : s.ast.kind = .invalid
  · have hne : ¬ s.ast.kind ≠ .invalid := not_not.mpr hk
    simp only [if_neg hne]
    have hfocus : ((a, .stmt s) :: (cols ++ (vals ++ err))).Perm
        (err ++ ([(a, .stmt s)] ++ (cols ++ vals))) := by
      simp [List.perm_iff_count, List.count_cons]
      omega
    refine herror.does_free.bind_on hfocus ?_
    rintro _ _ rfl
    refine (does_new _).bind_on (List.Perm.refl _) ?_
    rintro p _ rfl
    refine (does_store _).bind_on (List.Perm.swap _ _ _) ?_
    rintro _ _ rfl
    have hnext : Owns a ast ((a, .stmt { s with errorBuf := some p }) ::
        (cols ++ (vals ++ [(p, .chars s.ast.errorMsg)]))) :=
      .mk hast hname (hcols.copy _) (hvals.copy _) (.some rfl)
    refine (does_pure (Q := fun message after => message = .block (some p) ∧
      after = _) ⟨rfl, rfl⟩).imp ?_
    rintro _ _ ⟨rfl, rfl⟩
    refine ⟨_, ?_, hnext, some p, List.mem_cons_self, rfl, fun _ => nofun⟩
    simp [List.perm_iff_count, List.count_cons]
    omega
  · simp only [if_pos hk]
    exact does_pure ⟨howns, s.errorBuf, hs, rfl, fun h => absurd h hk⟩

/-- **An accessor hands out pointers of the statement**; only the copy of the error is new. -/
theorem Owns.does_run (h : Owns a ast own) (hs : (a, .stmt s) ∈ own) (acc : Accessor) :
    Does (acc.run a) own fun answer after => Owns a ast after ∧ ∃ errorBuf,
      (a, .stmt { s with errorBuf }) ∈ after ∧ answer = acc.answer a { s with errorBuf } ∧
      (acc ≠ .error → errorBuf = s.errorBuf) ∧ acc.Copied { s with errorBuf } := by
  by_cases herr : acc = .error
  · subst herr
    refine (h.does_error hs).bind ?_
    rintro _ after ⟨howns, errorBuf, hmem, rfl, hcopied⟩
    exact does_pure ⟨howns, errorBuf, hmem, rfl, fun hne => absurd rfl hne, fun _ => hcopied⟩
  · have hrun : acc.run a = loadStmt a >>= fun s => pure (acc.answer a s) := by
      cases acc
      case error => exact absurd rfl herr
      all_goals rfl
    rw [hrun]
    refine (reads_loadStmt hs).bind (does_pure ⟨h, s.errorBuf, hs, rfl, fun _ => rfl, ?_⟩)
    exact fun h => absurd h herr

/-! ## Reading -/

theorem reads_inside (hs : (a, .stmt s) ∈ own) (string : SQLStatement → Text) :
    Reads (readText (.inside a string)) own (cString (string s.ast)) :=
  (reads_loadStmt hs).bind (reads_pure _)

theorem reads_block {p : Nat} {t : Text} (ht : (p, .chars t) ∈ own) :
    Reads (readText (.block (some p))) own (cString t) :=
  (reads_load ht).bind (reads_pure _)

theorem reads_whereOf (hs : (a, .stmt s) ∈ own) (hasWhere : Bool)
    (cond : SQLStatement → WhereClause) :
    Reads (readWhere (whereOf (.inside a) s.ast hasWhere cond)) own
      (whereOf (fun string => cString (string s.ast)) s.ast hasWhere cond) := by
  cases hasWhere with
  | false => exact reads_pure _
  | true =>
    refine (reads_inside hs _).bind ?_
    refine (reads_inside hs _).bind ?_
    refine (reads_inside hs _).bind ?_
    exact reads_pure _

theorem OwnsColumns.length (h : OwnsColumns s cols own) : s.columnCount = cols.length := by
  cases h with
  | none hp hn => exact hn
  | some cells hp hn => rw [hn, List.length_map]

theorem OwnsValues.length (h : OwnsValues s vals own) : s.valueCount = vals.length := by
  cases h with
  | none hp hq hn => exact hn
  | some cells hp hq hn => rw [hn, List.length_map]

/-- The columns read as those of the statement. -/
theorem OwnsColumns.reads (h : OwnsColumns s cols own) {own' : Blocks} (hsub : own ⊆ own') :
    Reads ((List.range s.columnCount).mapM (readColumn s.columns)) own'
      (cols.map fun col => (cString col.name, cString col.type, flag col.isPrimary)) := by
  cases h with
  | none hp hn =>
    rw [hn]
    exact reads_pure []
  | some cells hp hn =>
    rw [hp, hn, List.map_map]
    refine reads_range _ fun i cell hcell => ?_
    have hmem : cell ∈ cells := List.mem_of_getElem? hcell
    refine (reads_getCell (hsub List.mem_cons_self) (getElem?_columnCells hcell)).bind ?_
    have hname : (cell.2.1, Block.chars cell.1.name) ∈ columnTexts cells :=
      List.mem_flatMap.mpr ⟨cell, hmem, by simp⟩
    have htype : (cell.2.2, Block.chars cell.1.type) ∈ columnTexts cells :=
      List.mem_flatMap.mpr ⟨cell, hmem, by simp⟩
    refine (reads_block (hsub (List.mem_cons_of_mem _ hname))).bind ?_
    refine (reads_block (hsub (List.mem_cons_of_mem _ htype))).bind ?_
    exact reads_pure _

theorem OwnsValues.reads (h : OwnsValues s vals own) {own' : Blocks} (hsub : own ⊆ own') :
    Reads ((List.range s.valueCount).mapM (readValue s.insertValues s.insertIsInt)) own'
      (vals.map fun v => (cString v.1, flag v.2)) := by
  cases h with
  | none hp hq hn =>
    rw [hn]
    exact reads_pure []
  | some cells hp hq hn =>
    rw [hp, hq, hn, List.map_map]
    refine reads_range _ fun i cell hcell => ?_
    have hints := hsub (List.mem_cons_of_mem _ List.mem_cons_self)
    refine (reads_getCell (hsub List.mem_cons_self) (getElem?_valueCells hcell)).bind ?_
    refine (reads_getCell hints (getElem?_intCells hcell)).bind ?_
    have htext : (cell.2, Block.chars cell.1.1) ∈ valueTexts cells :=
      List.mem_map.mpr ⟨cell, List.mem_of_getElem? hcell, rfl⟩
    refine (reads_block (hsub ?_)).bind (reads_pure _)
    exact List.mem_cons_of_mem _ (List.mem_cons_of_mem _ htext)

/-- **What is handed out reads as the statement of the parser does.** -/
theorem Owns.reads {sql : Text} {acc : Accessor} (h : Owns a ast own)
    (hparse : parse sql = some ast) (hs : (a, .stmt s) ∈ own) (hcopied : acc.Copied s) :
    Reads (readAnswer (acc.answer a s)) own (acc.view ast) := by
  obtain ⟨hast, hname, hcols, hvals, herror⟩ := h
  rename_i s₀ cols vals err
  have hs₀ : s = s₀ := by
    simpa [hcols.notMem_stmt, hvals.notMem_stmt, herror.notMem_stmt] using hs
  subst hs₀ hast
  have hinside := reads_inside hs
  have hwhere := reads_whereOf hs
  cases acc with
  | kind => exact reads_pure _
  | error =>
    simp only [Accessor.answer, Accessor.view, Accessor.reply]
    by_cases hk : s.ast.kind = .invalid
    · rw [if_neg (not_not.mpr hk), if_neg (not_not.mpr hk)]
      cases herror with
      | none hp => exact absurd hp (hcopied rfl hk)
      | some hp =>
        rw [hp]
        exact (reads_block (by simp)).bind (reads_pure _)
    · rw [if_pos hk, if_pos hk]
      exact reads_pure _
  | databaseName =>
    simp only [Accessor.answer, Accessor.view, Accessor.reply, getDatabaseName]
    split <;> first | exact (hinside _).bind (reads_pure _) | exact reads_pure _
  | createTable =>
    simp only [Accessor.answer, Accessor.view, Accessor.reply, getCreateTable]
    split_ifs with hk
    · exact reads_pure _
    · rw [shownColumns, if_pos (not_not.mp hk)] at hcols
      have hsub : cols ⊆ (a, .stmt s) :: (cols ++ (vals ++ err)) := by
        simp
      rw [← hcols.length]
      exact (hinside _).bind ((hcols.reads hsub).bind (reads_pure _))
  | tableName =>
    simp only [Accessor.answer, Accessor.view, Accessor.reply, getTableName]
    split_ifs
    · exact reads_pure _
    · exact (hinside _).bind (reads_pure _)
  | select =>
    simp only [Accessor.answer, Accessor.view, Accessor.reply, getSelect]
    split_ifs
    · exact reads_pure _
    · exact (hinside _).bind ((hinside _).bind ((hwhere _ _).bind (reads_pure _)))
  | delete =>
    simp only [Accessor.answer, Accessor.view, Accessor.reply, getDelete]
    split_ifs
    · exact reads_pure _
    · exact (hinside _).bind ((hwhere _ _).bind (reads_pure _))
  | insert =>
    simp only [Accessor.answer, Accessor.view, Accessor.reply, getInsert]
    split_ifs with hk
    · exact reads_pure _
    · rw [shownValues, if_pos (not_not.mp hk)] at hvals
      have hsub : vals ⊆ (a, .stmt s) :: (cols ++ (vals ++ err)) := by
        refine fun block hblock => List.mem_cons_of_mem _ (List.mem_append_right _ ?_)
        exact List.mem_append_left _ hblock
      have hcount : s.valueCount = s.ast.insertStmt.values.length := by
        rw [hvals.length, List.length_zip, ← insert_lengths hparse (not_not.mp hk), Nat.min_self]
      rw [← hcount]
      exact (hinside _).bind ((hvals.reads hsub).bind (reads_pure _))
  | update =>
    simp only [Accessor.answer, Accessor.view, Accessor.reply, getUpdate]
    split_ifs
    · exact reads_pure _
    · refine (hinside _).bind ((hinside _).bind ((hinside _).bind ?_))
      exact (hwhere _ _).bind (reads_pure _)

end Get

/-! ## Sessions -/

/-- A handle, with what it owns. -/
structure Held where
  a : Nat
  sql : Text
  ast : SQLStatement
  own : Blocks
  parsed : parse sql = some ast
  owns : Owns a ast own

def Held.handle (x : Held) : Nat × Text := (x.a, x.sql)

/-- The blocks of the heap are those of the handles. -/
structure Session.Owned (y : Session) (held : List Held) : Prop where
  handles : y.handles = held.map Held.handle
  holds : Holds y.heap (held.flatMap Held.own)

section Sessions

variable {y : Session} {held : List Held} {a : Nat} {sql : Text}

/-- No two handles are at one address. -/
theorem Session.Owned.addresses (h : y.Owned held) : (held.map Held.a).Nodup := by
  suffices hsub : (held.map Held.a).Sublist ((held.flatMap Held.own).map Prod.fst) from
    hsub.nodup h.holds.nodup
  clear h
  induction held with
  | nil => exact List.Sublist.slnil
  | cons x held ih =>
    obtain ⟨s, rest, hown⟩ := x.owns.eq_cons
    rw [List.flatMap_cons, hown, List.map_append, List.map_cons, List.map_cons, List.cons_append]
    exact (ih.trans (List.sublist_append_right _ _)).cons_cons _

/-- A handle that is held, among the others. -/
theorem Session.Owned.focus (h : y.Owned held) (hheld : ∃ h ∈ y.handles, h.1 = a) :
    ∃ pre x post, held = pre ++ x :: post ∧ x.a = a ∧
      y.handles.eraseP (·.1 == a) = (pre ++ post).map Held.handle ∧
      (held.flatMap Held.own).Perm (x.own ++ (pre ++ post).flatMap Held.own) := by
  obtain ⟨_, hmem, rfl⟩ := hheld
  rw [h.handles] at hmem
  obtain ⟨x, hx, rfl⟩ := List.mem_map.mp hmem
  obtain ⟨x', pre, post, -, hx', rfl, herase⟩ :=
    List.exists_of_eraseP (p := fun x' : Held => x'.a == x.a) hx (beq_self_eq_true x.a)
  refine ⟨pre, x', post, rfl, beq_iff_eq.mp hx', ?_, ?_⟩
  · rw [h.handles, List.eraseP_map, ← herase]
    rfl
  · rw [← List.flatMap_cons]
    exact List.perm_middle.flatMap_right _

theorem Session.Owned.parse (h : y.Owned held) (sql : Text) : ∃ x y', x.sql = sql ∧
    y.step (.parse sql) = some (.handle x.a, y') ∧ y'.Owned (x :: held) := by
  obtain ⟨a, heap, own, hrun, ⟨ast, hparse, howns⟩, hholds⟩ := does_minidbParse sql h.holds
  refine ⟨⟨a, sql, ast, own, hparse, howns⟩, ⟨heap, (a, sql) :: y.handles⟩, rfl, ?_, ?_, hholds⟩
  · rw [step, hrun]
    rfl
  · rw [h.handles]
    rfl

theorem Session.Owned.free (h : y.Owned held) (hheld : ∃ h ∈ y.handles, h.1 = a) :
    ∃ pre x post y', held = pre ++ x :: post ∧ x.a = a ∧
      y.step (.free a) = some (.nothing, y') ∧ y'.Owned (pre ++ post) := by
  obtain ⟨pre, x, post, rfl, rfl, herase, hperm⟩ := h.focus hheld
  obtain ⟨_, heap, _, hrun, rfl, hholds⟩ := x.owns.does_free (h.holds.perm hperm)
  refine ⟨pre, x, post, ⟨heap, _⟩, rfl, rfl, ?_, herase, hholds⟩
  rw [step, hrun]
  rfl

theorem Session.Owned.get (h : y.Owned held) (acc : Accessor)
    (hheld : ∃ h ∈ y.handles, h.1 = a) : ∃ pre x post x' s errorBuf y',
      held = pre ++ x :: post ∧ x.a = a ∧ x'.handle = x.handle ∧
      (a, .stmt s) ∈ x.own ∧ (a, .stmt { s with errorBuf }) ∈ x'.own ∧
      (acc ≠ .error → errorBuf = s.errorBuf) ∧ acc.Copied { s with errorBuf } ∧
      y.step (.get acc a) = some (.answer (acc.answer a { s with errorBuf }), y') ∧
      y'.Owned (pre ++ x' :: post) := by
  obtain ⟨pre, x, post, rfl, rfl, -, hperm⟩ := h.focus hheld
  obtain ⟨s, hs, -, -⟩ := x.owns.stmt_mem
  obtain ⟨_, heap, own, hrun, ⟨howns, errorBuf, hs', rfl, hkept, hcopied⟩, hholds⟩ :=
    x.owns.does_run hs acc (h.holds.perm hperm)
  refine ⟨pre, x, post, ⟨x.a, x.sql, x.ast, own, x.parsed, howns⟩, s, errorBuf,
    ⟨heap, y.handles⟩, rfl, rfl, rfl, hs, hs', hkept, hcopied, ?_, ?_, ?_⟩
  · rw [step, hrun]
    rfl
  · rw [h.handles]
    simp [Held.handle]
  · refine hholds.perm ?_
    rw [← List.flatMap_cons (f := Held.own) (x := ⟨x.a, x.sql, x.ast, own, x.parsed, howns⟩)]
    exact List.perm_middle.symm.flatMap_right _

/-- A call that uses a handle it may use. -/
theorem Session.Owned.call (h : y.Owned held) {call : Call} (hcall : y.Permits call) :
    ∃ r y' held', y.step call = some (r, y') ∧ y'.Owned held' := by
  cases call with
  | parse sql =>
    obtain ⟨x, y', -, hstep, h'⟩ := h.parse sql
    exact ⟨_, y', _, hstep, h'⟩
  | free a =>
    obtain ⟨pre, x, post, y', -, -, hstep, h'⟩ := h.free hcall
    exact ⟨_, y', _, hstep, h'⟩
  | get acc a =>
    obtain ⟨pre, x, post, x', s, errorBuf, y', -, -, -, -, -, -, -, hstep, h'⟩ := h.get acc hcall
    exact ⟨_, y', _, hstep, h'⟩

/-- A state of the heap on which an accessor's answer reads as the statement parsed from a text. -/
def Session.Shows (y : Session) (acc : Accessor) (a : Nat) (sql : Text) (answer : Answer) : Prop :=
  ∃ held, y.Owned held ∧ ∃ x ∈ held, x.handle = (a, sql) ∧ ∃ s, (a, .stmt s) ∈ x.own ∧
    answer = acc.answer a s ∧ acc.Copied s

theorem Accessor.answer_copy {acc : Accessor} (h : acc ≠ .error) {s : Stmt} (errorBuf : Pointer) :
    acc.answer a s = acc.answer a { s with errorBuf } := by
  cases acc with
  | error => exact absurd rfl h
  | _ => rfl

/-- A call that leaves an answer as it is: no release of the handle, and no question that makes the
copy of the error anew. -/
def Accessor.Spared (acc : Accessor) (a : Nat) (call : Call) : Prop :=
  call ≠ .free a ∧ (acc = .error → call ≠ .get .error a)

theorem Session.Shows.call {acc : Accessor} {answer : Answer} (h : y.Shows acc a sql answer)
    {call : Call} (hcall : y.Permits call) (hspared : acc.Spared a call) :
    ∃ r y', y.step call = some (r, y') ∧ y'.Shows acc a sql answer := by
  obtain ⟨held, howned, x, hx, hhandle, s, hs, rfl, hcopied⟩ := h
  have hxa : x.a = a := congrArg Prod.fst hhandle
  cases call with
  | parse sql' =>
    obtain ⟨x', y', -, hstep, h'⟩ := howned.parse sql'
    exact ⟨_, y', hstep, _, h', x, List.mem_cons_of_mem _ hx, hhandle, s, hs, rfl, hcopied⟩
  | free b =>
    obtain ⟨pre, x', post, y', rfl, hb, hstep, h'⟩ := howned.free hcall
    have hne : x ≠ x' := by
      rintro rfl
      exact hspared.1 (by rw [← hb, hxa])
    refine ⟨_, y', hstep, _, h', x, ?_, hhandle, s, hs, rfl, hcopied⟩
    simpa [hne] using hx
  | get acc' b =>
    obtain ⟨pre, x₀, post, x', s', errorBuf, y', rfl, hb, hhandle', hs', hs'', hkept, -, hstep, h'⟩
      := howned.get acc' hcall
    by_cases hne : x = x₀
    · subst hne
      obtain rfl : a = b := hxa.symm.trans hb
      obtain ⟨_, -, -, honly⟩ := x.owns.stmt_mem
      obtain rfl : s' = s := (honly _ _ hs').2.trans (honly _ _ hs).2.symm
      refine ⟨_, y', hstep, _, h', x', by simp, hhandle'.trans hhandle, _, hs'', ?_⟩
      by_cases hask : acc' = .error
      · subst hask
        have hne : acc ≠ .error := fun h => hspared.2 h rfl
        exact ⟨acc.answer_copy hne _, fun h => absurd h hne⟩
      · rw [hkept hask]
        exact ⟨rfl, hcopied⟩
    · refine ⟨_, y', hstep, _, h', x, ?_, hhandle, s, hs, rfl, hcopied⟩
      simp only [List.mem_append, List.mem_cons] at hx ⊢
      tauto

/-- What an answer reads as. -/
theorem Session.Shows.reads {acc : Accessor} {answer : Answer} {ast : SQLStatement}
    (h : y.Shows acc a sql answer) (hparse : parse sql = some ast) :
    (readAnswer answer).run' y.heap = .ok (acc.view ast) := by
  obtain ⟨held, howned, x, hx, hhandle, s, hs, rfl, hcopied⟩ := h
  obtain ⟨rfl, rfl⟩ : x.a = a ∧ x.sql = sql := Prod.mk.inj hhandle
  obtain rfl : ast = x.ast := Option.some.inj (hparse.symm.trans x.parsed)
  obtain ⟨pre, post, rfl⟩ := List.append_of_mem hx
  have hfocus : ((pre ++ x :: post).flatMap Held.own).Perm
      (x.own ++ (pre ++ post).flatMap Held.own) := by
    rw [← List.flatMap_cons]
    exact List.perm_middle.flatMap_right _
  obtain ⟨_, heap, _, hrun, ⟨rfl, -⟩, -⟩ :=
    x.owns.reads x.parsed hs hcopied (howned.holds.perm hfocus)
  exact congrArg (Except.map Prod.fst) hrun

/-- The states a caller comes to. -/
theorem Session.Owned.exec {calls : List Call}
    (h : Along Session.step Session.Permits {} calls) :
    ∃ rs y, Machine.exec Session.step {} calls = some (rs, y) ∧ ∃ held, y.Owned held := by
  have hstart : Session.Owned {} [] := ⟨rfl, holds_nil⟩
  refine exec_along (I := fun y => ∃ held, Session.Owned y held) ?_ h ⟨[], hstart⟩
  rintro y call ⟨held, howned⟩ hcall
  obtain ⟨r, y', held', hstep, h'⟩ := howned.call hcall
  exact ⟨r, y', hstep, held', h'⟩

/-- A table with two columns, and a statement that fails. -/
def twoHandles : List Call :=
  [.parse "create table t (id int primary, name string);".toList,
    .parse "insert into t values (1;".toList]

/-- **A caller does no harm and leaks nothing** — in every order of calls that uses handles only
until they are released. -/
theorem calls_owned {calls : List Call} (h : Along Session.step Session.Permits {} calls) :
    ∃ rs y held, exec Session.step {} calls = some (rs, y) ∧ y.Owned held ∧
      (y.handles = [] → ∀ a, y.heap.get a = none) := by
  obtain ⟨rs, y, hexec, held, howned⟩ := Session.Owned.exec h
  refine ⟨rs, y, held, hexec, howned, fun hnil a => ?_⟩
  obtain rfl : held = [] := List.map_eq_nil_iff.mp (howned.handles.symm.trans hnil)
  exact howned.holds.get_nil a

theorem calls_owned_two : ∃ rs y held,
    exec Session.step {} (twoHandles ++ [.get .error 6, .free 0, .get .error 6, .free 6])
      = some (rs, y) ∧ y.Owned held ∧ (y.handles = [] → ∀ a, y.heap.get a = none) :=
  calls_owned (by decide +kernel)

/-- **What an accessor hands out reads as the statement of the parser does** — after any calls that
neither release the handle nor, for the error, ask for it again. -/
theorem replies_last {calls : List Call} {rs : List Returned} {y : Session} {a : Nat} {sql : Text}
    (h : Along Session.step Session.Permits {} calls)
    (hexec : exec Session.step {} calls = some (rs, y)) (hheld : (a, sql) ∈ y.handles)
    (acc : Accessor) : ∃ answer y' ast, y.step (.get acc a) = some (.answer answer, y') ∧
      parse sql = some ast ∧ ∀ later,
        Along Session.step (fun y call => y.Permits call ∧ acc.Spared a call) y' later →
        ∃ qs t, exec Session.step y' later = some (qs, t) ∧
          (readAnswer answer).run' t.heap = .ok (acc.view ast) := by
  obtain ⟨_, y₁, hexec', held, howned⟩ := Session.Owned.exec h
  obtain rfl : y₁ = y := by
    rw [hexec] at hexec'
    cases hexec'
    rfl
  obtain ⟨pre, x₀, post, x', s, errorBuf, y', rfl, hx₀, hhandle, -, hs, -, hcopied, hstep, h'⟩ :=
    howned.get acc ⟨_, hheld, rfl⟩
  have hsql : x'.handle = (a, sql) := by
    rw [howned.handles] at hheld
    obtain ⟨x, hx, hhandle'⟩ := List.mem_map.mp hheld
    have hsame : x = x₀ := List.inj_on_of_nodup_map howned.addresses hx (by simp)
      ((congrArg Prod.fst hhandle').trans hx₀.symm)
    rw [hhandle, ← hsame, hhandle']
  have hshows : y'.Shows acc a sql (acc.answer a { s with errorBuf }) :=
    ⟨_, h', x', by simp, hsql, _, hs, rfl, hcopied⟩
  have hparse : parse sql = some x'.ast := by
    obtain rfl : x'.sql = sql := congrArg Prod.snd hsql
    exact x'.parsed
  refine ⟨_, y', x'.ast, hstep, hparse, fun later hlater => ?_⟩
  obtain ⟨qs, t, hrun, ht⟩ :=
    exec_along (I := fun y => Session.Shows y acc a sql _)
      (fun hy hcall => hy.call hcall.1 hcall.2) hlater hshows
  exact ⟨qs, t, hrun, ht.reads hparse⟩

theorem replies_last_two : ∃ rs y answer y' ast, exec Session.step {} twoHandles = some (rs, y) ∧
    y.step (.get .createTable 0) = some (.answer answer, y') ∧
    parse "create table t (id int primary, name string);".toList = some ast ∧ ∀ later,
      Along Session.step (fun y call => y.Permits call ∧ Accessor.Spared .createTable 0 call) y'
        later →
      ∃ qs t, exec Session.step y' later = some (qs, t) ∧
        (readAnswer answer).run' t.heap = .ok (Accessor.view .createTable ast) := by
  have hrun : (exec Session.step {} twoHandles).any (fun end' =>
      (0, "create table t (id int primary, name string);".toList) ∈ end'.2.handles) = true := by
    decide +kernel
  obtain ⟨⟨rs, y⟩, hexec, hheld⟩ := (Option.any_eq_true _ _).mp hrun
  obtain ⟨answer, y', ast, hstep, hparse, hlast⟩ :=
    replies_last (by decide +kernel) hexec (decide_eq_true_eq.mp hheld) .createTable
  exact ⟨rs, y, answer, y', ast, hexec, hstep, hparse, hlast⟩

end Sessions

end MiniDB.Parser.CApi

import MiniDB.Execution.Safety
import MiniDB.Machinery.Comparator
import Mathlib.Data.Char
import Mathlib.Data.List.Lex
import Mathlib.Data.Sum.Order
import Mathlib.Order.WithBot

/-!
# Execution/Ranges — the rows below, at and above a literal

`strcmp` orders texts lexicographically and `Value.compare` puts NONE first, then the ints, then the
strings; so it orders by a key (`compare_ordersBy`).  A condition on a column compares each cell
with a literal, and in a reachable state every row has the cell; so the rows that `<`, `=` and `>`
select are the ranges of that order.

**`ranges_consistent`**: they are disjoint, cover the table, and follow the literal.
-/

namespace MiniDB.Execution

open MiniDB.Core MiniDB.Parser MiniDB.Storage Comparator

/-! ## The order of values -/

theorem strcmp_ordersBy : OrdersBy strcmp (id : Text → Text) := by
  have hboth (s t : Text) : (strcmp s t < 0 ↔ s < t) ∧ (0 < strcmp s t ↔ t < s) := by
    induction s generalizing t with
    | nil => cases t <;> simp [strcmp]
    | cons a s ih =>
      cases t with
      | nil => simp [strcmp]
      | cons b t =>
        rw [strcmp]
        split_ifs with hab hba
        · simp [List.cons_lt_cons_iff, hab, hab.not_gt, hab.ne']
        · simp [List.cons_lt_cons_iff, hba, hba.not_gt, hba.ne']
        · obtain rfl := le_antisymm (not_lt.mp hba) (not_lt.mp hab)
          simpa [List.cons_lt_cons_iff] using ih t
  exact ⟨fun s t => (hboth s t).1, fun s t => (hboth s t).2⟩

/-- NONE, then the ints, then the strings. -/
def orderKey : Value → WithBot (ℤ ⊕ₗ Text)
  | .none => ⊥
  | .int n => ↑(Sum.inlₗ n : ℤ ⊕ₗ Text)
  | .string s => ↑(Sum.inrₗ (cString s) : ℤ ⊕ₗ Text)

/-- **`Value.compare` is a total order**, NUL-free texts being their own keys. -/
theorem compare_ordersBy : OrdersBy Value.compare orderKey where
  lt_iff a b := by
    cases a <;> cases b <;> simp [Value.compare, orderKey]
    case int.int x y => split_ifs <;> omega
    case string.string s t => exact strcmp_ordersBy.lt_iff _ _
  gt_iff a b := by
    cases a <;> cases b <;> simp [Value.compare, orderKey]
    case int.int x y => split_ifs <;> omega
    case string.string s t => exact strcmp_ordersBy.gt_iff _ _

/-! ## The rows a condition selects -/

open Executor

/-- The positions of the rows that `WHERE col op v` selects, `v` the text of a literal and whether
it is an int. -/
def rowsWhere (t : Table) (col op : Text) (v : Text × Bool) : Set ℕ :=
  {i | ∃ row, t.rows[i]? = some row ∧
    selects true { column := col, op, constValue := v.1, isIntLiteral := v.2 } t row = true}

/-- The cell of a row in a column. -/
def cellAt (t : Table) (j i : ℕ) : Option Value := t.rows[i]?.bind (·[j]?)

/-- The cells an operator accepts beside a literal. -/
def accepted (op : Text) (p : Value) : Set Value :=
  {cell | op = ['='] ∧ cell ∈ level Value.compare p ∨ op = ['<'] ∧ cell ∈ below Value.compare p ∨
    op = ['>'] ∧ cell ∈ above Value.compare p}

theorem accepted_lt (p : Value) : accepted ['<'] p = below Value.compare p := by
  ext cell
  simp [accepted]

theorem accepted_eq (p : Value) : accepted ['='] p = level Value.compare p := by
  ext cell
  simp [accepted]

theorem accepted_gt (p : Value) : accepted ['>'] p = above Value.compare p := by
  ext cell
  simp [accepted]

theorem matchesWhere_iff {row : Row} {cond : WhereClause} {j : ℕ} :
    matchesWhere row (some j) cond = true ↔
      ∃ cell ∈ accepted cond.op (parseWhereValue cond), row[j]? = some cell := by
  rw [matchesWhere, Option.bind_some]
  cases row[j]? with
  | none => simp
  | some cell =>
    simp only [beq_iff_eq, Option.some.injEq, exists_eq_right', accepted, below, level, above,
      Set.mem_ofPred_eq]
    split_ifs with heq hlt hgt
    · simp [heq]
    · simp [hlt]
    · simp [hgt]
    · simp [heq, hlt, hgt]

section Rows

variable {t : Table} {col op : Text} {v w : Text × Bool} {i j : ℕ}

/-- A row is selected when its cell is accepted. -/
theorem rowsWhere_eq (hcol : t.findColumn col = some j) : rowsWhere t col op v =
    Set.preimage (cellAt t j) (some '' accepted op (literal v.1 v.2)) := by
  ext i
  simp only [rowsWhere, selects, selected, whereColumn, hcol, if_true, Bool.not_true,
    Bool.false_or, matchesWhere_iff, parseWhereValue, Set.mem_ofPred_eq, Set.mem_preimage,
    Set.mem_image, cellAt]
  constructor
  · rintro ⟨row, hrow, cell, hmem, hcell⟩
    exact ⟨cell, hmem, by rw [hrow, Option.bind_some, hcell]⟩
  · rintro ⟨cell, hmem, hcell⟩
    obtain ⟨row, hrow, hcell⟩ := Option.bind_eq_some_iff.mp hcell.symm
    exact ⟨row, hrow, cell, hmem, hcell⟩

/-- Operators that accept no cell in common select no row in common. -/
theorem disjoint_rowsWhere {op' : Text} (hcol : t.findColumn col = some j)
    (h : Disjoint (accepted op (literal v.1 v.2)) (accepted op' (literal v.1 v.2))) :
    Disjoint (rowsWhere t col op v) (rowsWhere t col op' v) := by
  rw [rowsWhere_eq hcol, rowsWhere_eq hcol]
  exact ((Set.disjoint_image_iff (Option.some_injective _)).mpr h).preimage _

theorem rowsWhere_subset (hcol : t.findColumn col = some j)
    (h : accepted op (literal v.1 v.2) ⊆ accepted op (literal w.1 w.2)) :
    rowsWhere t col op v ⊆ rowsWhere t col op w := by
  rw [rowsWhere_eq hcol, rowsWhere_eq hcol]
  exact Set.preimage_mono (Set.image_mono h)

/-- Where every row has the cell, the three operators together select every row. -/
theorem rowsWhere_union (hcol : t.findColumn col = some j)
    (hcell : ∀ row ∈ t.rows, j < row.length) :
    rowsWhere t col ['<'] v ∪ rowsWhere t col ['='] v ∪ rowsWhere t col ['>'] v =
      {i | i < t.rows.length} := by
  rw [rowsWhere_eq hcol, rowsWhere_eq hcol, rowsWhere_eq hcol, accepted_lt, accepted_eq,
    accepted_gt, ← Set.preimage_union, ← Set.preimage_union, ← Set.image_union, ← Set.image_union,
    ranges_univ, Set.image_univ]
  ext i
  simp only [Set.mem_preimage, Set.mem_range, cellAt, Set.mem_ofPred_eq]
  constructor
  · rintro ⟨cell, h⟩
    obtain ⟨row, hrow, -⟩ := Option.bind_eq_some_iff.mp h.symm
    exact (List.getElem?_eq_some_iff.mp hrow).1
  · intro hi
    have hj := hcell t.rows[i] (List.getElem_mem hi)
    exact ⟨t.rows[i][j], by simp [hi, hj]⟩

end Rows

/-- The conditions on a column are ranges of its cells. -/
structure Ranges (t : Table) (col : Text) : Prop where
  lt_eq : ∀ v, Disjoint (rowsWhere t col ['<'] v) (rowsWhere t col ['='] v)
  lt_gt : ∀ v, Disjoint (rowsWhere t col ['<'] v) (rowsWhere t col ['>'] v)
  eq_gt : ∀ v, Disjoint (rowsWhere t col ['='] v) (rowsWhere t col ['>'] v)
  all : ∀ v, rowsWhere t col ['<'] v ∪ rowsWhere t col ['='] v ∪ rowsWhere t col ['>'] v =
    {i | i < t.rows.length}
  lt_mono : ∀ v w, Value.compare (literal v.1 v.2) (literal w.1 w.2) < 0 →
    rowsWhere t col ['<'] v ⊆ rowsWhere t col ['<'] w
  gt_anti : ∀ v w, Value.compare (literal v.1 v.2) (literal w.1 w.2) < 0 →
    rowsWhere t col ['>'] w ⊆ rowsWhere t col ['>'] v

theorem ranges_of_findColumn {t : Table} {col : Text} {j : ℕ} (hcol : t.findColumn col = some j)
    (hcell : ∀ row ∈ t.rows, j < row.length) : Ranges t col where
  lt_eq v := disjoint_rowsWhere hcol (by
    rw [accepted_lt, accepted_eq]
    exact disjoint_below_level _)
  lt_gt v := disjoint_rowsWhere hcol (by
    rw [accepted_lt, accepted_gt]
    exact disjoint_below_above _)
  eq_gt v := disjoint_rowsWhere hcol (by
    rw [accepted_eq, accepted_gt]
    exact disjoint_level_above _)
  all _ := rowsWhere_union hcol hcell
  lt_mono v w h := rowsWhere_subset hcol (by
    rw [accepted_lt, accepted_lt]
    exact compare_ordersBy.below_subset h)
  gt_anti v w h := rowsWhere_subset hcol (by
    rw [accepted_gt, accepted_gt]
    exact compare_ordersBy.above_subset h)

/-- A column is found by its own name, though it may be an earlier one that is found. -/
theorem exists_findColumn {t : Table} (h : t.WellFormed) {col : Column} (hcol : col ∈ t.columns) :
    ∃ j, t.findColumn col.name = some j := by
  rw [← Option.isSome_iff_exists, Table.findColumn,
    cString_of_notMem (h.columnNames col hcol).noNul, List.findIdx?_isSome, List.any_eq_true]
  exact ⟨col, hcol, beq_self_eq_true _⟩

/-- **WHERE compares consistently with an order.**  `Value.compare` is antisymmetric, separates
clean values and is transitive; and in a reachable state the rows that `<`, `=` and `>` select in a
column are disjoint, are all rows together, and follow the literal. -/
theorem ranges_consistent :
    (∀ a b, (Value.compare b a).sign = -(Value.compare a b).sign) ∧
    (∀ a b : Value, a.Clean → b.Clean → (Value.compare a b = 0 ↔ a = b)) ∧
    (∀ a b c, Value.compare a b ≤ 0 → Value.compare b c ≤ 0 → Value.compare a c ≤ 0) ∧
    ∀ e, Reachable e → ∀ db, e.currentDb = some db → ∀ t ∈ db.tables, ∀ col ∈ t.columns,
      Ranges t col.name := by
  refine ⟨compare_ordersBy.sign_swap, fun _ _ => Value.compare_eq_zero_iff,
    fun _ _ _ => compare_ordersBy.le_trans, ?_⟩
  rintro e ⟨root, disk, hreach⟩ db hdb t ht col hcol
  have he := wellFormed_of_reaches hreach
  obtain ⟨s, -, hwf, rfl⟩ := he.exists_slot hdb ht
  obtain ⟨j, hj⟩ := exists_findColumn hwf.table hcol
  exact ranges_of_findColumn hj fun row hrow =>
    (he.shaped hdb).rows _ ht row hrow ▸ Table.findColumn_lt hj

/-- Of two rows, the one below 2 and both below 3. -/
theorem ranges_consistent_sample :
    (Value.compare (.string ['b']) (.string ['a']) = 0 ↔ Value.string ['b'] = .string ['a']) ∧
    Value.compare .none (.string []) ≤ 0 ∧
    rowsWhere (sampleTable [[.int 1], [.int 2]]) ['a'] ['<'] (['2'], true) ⊆
      rowsWhere (sampleTable [[.int 1], [.int 2]]) ['a'] ['<'] (['3'], true) := by
  obtain ⟨-, hseparates, htrans, hranges⟩ := ranges_consistent
  refine ⟨hseparates _ _ (show '\x00' ∉ ['b'] by decide) (show '\x00' ∉ ['a'] by decide),
    htrans _ (.int 1) _ (by decide) (by decide), ?_⟩
  exact (hranges _ sampleTwo_reachable _ rfl (sampleTable [[.int 1], [.int 2]]) (by decide)
    { name := ['a'], type := .int, isPrimary := true } (by decide)).lt_mono _ _
    (by decide)

end MiniDB.Execution

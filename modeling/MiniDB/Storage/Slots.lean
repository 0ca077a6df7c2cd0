import MiniDB.Machinery.Selection
import MiniDB.Parser.Lexemes
import MiniDB.Storage.Database

/-!
# Storage/Slots — a database as one list of tables with their indexes

The three vectors of a `Database` are three views of one list of `Slot`s: `Database.ofSlots`.  A
database in that form stays in it, and its operations are operations on the list — creating a table
appends a slot, dropping one removes it, and a handler that wrote to a table replaces its slot.

A slot is well formed when its rows fit its columns, its cells can be stored, and its index is
sorted; `Slots` are when they all are and no two tables share a name.
-/

namespace MiniDB.Storage

open MiniDB.Core MiniDB.Parser

/-- A table and its index. -/
structure Slot where
  table : Table
  index : Index
  deriving DecidableEq, Repr

/-- A cell as literals make it: 32 bits, or a text without NUL. -/
def Value.Stored : Value → Prop
  | .int n => IsInt32 n
  | .string s => '\x00' ∉ s
  | .none => False

theorem Value.Stored.clean {v : Value} (h : v.Stored) : v.Clean := by
  cases v with
  | int n => trivial
  | string s => exact h
  | none => trivial

/-- A row of stored cells, one for each column. -/
structure Row.Fits (row : Row) (columns : List Column) : Prop where
  arity : row.length = columns.length
  stored : ∀ v ∈ row, v.Stored

/-- A table the executor can hold. -/
structure Table.WellFormed (t : Table) : Prop where
  name : IsName t.name
  columns : t.columns ≠ []
  columnNames : ∀ col ∈ t.columns, IsName col.name
  rows : ∀ row ∈ t.rows, Row.Fits row t.columns

structure Slot.WellFormed (s : Slot) : Prop where
  table : s.table.WellFormed
  index : s.index.Sorted

/-- The names are distinct and every slot is well formed. -/
structure Slots.WellFormed (slots : List Slot) : Prop where
  names : (slots.map (·.table.name)).Nodup
  slot : ∀ s ∈ slots, s.WellFormed

/-! ## Well-formed lists of slots -/

namespace Slots.WellFormed

variable {slots pre post : List Slot} {s s' : Slot}

theorem append (h : Slots.WellFormed slots) (hs : s.WellFormed)
    (hnew : ∀ x ∈ slots, x.table.name ≠ s.table.name) : Slots.WellFormed (slots ++ [s]) where
  names := by
    rw [List.map_append]
    refine List.nodup_append.mpr ⟨h.names, List.pairwise_singleton _ _, ?_⟩
    rintro x hx y hy rfl
    obtain ⟨a, ha, rfl⟩ := List.mem_map.mp hx
    exact hnew a ha (List.mem_singleton.mp hy)
  slot x hx := (List.mem_append.mp hx).elim (h.slot x) fun hx => List.mem_singleton.mp hx ▸ hs

theorem erase (h : Slots.WellFormed (pre ++ s :: post)) : Slots.WellFormed (pre ++ post) :=
  have hsub : (pre ++ post).Sublist (pre ++ s :: post) :=
    (List.Sublist.refl pre).append (List.sublist_cons_self s post)
  ⟨h.names.sublist (hsub.map _), fun x hx => h.slot x (hsub.subset hx)⟩

theorem replace (h : Slots.WellFormed (pre ++ s :: post)) (hs : s'.WellFormed)
    (hname : s'.table.name = s.table.name) : Slots.WellFormed (pre ++ s' :: post) where
  names := by
    have hn := h.names
    rw [List.map_append, List.map_cons] at hn ⊢
    rwa [hname]
  slot x hx := by
    rcases List.mem_append.mp hx with hx | hx
    · exact h.slot x (List.mem_append_left _ hx)
    · rcases List.mem_cons.mp hx with rfl | hx
      · exact hs
      · exact h.slot x (List.mem_append_right _ (List.mem_cons_of_mem _ hx))

end Slots.WellFormed

/-! ## Positions found by first match -/

/-- A column that is found is there. -/
theorem Table.findColumn_lt {t : Table} {name : Text} {j : Nat} (h : t.findColumn name = some j) :
    j < t.columns.length := (List.findIdx?_eq_some_iff_getElem.mp h).1

theorem Table.primaryKeyIndex_lt {t : Table} {j : Nat} (h : t.primaryKeyIndex = some j) :
    j < t.columns.length := (List.findIdx?_eq_some_iff_getElem.mp h).1

/-- A row that fits has a cell for every column. -/
theorem Row.Fits.cell {row : Row} {columns : List Column} (h : Row.Fits row columns) {j : Nat}
    (hj : j < columns.length) : ∃ v, row[j]? = some v ∧ v.Stored := by
  have hlt : j < row.length := h.arity ▸ hj
  exact ⟨row[j], List.getElem?_eq_getElem hlt, h.stored _ (List.getElem_mem hlt)⟩

theorem Row.Fits.set {row : Row} {columns : List Column} (h : Row.Fits row columns) (j : Nat)
    {v : Value} (hv : v.Stored) : Row.Fits (row.set j v) columns where
  arity := by rw [List.length_set, h.arity]
  stored u hu := (List.mem_or_eq_of_mem_set hu).elim (h.stored u) (· ▸ hv)

namespace Database

/-- The database of a list of slots. -/
def ofSlots (name dataDir : Text) (slots : List Slot) : Database where
  name := name
  dataDir := dataDir
  tableNames := slots.map (·.table.name)
  tables := slots.map Slot.table
  indexes := slots.map Slot.index

section OfSlots

variable {name dataDir n : Text} {slots pre post : List Slot} {s : Slot}

/-- A name no slot carries. -/
def Absent (slots : List Slot) (n : Text) : Prop := ∀ s ∈ slots, s.table.name ≠ n

theorem getTable_absent (h0 : '\x00' ∉ n) (h : Absent slots n) :
    (ofSlots name dataDir slots).getTable n = none := by
  rw [getTable, cString_of_notMem h0]
  simpa [ofSlots, List.findIdx?_map, Absent] using h

theorem getTable_present (h0 : '\x00' ∉ n) (hs : s.table.name = n) (hpre : Absent pre n) :
    (ofSlots name dataDir (pre ++ s :: post)).getTable n = some pre.length := by
  have hnone : (pre.map (·.table.name)).findIdx? (· == n) = none := by
    simpa [List.findIdx?_map, Absent] using hpre
  rw [getTable, cString_of_notMem h0, ofSlots, List.map_append, List.findIdx?_append, hnone]
  simp [hs, List.findIdx?_cons]

/-- A name is absent, or the first slot that carries it is a split of the list. -/
theorem absent_or_split (slots : List Slot) (n : Text) : Absent slots n ∨
    ∃ pre s post, slots = pre ++ s :: post ∧ s.table.name = n ∧ Absent pre n := by
  refine (Selection.all_or_first (fun x : Slot => x.table.name ≠ n) slots).imp id ?_
  rintro ⟨pre, s, post, rfl, hpre, hs⟩
  exact ⟨pre, s, post, rfl, not_not.mp hs, hpre⟩

theorem getIndex_eq (db : Database) (n : Text) : db.getIndex n = db.getTable n := rfl

theorem tables_split :
    (ofSlots name dataDir (pre ++ s :: post)).tables[pre.length]? = some s.table := by
  simp [ofSlots]

theorem indexes_split :
    (ofSlots name dataDir (pre ++ s :: post)).indexes[pre.length]? = some s.index := by
  simp [ofSlots]

/-- Writing a table and its index back replaces their slot. -/
theorem set_split {table : Table} {index : Index} (hname : table.name = s.table.name) :
    { ofSlots name dataDir (pre ++ s :: post) with
      tables := (ofSlots name dataDir (pre ++ s :: post)).tables.set pre.length table
      indexes := (ofSlots name dataDir (pre ++ s :: post)).indexes.set pre.length index }
      = ofSlots name dataDir (pre ++ ⟨table, index⟩ :: post) := by
  simp [ofSlots, hname]

/-! ## Creating and dropping -/

/-- The table CREATE TABLE makes. -/
def freshTable (n dataDir : Text) (columns : List Column) : Table :=
  { Table.inDir n dataDir with columns }

theorem foldl_addColumn (columns : List Column) (t : Table) :
    columns.foldl Table.addColumn t = { t with columns := t.columns ++ columns } := by
  induction columns generalizing t with
  | nil => simp
  | cons c columns ih => simp [ih, Table.addColumn]

/-- **A table of a new name is appended, with an empty index.** -/
theorem createTable_absent (h0 : '\x00' ∉ n) (h : Absent slots n) (columns : List Column) :
    (ofSlots name dataDir slots).createTable n columns
      = (true, ofSlots name dataDir (slots ++ [⟨freshTable n dataDir columns, {}⟩])) := by
  rw [createTable, getTable_absent h0 h]
  simp [ofSlots, foldl_addColumn, freshTable, Table.inDir]

/-- **A name that is taken changes nothing.** -/
theorem createTable_present (h0 : '\x00' ∉ n) (hs : s.table.name = n) (hpre : Absent pre n)
    (columns : List Column) : (ofSlots name dataDir (pre ++ s :: post)).createTable n columns
      = (false, ofSlots name dataDir (pre ++ s :: post)) := by
  rw [createTable, getTable_present h0 hs hpre]

theorem dropTable_absent (h0 : '\x00' ∉ n) (h : Absent slots n) (disk : Disk) :
    (ofSlots name dataDir slots).dropTable n disk
      = some (false, ofSlots name dataDir slots, disk) := by
  have hget : (ofSlots name dataDir slots).getTable n = none := getTable_absent h0 h
  rw [getTable] at hget
  rw [dropTable, hget]

/-- The shift of one of the vectors, from the position of a slot on. -/
theorem shiftLeft_map {α : Type} (f : Slot → α) (pre post : List Slot) (s : Slot) {k : Nat}
    (hk : k = post.length) :
    (InPlace.shiftLeft k pre.length ((pre ++ s :: post).map f)).map List.dropLast
      = some ((pre ++ post).map f) := by
  have h := InPlace.shiftLeft_gap (pre.map f) (post.map f) (f s)
  rw [List.length_map, ← List.map_cons, ← List.map_append, List.length_map, ← List.map_append] at h
  rw [← h, hk]
  congr 2
  simp
  omega

/-- The disk behind a drop: the files under the directory of the database are removed. -/
def dropFiles (db : Database) (n : Text) (disk : Disk) : Disk :=
  (disk.remove (db.filePath n ".dat")).remove (db.filePath n ".idx")

/-- **Dropping a table removes its slot**, and two files. -/
theorem dropTable_present (h0 : '\x00' ∉ n) (hs : s.table.name = n) (hpre : Absent pre n)
    (disk : Disk) : (ofSlots name dataDir (pre ++ s :: post)).dropTable n disk
      = some (true, ofSlots name dataDir (pre ++ post),
          dropFiles (ofSlots name dataDir (pre ++ s :: post)) n disk) := by
  have hget : (ofSlots name dataDir (pre ++ s :: post)).getTable n = some pre.length :=
    getTable_present h0 hs hpre
  rw [getTable] at hget
  have hk : (pre ++ s :: post).length - (pre.length + 1) = post.length := by simp; omega
  obtain ⟨_, hn, hn'⟩ := Option.map_eq_some_iff.mp (shiftLeft_map (·.table.name) pre post s hk)
  obtain ⟨_, ht, ht'⟩ := Option.map_eq_some_iff.mp (shiftLeft_map Slot.table pre post s hk)
  obtain ⟨_, hi, hi'⟩ := Option.map_eq_some_iff.mp (shiftLeft_map Slot.index pre post s hk)
  rw [dropTable, hget]
  simp only [ofSlots, List.length_map, hn, ht, hi, hn', ht', hi', Option.bind_eq_bind,
    Option.bind_some]
  rfl

end OfSlots

end Database

end MiniDB.Storage

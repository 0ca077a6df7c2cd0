import MiniDB.Execution.Executor
import MiniDB.Storage.Slots

/-!
# Execution/Loops — what the row loops of the executor come to

On rows that fit their columns each loop is a list operation: SELECT filters and projects, DELETE
keeps the rows that are not selected, UPDATE maps over the rows.  What the loops do to the index is
said as the map it is: DELETE unbinds the int keys of the rows it removes (`keysOf`), UPDATE of the
key binds the new key to the last row it touched (`lastPos`).
-/

namespace MiniDB.Execution

open MiniDB.Core MiniDB.Parser MiniDB.Storage Executor

/-! ## Keys -/

/-- The int in the key cell of a row. -/
def intKey (pkCol : Option Nat) (row : Row) : Option Int :=
  match pkCol.bind (row[·]?) with
  | some (.int k) => some k
  | _ => none

/-- The int keys of the rows. -/
def keysOf (pkCol : Option Nat) (rows : List Row) : List Int := rows.filterMap (intKey pkCol)

theorem mem_keysOf {pkCol : Option Nat} {rows : List Row} {k : Int} :
    k ∈ keysOf pkCol rows ↔ ∃ row ∈ rows, intKey pkCol row = some k := List.mem_filterMap

/-- The key under which INSERT enters a row: 0 if its key is no int. -/
def entryKey (pkCol : Option Nat) (row : Row) : Int := (intKey pkCol row).getD 0

theorem entryKey_of_intKey {pkCol : Option Nat} {row : Row} {k : Int}
    (h : intKey pkCol row = some k) : entryKey pkCol row = k := by
  rw [entryKey, h]
  rfl

/-- Whether INSERT finds the key of a row in the index. -/
def taken (idx : Index) (pkCol : Option Nat) (row : Row) : Bool :=
  (intKey pkCol row).any fun k => (idx.rowOf k).isSome

/-- A row with a cell in the key column, if there is one. -/
def HasKeyCell (pkCol : Option Nat) (row : Row) : Prop := ∀ c, pkCol = some c → ∃ v, row[c]? = some v

theorem hasKeyCell_of_fits {t : Table} {row : Row} (h : Row.Fits row t.columns) :
    HasKeyCell t.primaryKeyIndex row := fun _ hc =>
  (h.cell (Table.primaryKeyIndex_lt hc)).imp fun _ hv => hv.1

/-! ## SELECT -/

/-- The cells of a row in the target column; no target is all of them. -/
def project (target : Option Nat) (row : Row) : Row :=
  match target with
  | none => row
  | some col => row[col]?.toList

/-- **SELECT filters, then projects.** -/
theorem selectLoop_spec {sel : Row → Bool} {target : Option Nat} {rows : List Row}
    (h : ∀ row ∈ rows, HasKeyCell target row) (result : Table) :
    selectLoop sel target rows result
      = some { result with rows := result.rows ++ (rows.filter sel).map (project target) } := by
  induction rows generalizing result with
  | nil => simp [selectLoop]
  | cons row rows ih =>
    obtain ⟨hrow, hrows⟩ := List.forall_mem_cons.mp h
    have hproj : projectRow target row = some (project target row) := by
      cases target with
      | none => rfl
      | some col =>
        obtain ⟨v, hv⟩ := hrow col rfl
        simp [projectRow, project, hv]
    rw [selectLoop]
    by_cases hs : sel row = true
    · simp [hs, hproj, ih hrows, Table.insertRow]
    · simp [hs, ih hrows]

/-! ## DELETE -/

/-- Taking a row out of the index unbinds its int key. -/
theorem unindex_spec {idx : Index} (hs : idx.Sorted) {pkCol : Option Nat} {row : Row}
    (hrow : HasKeyCell pkCol row) : ∃ idx', unindex (some idx) pkCol row = some (some idx') ∧
      idx'.Sorted ∧
        ∀ k, idx'.rowOf k = if intKey pkCol row = some k then none else idx.rowOf k := by
  cases pkCol with
  | none => exact ⟨idx, rfl, hs, fun k => by simp [intKey]⟩
  | some c =>
    obtain ⟨v, hv⟩ := hrow c rfl
    cases v with
    | int key =>
      obtain ⟨idx', hrem, hs', hmap⟩ := Index.remove_spec hs key
      refine ⟨idx', by simp [unindex, hv, hrem], hs', fun k => ?_⟩
      simp [hmap, intKey, hv, eq_comm]
    | string s => exact ⟨idx, by simp [unindex, hv], hs, fun k => by simp [intKey, hv]⟩
    | none => exact ⟨idx, by simp [unindex, hv], hs, fun k => by simp [intKey, hv]⟩

/-- **DELETE keeps the rows that are not selected**, and unbinds the int keys of the others.  The
loop is at the end of `pre`; `post` is what it has kept of the rows behind. -/
theorem deleteLoop_spec (sel : Row → Bool) {pkCol : Option Nat} {idx : Index} (hs : idx.Sorted)
    (t : Table) {pre : List Row} (hpre : ∀ row ∈ pre, HasKeyCell pkCol row) (post : List Row)
    (n : Nat) : ∃ idx', deleteLoop sel pkCol pre.length { t with rows := pre ++ post } (some idx) n
        = some ({ t with rows := pre.filter (fun row => !sel row) ++ post }, some idx',
            n + pre.countP sel) ∧ idx'.Sorted ∧
      ∀ k, idx'.rowOf k = if k ∈ keysOf pkCol (pre.filter sel) then none else idx.rowOf k := by
  induction pre using List.reverseRecOn generalizing idx post n with
  | nil => exact ⟨idx, rfl, hs, fun k => by simp [keysOf]⟩
  | append_singleton pre row ih =>
    have hget : (pre ++ row :: post)[pre.length]? = some row := by simp
    have hrow := hpre row (by simp)
    have hpre' : ∀ r ∈ pre, HasKeyCell pkCol r := fun r hr => hpre r (List.mem_append_left _ hr)
    rw [List.length_append, List.length_singleton, deleteLoop, List.append_assoc,
      List.singleton_append]
    simp only [hget, Option.bind_eq_bind, Option.bind_some]
    by_cases hsel : sel row = true
    · obtain ⟨idx₁, hun, hs₁, hmap₁⟩ := unindex_spec hs hrow
      obtain ⟨idx', hloop, hs', hmap'⟩ := ih hs₁ hpre' post (n + 1)
      refine ⟨idx', ?_, hs', fun k => ?_⟩
      · rw [if_neg (by simp [hsel]), hun, Option.bind_some,
          Table.removeRow_split (t := { t with rows := pre ++ row :: post }) rfl, Option.bind_some,
          hloop]
        simp [hsel, Nat.add_comm, Nat.add_left_comm]
      · have hkeys : k ∈ keysOf pkCol ((pre ++ [row]).filter sel)
            ↔ k ∈ keysOf pkCol (pre.filter sel) ∨ intKey pkCol row = some k := by
          simp [mem_keysOf, hsel, or_and_right, exists_or]
        rw [hmap', hmap₁, ite_cond_congr (propext hkeys)]
        by_cases h₁ : k ∈ keysOf pkCol (pre.filter sel)
        · rw [if_pos h₁, if_pos (Or.inl h₁)]
        · simp [h₁]
    · obtain ⟨idx', hloop, hs', hmap'⟩ := ih hs hpre' (row :: post) n
      refine ⟨idx', ?_, hs', fun k => ?_⟩
      · rw [if_pos (by simp [hsel]), hloop]
        simp [hsel]
      · simp [hmap', hsel]

/-! ## INSERT -/

/-- The rows of an INSERT statement, literal by literal. -/
theorem buildRow_spec {values : List Text} {isInt : List Bool}
    (h : values.length = isInt.length) :
    buildRow values isInt = some ((values.zip isInt).map fun v => literal v.1 v.2) := by
  induction values generalizing isInt with
  | nil => rfl
  | cons v values ih =>
    obtain ⟨b, isInt, rfl⟩ := List.exists_cons_of_length_pos (l := isInt) (by simp at h; omega)
    simp [buildRow, ih (Nat.succ.inj h)]

/-- **INSERT asks the index for an int key only.** -/
theorem insertKey_spec {idx : Index} (hs : idx.Sorted) {pkCol : Option Nat} {row : Row}
    (hrow : HasKeyCell pkCol row) :
    insertKey (some idx) pkCol row = some (entryKey pkCol row, taken idx pkCol row) := by
  cases pkCol with
  | none => rfl
  | some c =>
    obtain ⟨v, hv⟩ := hrow c rfl
    cases v <;> simp [insertKey, entryKey, taken, intKey, hv, Index.find_spec hs]

/-- **INSERT enters every row of a table with a key.** -/
theorem enter_spec {idx : Index} (hs : idx.Sorted) (pkCol : Option Nat) (key : Int) (n : Nat) :
    ∃ idx', enter (some idx) pkCol key n = some (some idx') ∧ idx'.Sorted ∧
      ∀ k, idx'.rowOf k = if pkCol.isSome ∧ k = key then some (n : Int) else idx.rowOf k := by
  cases pkCol with
  | none => exact ⟨idx, rfl, hs, fun k => by simp⟩
  | some c =>
    obtain ⟨idx', hins, hs', hmap⟩ := Index.insert_spec hs key n
    exact ⟨idx', by simp [enter, hins], hs', fun k => by simp [hmap]⟩

/-! ## UPDATE -/

/-- The position of the last selected row, counting from `i`. -/
def lastPos (sel : Row → Bool) : Nat → List Row → Option Nat
  | _, [] => none
  | i, row :: rows => (lastPos sel (i + 1) rows).or (if sel row then some i else none)

theorem lastPos_eq_none {sel : Row → Bool} {i : Nat} {rows : List Row} :
    lastPos sel i rows = none ↔ ∀ row ∈ rows, sel row = false := by
  induction rows generalizing i with
  | nil => simp [lastPos]
  | cons row rows ih => simp [lastPos, ih, and_comm]

/-- A selected row with none behind it is the last one. -/
theorem lastPos_split {sel : Row → Bool} {pre post : List Row} {row : Row} (hrow : sel row = true)
    (hpost : ∀ r ∈ post, sel r = false) (i : Nat) :
    lastPos sel i (pre ++ row :: post) = some (i + pre.length) := by
  induction pre generalizing i with
  | nil => simp [lastPos, lastPos_eq_none.mpr hpost, hrow]
  | cons r pre ih =>
    rw [List.cons_append, lastPos, ih, Option.some_or, List.length_cons]
    congr 1
    omega

/-- A row with the cell set, if it is selected. -/
def updateRow (sel : Row → Bool) (setCol : Nat) (newVal : Value) (row : Row) : Row :=
  if sel row then row.set setCol newVal else row

/-- What UPDATE binds: the new key, if the key was set to an int. -/
def rewrites (rewritesKey : Bool) (newVal : Value) (k : Int) : Bool :=
  rewritesKey && newVal == .int k

/-- Writing the entry of a row whose key was set binds the new key alone. -/
theorem reindex_spec {idx : Index} (hs : idx.Sorted) (rewritesKey : Bool) (newVal : Value)
    (i : Nat) : ∃ idx', reindex (some idx) rewritesKey newVal i = some (some idx') ∧ idx'.Sorted ∧
      ∀ k, idx'.rowOf k
        = if rewrites rewritesKey newVal k then some (i : Int) else idx.rowOf k := by
  cases newVal with
  | int key =>
    cases rewritesKey with
    | false => exact ⟨idx, rfl, hs, fun k => by simp [rewrites]⟩
    | true =>
      obtain ⟨idx', hins, hs', hmap⟩ := Index.insert_spec hs key i
      exact ⟨idx', by simp [reindex, hins], hs', fun k => by
        simp [hmap, rewrites, @eq_comm _ k key]⟩
  | string s => exact ⟨idx, rfl, hs, fun k => by simp [rewrites]⟩
  | none => exact ⟨idx, rfl, hs, fun k => by simp [rewrites]⟩

/-- **UPDATE sets the cell of the selected rows**, and binds the new key to the last of them.  The
loop is behind `done`. -/
theorem updateLoop_spec (sel : Row → Bool) {setCol : Nat} (newVal : Value) (rewritesKey : Bool)
    {idx : Index} (hs : idx.Sorted) (t : Table) (done : List Row) {todo : List Row}
    (htodo : ∀ row ∈ todo, setCol < row.length) (n : Nat) :
    ∃ idx', updateLoop sel setCol newVal rewritesKey todo.length done.length
        { t with rows := done ++ todo } (some idx) n
        = some ({ t with rows := done ++ todo.map (updateRow sel setCol newVal) }, some idx',
            n + todo.countP sel) ∧ idx'.Sorted ∧
      ∀ k, idx'.rowOf k = if rewrites rewritesKey newVal k then
          ((lastPos sel done.length todo).map Nat.cast).or (idx.rowOf k)
        else idx.rowOf k := by
  induction todo generalizing idx done n with
  | nil => exact ⟨idx, by simp [updateLoop], hs, fun k => by simp [lastPos]⟩
  | cons row todo ih =>
    obtain ⟨hrow, htodo⟩ := List.forall_mem_cons.mp htodo
    have hget : (done ++ row :: todo)[done.length]? = some row := by simp
    rw [List.length_cons, updateLoop]
    simp only [hget, Option.bind_eq_bind, Option.bind_some]
    by_cases hsel : sel row = true
    · obtain ⟨idx₁, hre, hs₁, hmap₁⟩ := reindex_spec hs rewritesKey newVal done.length
      obtain ⟨idx', hloop, hs', hmap'⟩ := ih hs₁ (done ++ [row.set setCol newVal]) htodo (n + 1)
      refine ⟨idx', ?_, hs', fun k => ?_⟩
      · rw [if_neg (by simp [hsel]),
          Table.setCell_split (t := { t with rows := done ++ row :: todo }) rfl hrow,
          Option.bind_some, hre, Option.bind_some]
        simpa [updateRow, hsel, Nat.add_comm, Nat.add_left_comm] using hloop
      · rw [hmap', hmap₁]
        by_cases hk : rewrites rewritesKey newVal k = true
        · simp [hk, lastPos, hsel]
        · simp [hk]
    · obtain ⟨idx', hloop, hs', hmap'⟩ := ih hs (done ++ [row]) htodo n
      refine ⟨idx', ?_, hs', fun k => ?_⟩
      · rw [if_pos (by simp [hsel])]
        simpa [updateRow, hsel] using hloop
      · simp [hmap', lastPos, hsel]

end MiniDB.Execution

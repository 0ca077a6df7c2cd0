import MiniDB.Execution.Keys

/-!
# Execution/RowIds — the index knows where its rows are as long as …

The index maps a key to the position of its row, and DELETE moves rows down without telling it.  So
the positions stay right exactly in the runs where no row with an int key survives behind a deleted
one, no string key is entered under a 0 that a row has, and UPDATE of the key keeps int keys
distinct: `KeepsRowIds`.

**`index_agrees_of_reaches`**: in every state such a run reaches, the index finds every int key at
the position of its row.
-/

namespace MiniDB.Execution

open MiniDB.Core MiniDB.Parser MiniDB.Storage Executor

/-- The index of every table finds the int key of each row at the row's position. -/
def IndexAgrees (e : Executor) : Prop := ∀ db, e.currentDb = some db → ∀ t ∈ db.tables,
  ∃ j idx, db.getIndex t.name = some j ∧ db.indexes[j]? = some idx ∧
    ∀ (i : Nat) (row : Row) (k : Int), t.rows[i]? = some row →
      intKey t.primaryKeyIndex row = some k → idx.find k = some (some (i : Int))

/-- INSERT of a string key, which is entered as 0, meets no row with the key 0; DELETE leaves no row
with an int key behind a deleted one; UPDATE of the key to an int touches no row, or a single one
and the key is no other row's. -/
structure RowIdStep (stmt : SQLStatement) (s : Slot) : Prop where
  insert : ∀ {c text}, stmt.kind = .insert → s.table.primaryKeyIndex = some c →
    stmt.insertStmt.values.length = s.table.columns.length →
    keyCell c (insertedRow stmt.insertStmt) = some (.string text) →
    ∀ row ∈ s.table.rows, intKey s.table.primaryKeyIndex row ≠ some 0
  delete : ∀ {sel pre row post}, stmt.kind = .delete →
    sel = selects stmt.deleteStmt.hasWhere stmt.deleteStmt.cond s.table →
    s.table.rows = pre ++ row :: post → sel row = true →
    ∀ r ∈ post, sel r = false → intKey s.table.primaryKeyIndex r = none
  update : ∀ {c sel v}, stmt.kind = .update → s.table.primaryKeyIndex = some c →
    s.table.findColumn stmt.updateStmt.setColumn = some c →
    sel = selects stmt.updateStmt.hasWhere stmt.updateStmt.cond s.table →
    newValue stmt.updateStmt = .int v →
    s.table.rows.countP sel = 0 ∨ s.table.rows.countP sel = 1 ∧
      ∀ row ∈ s.table.rows, sel row = false → intKey s.table.primaryKeyIndex row ≠ some v

abbrev KeepsRowIds : Executor → Text → Prop := Guarded RowIdStep

/-- The invariant: each int key is mapped to the position of its row. -/
def RowIdSlot (s : Slot) : Prop := ∀ (i : Nat) (row : Row) (k : Int), s.table.rows[i]? = some row →
  intKey s.table.primaryKeyIndex row = some k → s.index.rowOf k = some (i : Int)

/-- Rows with one int key are one row. -/
theorem RowIdSlot.pos_inj {s : Slot} (h : RowIdSlot s) {i j : Nat} {row row' : Row} {k : Int}
    (hi : s.table.rows[i]? = some row) (hj : s.table.rows[j]? = some row')
    (hk : intKey s.table.primaryKeyIndex row = some k)
    (hk' : intKey s.table.primaryKeyIndex row' = some k) : i = j := by
  have hij := (h i row k hi hk).symm.trans (h j row' k hj hk')
  exact Int.ofNat_inj.mp (Option.some.inj hij)

section Step

variable {s : Slot} {stmt : SQLStatement} {idx' : Index}

theorem RowIdSlot.insert (h : RowIdSlot s) (hok : RowIdStep stmt s) (hk : stmt.kind = .insert)
    (hlen : stmt.insertStmt.values.length = s.table.columns.length)
    (hfits : Row.Fits (insertedRow stmt.insertStmt) s.table.columns)
    (hfree : taken s.index s.table.primaryKeyIndex (insertedRow stmt.insertStmt) = false)
    (hmap : ∀ k, idx'.rowOf k = if s.table.primaryKeyIndex.isSome ∧
        k = entryKey s.table.primaryKeyIndex (insertedRow stmt.insertStmt)
      then some (s.table.rows.length : Int) else s.index.rowOf k) :
    RowIdSlot ⟨s.table.insertRow (insertedRow stmt.insertStmt), idx'⟩ := by
  intro i row k hrow hkey
  have hrow : (s.table.rows ++ [insertedRow stmt.insertStmt])[i]? = some row := hrow
  have hkey : intKey s.table.primaryKeyIndex row = some k := hkey
  rw [hmap]
  by_cases hi : i < s.table.rows.length
  · rw [List.getElem?_append_left hi] at hrow
    have hold := h i row k hrow hkey
    have hne : k ≠ entryKey s.table.primaryKeyIndex (insertedRow stmt.insertStmt) := by
      rintro rfl
      obtain ⟨c, hc⟩ := Option.isSome_iff_exists.mp (isSome_of_intKey hkey)
      rcases keyCell_cases hc hfits with ⟨k, -, hnew, hentry⟩ | ⟨text, hv, -, hentry⟩
      · rw [hentry] at hold
        simp [taken, hnew, hold] at hfree
      · rw [hentry] at hkey
        exact hok.insert hk hc hlen hv row (List.mem_of_getElem? hrow) hkey
    rw [if_neg fun hand => hne hand.2, hold]
  · rw [List.getElem?_append_right (by omega)] at hrow
    obtain ⟨hi', hrow⟩ := List.getElem?_eq_some_iff.mp hrow
    obtain rfl : i = s.table.rows.length := by
      rw [List.length_singleton] at hi'
      omega
    obtain rfl : insertedRow stmt.insertStmt = row := by simpa using hrow
    rw [if_pos ⟨isSome_of_intKey hkey, (entryKey_of_intKey hkey).symm⟩]

theorem RowIdSlot.delete (h : RowIdSlot s) {sel : Row → Bool}
    (hok : ∀ {pre row post}, s.table.rows = pre ++ row :: post → sel row = true →
      ∀ r ∈ post, sel r = false → intKey s.table.primaryKeyIndex r = none)
    (hmap : ∀ k, idx'.rowOf k =
      if k ∈ keysOf s.table.primaryKeyIndex (s.table.rows.filter sel) then none
      else s.index.rowOf k) : RowIdSlot ⟨withoutRows s.table sel, idx'⟩ := by
  intro i row k hrow hkey
  have hkey : intKey s.table.primaryKeyIndex row = some k := hkey
  obtain ⟨pre, post, hsplit, hlen, hsel⟩ := Selection.getElem?_filter_split hrow
  have hsel : sel row = false := by simpa using hsel
  have hpos : s.table.rows[pre.length]? = some row := by simp [hsplit]
  -- no row in front of a survivor with an int key is deleted
  have hpre : ∀ r ∈ pre, sel r = false := by
    intro r hr
    by_contra hdel
    obtain ⟨a, b, rfl⟩ := List.append_of_mem hr
    rw [List.append_assoc, List.cons_append] at hsplit
    have hnone := hok hsplit (by simpa using hdel) row (by simp) hsel
    cases hnone.symm.trans hkey
  have hstays : k ∉ keysOf s.table.primaryKeyIndex (s.table.rows.filter sel) := by
    intro hmem
    obtain ⟨row', hrow', hkey'⟩ := mem_keysOf.mp hmem
    obtain ⟨hrow', hsel'⟩ := List.mem_filter.mp hrow'
    obtain ⟨j, hj⟩ := List.mem_iff_getElem?.mp hrow'
    rw [h.pos_inj hj hpos hkey' hkey, hpos] at hj
    rw [Option.some.inj hj, hsel'] at hsel
    cases hsel
  have hi : pre.length = i := by
    rw [← hlen, List.filter_eq_self.mpr fun r hr => by simp [hpre r hr]]
  rw [hmap, if_neg hstays, h _ _ _ hpos hkey, hi]

/-- UPDATE that enters nothing in the index: of another column, or of the key to a string. -/
theorem RowIdSlot.update_quiet (h : RowIdSlot s) {sel : Row → Bool} {setCol : Nat} {v : Value}
    (hkeep : ∀ row k, intKey s.table.primaryKeyIndex (updateRow sel setCol v row) = some k →
      intKey s.table.primaryKeyIndex row = some k)
    (hmap : ∀ k, idx'.rowOf k = s.index.rowOf k) :
    RowIdSlot ⟨withCells s.table sel setCol v, idx'⟩ := by
  intro i row' k hrow hkey
  obtain ⟨row, hold, rfl⟩ := Option.map_eq_some_iff.mp ((List.getElem?_map ..).symm.trans hrow)
  rw [hmap]
  exact h i row k hold (hkeep row k hkey)

/-- UPDATE of the key to an int, in no row or in one. -/
theorem RowIdSlot.update_key (hs : s.WellFormed) (h : RowIdSlot s) {sel : Row → Bool} {c : Nat}
    {v : Int} (hc : s.table.primaryKeyIndex = some c)
    (hone : s.table.rows.countP sel = 0 ∨ s.table.rows.countP sel = 1 ∧
      ∀ row ∈ s.table.rows, sel row = false → intKey s.table.primaryKeyIndex row ≠ some v)
    (hmap : ∀ k, idx'.rowOf k = if rewrites true (.int v) k then
        ((lastPos sel 0 s.table.rows).map Nat.cast).or (s.index.rowOf k)
      else s.index.rowOf k) : RowIdSlot ⟨withCells s.table sel c (.int v), idx'⟩ := by
  rcases hone with hzero | ⟨hone, hother⟩
  · obtain ⟨hrows, hlast⟩ := update_none hzero c (.int v)
    rw [hrows]
    intro i row k hrow hkey
    rw [hmap, hlast]
    simpa using h i row k hrow hkey
  · obtain ⟨pre, row, post, hsplit, hrest, hrows, hcell, hlast⟩ :=
      update_one hs.table hc hone (.int v)
    intro i r k hr hkey
    have hkey : intKey s.table.primaryKeyIndex r = some k := hkey
    rw [hrows] at hr
    rw [hmap, hlast]
    by_cases hi : i = pre.length
    · -- the row that was set
      obtain rfl : row.set c (.int v) = r := by simpa [hi] using hr
      rw [hc, intKey_eq_some, hcell] at hkey
      simp [rewrites, Option.some.inj hkey, hi]
    · -- another row, which has another key
      have hold : s.table.rows[i]? = some r := by
        rw [hsplit, ← hr]
        exact Selection.getElem?_replace_ne hi _ _ _
      have hmem : r ∈ pre ++ post := Selection.mem_rest_of_getElem? hi hr
      have hne : k ≠ v := fun e => hother r (hrest r hmem).1 (hrest r hmem).2 (e ▸ hkey)
      simp [rewrites, hne.symm, h i r k hold hkey]

end Step

/-- **A step that meets the condition keeps the positions right.** -/
theorem RowIdSlot.step {s s' : Slot} {stmt : SQLStatement} (hs : s.WellFormed) (h : RowIdSlot s)
    (hok : RowIdStep stmt s) (hst : SlotStep s stmt s') : RowIdSlot s' := by
  cases hst with
  | insert hk hlen hfits hfree _ hmap => exact h.insert hok hk hlen hfits hfree hmap
  | delete hk hsel _ hmap => exact h.delete (fun hsplit hdel => hok.delete hk hsel hsplit hdel) hmap
  | @update sel setCol _ hk hsel hcol hval _ hmap =>
    by_cases hkey : some setCol = s.table.primaryKeyIndex
    · simp only [hkey, beq_self_eq_true] at hmap
      cases hv : newValue stmt.updateStmt with
      | int v =>
        rw [hv] at hmap
        exact h.update_key hs hkey.symm (hok.update hk hkey.symm hcol hsel hv) hmap
      | string text =>
        -- a row whose key was set to a string has no int key
        refine h.update_quiet (fun row k hkeyed => ?_) fun k => by simp [hmap, hv, rewrites]
        rw [← hkey, intKey_eq_some] at hkeyed ⊢
        rw [updateRow] at hkeyed
        split at hkeyed
        · rw [keyCell, List.getElem?_set, if_pos rfl] at hkeyed
          split at hkeyed
          · cases hkeyed
          · cases hkeyed
        · exact hkeyed
      | none => exact absurd hval (by rw [hv]; exact id)
    · refine h.update_quiet (fun row k hkeyed => ?_) fun k => ?_
      · rwa [intKey_updateRow_ne hkey] at hkeyed
      · simp [hmap, rewrites, beq_false_of_ne hkey]

theorem rowIdSlot_fresh (n dir : Text) (columns : List Column) :
    RowIdSlot ⟨Database.freshTable n dir columns, {}⟩ := fun _ _ _ h => nomatch h

/-- **The index knows where rows are** in every run in which no row with an int key survives behind
a deleted one, no string key is entered under a key that is there, and UPDATE keeps int keys
distinct, while tables stay below 2³¹ rows. -/
theorem index_agrees_of_reaches {root : Text} {disk : Disk} {e : Executor}
    (h : Machine.Reaches run KeepsRowIds (new root disk) e) : IndexAgrees e := by
  intro db hdb t ht
  obtain ⟨s, hs, -, rfl⟩ := (wellFormed_of_reaches h).exists_slot hdb ht
  obtain ⟨name, dir, pre, post, hat⟩ := (wellFormed_of_reaches h).at_of_mem hs
  cases hdb.symm.trans hat.db
  refine ⟨pre.length, s.index, Database.getTable_present hat.clean hat.name hat.first,
    Database.indexes_split, fun i row k hrow hkey => ?_⟩
  rw [Index.find_spec hat.slot.index, slots_invariant rowIdSlot_fresh RowIdSlot.step h s hs i row k
    hrow hkey]

/-- The last of two rows is deleted. -/
theorem index_agrees_sample :
    IndexAgrees (sampleState [[.int 1]] [{ key := 1, rowId := 0 }]) := by
  have hparse : parse "delete from t where a = 2".toList = some deleteTwo := by decide +kernel
  refine index_agrees_of_reaches (sample_step (sampleTwo_reaches ?_) hparse (by decide +kernel)
    { insert := fun h => by cases h
      delete := fun {_ pre _ _} _ hsel hrows hrow r hr _ => ?_
      update := fun h => by cases h })
  · rintro _ (rfl | rfl) rows entries
    all_goals exact
      { insert := fun _ hc _ htext => by cases hc; cases htext
        delete := fun h => by cases h
        update := fun h => by cases h }
  · -- only the last row is deleted
    match pre, hrows with
    | [], hrows =>
      obtain ⟨rfl, -⟩ := List.cons.inj hrows
      rw [hsel] at hrow
      exact absurd hrow (by decide)
    | [_], hrows =>
      obtain ⟨-, rfl⟩ := List.cons.inj (List.cons.inj hrows).2
      cases hr
    | _ :: _ :: _, hrows =>
      obtain ⟨-, hrows⟩ := List.cons.inj (List.cons.inj hrows).2
      exact absurd hrows (by simp)

/-- Deleting the first of two rows leaves the index pointing behind the second. -/
theorem row_moves_under_index : ∃ e, Reachable e ∧ ¬ IndexAgrees e := by
  let table : Table := sampleTable [[.int 2]]
  have hrun : (Machine.exec run (new "data".toList {}) ["use d".toList,
      "create table t (a int primary)".toList, "insert into t values (1)".toList,
      "insert into t values (2)".toList, "delete from t where a = 1".toList]).bind
        (fun r => r.2.currentDb.map fun db => (db.tables, db.indexes))
      = some ([table], [{ entries := [{ key := 2, rowId := 1 }] }]) := by decide +kernel
  obtain ⟨⟨rs, e⟩, hexec, hdb⟩ := Option.bind_eq_some_iff.mp hrun
  obtain ⟨db, hdb, hparts⟩ := Option.map_eq_some_iff.mp hdb
  obtain ⟨htables, hindexes⟩ := Prod.mk.inj hparts
  refine ⟨e, reachable_of_exec hexec, fun h => ?_⟩
  obtain ⟨j, idx, -, hidx, hfind⟩ := h db hdb table (by simp [htables])
  obtain rfl : idx = { entries := [{ key := 2, rowId := 1 }] } := by
    rw [hindexes] at hidx
    exact List.mem_singleton.mp (List.mem_of_getElem? hidx)
  exact absurd (hfind 0 [.int 2] 2 rfl rfl) (by decide)

end MiniDB.Execution

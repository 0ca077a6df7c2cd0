import MiniDB.Execution.Reachable
import MiniDB.Machinery.Selection

/-!
# Execution/Keys — primary keys are unique as long as …

INSERT checks a key against the index, and only an int key; UPDATE checks nothing.  So keys stay
unique exactly in the runs where no INSERT repeats a string key and no UPDATE makes two rows share
one: `KeepsUnique`.

**`keys_unique_of_reaches`**: every state such a run reaches has unique keys.
-/

namespace MiniDB.Execution

open MiniDB.Core MiniDB.Parser MiniDB.Storage Executor

/-! ## Key cells -/

/-- The key cell of a row. -/
def keyCell (c : Nat) (row : Row) : Option Value := row[c]?

theorem intKey_eq_some {c : Nat} {row : Row} {k : Int} :
    intKey (some c) row = some k ↔ keyCell c row = some (.int k) := by
  rw [intKey, Option.bind_some, keyCell]
  split
  · next h => simp [h]
  · next h =>
    constructor
    · simp
    · exact fun h' => absurd h' (h k)

/-- A key cell holds an int, which is entered in the index, or a string, for which 0 is. -/
theorem keyCell_cases {t : Table} {c : Nat} (hc : t.primaryKeyIndex = some c) {row : Row}
    (hfits : Row.Fits row t.columns) :
    (∃ k, keyCell c row = some (.int k) ∧ intKey t.primaryKeyIndex row = some k ∧
      entryKey t.primaryKeyIndex row = k) ∨
    ∃ text, keyCell c row = some (.string text) ∧ intKey t.primaryKeyIndex row = none ∧
      entryKey t.primaryKeyIndex row = 0 := by
  obtain ⟨v, hv, hstored⟩ := hfits.cell (Table.primaryKeyIndex_lt hc)
  cases v with
  | int k =>
    have hkey : intKey t.primaryKeyIndex row = some k := hc ▸ intKey_eq_some.mpr hv
    exact .inl ⟨k, hv, hkey, entryKey_of_intKey hkey⟩
  | string text =>
    have hnone : intKey t.primaryKeyIndex row = none := by
      rw [hc, intKey, Option.bind_some, hv]
    exact .inr ⟨text, hv, hnone, by rw [entryKey, hnone]; rfl⟩
  | none => exact hstored.elim

/-- Setting another cell leaves the key cell. -/
theorem keyCell_updateRow_ne {c j : Nat} (hj : j ≠ c) (sel : Row → Bool) (v : Value) (row : Row) :
    keyCell c (updateRow sel j v row) = keyCell c row := by
  rw [updateRow]
  split
  · exact List.getElem?_set_ne hj
  · rfl

theorem intKey_updateRow_ne {pkCol : Option Nat} {j : Nat} (hj : some j ≠ pkCol)
    (sel : Row → Bool) (v : Value) (row : Row) :
    intKey pkCol (updateRow sel j v row) = intKey pkCol row := by
  cases pkCol with
  | none => rfl
  | some c =>
    have h := keyCell_updateRow_ne (fun h => hj (congrArg some h)) sel v row
    simp only [keyCell] at h
    simp only [intKey, Option.bind_some, h]

/-- Rows none of which is selected are not updated. -/
theorem map_updateRow_of_none {sel : Row → Bool} {rows : List Row}
    (h : ∀ row ∈ rows, sel row = false) (j : Nat) (v : Value) :
    rows.map (updateRow sel j v) = rows :=
  List.map_congr_left (fun row hrow => by rw [updateRow, h row hrow]; rfl) |>.trans (List.map_id' _)

/-- UPDATE of no row changes nothing, and enters nothing in the index. -/
theorem update_none {t : Table} {sel : Row → Bool} (h : t.rows.countP sel = 0) (c : Nat)
    (v : Value) :
    withCells t sel c v = t ∧ lastPos sel 0 t.rows = none := by
  have hnone : ∀ row ∈ t.rows, sel row = false := fun row hrow => by
    simpa using List.countP_eq_zero.mp h row hrow
  exact ⟨by rw [withCells, map_updateRow_of_none hnone], lastPos_eq_none.mpr hnone⟩

/-- A row whose key was set has the new key. -/
theorem keyCell_set {t : Table} (ht : t.WellFormed) {c : Nat} (hc : t.primaryKeyIndex = some c)
    {row : Row} (hrow : row ∈ t.rows) (v : Value) : keyCell c (row.set c v) = some v := by
  rw [keyCell, List.getElem?_set_self]
  rw [(ht.rows row hrow).arity]
  exact Table.primaryKeyIndex_lt hc

/-- **UPDATE of the key in one row**: the row has the new key, and its position is the last. -/
theorem update_one {t : Table} (ht : t.WellFormed) {sel : Row → Bool} {c : Nat}
    (hc : t.primaryKeyIndex = some c) (h : t.rows.countP sel = 1) (v : Value) :
    ∃ pre row post, t.rows = pre ++ row :: post ∧
      (∀ r ∈ pre ++ post, r ∈ t.rows ∧ sel r = false) ∧
      (withCells t sel c v).rows = pre ++ row.set c v :: post ∧
      keyCell c (row.set c v) = some v ∧ lastPos sel 0 t.rows = some pre.length := by
  obtain ⟨pre, row, post, hsplit, hrow, hpre, hpost⟩ := Selection.split_of_countP_eq_one h
  refine ⟨pre, row, post, hsplit, fun r hr => ?_, ?_, keyCell_set ht hc (by simp [hsplit]) v, ?_⟩
  · rw [hsplit]
    rcases List.mem_append.mp hr with hr | hr
    · exact ⟨List.mem_append_left _ hr, hpre r hr⟩
    · exact ⟨List.mem_append_right _ (List.mem_cons_of_mem _ hr), hpost r hr⟩
  · rw [withCells, hsplit, List.map_append, List.map_cons, map_updateRow_of_none hpre,
      map_updateRow_of_none hpost, updateRow, hrow]
    rfl
  · rw [hsplit, lastPos_split hrow hpost, Nat.zero_add]

/-! ## Uniqueness -/

/-- No two rows of the table have key cells that compare equal. -/
def UniqueKeys (t : Table) : Prop := ∀ c, t.primaryKeyIndex = some c →
  t.rows.Pairwise fun row row' => ∀ v v', keyCell c row = some v → keyCell c row' = some v' →
    Value.compare v v' ≠ 0

/-- Every table of the selected database has unique keys. -/
def KeysUnique (e : Executor) : Prop :=
  ∀ db, e.currentDb = some db → ∀ t ∈ db.tables, UniqueKeys t

/-- INSERT does not repeat a string key; UPDATE of the key sets it in no row, or in a single one to
a value that no other row has. -/
structure UniqueStep (stmt : SQLStatement) (s : Slot) : Prop where
  insert : ∀ {c text}, stmt.kind = .insert → s.table.primaryKeyIndex = some c →
    stmt.insertStmt.values.length = s.table.columns.length →
    keyCell c (insertedRow stmt.insertStmt) = some (.string text) →
    ∀ row ∈ s.table.rows, keyCell c row ≠ some (.string text)
  update : ∀ {c sel}, stmt.kind = .update → s.table.primaryKeyIndex = some c →
    s.table.findColumn stmt.updateStmt.setColumn = some c →
    sel = selects stmt.updateStmt.hasWhere stmt.updateStmt.cond s.table →
    s.table.rows.countP sel = 0 ∨ s.table.rows.countP sel = 1 ∧
      ∀ row ∈ s.table.rows, sel row = false → keyCell c row ≠ some (newValue stmt.updateStmt)

/-- What an INSERT or an UPDATE must meet to keep keys unique. -/
abbrev KeepsUnique : Executor → Text → Prop := Guarded UniqueStep

/-- The invariant: distinct key cells, and every int key is in the index. -/
structure UniqueSlot (s : Slot) : Prop where
  nodup : ∀ c, s.table.primaryKeyIndex = some c → (s.table.rows.map (keyCell c)).Nodup
  indexed : ∀ k ∈ keysOf s.table.primaryKeyIndex s.table.rows, (s.index.rowOf k).isSome

theorem isSome_of_intKey {pkCol : Option Nat} {row : Row} {k : Int}
    (h : intKey pkCol row = some k) :
    pkCol.isSome := by
  cases pkCol with
  | none => cases h
  | some c => rfl

/-- Two int-keyed rows of a table with distinct keys are one if their keys are. -/
theorem eq_of_intKey {t : Table} (hnodup : ∀ c, t.primaryKeyIndex = some c →
    (t.rows.map (keyCell c)).Nodup) {row row' : Row} {k : Int} (hrow : row ∈ t.rows)
    (hrow' : row' ∈ t.rows) (h : intKey t.primaryKeyIndex row = some k)
    (h' : intKey t.primaryKeyIndex row' = some k) : row = row' := by
  obtain ⟨c, hc⟩ := Option.isSome_iff_exists.mp (isSome_of_intKey h)
  rw [hc] at h h'
  exact List.inj_on_of_nodup_map (hnodup c hc) hrow hrow'
    ((intKey_eq_some.mp h).trans (intKey_eq_some.mp h').symm)

section Step

variable {s : Slot} {stmt : SQLStatement} {idx' : Index}

theorem UniqueSlot.insert (h : UniqueSlot s) (hok : UniqueStep stmt s) (hk : stmt.kind = .insert)
    (hlen : stmt.insertStmt.values.length = s.table.columns.length)
    (hfits : Row.Fits (insertedRow stmt.insertStmt) s.table.columns)
    (hfree : taken s.index s.table.primaryKeyIndex (insertedRow stmt.insertStmt) = false)
    (hmap : ∀ k, idx'.rowOf k = if s.table.primaryKeyIndex.isSome ∧
        k = entryKey s.table.primaryKeyIndex (insertedRow stmt.insertStmt)
      then some (s.table.rows.length : Int) else s.index.rowOf k) :
    UniqueSlot ⟨s.table.insertRow (insertedRow stmt.insertStmt), idx'⟩ where
  nodup c hc := by
    change (List.map (keyCell c) (s.table.rows ++ [_])).Nodup
    have hc : s.table.primaryKeyIndex = some c := hc
    rw [List.map_append, List.map_singleton]
    refine List.nodup_append.mpr ⟨h.nodup c hc, List.pairwise_singleton _ _, ?_⟩
    rintro x hx y hy rfl
    obtain ⟨row, hrow, hcell⟩ := List.mem_map.mp hx
    rw [List.mem_singleton.mp hy] at hcell
    rcases keyCell_cases hc hfits with ⟨k, hv, hnewk, -⟩ | ⟨text, hv, -, -⟩
    · -- the index knows every int key, and does not know this one
      have hrowk : intKey (some c) row = some k := intKey_eq_some.mpr (hcell.trans hv)
      have hsome := h.indexed k (mem_keysOf.mpr ⟨row, hrow, hc ▸ hrowk⟩)
      simp [taken, hnewk] at hfree
      simp [hfree] at hsome
    · exact hok.insert hk hc hlen hv row hrow (hcell.trans hv)
  indexed k hkey := by
    obtain ⟨row, hrow, hkey⟩ := mem_keysOf.mp hkey
    have hkey : intKey s.table.primaryKeyIndex row = some k := hkey
    rw [hmap]
    split
    · rfl
    · next hne =>
      rcases List.mem_append.mp hrow with hrow | hrow
      · exact h.indexed k (mem_keysOf.mpr ⟨row, hrow, hkey⟩)
      · rw [List.mem_singleton.mp hrow] at hkey
        exact absurd ⟨isSome_of_intKey hkey, (entryKey_of_intKey hkey).symm⟩ hne

theorem UniqueSlot.delete (h : UniqueSlot s) {sel : Row → Bool}
    (hmap : ∀ k, idx'.rowOf k =
      if k ∈ keysOf s.table.primaryKeyIndex (s.table.rows.filter sel) then none
      else s.index.rowOf k) : UniqueSlot ⟨withoutRows s.table sel, idx'⟩ where
  nodup c hc := (h.nodup c hc).sublist (List.filter_sublist.map _)
  indexed k hkey := by
    obtain ⟨row, hrow, hkey⟩ := mem_keysOf.mp hkey
    have hkey : intKey s.table.primaryKeyIndex row = some k := hkey
    obtain ⟨hrow, hsel⟩ := List.mem_filter.mp hrow
    have hstays : k ∉ keysOf s.table.primaryKeyIndex (s.table.rows.filter sel) := by
      intro hmem
      obtain ⟨row', hrow', hkey'⟩ := mem_keysOf.mp hmem
      obtain ⟨hrow', hsel'⟩ := List.mem_filter.mp hrow'
      rw [eq_of_intKey h.nodup hrow hrow' hkey hkey'] at hsel
      simp [hsel'] at hsel
    rw [hmap, if_neg hstays]
    exact h.indexed k (mem_keysOf.mpr ⟨row, hrow, hkey⟩)

/-- UPDATE of another column. -/
theorem UniqueSlot.update_other (h : UniqueSlot s) {sel : Row → Bool} {setCol : Nat} {v : Value}
    (hne : some setCol ≠ s.table.primaryKeyIndex) (hmap : ∀ k, idx'.rowOf k = s.index.rowOf k) :
    UniqueSlot ⟨withCells s.table sel setCol v, idx'⟩ where
  nodup c hc := by
    have hc : s.table.primaryKeyIndex = some c := hc
    have hj : setCol ≠ c := fun e => hne (e ▸ hc.symm)
    change ((s.table.rows.map _).map _).Nodup
    have hcells : keyCell c ∘ updateRow sel setCol v = keyCell c :=
      funext fun row => keyCell_updateRow_ne hj sel v row
    rw [List.map_map, hcells]
    exact h.nodup c hc
  indexed k hkey := by
    obtain ⟨_, hrow, hkey⟩ := mem_keysOf.mp hkey
    obtain ⟨row, hmem, rfl⟩ := List.mem_map.mp hrow
    rw [hmap]
    refine h.indexed k (mem_keysOf.mpr ⟨row, hmem, ?_⟩)
    rw [← intKey_updateRow_ne hne sel v row]
    exact hkey

/-- UPDATE of the key, in no row or in one. -/
theorem UniqueSlot.update_key (hs : s.WellFormed) (h : UniqueSlot s) {sel : Row → Bool} {c : Nat}
    {v : Value} (hc : s.table.primaryKeyIndex = some c)
    (hone : s.table.rows.countP sel = 0 ∨ s.table.rows.countP sel = 1 ∧
      ∀ row ∈ s.table.rows, sel row = false → keyCell c row ≠ some v)
    (hmap : ∀ k, idx'.rowOf k = if rewrites true v k then
        ((lastPos sel 0 s.table.rows).map Nat.cast).or (s.index.rowOf k)
      else s.index.rowOf k) : UniqueSlot ⟨withCells s.table sel c v, idx'⟩ := by
  rcases hone with hzero | ⟨hone, hother⟩
  · obtain ⟨hrows, hlast⟩ := update_none hzero c v
    rw [hrows]
    refine ⟨h.nodup, fun k hk => ?_⟩
    rw [hmap, hlast]
    simpa using h.indexed k hk
  · obtain ⟨pre, row, post, hsplit, hrest, hrows, hcell, hlast⟩ := update_one hs.table hc hone v
    refine ⟨fun c' hc' => ?_, fun k hk => ?_⟩
    · obtain rfl : c = c' := Option.some.inj (hc.symm.trans hc')
      rw [hrows]
      refine Selection.nodup_map_replace (hsplit ▸ h.nodup c hc) fun r hr => ?_
      rw [hcell]
      exact hother r (hrest r hr).1 (hrest r hr).2
    · obtain ⟨r, hr, hkey⟩ := mem_keysOf.mp hk
      have hkey : intKey s.table.primaryKeyIndex r = some k := hkey
      rw [hrows] at hr
      rw [hmap]
      by_cases hv : rewrites true v k = true
      · rw [if_pos hv, hlast]
        rfl
      · rw [if_neg hv]
        have hr : r ∈ pre ++ post := by
          simp only [List.mem_append, List.mem_cons] at hr ⊢
          rcases hr with hr | rfl | hr
          · exact Or.inl hr
          · -- the row that was set has the new key
            rw [hc, intKey_eq_some, hcell] at hkey
            simp [rewrites, Option.some.inj hkey] at hv
          · exact Or.inr hr
        exact h.indexed k (mem_keysOf.mpr ⟨r, (hrest r hr).1, hkey⟩)

end Step

/-- **A step that meets the condition keeps keys unique.** -/
theorem UniqueSlot.step {s s' : Slot} {stmt : SQLStatement} (hs : s.WellFormed) (h : UniqueSlot s)
    (hok : UniqueStep stmt s) (hst : SlotStep s stmt s') : UniqueSlot s' := by
  cases hst with
  | insert hk hlen hfits hfree _ hmap => exact h.insert hok hk hlen hfits hfree hmap
  | delete _ _ _ hmap => exact h.delete hmap
  | @update sel setCol _ hk hsel hcol _ _ hmap =>
    by_cases hkey : some setCol = s.table.primaryKeyIndex
    · simp only [hkey, beq_self_eq_true] at hmap
      exact h.update_key hs hkey.symm (hok.update hk hkey.symm hcol hsel) hmap
    · refine h.update_other hkey fun k => ?_
      simp [hmap, rewrites, beq_false_of_ne hkey]

theorem uniqueSlot_fresh (n dir : Text) (columns : List Column) :
    UniqueSlot ⟨Database.freshTable n dir columns, {}⟩ :=
  ⟨fun _ _ => List.nodup_nil, nofun⟩

/-- Distinct key cells do not compare equal. -/
theorem UniqueSlot.uniqueKeys {s : Slot} (hs : s.WellFormed) (h : UniqueSlot s) :
    UniqueKeys s.table := by
  intro c hc
  have hne := List.pairwise_map.mp (h.nodup c hc)
  refine hne.imp_of_mem fun {row row'} hrow hrow' hcells v v' hv hv' heq => ?_
  have hclean {r : Row} (hr : r ∈ s.table.rows) {x : Value} (hx : keyCell c r = some x) : x.Clean :=
    ((hs.table.rows r hr).stored x (List.mem_of_getElem? hx)).clean
  have hvv := (Value.compare_eq_zero_iff (hclean hrow hv) (hclean hrow' hv')).mp heq
  exact hcells (hv.trans (hvv ▸ hv'.symm))

/-- **Keys stay unique** in every run whose INSERTs repeat no string key and whose UPDATEs of a key
give no two rows the same, while tables stay below 2³¹ rows. -/
theorem keys_unique_of_reaches {root : Text} {disk : Disk} {e : Executor}
    (h : Machine.Reaches run KeepsUnique (new root disk) e) : KeysUnique e := by
  intro db hdb t ht
  obtain ⟨s, hs, hwf, rfl⟩ := (wellFormed_of_reaches h).exists_slot hdb ht
  exact (slots_invariant uniqueSlot_fresh UniqueSlot.step h s hs).uniqueKeys hwf

/-- The key 2 becomes 3, which no other row has. -/
theorem keys_unique_sample : KeysUnique (sampleState [[.int 1], [.int 3]]
    [{ key := 1, rowId := 0 }, { key := 2, rowId := 1 }, { key := 3, rowId := 1 }]) := by
  have hparse : parse "update t set a = 3 where a = 2".toList = some updateTwo := by decide +kernel
  refine keys_unique_of_reaches (sample_step (sampleTwo_reaches ?_) hparse (by decide +kernel)
    { insert := fun h => by cases h
      update := fun _ hc _ hsel => ?_ })
  · rintro _ (rfl | rfl) rows entries
    all_goals exact
      { insert := fun _ hc _ htext => by cases hc; cases htext
        update := fun h => by cases h }
  · cases hc
    rw [hsel]
    exact .inr ⟨by decide, by decide⟩

/-- A string key is not checked: it can be inserted twice. -/
theorem string_key_repeated : ∃ e, Reachable e ∧ ¬ KeysUnique e := by
  let table : Table :=
    { name := ['t'], dataPath := "data/d/t.dat".toList
      columns := [{ name := ['a'], type := .string, isPrimary := true }]
      rows := [[.string ['x']], [.string ['x']]] }
  have hrun : (Machine.exec run (new "data".toList {}) ["use d".toList,
      "create table t (a string primary)".toList, "insert into t values (\"x\")".toList,
      "insert into t values (\"x\")".toList]).bind (fun r => r.2.currentDb.map Database.tables)
      = some [table] := by decide +kernel
  obtain ⟨⟨rs, e⟩, hexec, hdb⟩ := Option.bind_eq_some_iff.mp hrun
  obtain ⟨db, hdb, htables⟩ := Option.map_eq_some_iff.mp hdb
  refine ⟨e, reachable_of_exec hexec, fun h => ?_⟩
  have hpair := h db hdb table (by simp [htables]) 0 rfl
  exact (List.pairwise_cons.mp hpair).1 _ (List.mem_singleton_self _) _ _ rfl rfl (by decide)

end MiniDB.Execution

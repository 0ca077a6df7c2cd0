import MiniDB.Execution.Keys

/-!
# Execution/LiveKeys — a free key is accepted as long as …

INSERT refuses the keys the index holds, and three paths can leave a key there that no row has:
UPDATE of the key keeps the old entry, and a string key is entered as 0.  DELETE leaves none.  So
only taken keys are refused exactly in the runs where no UPDATE orphans a key and no string key is
inserted without a row of key 0: `KeepsLive`.

**`free_keys_accepted_of_reaches`**: in every state such a run reaches, an INSERT with a free key
appends its row, and the index holds keys of rows only.
-/

namespace MiniDB.Execution

open MiniDB.Core MiniDB.Parser MiniDB.Storage Executor

/-- No row of the table has a key cell that compares equal to the one of the new row. -/
def KeyIsFree (t : Table) (new : Row) : Prop := ∀ c, t.primaryKeyIndex = some c →
  ∀ row ∈ t.rows, ∀ v v', keyCell c new = some v → keyCell c row = some v' →
    Value.compare v v' ≠ 0

/-- An INSERT of the right arity whose key is free is answered OK, and appends its row. -/
def AcceptsFree (e : Executor) : Prop :=
  ∀ db sql stmt i t, e.currentDb = some db → parse sql = some stmt → stmt.kind = .insert →
    db.getTable stmt.insertStmt.tableName = some i → db.tables[i]? = some t →
    stmt.insertStmt.values.length = t.columns.length → KeyIsFree t (insertedRow stmt.insertStmt) →
    ∃ e' db', e.run sql = some (.ok "1 row inserted".toList, e') ∧ e'.currentDb = some db' ∧
      db'.tableNames = db.tableNames ∧
      db'.tables = db.tables.set i (t.insertRow (insertedRow stmt.insertStmt))

/-- Every key an index holds is the key of a row. -/
def KeysLive (e : Executor) : Prop := ∀ db, e.currentDb = some db → ∀ (i : Nat) (t : Table)
  (idx : Index), db.tables[i]? = some t → db.indexes[i]? = some idx →
    ∀ k ∈ idx.keys, ∃ row ∈ t.rows, intKey t.primaryKeyIndex row = some k

/-- INSERT of a string key meets a row with the key 0; UPDATE of the key takes no int key the index
holds from all the rows that have it. -/
structure LiveStep (stmt : SQLStatement) (s : Slot) : Prop where
  insert : ∀ {c text}, stmt.kind = .insert → s.table.primaryKeyIndex = some c →
    stmt.insertStmt.values.length = s.table.columns.length →
    keyCell c (insertedRow stmt.insertStmt) = some (.string text) →
    ∃ row ∈ s.table.rows, intKey s.table.primaryKeyIndex row = some 0
  update : ∀ {c sel row k}, stmt.kind = .update → s.table.primaryKeyIndex = some c →
    s.table.findColumn stmt.updateStmt.setColumn = some c →
    sel = selects stmt.updateStmt.hasWhere stmt.updateStmt.cond s.table →
    row ∈ s.table.rows → sel row = true → intKey s.table.primaryKeyIndex row = some k →
    k ∈ s.index.keys → newValue stmt.updateStmt = .int k ∨
      ∃ r ∈ s.table.rows, sel r = false ∧ intKey s.table.primaryKeyIndex r = some k

/-- What an INSERT or an UPDATE must meet to orphan no key. -/
abbrev KeepsLive : Executor → Text → Prop := Guarded LiveStep

/-- The invariant: every key of the index is the key of a row. -/
def LiveSlot (s : Slot) : Prop :=
  ∀ k, (s.index.rowOf k).isSome → ∃ row ∈ s.table.rows, intKey s.table.primaryKeyIndex row = some k

section Step

variable {s : Slot} {stmt : SQLStatement} {idx' : Index}

theorem LiveSlot.insert (h : LiveSlot s) (hok : LiveStep stmt s) (hk : stmt.kind = .insert)
    (hlen : stmt.insertStmt.values.length = s.table.columns.length)
    (hfits : Row.Fits (insertedRow stmt.insertStmt) s.table.columns)
    (hmap : ∀ k, idx'.rowOf k = if s.table.primaryKeyIndex.isSome ∧
        k = entryKey s.table.primaryKeyIndex (insertedRow stmt.insertStmt)
      then some (s.table.rows.length : Int) else s.index.rowOf k) :
    LiveSlot ⟨s.table.insertRow (insertedRow stmt.insertStmt), idx'⟩ := by
  intro k hsome
  change ∃ row ∈ s.table.rows ++ [insertedRow stmt.insertStmt],
    intKey s.table.primaryKeyIndex row = some k
  have hsome : (idx'.rowOf k).isSome := hsome
  rw [hmap] at hsome
  split at hsome
  · next hentry =>
    obtain ⟨hpk, rfl⟩ := hentry
    obtain ⟨c, hc⟩ := Option.isSome_iff_exists.mp hpk
    rcases keyCell_cases hc hfits with ⟨key, -, hnew, hentry⟩ | ⟨text, hv, -, hentry⟩
    · exact ⟨_, List.mem_append_right _ (List.mem_singleton_self _), hentry ▸ hnew⟩
    · -- entered as 0, which a row has
      obtain ⟨row, hrow, hzero⟩ := hok.insert hk hc hlen hv
      exact ⟨row, List.mem_append_left _ hrow, hentry ▸ hzero⟩
  · obtain ⟨row, hrow, hkey⟩ := h k hsome
    exact ⟨row, List.mem_append_left _ hrow, hkey⟩

/-- DELETE orphans nothing: a key that stays in the index is of no deleted row. -/
theorem LiveSlot.delete (h : LiveSlot s) {sel : Row → Bool}
    (hmap : ∀ k, idx'.rowOf k =
      if k ∈ keysOf s.table.primaryKeyIndex (s.table.rows.filter sel) then none
      else s.index.rowOf k) : LiveSlot ⟨withoutRows s.table sel, idx'⟩ := by
  intro k hsome
  have hsome : (idx'.rowOf k).isSome := hsome
  rw [hmap] at hsome
  split at hsome
  · cases hsome
  · next hstays =>
    obtain ⟨row, hrow, hkey⟩ := h k hsome
    refine ⟨row, List.mem_filter.mpr ⟨hrow, ?_⟩, hkey⟩
    by_contra hsel
    exact hstays (mem_keysOf.mpr ⟨row, List.mem_filter.mpr ⟨hrow, by simpa using hsel⟩, hkey⟩)

/-- UPDATE of another column. -/
theorem LiveSlot.update_other (h : LiveSlot s) {sel : Row → Bool} {setCol : Nat} {v : Value}
    (hne : some setCol ≠ s.table.primaryKeyIndex) (hmap : ∀ k, idx'.rowOf k = s.index.rowOf k) :
    LiveSlot ⟨withCells s.table sel setCol v, idx'⟩ := by
  intro k hsome
  have hsome : (idx'.rowOf k).isSome := hsome
  rw [hmap] at hsome
  obtain ⟨row, hrow, hkey⟩ := h k hsome
  exact ⟨_, List.mem_map_of_mem hrow, (intKey_updateRow_ne hne sel v row).trans hkey⟩

/-- UPDATE of the key. -/
theorem LiveSlot.update_key (hs : s.WellFormed) (h : LiveSlot s) {sel : Row → Bool} {c : Nat}
    {v : Value} (hc : s.table.primaryKeyIndex = some c)
    (hok : ∀ {row k}, row ∈ s.table.rows → sel row = true →
      intKey s.table.primaryKeyIndex row = some k → k ∈ s.index.keys → v = .int k ∨
        ∃ r ∈ s.table.rows, sel r = false ∧ intKey s.table.primaryKeyIndex r = some k)
    (hmap : ∀ k, idx'.rowOf k = if rewrites true v k then
        ((lastPos sel 0 s.table.rows).map Nat.cast).or (s.index.rowOf k)
      else s.index.rowOf k) : LiveSlot ⟨withCells s.table sel c v, idx'⟩ := by
  intro k hsome
  change ∃ row ∈ s.table.rows.map (updateRow sel c v), intKey s.table.primaryKeyIndex row = some k
  -- a row that was set has the new key, and any other row its old one
  have hset {row : Row} (hrow : row ∈ s.table.rows) (hsel : sel row = true) (hv : v = .int k) :
      ∃ r ∈ s.table.rows.map (updateRow sel c v),
        intKey s.table.primaryKeyIndex r = some k := by
    refine ⟨_, List.mem_map_of_mem hrow, ?_⟩
    rw [updateRow, if_pos hsel, hc, intKey_eq_some, keyCell_set hs.table hc hrow, hv]
  have hkept {row : Row} (hrow : row ∈ s.table.rows) (hsel : sel row = false)
      (hkey : intKey s.table.primaryKeyIndex row = some k) :
      ∃ r ∈ s.table.rows.map (updateRow sel c v),
        intKey s.table.primaryKeyIndex r = some k := by
    refine ⟨_, List.mem_map_of_mem hrow, ?_⟩
    rwa [updateRow, hsel]
  have hold (hsome : (s.index.rowOf k).isSome) :
      ∃ r ∈ s.table.rows.map (updateRow sel c v),
        intKey s.table.primaryKeyIndex r = some k := by
    obtain ⟨row, hrow, hkey⟩ := h k hsome
    cases hsel : sel row with
    | false => exact hkept hrow hsel hkey
    | true =>
      rcases hok hrow hsel hkey (Index.isSome_rowOf.mp hsome) with hv | ⟨r, hr, hrsel, hrkey⟩
      · exact hset hrow hsel hv
      · exact hkept hr hrsel hrkey
  have hsome : (idx'.rowOf k).isSome := hsome
  rw [hmap] at hsome
  split at hsome
  · next hv =>
    by_cases hnone : ∀ row ∈ s.table.rows, sel row = false
    · rw [lastPos_eq_none.mpr hnone, Option.map_none, Option.none_or] at hsome
      exact hold hsome
    · simp only [not_forall, Bool.not_eq_false] at hnone
      obtain ⟨row, hrow, hsel⟩ := hnone
      exact hset hrow hsel (by simpa [rewrites] using hv)
  · exact hold hsome

end Step

/-- **A step that meets the condition orphans no key.** -/
theorem LiveSlot.step {s s' : Slot} {stmt : SQLStatement} (hs : s.WellFormed) (h : LiveSlot s)
    (hok : LiveStep stmt s) (hst : SlotStep s stmt s') : LiveSlot s' := by
  cases hst with
  | insert hk hlen hfits _ _ hmap => exact h.insert hok hk hlen hfits hmap
  | delete _ _ _ hmap => exact h.delete hmap
  | @update sel setCol _ hk hsel hcol _ _ hmap =>
    by_cases hkey : some setCol = s.table.primaryKeyIndex
    · simp only [hkey, beq_self_eq_true] at hmap
      exact h.update_key hs hkey.symm (hok.update hk hkey.symm hcol hsel) hmap
    · refine h.update_other hkey fun k => ?_
      simp [hmap, rewrites, beq_false_of_ne hkey]

theorem liveSlot_fresh (n dir : Text) (columns : List Column) :
    LiveSlot ⟨Database.freshTable n dir columns, {}⟩ := nofun

/-- A free key is not in the index. -/
theorem LiveSlot.not_taken {s : Slot} (h : LiveSlot s) {new : Row}
    (hfree : KeyIsFree s.table new) : taken s.index s.table.primaryKeyIndex new = false := by
  by_contra htaken
  simp only [taken, Bool.not_eq_false, Option.any_eq_true] at htaken
  obtain ⟨k, hnew, hsome⟩ := htaken
  obtain ⟨row, hrow, hkey⟩ := h k hsome
  obtain ⟨c, hc⟩ := Option.isSome_iff_exists.mp (isSome_of_intKey hnew)
  rw [hc] at hnew hkey
  exact hfree c hc row hrow _ _ (intKey_eq_some.mp hnew) (intKey_eq_some.mp hkey)
    (by simp [Value.compare])

/-- **A free key is accepted**, and the index holds keys of rows only, in every run whose UPDATEs
take no indexed key from all its rows and whose INSERTs of string keys meet a row with the key 0,
while tables stay below 2³¹ rows. -/
theorem free_keys_accepted_of_reaches {root : Text} {disk : Disk} {e : Executor}
    (h : Machine.Reaches run KeepsLive (new root disk) e) : AcceptsFree e ∧ KeysLive e := by
  have hwf := wellFormed_of_reaches h
  have hlive := slots_invariant liveSlot_fresh LiveSlot.step h
  refine ⟨?_, ?_⟩
  · intro db sql stmt i t hdb hparse hk hget ht hlen hfree
    have hstmt := (parse_wellFormed hparse).resolve_right (by simp [hk])
    simp only [SQLStatement.WellFormed, hk] at hstmt
    obtain ⟨hn, -, hint, hlit⟩ := hstmt
    obtain ⟨name, dir, pre, s, post, hat, hs, rfl, rfl⟩ := hwf.at_of_getTable hdb hn.noNul hget
    obtain rfl : s.table = t := Option.some.inj (Database.tables_split.symm.trans ht)
    obtain ⟨idx', hexec, -, -⟩ := execInsert_done hat hlen hint (insertedRow_fits hint hlit hlen)
      ((hlive s hs).not_taken hfree)
    have hrun : e.run sql = e.execInsert stmt.insertStmt := by rw [run_of_parse hparse, execute, hk]
    refine ⟨_, _, hrun.trans hexec, rfl, ?_, ?_⟩
    · simp [Database.ofSlots, Table.insertRow]
    · simp [Database.ofSlots]
  · intro db hdb i t idx ht hidx k hk
    obtain ⟨s, hs, -, rfl, hidx'⟩ := hwf.slot_at hdb ht
    obtain rfl := Option.some.inj (hidx.symm.trans hidx')
    exact hlive s (List.mem_of_getElem? hs) k (Index.isSome_rowOf.mpr hk)

/-- `update t set a = 2 where a > 1`: the only key it sets is 2 already. -/
theorem free_keys_accepted_sample : AcceptsFree sampleTwo ∧ KeysLive sampleTwo := by
  have hparse : parse "update t set a = 2 where a > 1".toList = some
      { kind := .update
        updateStmt :=
          { tableName := ['t'], setColumn := ['a'], setValue := ['2'], setIsInt := true
            hasWhere := true
            cond :=
              { column := ['a'], op := ['>'], constValue := ['1'], isIntLiteral := true } } } := by
    decide +kernel
  refine free_keys_accepted_of_reaches (sample_step (sampleTwo_reaches ?_) hparse
    (by decide +kernel)
    { insert := fun h => by cases h
      update := fun _ hc _ hsel hrow hin hkey _ => ?_ })
  · rintro _ (rfl | rfl) rows entries
    all_goals exact
      { insert := fun _ hc _ htext => by cases hc; cases htext
        update := fun h => by cases h }
  · cases hc
    rw [hsel] at hin
    rcases List.mem_cons.mp hrow with rfl | hrow
    · exact absurd hin (by decide)
    · obtain rfl := List.mem_singleton.mp hrow
      cases hkey
      exact .inl rfl

/-- After UPDATE moved the only row from key 1 to key 2, key 1 is refused. -/
theorem free_key_refused : ∃ e, Reachable e ∧ ¬ AcceptsFree e := by
  let state := sampleState [[.int 2]] [{ key := 1, rowId := 0 }, { key := 2, rowId := 0 }]
  have hrun : (Machine.exec run (new "data".toList {}) ["use d".toList,
      "create table t (a int primary)".toList, "insert into t values (1)".toList,
      "update t set a = 2".toList]).map Prod.snd = some state := by decide +kernel
  obtain ⟨⟨rs, e⟩, hexec, rfl⟩ := Option.map_eq_some_iff.mp hrun
  refine ⟨_, reachable_of_exec hexec, fun h => ?_⟩
  have hparse : parse "insert into t values (1)".toList = some insertOne := by decide +kernel
  have hrefused : state.run "insert into t values (1)".toList
      = some (.error "Duplicate primary key: 1".toList, state) := by decide +kernel
  obtain ⟨e', _, haccepted, -⟩ := h _ _ _ 0 (sampleTable [[.int 2]]) rfl hparse rfl rfl rfl rfl
    fun c hc row hrow v v' hv hv' => by
      cases hc
      obtain rfl := List.mem_singleton.mp hrow
      cases hv
      cases hv'
      decide
  cases hrefused.symm.trans haccepted

end MiniDB.Execution

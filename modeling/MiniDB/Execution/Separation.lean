import MiniDB.Execution.Memory
import MiniDB.Machinery.Removal

/-!
# Execution/Separation — tables do not interfere

A statement about one table moves no other (`others_kept`), and a statement about a table does the
same to it, and answers alike, whatever other tables there are (`agree_execute`): a row is entered,
found and removed in its own table and its own index.

**`table_alone`**: in a run that stays in its database, leave out all but the statements about one
table: these are answered as they were, and the table comes to the same.  So it does not matter what
other clients do to other tables meanwhile, or in which order.
-/

namespace MiniDB.Execution

open MiniDB.Core MiniDB.Parser MiniDB.Storage Machine

/-! ## The table of a name -/

/-- The table of that name, with its index. -/
def named (n : Text) (slots : List Slot) : Option Slot := slots.find? (·.table.name == n)

section Named

variable {n : Text} {pre post slots : List Slot} {s : Slot}

theorem named_eq_none_iff : named n slots = none ↔ Database.Absent slots n := by
  simp [named, Database.Absent]

theorem named_at (hpre : Database.Absent pre n) (hs : s.table.name = n) :
    named n (pre ++ s :: post) = some s := by
  rw [named, List.find?_append, ← named, named_eq_none_iff.mpr hpre, Option.none_or]
  exact List.find?_cons_of_pos (by simpa using hs)

theorem named_split (h : named n slots = some s) :
    ∃ pre post, slots = pre ++ s :: post ∧ s.table.name = n ∧ Database.Absent pre n := by
  obtain ⟨hs, pre, post, rfl, hpre⟩ := List.find?_eq_some_iff_append.mp h
  exact ⟨pre, post, rfl, by simpa using hs, fun x hx => by simpa using hpre x hx⟩

theorem named_other (hs : s.table.name ≠ n) :
    named n (pre ++ s :: post) = named n (pre ++ post) := by
  rw [named, named, List.find?_append, List.find?_append]
  rw [List.find?_cons_of_neg (by simpa using hs)]

end Named

namespace Executor

/-- The selected database: its name and its directory. -/
def place (e : Executor) : Option (Text × Text) := e.currentDb.map fun db => (db.name, db.dataDir)

/-- A statement that stays in the selected database. -/
def stays (stmt : SQLStatement) : Bool := stmt.kind != .use && stmt.kind != .dropDatabase

/-- A text that is a statement about the table. -/
def about (n : Text) (sql : Text) : Bool :=
  (parse sql).any fun stmt => onTables stmt && target stmt == n

variable {e e' u : Executor} {n name dir : Text} {pre post pre' post' slots slots' : List Slot}
  {s : Slot} {stmt : SQLStatement}

theorem Holds.place_eq (h : e.Holds name dir slots) : e.place = some (name, dir) := by
  rw [place, h.db]
  rfl

theorem slots_withSlots : (e.withSlots name dir slots).slots = slots := by
  simp [withSlots, Executor.slots, Database.ofSlots, List.zipWith_map]

/-! ## A statement about another table -/

theorem onTables_of_slotStep {s s' : Slot} (h : SlotStep s stmt s') : onTables stmt = true := by
  cases h with
  | insert hk => rw [onTables, hk]
  | delete hk => rw [onTables, hk]
  | update hk => rw [onTables, hk]

/-- **A statement moves the table it names and no other.** -/
theorem others_kept (h : Moves e stmt e') (hstays : stays stmt = true) : e'.place = e.place ∧
    ((onTables stmt && target stmt == n) = false → named n e'.slots = named n e.slots) := by
  obtain ⟨huse, hdrop⟩ : stmt.kind ≠ .use ∧ stmt.kind ≠ .dropDatabase := by
    simpa [stays] using hstays
  have hne (htables : onTables stmt = true) (hother : (onTables stmt && target stmt == n) = false) :
      target stmt ≠ n := by simpa [htables] using hother
  cases h with
  | same hname hdb => exact ⟨by rw [place, place, hdb], fun _ => by rw [slots, slots, hdb]⟩
  | deselected hk => exact absurd hk hdrop
  | opened hk => exact absurd hk huse
  | created hk hh hn _ _ _ _ _ hh' =>
    refine ⟨hh'.place_eq.trans hh.place_eq.symm, fun hother => ?_⟩
    have hfresh := hne (by rw [onTables, hk]) hother
    rw [target, hk] at hfresh
    rw [hh.slots_eq, hh'.slots_eq, named_other (hn ▸ hfresh), List.append_nil]
  | dropped hk hh hname hh' =>
    refine ⟨hh'.place_eq.trans hh.place_eq.symm, fun hother => ?_⟩
    rw [hh.slots_eq, hh'.slots_eq, named_other (hname ▸ hne (by rw [onTables, hk]) hother)]
  | stepped hh hname hst hh' =>
    refine ⟨hh'.place_eq.trans hh.place_eq.symm, fun hother => ?_⟩
    have hthere := hne (onTables_of_slotStep hst) hother
    rw [← hname] at hthere
    rw [hh.slots_eq, hh'.slots_eq, named_other hthere, named_other (hst.schema.1 ▸ hthere)]

/-! ## A statement about the table -/

/-- Both are defined, with one answer, and the table is the same behind them. -/
def Agree (n : Text) (out out' : Outcome) : Prop :=
  ∃ r e' u', out = some (r, e') ∧ out' = some (r, u') ∧ named n e'.slots = named n u'.slots

theorem agree_same {out out' : Outcome} {r : ExecResult} (h : named n e.slots = named n u.slots)
    (he : out = some (r, e)) (hu : out' = some (r, u)) : Agree n out out' := ⟨r, e, u, he, hu, h⟩

/-- Without a database every statement on tables is refused. -/
theorem agree_idle (htables : onTables stmt = true) (he : e.currentDbName = [])
    (hu : u.currentDbName = []) (h : named n e.slots = named n u.slots) :
    Agree n (e.execute stmt) (u.execute stmt) := by
  have hidle {e : Executor} (he : e.currentDbName = []) (go : Database → Outcome) : withDb e go
      = some (.error "No database selected. Use 'use <dbname>' first.".toList, e) := by
    rw [withDb, if_pos (by simp [he])]
  rw [onTables] at htables
  cases hk : stmt.kind <;> simp only [hk, Bool.false_eq_true] at htables <;>
    simp only [execute, hk]
  all_goals exact agree_same h (hidle he _) (hidle hu _)

/-- A table that is not there is not found, or made. -/
theorem agree_absent (hs : stmt.WellFormed) (htables : onTables stmt = true)
    (he : e.Holds name dir slots) (hu : u.Holds name dir slots')
    (habs : Database.Absent slots (target stmt)) (habs' : Database.Absent slots' (target stmt)) :
    Agree (target stmt) (e.execute stmt) (u.execute stmt) := by
  have hsame : named (target stmt) e.slots = named (target stmt) u.slots := by
    rw [he.slots_eq, hu.slots_eq, named_eq_none_iff.mpr habs, named_eq_none_iff.mpr habs']
  rw [onTables] at htables
  rw [target] at hsame habs habs' ⊢
  rw [SQLStatement.WellFormed] at hs
  cases hk : stmt.kind <;> simp only [hk, Bool.false_eq_true] at htables <;>
    simp only [hk] at hs hsame habs habs' <;> simp only [execute, hk]
  case createTable =>
    refine ⟨_, _, _, execCreateTable_absent he hs.1.noNul habs,
      execCreateTable_absent hu hs.1.noNul habs', ?_⟩
    rw [slots_withSlots, slots_withSlots, named_at habs rfl, named_at habs' rfl]
  case dropTable =>
    exact agree_same hsame (execDropTable_absent he hs.noNul habs)
      (execDropTable_absent hu hs.noNul habs')
  all_goals
    exact agree_same hsame (withTable_absent he hs.1.noNul habs _)
      (withTable_absent hu hs.1.noNul habs' _)

section At

variable (hat : e.At n name dir pre s post) (hat' : u.At n name dir pre' s post')

include hat hat'

theorem named_same : named n e.slots = named n u.slots := by
  rw [hat.slots_eq, hat'.slots_eq, named_at hat.first hat.name, named_at hat'.first hat'.name]

/-- The same table is put where the table was. -/
theorem agree_put (r : ExecResult) {s' : Slot} (hname : s'.table.name = n) :
    Agree n (some (r, e.withSlots name dir (pre ++ s' :: post)))
      (some (r, u.withSlots name dir (pre' ++ s' :: post'))) := by
  refine ⟨r, _, _, rfl, rfl, ?_⟩
  rw [slots_withSlots, slots_withSlots, named_at hat.first hname, named_at hat'.first hname]

end At

theorem agree_select {stmt : SelectStmt} (hat : e.At stmt.tableName name dir pre s post)
    (hat' : u.At stmt.tableName name dir pre' s post') :
    Agree stmt.tableName (e.execSelect stmt) (u.execSelect stmt) := by
  have hsame := named_same hat hat'
  rw [execSelect_at hat, execSelect_at hat']
  split_ifs
  · exact agree_same hsame rfl rfl
  · exact agree_same hsame rfl rfl
  · exact ⟨_, _, _, rfl, rfl, hsame⟩

theorem agree_delete {stmt : DeleteStmt} (hat : e.At stmt.tableName name dir pre s post)
    (hat' : u.At stmt.tableName name dir pre' s post') :
    Agree stmt.tableName (e.execDelete stmt) (u.execDelete stmt) := by
  cases hw : missesWhere stmt.hasWhere stmt.cond s.table with
  | true =>
    exact agree_same (named_same hat hat') (execDelete_missesWhere hat hw)
      (execDelete_missesWhere hat' hw)
  | false =>
    obtain ⟨idx, hexec, hsort, hmap⟩ := execDelete_at hat hw
    obtain ⟨idx', hexec', hsort', hmap'⟩ := execDelete_at hat' hw
    obtain rfl := hsort.ext hsort' fun k => (hmap k).trans (hmap' k).symm
    rw [hexec, hexec']
    exact agree_put hat hat' _ hat.name

theorem agree_insert {stmt : InsertStmt} (hat : e.At stmt.tableName name dir pre s post)
    (hat' : u.At stmt.tableName name dir pre' s post')
    (hint : stmt.values.length = stmt.isInt.length)
    (hlit : ∀ v ∈ stmt.values.zip stmt.isInt, IsLiteral v) :
    Agree stmt.tableName (e.execInsert stmt) (u.execInsert stmt) := by
  by_cases hlen : stmt.values.length = s.table.columns.length
  · have hfits := insertedRow_fits hint hlit hlen
    cases hk : taken s.index s.table.primaryKeyIndex (insertedRow stmt) with
    | true =>
      exact agree_same (named_same hat hat') (execInsert_taken hat hlen hint hfits hk)
        (execInsert_taken hat' hlen hint hfits hk)
    | false =>
      obtain ⟨idx, hexec, hsort, hmap⟩ := execInsert_done hat hlen hint hfits hk
      obtain ⟨idx', hexec', hsort', hmap'⟩ := execInsert_done hat' hlen hint hfits hk
      obtain rfl := hsort.ext hsort' fun k => (hmap k).trans (hmap' k).symm
      rw [hexec, hexec']
      exact agree_put hat hat' _ hat.name
  · exact agree_same (named_same hat hat') (execInsert_arity hat hlen) (execInsert_arity hat' hlen)

theorem agree_update {stmt : UpdateStmt} (hat : e.At stmt.tableName name dir pre s post)
    (hat' : u.At stmt.tableName name dir pre' s post') :
    Agree stmt.tableName (e.execUpdate stmt) (u.execUpdate stmt) := by
  cases hcol : s.table.findColumn stmt.setColumn with
  | none =>
    exact agree_same (named_same hat hat') (execUpdate_noColumn hat hcol)
      (execUpdate_noColumn hat' hcol)
  | some setCol =>
    cases hw : missesWhere stmt.hasWhere stmt.cond s.table with
    | true =>
      exact agree_same (named_same hat hat') (execUpdate_missesWhere hat hcol hw)
        (execUpdate_missesWhere hat' hcol hw)
    | false =>
      obtain ⟨idx, hexec, hsort, hmap⟩ := execUpdate_at hat hcol hw
      obtain ⟨idx', hexec', hsort', hmap'⟩ := execUpdate_at hat' hcol hw
      obtain rfl := hsort.ext hsort' fun k => (hmap k).trans (hmap' k).symm
      rw [hexec, hexec']
      exact agree_put hat hat' _ hat.name

/-- A table that is dropped is not there. -/
theorem agree_dropTable {stmt : DropTableStmt} (hat : e.At stmt.tableName name dir pre s post)
    (hat' : u.At stmt.tableName name dir pre' s post') (he : e.WellFormed) (hu : u.WellFormed) :
    Agree stmt.tableName (e.execDropTable stmt) (u.execDropTable stmt) := by
  have hgone {e : Executor} {pre post : List Slot} (hat : e.At stmt.tableName name dir pre s post)
      (he : e.WellFormed) (disk : Disk) : named stmt.tableName
        (slots { e.withSlots name dir (pre ++ post) with disk }) = none := by
    have hslots : slots { e.withSlots name dir (pre ++ post) with disk } = pre ++ post :=
      slots_withSlots (e := e)
    have hnames := (he.slots hat.toHolds).names
    rw [List.map_append, List.map_cons, List.nodup_append, List.nodup_cons] at hnames
    rw [hslots, named_eq_none_iff]
    intro x hx
    rcases List.mem_append.mp hx with hx | hx
    · exact hat.first x hx
    · rw [← hat.name]
      exact fun heq => hnames.2.1.1 (heq ▸ List.mem_map_of_mem hx)
  refine ⟨_, _, _, execDropTable_present hat.toHolds hat.clean hat.name hat.first,
    execDropTable_present hat'.toHolds hat'.clean hat'.name hat'.first, ?_⟩
  rw [hgone hat he, hgone hat' hu]

/-- **A statement does the same to its table, whatever other tables there are.** -/
theorem agree_at (hs : stmt.WellFormed) (htables : onTables stmt = true)
    (hat : e.At (target stmt) name dir pre s post) (hat' : u.At (target stmt) name dir pre' s post')
    (he : e.WellFormed) (hu : u.WellFormed) :
    Agree (target stmt) (e.execute stmt) (u.execute stmt) := by
  rw [onTables] at htables
  rw [target] at hat hat' ⊢
  rw [SQLStatement.WellFormed] at hs
  cases hk : stmt.kind <;> simp only [hk, Bool.false_eq_true] at htables <;>
    simp only [hk] at hs hat hat' <;> simp only [execute, hk]
  case createTable =>
    exact agree_same (named_same hat hat')
      (execCreateTable_present hat.toHolds hat.clean hat.name hat.first)
      (execCreateTable_present hat'.toHolds hat'.clean hat'.name hat'.first)
  case dropTable => exact agree_dropTable hat hat' he hu
  case select => exact agree_select hat hat'
  case delete => exact agree_delete hat hat'
  case insert => exact agree_insert hat hat' hs.2.2.1 hs.2.2.2
  case update => exact agree_update hat hat'

/-! ## Runs -/

/-- Two states with the same database selected, in which the table is the same. -/
structure Shares (n : Text) (e u : Executor) : Prop where
  left : e.WellFormed
  right : u.WellFormed
  place : e.place = u.place
  table : named n e.slots = named n u.slots

theorem Shares.agree (h : Shares n e u) (hs : stmt.WellFormed) (htables : onTables stmt = true)
    (htarget : target stmt = n) : Agree n (e.execute stmt) (u.execute stmt) := by
  subst htarget
  have hplace := h.place
  have htable := h.table
  cases h.left with
  | idle hname hdb =>
    cases h.right with
    | idle hname' _ => exact agree_idle htables hname hname' h.table
    | holds hh' _ =>
      rw [hh'.place_eq, Executor.place, hdb] at hplace
      cases hplace
  | holds hh hwf =>
    cases h.right with
    | idle _ hdb' =>
      rw [hh.place_eq, Executor.place, hdb'] at hplace
      cases hplace
    | holds hh' hwf' =>
      rw [hh.place_eq, hh'.place_eq] at hplace
      obtain ⟨rfl, rfl⟩ := Prod.mk.inj (Option.some.inj hplace)
      rw [hh.slots_eq, hh'.slots_eq] at htable
      cases hn : named (target stmt) _ with
      | none =>
        exact agree_absent hs htables hh hh' (named_eq_none_iff.mp hn)
          (named_eq_none_iff.mp (htable.symm.trans hn))
      | some s =>
        obtain ⟨pre, post, rfl, hname, hpre⟩ := named_split hn
        obtain ⟨pre', post', rfl, -, hpre'⟩ := named_split (htable.symm.trans hn)
        have hslot := hwf.slot s (by simp)
        have hclean : '\x00' ∉ target stmt := hname ▸ hslot.table.name.noNul
        exact agree_at hs htables ⟨hh, hclean, hname, hpre, hslot⟩
          ⟨hh', hclean, hname, hpre', hslot⟩ h.left h.right

section Runs

variable {sqls : List Text} {rs : List ExecResult}

/-- **Tables do not interfere.**  In a run that stays in its database, the statements about a table
are answered as they are without the others, and leave the table and its index the same. -/
theorem table_alone (he : Reachable e) (n : Text)
    (hstays : ∀ sql ∈ sqls, (parse sql).all stays = true)
    (h : exec run e sqls = some (rs, e')) : ∃ u,
    exec run e ((logOf (fun sql _ => about n sql) sqls rs).map Prod.fst)
      = some ((logOf (fun sql _ => about n sql) sqls rs).map Prod.snd, u) ∧
    named n u.slots = named n e'.slots := by
  obtain ⟨root, disk, hreaches⟩ := he
  have hwf : e.WellFormed := wellFormed_of_reaches hreaches
  have hlog : ∃ u, exec run e ((logOf (fun sql _ => about n sql) sqls rs).map Prod.fst)
      = some ((logOf (fun sql _ => about n sql) sqls rs).map Prod.snd, u) ∧ Shares n e' u := by
    refine exec_log (fun {e u sql r e'} hshares hstay hrun hkeep => ?_)
      (fun {e u sql r e'} hshares hstay hrun hleave => ?_) hstays ⟨hwf, hwf, rfl, rfl⟩ h
    · obtain ⟨stmt, hparse, hexec, hmoves⟩ := run_moves hshares.left hrun
      rw [hparse, Option.all_some] at hstay
      rw [about, hparse, Option.any_some, Bool.and_eq_true, beq_iff_eq] at hkeep
      have hs : stmt.WellFormed := (parse_wellFormed hparse).resolve_right fun hk => by
        simp [onTables, hk] at hkeep
      obtain ⟨_, _, u', he', hu', htable⟩ := hshares.agree hs hkeep.1 hkeep.2
      cases he'.symm.trans hexec
      rw [← run_of_parse hparse] at hu'
      obtain ⟨stmt', hparse', -, hmoves'⟩ := run_moves hshares.right hu'
      cases hparse.symm.trans hparse'
      refine ⟨u', hu', hmoves.wellFormed hshares.left, hmoves'.wellFormed hshares.right, ?_, htable⟩
      rw [(others_kept (n := n) hmoves hstay).1, (others_kept (n := n) hmoves' hstay).1]
      exact hshares.place
    · obtain ⟨stmt, hparse, -, hmoves⟩ := run_moves hshares.left hrun
      rw [hparse, Option.all_some] at hstay
      rw [about, hparse, Option.any_some] at hleave
      obtain ⟨hplace, htable⟩ := others_kept hmoves hstay
      exact ⟨hmoves.wellFormed hshares.left, hshares.right, hplace.trans hshares.place,
        (htable hleave).trans hshares.table⟩
  obtain ⟨u, hu, hshares⟩ := hlog
  exact ⟨u, hu, hshares.table.symm⟩

def aboutOne : List Text :=
  ["create table t (k int primary)".toList, "insert into t values (1)".toList,
    "insert into t values (2)".toList, "delete from t where k = 1".toList]

/-- The same, among statements about another table with the same keys. -/
def aboutBoth : List Text :=
  ["create table t (k int primary)".toList, "create table v (k int primary)".toList,
    "insert into v values (1)".toList, "insert into t values (1)".toList,
    "update v set k = 2".toList, "insert into t values (2)".toList, "drop table v".toList,
    "delete from t where k = 1".toList]

theorem table_alone_two : ∃ e rs e' qs u, Reachable e ∧ exec run e aboutBoth = some (rs, e') ∧
    exec run e aboutOne = some (qs, u) ∧ named ['t'] u.slots = named ['t'] e'.slots := by
  have hruns : (exec run (new "data".toList {}) ["create database d".toList, "use d".toList]).any
      (fun p => (exec run p.2 aboutBoth).any fun q =>
        (logOf (fun sql _ => about ['t'] sql) aboutBoth q.1).map Prod.fst == aboutOne) = true := by
    decide +kernel
  obtain ⟨⟨_, e⟩, hstart, hrest⟩ := (Option.any_eq_true _ _).mp hruns
  obtain ⟨⟨rs, e'⟩, h, hfst⟩ := (Option.any_eq_true _ _).mp hrest
  have he : Reachable e := reachable_of_exec hstart
  obtain ⟨u, hu, htable⟩ := table_alone he ['t'] (by decide +kernel) h
  rw [eq_of_beq hfst] at hu
  exact ⟨e, rs, e', _, u, he, h, hu, htable⟩

end Runs

end Executor

end MiniDB.Execution

import MiniDB.Execution.Frame
import MiniDB.Execution.Reachable

/-!
# Execution/Memory — what a statement makes of the memory, whatever is on the disk

The memory of the executor is the selected database and its name; beside it there are the disk and
the last SELECT result.  No statement looks at these two before it moves the memory, and a table
statement does not look at them for its answer either: it moves the memory, answers, and removes
files all the same (`alike_execute`).  A statement that `spares` the selected database leaves the
memory as it was.
-/

namespace MiniDB.Execution

open MiniDB.Core MiniDB.Parser MiniDB.Storage

/-- The executor without the disk and the last SELECT result. -/
structure Memory where
  dataRoot : Text
  currentDbName : Text
  currentDb : Option Database
  deriving DecidableEq, Repr

/-- A statement about the tables of the selected database. -/
def onTables (stmt : SQLStatement) : Bool :=
  match stmt.kind with
  | .createTable | .dropTable | .select | .delete | .insert | .update => true
  | _ => false

/-- A statement that has no way to touch the selected database, when its name is `a`. -/
def spares (a : Text) (stmt : SQLStatement) : Bool :=
  match stmt.kind with
  | .createDatabase | .select | .invalid => true
  | .dropDatabase => stmt.dropDatabase.databaseName != a
  | _ => false

namespace Executor

def memory (e : Executor) : Memory :=
  { dataRoot := e.dataRoot, currentDbName := e.currentDbName, currentDb := e.currentDb }

/-- Two answers with the states behind them, on two disks: one answer, one memory, and the same
files removed. -/
structure Alike (disk disk' : Disk) (p q : ExecResult × Executor) : Prop where
  answer : p.1 = q.1
  memory : p.2.memory = q.2.memory
  files : ∃ paths : List Text, p.2.disk = paths.foldl Disk.remove disk ∧
    q.2.disk = paths.foldl Disk.remove disk'

/-! ## Rules -/

section Rules

variable {Q : ExecResult × Executor → ExecResult × Executor → Prop} {e u : Executor} {n : Text}

theorem alike_some {disk disk' : Disk} {r : ExecResult} {e u : Executor} (hm : e.memory = u.memory)
    (he : e.disk = disk) (hu : u.disk = disk') :
    Option.Rel (Alike disk disk') (some (r, e)) (some (r, u)) :=
  .some ⟨rfl, hm, [], he, hu⟩

theorem rel_mono {Q' : ExecResult × Executor → ExecResult × Executor → Prop} {out out' : Outcome}
    (h : Option.Rel Q out out') (himp : ∀ {p q}, Q p q → Q' p q) : Option.Rel Q' out out' := by
  cases h with
  | some h => exact .some (himp h)
  | none => exact .none

/-- What is related to a defined outcome is defined. -/
theorem exists_of_rel {p : ExecResult × Executor} {out : Outcome} (h : Option.Rel Q (some p) out) :
    ∃ q, out = some q ∧ Q p q := by
  cases h with
  | some h => exact ⟨_, rfl, h⟩

theorem rel_bind {α : Type} (x : Option α) {f g : α → Outcome}
    (h : ∀ a, x = some a → Option.Rel Q (f a) (g a)) : Option.Rel Q (x >>= f) (x >>= g) := by
  cases x with
  | none => exact .none
  | some a => exact h a rfl

theorem rel_ite {c : Prop} [Decidable c] {out out' no no' : Outcome} (h : Option.Rel Q out out')
    (h' : Option.Rel Q no no') :
    Option.Rel Q (if c then out else no) (if c then out' else no') := by
  split
  · exact h
  · exact h'

theorem memory_eq_iff : e.memory = u.memory ↔ e.dataRoot = u.dataRoot ∧
    e.currentDbName = u.currentDbName ∧ e.currentDb = u.currentDb := by
  rw [memory, memory, Memory.mk.injEq]

theorem alike_withDb (h : e.memory = u.memory) {go go' : Database → Outcome}
    (hgo : ∀ db, Option.Rel (Alike e.disk u.disk) (go db) (go' db)) :
    Option.Rel (Alike e.disk u.disk) (withDb e go) (withDb u go') := by
  obtain ⟨-, hname, hdb⟩ := memory_eq_iff.mp h
  rw [withDb, withDb, ← hname, ← hdb]
  refine rel_ite (alike_some h rfl rfl) ?_
  cases e.currentDb with
  | none => exact alike_some h rfl rfl
  | some db => exact hgo db

theorem alike_withTable (h : e.memory = u.memory) {go go' : Database → Nat → Table → Outcome}
    (hgo : ∀ db i t, Option.Rel (Alike e.disk u.disk) (go db i t) (go' db i t)) :
    Option.Rel (Alike e.disk u.disk) (withTable e n go) (withTable u n go') := by
  refine alike_withDb h fun db => ?_
  cases db.getTable n with
  | none => exact alike_some h rfl rfl
  | some i => exact rel_bind _ fun t _ => hgo db i t

end Rules

/-! ## Table statements -/

section Alike

variable {e u : Executor} (h : e.memory = u.memory)

include h

/-- The memory with a database put into it. -/
theorem memory_put (db : Option Database) (disk disk' : Disk) :
    memory { e with currentDb := db, disk } = memory { u with currentDb := db, disk := disk' } := by
  obtain ⟨hroot, hname, -⟩ := memory_eq_iff.mp h
  exact memory_eq_iff.mpr ⟨hroot, hname, rfl⟩

theorem alike_createTable (stmt : CreateTableStmt) :
    Option.Rel (Alike e.disk u.disk) (e.execCreateTable stmt) (u.execCreateTable stmt) := by
  refine alike_withDb h fun db => rel_ite ?_ ?_
  · exact alike_some (memory_put h _ _ _) rfl rfl
  · exact alike_some (memory_put h _ _ _) rfl rfl

/-- The files of a dropped table are removed on either disk. -/
theorem alike_dropTable (stmt : DropTableStmt) :
    Option.Rel (Alike e.disk u.disk) (e.execDropTable stmt) (u.execDropTable stmt) := by
  refine alike_withDb h fun db => ?_
  rw [Database.dropTable, Database.dropTable]
  split
  · exact .some ⟨rfl, memory_put h _ _ _, [], rfl, rfl⟩
  · simp only [Option.bind_eq_bind, Option.bind_assoc]
    refine rel_bind _ fun _ _ => rel_bind _ fun _ _ => rel_bind _ fun _ _ => ?_
    exact .some ⟨rfl, memory_put h _ _ _, [_, _], rfl, rfl⟩

theorem alike_select (stmt : SelectStmt) :
    Option.Rel (Alike e.disk u.disk) (e.execSelect stmt) (u.execSelect stmt) := by
  refine alike_withTable h fun _ _ t => rel_ite (alike_some h rfl rfl) ?_
  refine rel_ite (alike_some h rfl rfl) (rel_bind _ fun _ _ => rel_bind _ fun _ _ => ?_)
  exact .some ⟨rfl, h, [], rfl, rfl⟩

theorem alike_delete (stmt : DeleteStmt) :
    Option.Rel (Alike e.disk u.disk) (e.execDelete stmt) (u.execDelete stmt) := by
  refine alike_withTable h fun _ _ t => rel_bind _ fun _ _ => rel_ite (alike_some h rfl rfl) ?_
  exact rel_bind _ fun _ _ => alike_some (memory_put h _ _ _) rfl rfl

theorem alike_insert (stmt : InsertStmt) :
    Option.Rel (Alike e.disk u.disk) (e.execInsert stmt) (u.execInsert stmt) := by
  refine alike_withTable h fun _ _ t => rel_ite (alike_some h rfl rfl) ?_
  refine rel_bind _ fun _ _ => rel_bind _ fun _ _ => rel_bind _ fun _ _ => ?_
  refine rel_ite (alike_some h rfl rfl) (rel_bind _ fun _ _ => ?_)
  exact alike_some (memory_put h _ _ _) rfl rfl

theorem alike_update (stmt : UpdateStmt) :
    Option.Rel (Alike e.disk u.disk) (e.execUpdate stmt) (u.execUpdate stmt) := by
  refine alike_withTable h fun _ _ t => ?_
  cases t.findColumn stmt.setColumn with
  | none => exact alike_some h rfl rfl
  | some setCol =>
    refine rel_ite (alike_some h rfl rfl) (rel_bind _ fun _ _ => rel_bind _ fun _ _ => ?_)
    exact alike_some (memory_put h _ _ _) rfl rfl

/-- **A table statement does the same on every disk.** -/
theorem alike_execute {stmt : SQLStatement} (htables : onTables stmt = true) :
    Option.Rel (Alike e.disk u.disk) (e.execute stmt) (u.execute stmt) := by
  rw [onTables] at htables
  cases hk : stmt.kind <;> simp only [hk, Bool.false_eq_true] at htables <;>
    simp only [execute, hk]
  case createTable => exact alike_createTable h _
  case dropTable => exact alike_dropTable h _
  case select => exact alike_select h _
  case delete => exact alike_delete h _
  case insert => exact alike_insert h _
  case update => exact alike_update h _

/-! ## The memory -/

theorem memory_dropDatabase (stmt : DropDatabaseStmt) : Option.Rel
    (fun p q => p.2.memory = q.2.memory) (e.execDropDatabase stmt) (u.execDropDatabase stmt) := by
  obtain ⟨hroot, hname, hdb⟩ := memory_eq_iff.mp h
  rw [execDropDatabase, execDropDatabase, ← hname, ← hdb]
  split
  · simp only [Option.bind_eq_bind, Option.bind_some]
    refine rel_bind _ fun db _ => ?_
    split_ifs <;> exact .some (memory_eq_iff.mpr ⟨hroot, rfl, rfl⟩)
  · simp only [Option.bind_eq_bind, Option.bind_some]
    split_ifs <;> exact .some h

/-- **A statement does the same to the memory on every disk.** -/
theorem memory_execute (stmt : SQLStatement) :
    Option.Rel (fun p q => p.2.memory = q.2.memory) (e.execute stmt) (u.execute stmt) := by
  cases hk : stmt.kind
  case createDatabase =>
    simp only [execute, hk, execCreateDatabase]
    split_ifs <;> exact .some h
  case dropDatabase =>
    simp only [execute, hk]
    exact memory_dropDatabase h _
  case use =>
    obtain ⟨hroot, -, -⟩ := memory_eq_iff.mp h
    simp only [execute, hk, execUse]
    exact .some (memory_eq_iff.mpr ⟨hroot, rfl, by rw [hroot]⟩)
  case invalid =>
    simp only [execute, hk]
    exact .some h
  all_goals exact rel_mono (alike_execute h (by rw [onTables, hk])) Alike.memory

end Alike

/-- Well-formedness is a matter of the memory. -/
theorem WellFormed.of_memory {e e' : Executor} (he : e.WellFormed) (h : e'.memory = e.memory) :
    e'.WellFormed := by
  obtain ⟨-, hname, hdb⟩ := memory_eq_iff.mp h
  cases he with
  | idle h₁ h₂ => exact .idle (hname.trans h₁) (hdb.trans h₂)
  | holds hh hwf => exact .holds ⟨hname ▸ hh.selected, hdb.trans hh.db⟩ hwf

/-- A shutdown writes files. -/
theorem memory_shutdown (e : Executor) : e.shutdown.memory = e.memory := by
  rw [shutdown]
  split <;> rfl

/-! ## Statements on one disk -/

section Ends

variable {e : Executor}

theorem memory_select (stmt : SelectStmt) :
    Ends (fun _ e' => e'.memory = e.memory) (e.execSelect stmt) := by
  refine ends_withTable (fun _ _ => rfl) rfl fun _ _ t =>
    ends_ite (fun _ => ends_some rfl) fun _ => ?_
  refine ends_ite (fun _ => ends_some rfl) fun _ => ?_
  exact ends_bind fun _ _ => ends_bind fun _ _ => ends_some rfl

/-- Dropping a database that is not selected leaves the memory alone. -/
theorem memory_dropOther {stmt : DropDatabaseStmt}
    (h : e.currentDbName ≠ cString stmt.databaseName) :
    Ends (fun _ e' => e'.memory = e.memory) (e.execDropDatabase stmt) := by
  rw [execDropDatabase, if_neg (by simpa using h)]
  exact ends_ite (fun _ => ends_some rfl) fun _ => ends_some rfl

/-- **A statement that spares the selected database leaves the memory alone.** -/
theorem memory_of_spares {stmt : SQLStatement} {a : Text}
    (hs : stmt.WellFormed ∨ stmt.kind = .invalid) (hspares : spares a stmt = true)
    (hname : e.currentDbName = a ∨ e.currentDbName = []) :
    Ends (fun _ e' => e'.memory = e.memory) (e.execute stmt) := by
  rw [spares] at hspares
  cases hk : stmt.kind <;> simp only [hk, Bool.false_eq_true] at hspares <;>
    simp only [execute, hk]
  case createDatabase => exact ends_ite (fun _ => ends_some rfl) fun _ => ends_some rfl
  case dropDatabase =>
    have hn : IsName stmt.dropDatabase.databaseName := by
      simpa only [SQLStatement.WellFormed, hk] using hs.resolve_right (by simp [hk])
    refine memory_dropOther fun h => ?_
    rw [cString_of_notMem hn.noNul] at h
    rcases hname with hname | hname
    · exact bne_iff_ne.mp hspares (h.symm.trans hname)
    · exact hn.1 (h.symm.trans hname)
  case select => exact memory_select _
  case invalid => exact ends_some rfl

/-- Without a USE the selected database stays, or is dropped. -/
theorem name_execute {stmt : SQLStatement} (huse : stmt.kind ≠ .use) :
    Ends (fun _ e' => e'.currentDbName = e.currentDbName ∨ e'.currentDbName = [])
      (e.execute stmt) := by
  by_cases hdrop : stmt.kind = .dropDatabase
  · rw [execute, hdrop]
    refine ends_ite (fun _ => ends_bind fun db _ => ?_) fun _ => ?_
    · exact ends_ite (fun _ => ends_some (.inr rfl)) fun _ => ends_some (.inr rfl)
    · exact ends_ite (fun _ => ends_some (.inl rfl)) fun _ => ends_some (.inl rfl)
  · exact fun r e' h => .inl (tame_execute huse hdrop h).name

end Ends

end Executor

end MiniDB.Execution

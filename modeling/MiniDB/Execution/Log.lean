import MiniDB.Execution.Memory
import MiniDB.Machinery.Removal

/-!
# Execution/Log — what a run leaves is in the log of its statements

Two states are the `Same` when they differ in the last SELECT result at most: then every statement
is answered alike, and leaves the same states (`same_execute`).  A query, a text that is no
statement and a statement that is refused leave the state the same (`same_of_quiet`).  CREATE
DATABASE and DROP DATABASE may do something before they fail: one makes the data directory, the
other saves and leaves the selected database.

**`log_replays`**: so the log without the quiet statements, run from where the run has begun, is
answered as it was, and ends in a state from which everything goes on alike.
-/

namespace MiniDB.Execution

open MiniDB.Core MiniDB.Parser MiniDB.Storage Machine

namespace Executor

/-- The same memory and the same disk. -/
structure Same (e u : Executor) : Prop where
  memory : e.memory = u.memory
  disk : e.disk = u.disk

theorem Same.symm {e u : Executor} (h : Same e u) : Same u e := ⟨h.memory.symm, h.disk.symm⟩

theorem Same.trans {e u v : Executor} (h : Same e u) (h' : Same u v) : Same e v :=
  ⟨h.memory.trans h'.memory, h.disk.trans h'.disk⟩

/-- A statement that may have done something, by its answer. -/
def effective (stmt : SQLStatement) (r : ExecResult) : Bool :=
  match stmt.kind with
  | .select | .invalid => false
  | .createDatabase | .dropDatabase => true
  | _ => r.status == .ok

/-- What the log keeps. -/
def logged (sql : Text) (r : ExecResult) : Bool := (parse sql).any (effective · r)

/-! ## The last SELECT result does not matter -/

theorem Same.exists_with {e u : Executor} (h : Same e u) :
    ∃ t, u = { e with resultTable := t } := by
  obtain ⟨hroot, hname, hdb⟩ := memory_eq_iff.mp h.memory
  refine ⟨u.resultTable, ?_⟩
  rw [hroot, hname, hdb, h.disk]

/-- A statement on databases does not look at it. -/
theorem same_executeDatabases (e : Executor) (t : Table) {stmt : SQLStatement}
    (htables : onTables stmt = false) : Option.Rel (fun p q => p.1 = q.1 ∧ Same p.2 q.2)
      (e.execute stmt) (execute { e with resultTable := t } stmt) := by
  rw [onTables] at htables
  cases hk : stmt.kind <;> simp only [hk, Bool.true_eq_false] at htables <;>
    simp only [execute, hk]
  case createDatabase =>
    rw [execCreateDatabase, execCreateDatabase]
    exact rel_ite (.some ⟨rfl, rfl, rfl⟩) (.some ⟨rfl, rfl, rfl⟩)
  case dropDatabase =>
    rw [execDropDatabase, execDropDatabase]
    dsimp only
    split
    · simp only [Option.bind_eq_bind]
      refine rel_bind _ fun db _ => ?_
      exact rel_ite (.some ⟨rfl, rfl, rfl⟩) (.some ⟨rfl, rfl, rfl⟩)
    · exact rel_ite (.some ⟨rfl, rfl, rfl⟩) (.some ⟨rfl, rfl, rfl⟩)
  case use => exact .some ⟨rfl, rfl, rfl⟩
  case invalid => exact .some ⟨rfl, rfl, rfl⟩

/-- **A statement does the same to the same states.** -/
theorem same_execute {e u : Executor} (h : Same e u) (stmt : SQLStatement) :
    Option.Rel (fun p q => p.1 = q.1 ∧ Same p.2 q.2) (e.execute stmt) (u.execute stmt) := by
  cases htables : onTables stmt with
  | true =>
    refine rel_mono (alike_execute h.memory htables) fun {p q} hpq => ⟨hpq.answer, hpq.memory, ?_⟩
    obtain ⟨paths, hp, hq⟩ := hpq.files
    rw [hp, hq, h.disk]
  | false =>
    obtain ⟨t, rfl⟩ := h.exists_with
    exact same_executeDatabases e t htables

theorem same_run {e u : Executor} (h : Same e u) (sql : Text) :
    Option.Rel (fun p q => p.1 = q.1 ∧ Same p.2 q.2) (e.run sql) (u.run sql) :=
  rel_bind _ fun stmt _ => same_execute h stmt

/-! ## Quiet statements -/

section Quiet

variable {e : Executor}

/-- A query leaves the last SELECT result. -/
theorem same_select (stmt : SelectStmt) : Ends (fun _ e' => Same e e') (e.execSelect stmt) := by
  refine ends_withTable (fun _ _ => ⟨rfl, rfl⟩) ⟨rfl, rfl⟩ fun _ _ t =>
    ends_ite (fun _ => ends_some ⟨rfl, rfl⟩) fun _ => ?_
  refine ends_ite (fun _ => ends_some ⟨rfl, rfl⟩) fun _ => ?_
  exact ends_bind fun _ _ => ends_bind fun _ _ => ends_some ⟨rfl, rfl⟩

/-- A refused DROP TABLE removes no file. -/
theorem disk_dropTable (stmt : DropTableStmt) :
    Ends (fun r e' => r.status = .error → e'.disk = e.disk) (e.execDropTable stmt) := by
  refine ends_withDb (fun _ _ _ => rfl) fun db _ => ends_bind fun ⟨ok, db', disk⟩ hdrop =>
    ends_ite (fun hok => ends_some fun _ => ?_) fun _ => ends_some fun hok => by cases hok
  rw [Database.dropTable] at hdrop
  split at hdrop
  · cases hdrop
    rfl
  · obtain ⟨_, -, hdrop⟩ := Option.bind_eq_some_iff.mp hdrop
    obtain ⟨_, -, hdrop⟩ := Option.bind_eq_some_iff.mp hdrop
    obtain ⟨_, -, hdrop⟩ := Option.bind_eq_some_iff.mp hdrop
    cases hdrop
    cases hok

theorem disk_delete (stmt : DeleteStmt) : Ends (fun _ e' => e'.disk = e.disk) (e.execDelete stmt) :=
  ends_withTable (fun _ _ => rfl) rfl fun _ _ _ => ends_bind fun _ _ =>
    ends_ite (fun _ => ends_some rfl) fun _ => ends_bind fun _ _ => ends_some rfl

theorem disk_insert (stmt : InsertStmt) : Ends (fun _ e' => e'.disk = e.disk) (e.execInsert stmt) :=
  ends_withTable (fun _ _ => rfl) rfl fun _ _ _ => ends_ite (fun _ => ends_some rfl) fun _ =>
    ends_bind fun _ _ => ends_bind fun _ _ => ends_bind fun _ _ =>
      ends_ite (fun _ => ends_some rfl) fun _ => ends_bind fun _ _ => ends_some rfl

theorem disk_update (stmt : UpdateStmt) :
    Ends (fun _ e' => e'.disk = e.disk) (e.execUpdate stmt) := by
  refine ends_withTable (fun _ _ => rfl) rfl fun _ _ t => ?_
  cases t.findColumn stmt.setColumn with
  | none => exact ends_some rfl
  | some setCol =>
    exact ends_ite (fun _ => ends_some rfl) fun _ => ends_bind fun _ _ =>
      ends_bind fun _ _ => ends_some rfl

/-- A statement on tables that is refused leaves the disk alone. -/
theorem disk_of_refused {stmt : SQLStatement} (htables : onTables stmt = true) :
    Ends (fun r e' => r.status = .error → e'.disk = e.disk) (e.execute stmt) := by
  rw [onTables] at htables
  cases hk : stmt.kind <;> simp only [hk, Bool.false_eq_true] at htables <;>
    simp only [execute, hk]
  case createTable =>
    exact ends_withDb (fun _ _ _ => rfl) fun _ _ =>
      ends_ite (fun _ => ends_some fun _ => rfl) fun _ => ends_some fun _ => rfl
  case dropTable => exact disk_dropTable _
  case select => exact fun r e' hexec _ => (same_select _ hexec).disk.symm
  case delete => exact fun r e' hexec _ => disk_delete _ hexec
  case insert => exact fun r e' hexec _ => disk_insert _ hexec
  case update => exact fun r e' hexec _ => disk_update _ hexec

/-- A statement on tables that is refused does nothing. -/
theorem same_of_refused {stmt : SQLStatement} (htables : onTables stmt = true) :
    Ends (fun r e' => r.status = .error → Same e e') (e.execute stmt) := by
  intro r e' hexec herr
  have huse : stmt.kind ≠ .use := by
    intro hk
    simp [onTables, hk] at htables
  have hdrop : stmt.kind ≠ .dropDatabase := by
    intro hk
    simp [onTables, hk] at htables
  have htame := tame_execute huse hdrop hexec
  have hmemory := memory_eq_iff.mpr ⟨htame.dataRoot, htame.name, (htame.failed herr).1⟩
  exact ⟨hmemory.symm, (disk_of_refused htables hexec herr).symm⟩

/-- **A statement that is not logged does nothing.** -/
theorem same_of_quiet {stmt : SQLStatement} :
    Ends (fun r e' => effective stmt r = false → Same e e') (e.execute stmt) := by
  intro r e' hexec hquiet
  have hrefused (hne : (r.status == .ok) = false) : r.status = .error := by
    cases hr : r.status with
    | ok => simp [hr] at hne
    | error => rfl
  rw [effective] at hquiet
  cases hk : stmt.kind <;> simp only [hk, Bool.true_eq_false] at hquiet
  case use =>
    rw [execute, hk] at hexec
    simp [(rooted_use _ hexec).1] at hquiet
  case select =>
    rw [execute, hk] at hexec
    exact same_select _ hexec
  case invalid =>
    rw [execute, hk] at hexec
    cases hexec
    exact ⟨rfl, rfl⟩
  all_goals exact same_of_refused (by rw [onTables, hk]) hexec (hrefused hquiet)

end Quiet

/-! ## The log -/

section Log

variable {e e' : Executor} {sqls : List Text} {rs : List ExecResult}

/-- **The log of a run replays it.**  The statements that are logged are answered again as they
were, and leave the same database and the same disk; whatever is run then is answered alike. -/
theorem log_replays (h : exec run e sqls = some (rs, e')) : ∃ u,
    exec run e ((logOf logged sqls rs).map Prod.fst)
      = some ((logOf logged sqls rs).map Prod.snd, u) ∧
    u.memory = e'.memory ∧ u.disk = e'.disk ∧
    ∀ later, (exec run u later).map Prod.fst = (exec run e' later).map Prod.fst := by
  have hlog : ∃ u, exec run e ((logOf logged sqls rs).map Prod.fst)
      = some ((logOf logged sqls rs).map Prod.snd, u) ∧ Same e' u := by
    refine exec_log (fun {_ _ sql _ _} hsame _ hrun _ => ?_) (fun hsame _ hrun hquiet => ?_)
      (fun _ _ => trivial) ⟨rfl, rfl⟩ h
    · have hrel := same_run hsame sql
      rw [hrun] at hrel
      obtain ⟨⟨r', u'⟩, hu, rfl, hsame'⟩ := exists_of_rel hrel
      exact ⟨u', hu, hsame'⟩
    · obtain ⟨stmt, hparse, hexec⟩ := Option.bind_eq_some_iff.mp hrun
      rw [logged, hparse, Option.any_some] at hquiet
      exact (same_of_quiet hexec hquiet).symm.trans hsame
  obtain ⟨u, hu, hsame⟩ := hlog
  exact ⟨u, hu, hsame.memory.symm, hsame.disk.symm,
    exec_answers (R := Same) (fun h => same_run h _) hsame.symm⟩

/-- Two queries and two statements that are refused, behind four that are not. -/
def logSample : List Text :=
  ["create database d".toList, "use d".toList, "create table t (k int primary)".toList,
    "insert into t values (1)".toList, "select * from t".toList, "insert into t values (1)".toList,
    "drop table u".toList, "select k from t".toList]

theorem log_replays_half : ∃ rs e' qs u, exec run (new "data".toList {}) logSample = some (rs, e') ∧
    exec run (new "data".toList {}) (logSample.take 4) = some (qs, u) ∧
    u.memory = e'.memory ∧ u.disk = e'.disk := by
  have hlog : (exec run (new "data".toList {}) logSample).any
      (fun p => (logOf logged logSample p.1).map Prod.fst == logSample.take 4) = true := by
    decide +kernel
  obtain ⟨⟨rs, e'⟩, h, hfst⟩ := (Option.any_eq_true _ _).mp hlog
  obtain ⟨u, hu, hmemory, hdisk, -⟩ := log_replays h
  rw [eq_of_beq hfst] at hu
  exact ⟨rs, e', _, u, h, hu, hmemory, hdisk⟩

end Log

end Executor

end MiniDB.Execution

import MiniDB.Execution.Memory
import MiniDB.Execution.Safety
import MiniDB.Machinery.Removal
import MiniDB.Network.Response
import MiniDB.Parser.Bounds

/-!
# Network/Server — the request loop

The server has one executor, and takes the request lines one after the other, whoever they come
from: a connection is served to its end before the next is accepted.  An exit request ends the
server, and the requests behind it get no answer.
-/

namespace MiniDB.Network

open MiniDB.Core MiniDB.Parser MiniDB.Storage MiniDB.Execution

/-! ## Requests -/

/-- What the server makes of a request line. -/
inductive Request where
  | hangUp
  | exit
  | refused (message : Text)
  | statement (stmt : SQLStatement)

def readRequest (line : Text) : Option Request :=
  if line.isEmpty then some .hangUp
  else if isExitRequest line then some .exit
  else
    let sql := parseRequestSql line
    if sql.isEmpty then some (.refused "Invalid request: missing 'sql' field".toList)
    else do
      let stmt ← parse sql
      if stmt.kind = .invalid then
        return .refused (if stmt.errorMsg.isEmpty then "Parse error".toList else stmt.errorMsg)
      else return .statement stmt

/-- Every line is a request, and a statement in it is well formed. -/
theorem readRequest_defined (line : Text) : ∃ request, readRequest line = some request ∧
    ∀ stmt, request = .statement stmt → stmt.WellFormed := by
  obtain ⟨stmt, hparse⟩ := parse_defined (parseRequestSql line)
  simp only [readRequest, hparse, Option.bind_eq_bind, Option.bind_some, Option.pure_def]
  by_cases hk : stmt.kind = .invalid
  · split_ifs <;> exact ⟨_, rfl, fun _ h => by cases h⟩
  · rw [if_neg hk]
    split_ifs
    case neg =>
      refine ⟨_, rfl, fun stmt' h => ?_⟩
      obtain rfl := Request.statement.inj h
      exact (parse_wellFormed hparse).resolve_right hk
    all_goals exact ⟨_, rfl, fun _ h => by cases h⟩

theorem readRequest_wellFormed {line : Text} {stmt : SQLStatement}
    (h : readRequest line = some (.statement stmt)) : stmt.WellFormed := by
  obtain ⟨request, hreq, hw⟩ := readRequest_defined line
  exact hw stmt (Option.some.inj (hreq.symm.trans h))

/-! ## The loop -/

/-- `run_server` between two requests. -/
structure Server where
  executor : Executor
  running : Bool := true
  deriving DecidableEq

namespace Server

def start (disk : Disk) : Server := { executor := .new "data".toList disk }

/-- The response, unless the peer has closed the connection, and the server after it. -/
def respond (s : Server) : Request → Option (Option Text × Server)
  | .hangUp => some (none, s)
  | .exit => some (some (serializeStatus "ok".toList "goodbye".toList),
      { executor := s.executor.shutdown, running := false })
  | .refused message => some (some (serializeError message), s)
  | .statement stmt => do
    let (result, executor) ← s.executor.execute stmt
    return (some (serializeExecResult result), { s with executor })

/-- One round of the loop. -/
def step (s : Server) (line : Text) : Option (Option Text × Server) :=
  if s.running then do
    let request ← readRequest line
    s.respond request
  else some (none, s)

theorem step_of_readRequest {s : Server} {line : Text} {request : Request}
    (hs : s.running = true) (h : readRequest line = some request) :
    s.step line = s.respond request := by
  rw [step, if_pos hs, h]
  rfl

theorem step_of_stopped {s : Server} (hs : s.running = false) (line : Text) :
    s.step line = some (none, s) := if_neg (by simp [hs])

/-- A round answers nothing, or a request. -/
theorem step_cases {s s' : Server} {line : Text} {answer : Option Text}
    (h : s.step line = some (answer, s')) :
    s' = s ∨ ∃ request, readRequest line = some request ∧
      s.respond request = some (answer, s') := by
  cases hs : s.running with
  | false =>
    rw [step_of_stopped hs] at h
    cases h
    exact .inl rfl
  | true =>
    rw [step, if_pos hs] at h
    exact .inr (Option.bind_eq_some_iff.mp h)

/-- **Every request is answered**, and only an exit request stops the server. -/
theorem respond_defined {s : Server} {request : Request} (hs : s.executor.WellFormed)
    (hw : ∀ stmt, request = .statement stmt → stmt.WellFormed) :
    ∃ answer s', s.respond request = some (answer, s') ∧ s'.executor.WellFormed ∧
      s'.executor.dataRoot = s.executor.dataRoot ∧ (request ≠ .exit → s'.running = s.running) := by
  cases request with
  | hangUp => exact ⟨_, _, rfl, hs, rfl, fun _ => rfl⟩
  | refused message => exact ⟨_, _, rfl, hs, rfl, fun _ => rfl⟩
  | exit =>
    have hmem := Executor.memory_shutdown s.executor
    exact ⟨_, _, rfl, hs.of_memory hmem, (Executor.memory_eq_iff.mp hmem).1, fun h => absurd rfl h⟩
  | statement stmt =>
    obtain ⟨r, e, hexec, hmoves⟩ := Executor.execute_moves hs (.inl (hw stmt rfl))
    refine ⟨some (serializeExecResult r), { s with executor := e }, ?_, hmoves.wellFormed hs,
      (Executor.rooted_execute hexec).dataRoot, fun _ => rfl⟩
    simp [respond, hexec]

end Server

end MiniDB.Network

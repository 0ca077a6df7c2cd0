import MiniDB.Network.Partial
import MiniDB.Network.Printed

/-!
# Network/Client — one request on a connection of its own

A client connects for each request: it sends one line, reads one line, and closes.  Whatever is
typed, what arrives is one request and nothing behind it, for the text holds no newline; and it is
neither empty nor an exit request, for the template gets through.

`sendSql_running`: so `send_sql` gets the answer to what the server takes of the text, cut to the
buffer.
-/

namespace MiniDB.Network

open MiniDB.Core MiniDB.Parser MiniDB.Storage MiniDB.Execution

/-! ## `send_sql` and `send_exit` -/

/-- One request and one line of the answer.  The connection is closed behind it, and every write
succeeds. -/
def exchange (s : Server) (request : Text) : Option (Text × Server) := do
  let (sent, fate, executor) ← serveClient { incoming := sendLine request } s.executor
  return ((recvLine sent).1, .behind (fate != .stopped) executor)

/-- The answer when nobody listens. -/
def failedToConnect : Text :=
  "\x7b\"status\":\"error\",\"message\":\"Failed to connect to server\"\x7d".toList

def sendSql (s : Server) (sql : Text) : Option (Text × Server) :=
  if !s.running then some (failedToConnect, s) else exchange s (requestLine sql)

def exitRequest : Text := "\x7b\"type\":\"exit\"\x7d".toList

def sendExit (s : Server) : Option (Text × Server) :=
  if !s.running then some ([], s) else exchange s exitRequest

/-- What the server takes of a text. -/
def received (sql : Text) : Text := parseRequestSql (recvLine (sendLine (requestLine sql))).1

/-! ## What arrives -/

section Arrives

variable {n : Nat} {w stream sql : Text}

/-- A word without line breaks gets through. -/
theorem recvLoop_append (hnl : '\n' ∉ w) (hcr : '\r' ∉ w) (hn : w.length ≤ n) (stream : Text) :
    recvLoop n (w ++ stream) = (w ++ (recvLoop (n - w.length) stream).1,
      (recvLoop (n - w.length) stream).2) := by
  induction w generalizing n with
  | nil => rfl
  | cons c w ih =>
    obtain ⟨n, rfl⟩ : ∃ m, n = m + 1 := ⟨n - 1, by simp at hn; omega⟩
    obtain ⟨hc, hnl⟩ := not_or.mp (mt List.mem_cons.mpr hnl)
    obtain ⟨hc', hcr⟩ := not_or.mp (mt List.mem_cons.mpr hcr)
    rw [List.cons_append, recvLoop_cons (Ne.symm hc) (Ne.symm hc'),
      ih hnl hcr (by simpa using hn), List.length_cons, Nat.add_sub_add_right]
    rfl

/-- Behind a text without newlines that fits, at most its newline is left. -/
theorem recvLoop_rest (hnl : '\n' ∉ w) (hn : w.length ≤ n) :
    (recvLoop n (w ++ ['\n'])).2 = [] ∨ (recvLoop n (w ++ ['\n'])).2 = ['\n'] := by
  induction w generalizing n with
  | nil =>
    cases n with
    | zero => exact .inr rfl
    | succ n => exact .inl rfl
  | cons c w ih =>
    obtain ⟨n, rfl⟩ : ∃ m, n = m + 1 := ⟨n - 1, by simp at hn; omega⟩
    rw [List.length_cons] at hn
    obtain ⟨hc, hnl⟩ := not_or.mp (mt List.mem_cons.mpr hnl)
    rw [List.cons_append, recvLoop, if_neg (by simpa using Ne.symm hc)]
    split
    · exact ih hnl (by omega)
    · exact ih hnl (by omega)

theorem requestLine_clean_of (hnl : '\n' ∉ sql) :
    '\x00' ∉ requestLine sql ∧ '\n' ∉ requestLine sql ∧ (requestLine sql).length ≤ maxMsg - 1 := by
  have hsub : requestLine sql ⊆ template ++ (cString sql ++ "\"\x7d".toList) :=
    (requestLine_isPrefix sql).subset
  have hnl' : '\n' ∉ cString sql := fun h => hnl ((List.takeWhile_prefix _).subset h)
  refine ⟨fun h => ?_, fun h => ?_, List.length_take_le _ _⟩
  · have hmem := hsub h
    simp only [List.mem_append, notMem_cString, false_or] at hmem
    rcases hmem with hmem | hmem <;> revert hmem <;> decide
  · have hmem := hsub h
    simp only [List.mem_append, hnl', false_or] at hmem
    rcases hmem with hmem | hmem <;> revert hmem <;> decide

/-- **The template gets through**, and at most a newline is left behind the request. -/
theorem recvLine_requestLine_of (hnl : '\n' ∉ sql) :
    (∃ q, '\x00' ∉ template ++ q ∧
      (recvLine (sendLine (requestLine sql))).1 = template ++ q) ∧
      (recvLine (recvLine (sendLine (requestLine sql))).2).1 = [] := by
  obtain ⟨h0, hnl', hlen⟩ := requestLine_clean_of hnl
  have htemplate : template.length ≤ maxMsg - 1 ∧ '\n' ∉ template ∧ '\r' ∉ template := by decide
  have hcut : requestLine sql
      = (template ++ (cString sql ++ "\"\x7d".toList)).take (maxMsg - 1) := by
    rw [requestLine, snprintf, List.append_assoc]
    rfl
  obtain ⟨q, hq⟩ : ∃ q, requestLine sql = template ++ q :=
    ⟨_, by rw [hcut, List.take_append, List.take_of_length_le htemplate.1]⟩
  have hsend : sendLine (requestLine sql) = template ++ (q ++ ['\n']) := by
    rw [sendLine, cString_of_notMem h0, hq, List.append_assoc]
  have hloop := recvLoop_append htemplate.2.1 htemplate.2.2 htemplate.1 (q ++ ['\n'])
  constructor
  · refine ⟨cString (recvLoop (maxMsg - 1 - template.length) (q ++ ['\n'])).1, ?_, ?_⟩
    · exact List.not_mem_append (by decide) (notMem_cString _)
    · rw [hsend, recvLine, hloop]
      exact List.takeWhile_append_of_pos (List.all_eq_true.mp (by decide))
  · have hrest : (recvLine (sendLine (requestLine sql))).2 = [] ∨
        (recvLine (sendLine (requestLine sql))).2 = ['\n'] := by
      have hleft := recvLoop_rest hnl' hlen
      rwa [sendLine, cString_of_notMem h0, recvLine]
    rcases hrest with h | h <;> rw [h] <;> rfl

end Arrives

/-! ## What comes back -/

section ComesBack

variable {s : Server} {executor executor' : Executor} {request resp sql rest : Text}
  {r : ExecResult}

/-- The server reads one request, and then the end of the connection. -/
theorem exchange_response (hline : recvLine (sendLine request) = (sql, rest))
    (hne : sql ≠ []) (hexit : isExitRequest sql = false) (hend : (recvLine rest).1 = [])
    (hresp : response s.executor sql = some (resp, executor)) (hclean : IsLine resp) :
    exchange s request = some (resp.take (maxMsg - 1), { executor }) := by
  have hlen : 0 < (sendLine request).length := by simp [sendLine]
  obtain ⟨n, hn⟩ : ∃ n, (sendLine request).length = n + 1 := ⟨_, (Nat.sub_add_cancel hlen).symm⟩
  have hempty : sql.isEmpty = false := by simpa using hne
  have hsent : (recvLine (sendLine resp)).1 = resp.take (maxMsg - 1) := by
    have hall := recvLine_sendLine hclean []
    rw [List.append_nil] at hall
    rw [hall]
  rw [exchange, serveClient]
  simp only [hn, serveLoop, hline, hempty, hexit, hresp, hend, sendLineOver, Server.behind,
    Bool.false_eq_true, if_false, Option.bind_eq_bind, Option.bind_some, List.headD_nil,
    List.tail_nil, ne_eq, not_true_eq_false, List.isEmpty_nil, if_true, List.append_nil,
    Option.pure_def, hsent]
  rfl

/-- A statement is executed. -/
theorem response_run (he : executor.WellFormed) (hsql : parseRequestSql request ≠ [])
    (hrun : executor.run (parseRequestSql request) = some (r, executor')) :
    response executor request = some (serializeExecResult r, executor') := by
  obtain ⟨stmt, hparse, hexec, -⟩ := Executor.run_moves he hrun
  have hsome : ¬ (parseRequestSql request).isEmpty = true := by simpa using hsql
  rw [response, if_neg hsome, hparse]
  by_cases hk : stmt.kind = .invalid
  · -- the server reports what the executor would
    have hreported := (parse_reported hparse).resolve_left fun hd => hd.valid.1 hk
    have hmsg : ¬ stmt.errorMsg.isEmpty = true := by simpa using hreported.1.2
    rw [Executor.execute, hk] at hexec
    simp only [if_neg hmsg] at hexec
    cases hexec
    have htext : serializeExecResult (.error stmt.errorMsg) = serializeError stmt.errorMsg := by
      rw [serializeExecResult, ExecResult.error,
        cString_of_notMem (isLine_of_isReport hreported.2).2.2]
    simp only [Option.bind_eq_bind, Option.bind_some, if_pos hk, if_neg hmsg, htext]
  · simp only [Option.bind_eq_bind, Option.bind_some, if_neg hk, hexec]

/-- What a text is answered with, by a server that runs. -/
theorem sendSql_running (hs : s.running = true) (hnl : '\n' ∉ sql)
    (hresp : response s.executor (recvLine (sendLine (requestLine sql))).1 = some (resp, executor))
    (hclean : IsLine resp) :
    sendSql s sql = some (resp.take (maxMsg - 1), { executor }) := by
  obtain ⟨⟨q, h0, hq⟩, hend⟩ := recvLine_requestLine_of hnl
  have hexit : isExitRequest (template ++ q) = false := by
    rw [isExitRequest, type_behind h0]
    decide
  rw [sendSql, hs]
  rw [hq] at hresp
  exact exchange_response (Prod.ext hq rfl) (List.append_ne_nil_of_left_ne_nil (by decide) _) hexit
    hend hresp hclean

/-- **`send_sql` gets the answer to what the server takes of the text**, cut to the buffer. -/
theorem sendSql_run {disk : Disk} (h : s.Runs disk) (hs : s.running = true) (hnl : '\n' ∉ sql)
    (hne : received sql ≠ []) (hrun : s.executor.run (received sql) = some (r, executor)) :
    sendSql s sql = some ((serializeExecResult r).take (maxMsg - 1), { executor }) := by
  have hreach := h.reaches hs
  have hwf := Executor.wellFormed_of_reaches hreach
  obtain ⟨stmt, hparse, hexec, -⟩ := Executor.run_moves hwf hrun
  have hanswer := Executor.cleanAnswer_of_execute hwf
    (Executor.cells_clean (hreach.mono fun _ _ hok => hok.1)) (parse_reported hparse) hexec
  exact sendSql_running hs hnl (response_run hwf hne hrun) (isLine_answer hanswer)

/-- Nothing is taken of a text that starts with a quote, or is too long. -/
theorem sendSql_nothing (hs : s.running = true) (hnl : '\n' ∉ sql) (hnil : received sql = []) :
    sendSql s sql = some (serializeError "Invalid request: missing 'sql' field".toList, s) := by
  have hresp : response s.executor (recvLine (sendLine (requestLine sql))).1
      = some (serializeError "Invalid request: missing 'sql' field".toList, s.executor) := by
    rw [response]
    exact if_pos (by simpa [received] using hnil)
  have hsend := sendSql_running hs hnl hresp (isLine_serializeStatus (by decide) (by decide))
  have hserver : ({ executor := s.executor } : Server) = s := by
    rw [← hs]
  rw [hsend, hserver, List.take_of_length_le (by decide)]

/-- **`send_exit`** gets the goodbye, and the server shuts down. -/
theorem sendExit_running (hs : s.running = true) :
    sendExit s = some (serializeStatus "ok".toList "goodbye".toList, .behind false s.executor) := by
  have hline : recvLine (sendLine exitRequest) = (exitRequest, []) := by decide +kernel
  have hsent : (recvLine (sendLine (serializeStatus "ok".toList "goodbye".toList))).1
      = serializeStatus "ok".toList "goodbye".toList := by decide +kernel
  have hexit : isExitRequest exitRequest = true := by decide +kernel
  have hempty : exitRequest.isEmpty = false := rfl
  rw [sendExit, hs, exchange, serveClient]
  simp only [serveLoop, hline, hempty, hexit, sendLineOver, Bool.false_eq_true, if_false, if_true,
    Option.bind_eq_bind, Option.bind_some, List.headD_nil, List.tail_nil, reduceCtorEq,
    Option.pure_def, goodbye, hsent]
  rfl

end ComesBack

end MiniDB.Network

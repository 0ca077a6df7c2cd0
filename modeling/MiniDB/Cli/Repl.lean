import MiniDB.Network.Client
import Mathlib.Data.List.DropRight

/-!
# Cli/Repl — clients at their prompts

Each client reads its own input, line by line, and the server is one for all of them: a turn is one
round of the loop of one client, and the turns may come in any order.  A client that leaves stops
the server, and the others are told that they cannot connect.

The shell is the same loop without a network: it runs what the server would take of a line and
prints the result.  **`repls_agree`**: whatever is typed and whoever's turn it is, the clients print
what the shell prints, as long as the columns of the answers fit the buffer.
-/

namespace MiniDB.Cli

open MiniDB.Core MiniDB.Parser MiniDB.Storage MiniDB.Execution MiniDB.Network Machine

/-! ## The loop of a client -/

/-- `MAX_INPUT`. -/
def maxInput : Nat := 8192

/-- `read_line`: a line of the input, without the line breaks at its end. -/
def readLine (stdin : Text) : Option (Text × Text) :=
  (fgets maxInput stdin).map fun (buf, stdin) =>
    ((cString buf).rdropWhile fun c => c == '\n' || c == '\r', stdin)

def println (line : Text) : Text := line ++ ['\n']

def prompt : Text := "minidb> ".toList

def helpText : Text :=
  ["Commands:", "  <SQL>  — send SQL statement to server", "  exit   — quit",
    "  help   — show this message", "", "Supported SQL:", "  create database <name>",
    "  drop database <name>", "  use <name>",
    "  create table <name> (<col> <type> [primary], ...)", "  drop table <name>",
    "  select <col> from <table> [where <cond>]", "  delete from <table> [where <cond>]",
    "  insert into <table> values (<val>, ...)",
    "  update <table> set <col> = <val> [where <cond>]"].flatMap fun line => println line.toList

def isLeave (input : Text) : Bool := input == "exit".toList || input == "quit".toList

/-- What is printed for the answer to an exit request. -/
def goodbyeText (resp : Text) : Except Fault Text := do
  if resp.isEmpty then return []
  let msg ← valueBehind (cString resp) "\"message\":\"".toList
  return msg.elim [] println

/-- One line: what is printed, and whether the client stays connected. -/
def handleLine (s : Server) (input : Text) : Option (Text × Bool × Server) :=
  if input.isEmpty then some ([], true, s)
  else if isLeave input then do
    let (resp, s) ← sendExit s
    let text ← (goodbyeText resp).toOption
    return (text, false, s)
  else if input == "help".toList then some (helpText, true, s)
  else do
    let (response, s) ← sendSql s input
    if response.isEmpty then
      return (println "ERROR: No response from server. Connection may be lost.".toList, false, s)
    else
      let lines ← (displayResponse response).toOption
      return (lines.flatMap println, true, s)

/-- A client: its input, and whether its loop goes on. -/
structure Repl where
  stdin : Text
  connected : Bool := true
  deriving DecidableEq, Repr

/-- The server, and the clients. -/
structure System (Client : Type) where
  server : Server
  repls : Client → Repl

namespace System

variable {Client : Type} [DecidableEq Client]

def start (disk : Disk) (stdins : Client → Text) : System Client :=
  { server := .start disk, repls := fun c => { stdin := stdins c } }

/-- A round of the loop of one client, and what it prints. -/
def step (handle : Server → Text → Option (Text × Bool × Server)) (y : System Client) (c : Client) :
    Option (Text × System Client) :=
  if !(y.repls c).connected then some ([], y)
  else
    match readLine (y.repls c).stdin with
    | none =>
      some (prompt ++ println "Goodbye.".toList,
        { y with repls := Function.update y.repls c { y.repls c with connected := false } })
    | some (input, stdin) => do
      let (text, connected, server) ← handle y.server input
      let behind := if connected then [] else println "Goodbye.".toList
      return (prompt ++ text ++ behind,
        { server, repls := Function.update y.repls c { stdin, connected } })

end System

/-! ## The shell -/

/-- One line, without a network. -/
def shellLine (s : Server) (input : Text) : Option (Text × Bool × Server) :=
  if input.isEmpty then some ([], true, s)
  else if isLeave input then
    if s.running then some (println "goodbye".toList, false, .behind false s.executor)
    else some ([], false, s)
  else if input == "help".toList then some (helpText, true, s)
  else if !s.running then some (println "ERROR: Failed to connect to server".toList, true, s)
  else if (received input).isEmpty then
    some (println "ERROR: Invalid request: missing 'sql' field".toList, true, s)
  else do
    let (r, executor) ← s.executor.run (received input)
    return ((printedLines r).flatMap println, true, { executor })

/-- The columns of the answer to the next line fit the buffer of the client. -/
def Fits {Client : Type} (y : System Client) (c : Client) : Prop :=
  ∀ line ∈ readLine (y.repls c).stdin, ∀ result ∈ y.server.executor.run (received line.1),
    (headText result.1).length ≤ maxMsg - 1

instance {Client : Type} (y : System Client) (c : Client) : Decidable (Fits y c) :=
  inferInstanceAs (Decidable (∀ line ∈ readLine _, ∀ result ∈ _, _))

/-! ## One line -/

section Line

variable {disk : Disk} {s : Server} {input stdin rest : Text}

/-- A line that is read holds no newline. -/
theorem notMem_readLine (h : readLine stdin = some (input, rest)) : '\n' ∉ input := by
  obtain ⟨⟨buf, rest'⟩, hread, heq⟩ := Option.map_eq_some_iff.mp h
  rw [fgets] at hread
  split at hread
  · cases hread
  cases heq
  obtain ⟨line, hline, hpre⟩ := Scan.chunk_spec '\n' (maxInput - 1) stdin
  rw [Option.some.inj hread] at hpre
  intro hmem
  have htrim := (List.rdropWhile_prefix (fun c => c == '\n' || c == '\r')
    (l := cString buf)).trans ((List.takeWhile_prefix _).trans hpre)
  -- a prefix that holds the newline is the whole line, and ends with it
  rcases List.prefix_concat_iff.mp htrim with hall | hpart
  · have hlast := List.rdropWhile_last_not (fun c => c == '\n' || c == '\r') (cString buf)
      (List.ne_nil_of_mem hmem)
    simp only [hall, List.getLast_concat] at hlast
    exact hlast rfl
  · exact hline (hpart.subset hmem)

/-- What the client prints of an answer that is not empty. -/
theorem handleLine_sql {resp : Text} {lines : List Text} {s' : Server} (hne : input.isEmpty = false)
    (hleave : isLeave input = false) (hhelp : (input == "help".toList) = false)
    (hsend : sendSql s input = some (resp, s')) (hresp : resp ≠ [])
    (hlines : displayResponse resp = .ok lines) :
    handleLine s input = some (lines.flatMap println, true, s') := by
  have hempty : resp.isEmpty = false := by simpa using hresp
  rw [handleLine, hne, hleave, hhelp]
  simp only [Bool.false_eq_true, if_false, hsend, Option.bind_eq_bind, Option.bind_some, hempty,
    hlines]
  rfl

/-- A client that leaves stops the server, unless it has stopped. -/
theorem handleLine_leave (hne : input.isEmpty = false) (hleave : isLeave input = true) :
    handleLine s input = if s.running then
        some (println "goodbye".toList, false, .behind false s.executor)
      else some ([], false, s) := by
  rw [handleLine, hne, hleave]
  cases hs : s.running with
  | false =>
    simp only [Bool.false_eq_true, if_false, if_true, sendExit, hs, Bool.not_false,
      Option.bind_eq_bind, Option.bind_some]
    rfl
  | true =>
    have hbye : goodbyeText (serializeStatus "ok".toList "goodbye".toList)
        = .ok (println "goodbye".toList) := by decide +kernel
    simp only [Bool.false_eq_true, if_false, if_true, sendExit_running hs, Option.bind_eq_bind,
      Option.bind_some, hbye]
    rfl

/-- Nobody listens. -/
theorem handleLine_stopped (hs : s.running = false) (hne : input.isEmpty = false)
    (hleave : isLeave input = false) (hhelp : (input == "help".toList) = false) :
    handleLine s input
      = some (println "ERROR: Failed to connect to server".toList, true, s) := by
  have hsend : sendSql s input = some (failedToConnect, s) := if_pos (by rw [hs]; rfl)
  have hlines : displayResponse failedToConnect
      = .ok ["ERROR: Failed to connect to server".toList] := by decide +kernel
  rw [handleLine_sql hne hleave hhelp hsend (by decide) hlines, List.flatMap_singleton]

/-- Nothing arrives. -/
theorem handleLine_nothing (hs : s.running = true) (hnl : '\n' ∉ input)
    (hne : input.isEmpty = false) (hleave : isLeave input = false)
    (hhelp : (input == "help".toList) = false)
    (hnil : received input = []) : handleLine s input
      = some (println "ERROR: Invalid request: missing 'sql' field".toList, true, s) := by
  have hlines : displayResponse (serializeError "Invalid request: missing 'sql' field".toList)
      = .ok ["ERROR: Invalid request: missing 'sql' field".toList] := by decide +kernel
  rw [handleLine_sql hne hleave hhelp (sendSql_nothing hs hnl hnil) (by decide) hlines,
    List.flatMap_singleton]

/-- A statement is run, and its result is printed. -/
theorem handleLine_run {r : ExecResult} {executor : Executor} (h : s.Runs disk)
    (hs : s.running = true) (hnl : '\n' ∉ input) (hne : input.isEmpty = false)
    (hleave : isLeave input = false) (hhelp : (input == "help".toList) = false)
    (hsql : received input ≠ []) (hrun : s.executor.run (received input) = some (r, executor))
    (hfits : (headText r).length ≤ maxMsg - 1) :
    handleLine s input = some ((printedLines r).flatMap println, true, { executor }) := by
  have hreach := h.reaches hs
  have hwf := Executor.wellFormed_of_reaches hreach
  obtain ⟨stmt, hparse, hexec, -⟩ := Executor.run_moves hwf hrun
  refine handleLine_sql hne hleave hhelp (sendSql_run h hs hnl hsql hrun) ?_ ?_
  · have hsome := (IsResponse.execResult r).ne_nil
    rw [ne_eq, List.take_eq_nil_iff, not_or]
    exact ⟨by decide, hsome⟩
  · exact displayResponse_execute hwf (Executor.cells_clean (hreach.mono fun _ _ hok => hok.1))
      (Executor.cells_bare (hreach.mono fun _ _ hok => hok.2)) (parse_reported hparse) hexec hfits

/-- **On a line without newlines the client does what the shell does**, when the columns of the
answer fit. -/
theorem handleLine_eq (h : s.Runs disk) (hnl : '\n' ∉ input)
    (hfits : ∀ result ∈ s.executor.run (received input), (headText result.1).length ≤ maxMsg - 1) :
    ∃ text connected s', shellLine s input = some (text, connected, s') ∧
      handleLine s input = some (text, connected, s') ∧ s'.Runs disk := by
  cases hne : input.isEmpty with
  | true => exact ⟨[], true, s, by simp [shellLine, hne], by simp [handleLine, hne], h⟩
  | false =>
  cases hleave : isLeave input with
  | true =>
    rw [handleLine_leave hne hleave, shellLine, hne, hleave]
    cases hs : s.running with
    | false => exact ⟨_, _, _, rfl, rfl, h⟩
    | true => exact ⟨_, _, _, rfl, rfl, _, h.reaches hs, rfl⟩
  | false =>
  cases hhelp : input == "help".toList with
  | true =>
    refine ⟨helpText, true, s, ?_, ?_, h⟩
    · rw [shellLine, hne, hleave, hhelp]
      rfl
    · rw [handleLine, hne, hleave, hhelp]
      rfl
  | false =>
  cases hs : s.running with
  | false =>
    refine ⟨_, _, _, ?_, handleLine_stopped hs hne hleave hhelp, h⟩
    rw [shellLine, hne, hleave, hhelp, hs]
    rfl
  | true =>
  by_cases hsql : received input = []
  · refine ⟨_, _, _, ?_, handleLine_nothing hs hnl hne hleave hhelp hsql, h⟩
    rw [shellLine, hne, hleave, hhelp, hs, hsql]
    rfl
  · have hreach := h.reaches hs
    obtain ⟨r, executor, hrun⟩ : ∃ r executor,
        s.executor.run (received input) = some (r, executor) := by
      obtain ⟨stmt, hparse⟩ := parse_defined (received input)
      obtain ⟨r, executor, hexec, -⟩ := Executor.execute_moves
        (Executor.wellFormed_of_reaches hreach) (parse_wellFormed hparse)
      exact ⟨r, executor, by rw [Executor.run_of_parse hparse, hexec]⟩
    refine ⟨_, _, _, ?_, handleLine_run h hs hnl hne hleave hhelp hsql hrun (hfits _ hrun), ?_⟩
    · have hempty : (received input).isEmpty = false := by simpa using hsql
      rw [shellLine, hne, hleave, hhelp, hs, hempty]
      simp only [Bool.false_eq_true, if_false, Bool.not_true, hrun, Option.bind_eq_bind,
        Option.bind_some, Option.pure_def]
    · have hclean := parseRequestSql_clean (isLine_recvLine (sendLine (requestLine input)))
      exact ⟨executor, hreach.step hclean hrun, rfl⟩

end Line

/-! ## All turns -/

section Turns

variable {Client : Type} [DecidableEq Client] {disk : Disk} {y : System Client} {c : Client}

/-- **A turn of a client is a turn of the shell.** -/
theorem System.step_eq (h : y.server.Runs disk) (hfits : Fits y c) :
    ∃ text y', y.step shellLine c = some (text, y') ∧ y.step handleLine c = some (text, y') ∧
      y'.server.Runs disk := by
  simp only [System.step]
  by_cases hc : (y.repls c).connected
  case neg =>
    simp only [hc, Bool.not_false, if_true]
    exact ⟨_, _, rfl, rfl, h⟩
  simp only [hc, Bool.not_true, Bool.false_eq_true, if_false]
  cases hread : readLine (y.repls c).stdin with
  | none => exact ⟨_, _, rfl, rfl, h⟩
  | some line =>
    obtain ⟨input, stdin⟩ := line
    have hcolumns : ∀ result ∈ y.server.executor.run (received input),
        (headText result.1).length ≤ maxMsg - 1 := hfits (input, stdin) hread
    obtain ⟨text, connected, s', hshell, hclient, hs'⟩ :=
      handleLine_eq h (notMem_readLine hread) hcolumns
    simp only [hshell, hclient, Option.bind_eq_bind, Option.bind_some]
    exact ⟨_, _, rfl, rfl, hs'⟩

end Turns

/-- **The clients print what the shell prints**, whatever they type and whoever's turn it is: each
line is executed once, in the order of the turns, its result is printed to the client that typed it,
and the server ends where the shell does. -/
theorem repls_agree {Client : Type} [DecidableEq Client] (disk : Disk) (stdins : Client → Text)
    (turns : List Client) (h : Along (System.step shellLine) Fits (.start disk stdins) turns) :
    ∃ printed y, exec (System.step shellLine) (.start disk stdins) turns = some (printed, y) ∧
      exec (System.step handleLine) (.start disk stdins) turns = some (printed, y) ∧
      y.server.Runs disk :=
  exec_agree (fun hruns hfits => System.step_eq hruns hfits) h (Server.runs_start disk)

/-- A client inserts a row while another looks for it, and leaves. -/
theorem repls_agree_two : ∃ printed y,
    exec (System.step handleLine) (.start {} (fun first : Bool => if first then
      "use d\ncreate table t (a int)\nselect a from t\n".toList
      else "insert into t values (1)\nexit\n".toList)) [true, true, false, true, false, true]
      = some (printed, y) := by
  obtain ⟨printed, y, -, hclients, -⟩ := repls_agree {} (fun first : Bool => if first then
      "use d\ncreate table t (a int)\nselect a from t\n".toList
      else "insert into t values (1)\nexit\n".toList) [true, true, false, true, false, true]
    (by decide +kernel)
  exact ⟨printed, y, hclients⟩

end MiniDB.Cli

import MiniDB.Network.Display
import MiniDB.Network.Framing
import MiniDB.Parser.Contract

/-!
# Network/Errors — an error on its way to the user

The serializer copies a message between two quotes, and the client cuts it at the first quote; what
comes out is the message as long as it is a report (`IsReport`).  Every message of the three stages
is one: the lexer quotes a single character, which is neither a quote nor blank, the parser quotes
nothing, and the executor quotes names and numbers.

**`error_reported`**: the client prints the message a stage failed with.
-/

namespace MiniDB.Network

open MiniDB.Core MiniDB.Parser MiniDB.Storage MiniDB.Execution

/-- A stage fails on a text with a message: the lexer, the parser or the executor. -/
inductive FailsWith (e : Executor) (sql : Text) : Text → Prop
  | lexer (h : (Lexer.tokenize sql).2.hasError = true) :
    FailsWith e sql (Lexer.tokenize sql).2.errorMsg
  | parser {stmt : SQLStatement} (h : parse sql = some stmt) (hkind : stmt.kind = .invalid) :
    FailsWith e sql stmt.errorMsg
  | executor {stmt : SQLStatement} {r : ExecResult} {e' : Executor} (h : parse sql = some stmt)
      (hexec : e.execute stmt = some (r, e')) (herr : r.status = .error) :
    FailsWith e sql r.message

/-! ## The messages of the executor -/

section Executor

open Executor

variable {e : Executor} {n before after : Text}

theorem isLine_of_isReport {m : Text} (h : IsReport m) : IsLine m :=
  ⟨h.notMem rfl, h.notMem rfl, h.notMem rfl⟩

/-- An error is a report. -/
def Reports (r : ExecResult) : Prop := r.status = .error → IsReport r.message

theorem reports_error {msg : Text} (h : IsReport msg) : Reports (.error msg) := fun _ => by
  rw [ExecResult.error, cString_of_notMem (isLine_of_isReport h).2.2]
  exact h

theorem reports_ok {msg : Text} : Reports (.ok msg) := fun h => by cases h

theorem reports_noDatabase : ∀ msg ∈ noDatabase, Reports (.error msg) := by
  refine List.forall_mem_cons.mpr ⟨reports_error ⟨by decide, by decide⟩, ?_⟩
  exact List.forall_mem_singleton.mpr (reports_error ⟨by decide, by decide⟩)

theorem isClean_name (h : IsName n) : n.all isClean = true :=
  List.all_eq_true.mpr fun c hc => isClean_of_isIdentChar (h.2 c hc)

theorem isReport_nameMessage (h : IsName n) (hbefore : before.all isClean = true)
    (hafter : after.all isClean = true) : IsReport (nameMessage before n after) := by
  refine isReport_snprintf le_rfl (by decide) ?_
  rw [cString_of_notMem h.noNul, List.all_append, List.all_append, hbefore, isClean_name h, hafter]
  rfl

theorem reports_noTable (h : IsName n) : Reports (noTable n) :=
  reports_error (isReport_nameMessage h (by decide) (by decide))

theorem reports_noColumn {col : Text} (hcol : IsName col) (h : IsName n) :
    Reports (noColumn col n) := by
  refine reports_error (isReport_snprintf le_rfl (by decide) ?_)
  simp only [cString_of_notMem h.noNul, cString_of_notMem hcol.noNul, List.all_append,
    Bool.and_eq_true]
  exact ⟨⟨⟨⟨by decide, isClean_name hcol⟩, by decide⟩, isClean_name h⟩, by decide⟩

/-- The condition names a column, when there is one. -/
theorem reports_noWhere {hasWhere : Bool} {cond : WhereClause} {missing : Bool}
    (hwhere : hasWhere = true → cond.WellFormed ∧ IsOperator cond.op) (h : IsName n)
    (hmiss : (hasWhere && missing) = true) : Reports (noColumn cond.column n) :=
  reports_noColumn (hwhere (Bool.and_eq_true_iff.mp hmiss).1).1.name h

theorem isClean_intText (n : Int) : (intText n).all isClean = true := by
  refine List.all_eq_true.mpr fun c hc => ?_
  rcases mem_intText hc with rfl | hdigit
  · rfl
  · exact isClean_of_isDigit hdigit

/-- **Each handler reports its errors**, on the statements the parser returns. -/
theorem reports_execute {stmt : SQLStatement} (h : Denoted stmt ∨ stmt.Reported) :
    Ends (fun r _ => Reports r) (e.execute stmt) := by
  rcases h with h | h
  case inr =>
    rw [execute, h.1.1]
    refine ends_some (reports_error ?_)
    rw [if_neg (by simpa using h.1.2)]
    exact h.2
  cases h with
  | createDatabase hn =>
    exact ends_ite (fun _ => ends_some (reports_error (isReport_nameMessage hn (by decide)
      (by decide)))) fun _ => ends_some reports_ok
  | dropDatabase hn =>
    refine ends_ite (fun _ => ends_bind fun _ _ => ?_) fun _ => ?_
    all_goals
      exact ends_ite (fun _ => ends_some (reports_error (isReport_nameMessage hn (by decide)
        (by decide)))) fun _ => ends_some reports_ok
  | use hn => exact ends_some reports_ok
  | createTable hn =>
    exact ends_withDb reports_noDatabase fun _ _ => ends_ite (fun _ => ends_some (reports_error
      (isReport_nameMessage hn (by decide) (by decide)))) fun _ => ends_some reports_ok
  | dropTable hn =>
    exact ends_withDb reports_noDatabase fun _ _ => ends_bind fun _ _ =>
      ends_ite (fun _ => ends_some (reports_noTable hn)) fun _ => ends_some reports_ok
  | select hn hcol hwhere =>
    refine ends_withTable reports_noDatabase (reports_noTable hn) fun _ _ t =>
      ends_ite (fun hmiss => ends_some ?_) fun _ =>
      ends_ite (fun hmiss => ends_some (reports_noWhere hwhere hn hmiss)) fun _ => ?_
    · simp only [Bool.and_eq_true, Bool.not_eq_true', beq_eq_false_iff_ne] at hmiss
      exact reports_noColumn (hcol.resolve_left hmiss.1) hn
    · exact ends_bind fun _ _ => ends_bind fun _ _ => ends_some reports_ok
  | delete hn hwhere =>
    refine ends_withTable reports_noDatabase (reports_noTable hn) fun _ _ t => ends_bind fun _ _ =>
      ends_ite (fun hmiss => ends_some (reports_noWhere hwhere hn hmiss)) fun _ => ?_
    exact ends_bind fun _ _ => ends_some reports_ok
  | insert hn =>
    refine ends_withTable reports_noDatabase (reports_noTable hn) fun _ _ t =>
      ends_ite (fun _ => ends_some (reports_error ?_)) fun _ => ?_
    · refine isReport_snprintf le_rfl (by decide) ?_
      simp only [List.all_append, Bool.and_eq_true]
      exact ⟨⟨⟨by decide, isClean_natText _⟩, by decide⟩, isClean_natText _⟩
    · refine ends_bind fun _ _ => ends_bind fun _ _ => ends_bind fun found _ =>
        ends_ite (fun _ => ends_some (reports_error ?_)) fun _ => ?_
      · refine isReport_snprintf (by decide) (by decide) ?_
        rw [List.all_append, isClean_intText]
        decide
      · exact ends_bind fun _ _ => ends_some reports_ok
  | update hn hcol hlit _ hwhere =>
    refine ends_withTable reports_noDatabase (reports_noTable hn) fun _ _ t => ?_
    split
    · exact ends_some (reports_noColumn hcol hn)
    · refine ends_ite (fun hmiss => ends_some (reports_noWhere hwhere hn hmiss)) fun _ => ?_
      exact ends_bind fun _ _ => ends_bind fun _ _ => ends_some reports_ok

end Executor

/-! ## The way to the user -/

section Way

variable {e : Executor} {sql m : Text}

/-- **Every message of the three stages is a report.** -/
theorem FailsWith.isReport (h : FailsWith e sql m) : IsReport m := by
  cases h with
  | lexer herr =>
    obtain ⟨c, rest, hstuck, h0, hmsg⟩ := Lexer.tokenize_errorMsg herr
    rw [hmsg]
    exact isReport_stuckMessage hstuck h0
  | parser hparse hkind =>
    exact ((parse_reported hparse).resolve_left fun h => h.valid.1 hkind).2
  | executor hparse hexec herr => exact reports_execute (parse_reported hparse) hexec herr

theorem serializeError_eq (h : IsReport m) :
    serializeError m = opening "error".toList (m ++ ['"', '\x7d']) := by
  rw [serializeError, serializeStatus_eq (by decide), cString_of_notMem (isLine_of_isReport h).2.2]

theorem isLine_serializeError (h : IsReport m) : IsLine (serializeError m) := by
  rw [serializeError_eq h, opening]
  simp [isLine_of_isReport h]

/-- The response leaves room in the client's buffer. -/
theorem recvLine_serializeError (h : IsReport m) (rest : Text) :
    recvLine (sendLine (serializeError m) ++ rest) = (serializeError m, rest) := by
  have hlen : (serializeError m).length < maxMsg - 1 := by
    have hshort := h.short
    rw [serializeError_eq h]
    simp [opening, maxMsg]
    omega
  rw [recvLine_sendLine (isLine_serializeError h), if_pos hlen, List.take_of_length_le hlen.le]

/-- The client finds the status, and then the message up to its closing quote. -/
theorem displayResponse_serializeError (h : IsReport m) :
    displayResponse (serializeError m) = .ok ["ERROR: ".toList ++ m] := by
  have hstatus : Closes (serializeError m) "\"status\":\"".toList "error".toList
      (",\"message\":\"".toList ++ (m ++ ['"', '\x7d'])) := by
    rw [serializeError_eq h]
    exact ⟨rfl, by decide⟩
  have hmessage : Closes (serializeError m) "\"message\":\"".toList m ['\x7d'] := by
    rw [serializeError_eq h]
    exact ⟨rfl, h.noQuote⟩
  rw [displayResponse, cString_of_notMem (isLine_serializeError h).2.2]
  simp only [valueBehind_closes hstatus, valueBehind_closes hmessage, ok_bind, beq_self_eq_true,
    if_true]
  rfl

end Way

/-- **The client prints the message a stage failed with**, whatever the text and the state: it holds
no quote and no line break, and its response arrives. -/
theorem error_reported {e : Executor} {sql m : Text} (h : FailsWith e sql m) (rest : Text) :
    ('"' ∉ m ∧ '\r' ∉ m ∧ '\n' ∉ m) ∧
      displayResponse (recvLine (sendLine (serializeError m) ++ rest)).1
        = .ok ["ERROR: ".toList ++ m] := by
  have hreport := h.isReport
  have hline := isLine_of_isReport hreport
  refine ⟨⟨hreport.noQuote, hline.1, hline.2.1⟩, ?_⟩
  rw [recvLine_serializeError hreport]
  exact displayResponse_serializeError hreport

/-- Without a database no table is dropped. -/
theorem error_reported_drop :
    displayResponse (recvLine (sendLine (serializeError
      "No database selected. Use 'use <dbname>' first.".toList) ++ [])).1
      = .ok ["ERROR: No database selected. Use 'use <dbname>' first.".toList] := by
  have hparse : parse "drop table t".toList
      = some { kind := .dropTable, dropTable := { tableName := ['t'] } } := by decide +kernel
  have hexec : (Executor.new "data".toList {}).execute
      { kind := .dropTable, dropTable := { tableName := ['t'] } }
      = some (.error "No database selected. Use 'use <dbname>' first.".toList,
          Executor.new "data".toList {}) := rfl
  exact (error_reported (.executor hparse hexec rfl) []).2

end MiniDB.Network

import MiniDB.Network.Protocol

/-!
# Network/Request — the statement the server executes

Neither side escapes: the client copies the SQL text between two quotes, and the server cuts it at
the first quote it meets.  So the server takes the text up to the first quote
(`parseRequestSql_requestLine`), and that is the text exactly when there is none — no statement with
a string literal arrives whole.

**`sql_recovered_iff`**: a text that can be sent is recovered exactly when it holds no quote.
-/

namespace MiniDB.Network

open MiniDB.Core

/-- What the request says in front of the SQL text. -/
def template : Text := "\x7b\"type\":\"sql\",\"sql\":\"".toList

/-- A text the client can send: a C string without line breaks, whose request fits the buffer. -/
structure Sendable (sql : Text) : Prop where
  noNul : '\x00' ∉ sql
  noNewline : '\n' ∉ sql
  noReturn : '\r' ∉ sql
  fits : (template ++ sql ++ "\"\x7d".toList).length < maxMsg

/-! ## Values -/

/-- **The value behind a key** is what stands in front of the next quote. -/
theorem jsonGetString_eq {json key pattern value rest : Text} (h0 : '\x00' ∉ json)
    (hpattern : snprintf 256 ('"' :: cString key ++ "\":\"".toList) = pattern)
    (hfind : strstr json pattern = some (pattern ++ (value ++ '"' :: rest)))
    (hvalue : '"' ∉ value) : jsonGetString json key = value := by
  have htake : (value ++ '"' :: rest).length - ('"' :: rest).length = value.length := by simp
  rw [jsonGetString, cString_of_notMem h0]
  simp only [hpattern, hfind, List.drop_left, strchr_append hvalue, htake, List.take_left]

/-- A text in front of a quote has a first quote behind it. -/
theorem exists_first_quote (s tail : Text) :
    ∃ rest, s ++ '"' :: tail = s.takeWhile (· != '"') ++ '"' :: rest := by
  induction s with
  | nil => exact ⟨tail, rfl⟩
  | cons c s ih =>
    obtain ⟨rest, hrest⟩ := ih
    by_cases hc : c = '"'
    · exact ⟨s ++ '"' :: tail, by simp [hc]⟩
    · exact ⟨rest, by simp [hc, hrest]⟩

section Sendable

variable {sql : Text} (h : Sendable sql)

include h

theorem requestLine_eq : requestLine sql = template ++ sql ++ "\"\x7d".toList := by
  rw [requestLine, cString_of_notMem h.noNul]
  exact snprintf_of_lt h.fits

/-- The request is a line without line breaks and NUL. -/
theorem requestLine_clean :
    '\x00' ∉ requestLine sql ∧ '\n' ∉ requestLine sql ∧ '\r' ∉ requestLine sql := by
  have hframe : ∀ c ∈ ['\x00', '\n', '\r'], c ∉ template ∧ c ∉ "\"\x7d".toList := by
    simp only [List.forall_mem_cons]
    exact ⟨by decide, by decide, by decide, by simp⟩
  rw [requestLine_eq h]
  simp only [List.mem_append, not_or]
  exact ⟨⟨⟨(hframe _ (by simp)).1, h.noNul⟩, (hframe _ (by simp)).2⟩,
    ⟨⟨(hframe _ (by simp)).1, h.noNewline⟩, (hframe _ (by simp)).2⟩,
    ⟨(hframe _ (by simp)).1, h.noReturn⟩, (hframe _ (by simp)).2⟩

/-- The request arrives as it was sent. -/
theorem recvLine_requestLine : (recvLine (sendLine (requestLine sql))).1 = requestLine sql := by
  obtain ⟨h0, hnl, hcr⟩ := requestLine_clean h
  have hlen : (requestLine sql).length ≤ maxMsg - 1 := by
    have := h.fits
    rw [requestLine_eq h]
    omega
  rw [sendLine, cString_of_notMem h0, recvLine, recvLoop_line [] hnl hcr hlen]
  exact cString_of_notMem h0

theorem type_requestLine : jsonGetString (requestLine sql) "type".toList = "sql".toList := by
  have hfind : strstr (requestLine sql) "\"type\":\"".toList = some ("\"type\":\"".toList ++
      ("sql".toList ++ '"' :: (",\"sql\":\"".toList ++ sql ++ "\"\x7d".toList))) := by
    rw [requestLine_eq h]
    rfl
  exact jsonGetString_eq (requestLine_clean h).1 (by decide) hfind (by decide)

/-- **The server takes the text up to the first quote.** -/
theorem parseRequestSql_requestLine :
    parseRequestSql (requestLine sql) = sql.takeWhile (· != '"') := by
  obtain ⟨rest, hrest⟩ := exists_first_quote sql ['\x7d']
  have hfind : strstr (requestLine sql) "\"sql\":\"".toList = some ("\"sql\":\"".toList ++
      (sql.takeWhile (· != '"') ++ '"' :: rest)) := by
    rw [← hrest, requestLine_eq h, List.append_assoc]
    rfl
  have hvalue : '"' ∉ sql.takeWhile (· != '"') := fun hq => by
    simpa using List.mem_takeWhile_imp hq
  rw [parseRequestSql, type_requestLine h, if_neg (by decide)]
  exact jsonGetString_eq (requestLine_clean h).1 (by decide) hfind hvalue

/-- The request is read as a statement. -/
theorem serverReads_requestLine :
    serverReads (sendLine (requestLine sql)) = some (parseRequestSql (requestLine sql)) := by
  have hne : (requestLine sql).isEmpty = false := by
    rw [requestLine_eq h]
    rfl
  have hexit : isExitRequest (requestLine sql) = false := by
    rw [isExitRequest, type_requestLine h]
    decide
  rw [serverReads, recvLine_requestLine h]
  simp only [hne, hexit, Bool.or_self, Bool.false_eq_true, if_false]

end Sendable

/-- **A text is recovered exactly when it holds no quote**, by the decoder and at the end of a
connection. -/
theorem sql_recovered_iff {sql : Text} (h : Sendable sql) :
    (parseRequestSql (requestLine sql) = sql ↔ '"' ∉ sql) ∧
      (serverReads (sendLine (requestLine sql)) = some sql ↔ '"' ∉ sql) := by
  have hiff : sql.takeWhile (· != '"') = sql ↔ '"' ∉ sql := by
    rw [List.takeWhile_eq_self_iff]
    refine ⟨fun hall hq => by simpa using hall _ hq, fun hq c hc => ?_⟩
    simpa using fun e : c = '"' => hq (e ▸ hc)
  rw [serverReads_requestLine h, parseRequestSql_requestLine h, Option.some_inj]
  exact ⟨hiff, hiff⟩

theorem sql_recovered_use :
    serverReads (sendLine (requestLine "use d".toList)) = some "use d".toList :=
  (sql_recovered_iff ⟨by decide, by decide, by decide, by decide⟩).2.mpr (by decide)

/-- A condition on a string loses its constant. -/
theorem quoted_sql_cut : Sendable "delete from t where a > \"x\"".toList ∧
    parseRequestSql (requestLine "delete from t where a > \"x\"".toList)
      ≠ "delete from t where a > \"x\"".toList :=
  ⟨⟨by decide, by decide, by decide, by decide⟩, by decide +kernel⟩

end MiniDB.Network

import MiniDB.Core.Numerals
import MiniDB.Execution.Frame
import MiniDB.Execution.Reachable
import MiniDB.Machinery.Json
import MiniDB.Network.Protocol

/-!
# Network/Response — what the client can read of an answer

A response is put together from fragments: a fragment starts with a comma when the character before
it asks for one.  A column is built in a buffer of its own, whose first character is then dropped as
if it were an opening brace; it is the opening quote.  So an answer with a table is no JSON text,
whatever is in the table.  Without a table a response is JSON as long as its message needs no
escape, for nothing is escaped.

**`reads_back_iff`**: an answer is read back exactly when its message is plain and it has no table.
-/

namespace MiniDB.Network

open MiniDB.Core MiniDB.Storage MiniDB.Execution

/-! ## The serializers -/

/-- The comma in front of a fragment, unless it comes first or behind a brace or a comma. -/
def appendCommaIfNeeded (out : Text) : Text :=
  match out.getLast? with
  | none => out
  | some c => if c != '\x7b' && c != ',' then out ++ [','] else out

/-- `"key":"value"`. -/
def jsonAppendKv (out key value : Text) : Text :=
  appendCommaIfNeeded out ++ '"' :: cString key ++ "\":\"".toList ++ cString value ++ ['"']

/-- `"key":value`. -/
def jsonAppendKvInt (out key : Text) (value : Int) : Text :=
  appendCommaIfNeeded out ++ '"' :: cString key ++ "\":".toList ++ intText value

def serializeStatus (status message : Text) : Text :=
  let out := jsonAppendKv ['\x7b'] "status".toList status
  let out := jsonAppendKv out "message".toList message
  out ++ ['\x7d']

def serializeError (message : Text) : Text := serializeStatus "error".toList message

def typeText : ColumnType → Text
  | .int => "int".toList
  | .string => "string".toList

/-- A column: the first character of its name fragment is skipped. -/
def serializeColumn (col : Column) : Text :=
  (jsonAppendKv [] "name".toList col.name).drop 1
    ++ jsonAppendKv [] "type".toList (typeText col.type)

def serializeCell : Value → Text
  | .int n => intText n
  | .string s => '"' :: cString s ++ ['"']
  | .none => "null".toList

def serializeRow (row : Row) : Text := '[' :: [','].intercalate (row.map serializeCell) ++ [']']

/-- The fragments of a table. -/
def appendTable (out : Text) (t : Table) : Text :=
  let out := jsonAppendKvInt (out ++ [',']) "column_count".toList t.columns.length
  let out := jsonAppendKvInt out "row_count".toList t.rows.length
  out ++ ",\"columns\":[".toList ++ [','].intercalate (t.columns.map serializeColumn)
    ++ "],\"rows\":[".toList ++ [','].intercalate (t.rows.map serializeRow) ++ "]".toList

def serializeExecResult (r : ExecResult) : Text :=
  match r.status with
  | .error => serializeError r.message
  | .ok =>
    let out := jsonAppendKv ['\x7b'] "status".toList "ok".toList
    let out := jsonAppendKv out "message".toList r.message
    let out :=
      match r.resultTable with
      | none => out
      | some t => if t.columns.isEmpty then out else appendTable out t
    out ++ ['\x7d']

/-! ## What a client reads -/

def statusText : Status → Text
  | .ok => "ok".toList
  | .error => "error".toList

/-- A column, as an object. -/
def columnJson (col : Column) : Json.Value :=
  .object [("name".toList, .string col.name), ("type".toList, .string (typeText col.type))]

def cellJson : Value → Json.Value
  | .int n => .number (intText n)
  | .string s => .string s
  | .none => .null

def rowJson (row : Row) : Json.Value := .array (row.map cellJson)

/-- A decoder of JSON reads the answer back: the status, the message and, with a table, its columns
and its rows. -/
def ReadsBack (r : ExecResult) : Prop :=
  ∃ json, Json.decode (serializeExecResult r) = some json ∧
    json.field "status".toList = some (.string (statusText r.status)) ∧
    json.field "message".toList = some (.string r.message) ∧
    ∀ t, r.resultTable = some t →
      json.field "columns".toList = some (.array (t.columns.map columnJson)) ∧
      json.field "rows".toList = some (.array (t.rows.map rowJson))

/-- UTF-8 without quotes, backslashes and control characters. -/
def Plain (s : Text) : Prop := Json.isPlain .char s = true

/-! ## The text of an answer -/

section Texts

variable {p w status message : Text} {r : ExecResult} {t : Table}

/-- Behind a word without braces and commas a fragment starts with a comma. -/
theorem appendCommaIfNeeded_append (hne : w ≠ []) (hw : ∀ c ∈ w, c ≠ '\x7b' ∧ c ≠ ',') :
    appendCommaIfNeeded (p ++ w) = p ++ w ++ [','] := by
  obtain ⟨hbrace, hcomma⟩ := hw _ (List.getLast_mem hne)
  have hlast : (p ++ w).getLast? = some (w.getLast hne) := by
    rw [List.getLast?_append, List.getLast?_eq_some_getLast hne]
    rfl
  rw [appendCommaIfNeeded, hlast]
  simp [hbrace, hcomma]

/-- What `serialize_status` and `serialize_exec_result` start with, up to the message. -/
def opening (status body : Text) : Text :=
  '\x7b' :: '"' :: ("status".toList ++ '"' :: ':' :: '"' :: (status ++ '"' :: ',' :: '"' ::
    ("message".toList ++ '"' :: ':' :: '"' :: body)))

theorem jsonAppendKv_opening (hstatus : '\x00' ∉ status) :
    jsonAppendKv (jsonAppendKv ['\x7b'] "status".toList status) "message".toList message
      = opening status (cString message ++ ['"']) := by
  have hcomma : appendCommaIfNeeded (jsonAppendKv ['\x7b'] "status".toList status)
      = jsonAppendKv ['\x7b'] "status".toList status ++ [','] :=
    appendCommaIfNeeded_append (List.cons_ne_nil _ _) (List.forall_mem_singleton.mpr (by decide))
  rw [jsonAppendKv, hcomma]
  simp [jsonAppendKv, opening, appendCommaIfNeeded, cString_of_notMem hstatus]
  rfl

theorem opening_append (body tail : Text) :
    opening status body ++ tail = opening status (body ++ tail) := by
  simp [opening]

theorem serializeStatus_eq (hstatus : '\x00' ∉ status) :
    serializeStatus status message = opening status (cString message ++ ['"', '\x7d']) := by
  rw [serializeStatus, jsonAppendKv_opening hstatus, opening_append, List.append_assoc]
  rfl

/-- An answer without columns. -/
theorem serializeExecResult_of_isEmpty (h : ∀ t, r.resultTable = some t → t.columns = []) :
    serializeExecResult r = opening (statusText r.status) (cString r.message ++ ['"', '\x7d']) := by
  rw [serializeExecResult]
  split
  · next herr =>
    rw [herr]
    exact serializeStatus_eq (by decide)
  · next hok =>
    have hclean : '\x00' ∉ "ok".toList := by decide
    simp only [hok, jsonAppendKv_opening hclean]
    split
    · rw [opening_append, List.append_assoc]
      rfl
    · next t ht =>
      simp only [h t ht, List.isEmpty_nil, if_pos]
      rw [opening_append, List.append_assoc]
      rfl

theorem intText_ne_bracket {n : Int} {c : Char} (h : c ∈ intText n) : c ≠ '\x7b' ∧ c ≠ ',' := by
  rcases mem_intText h with rfl | h
  · decide
  · constructor <;> rintro rfl <;> cases h

theorem serializeColumn_eq (col : Column) : ∃ tail, serializeColumn col = 'n' :: 'a' :: tail :=
  ⟨_, rfl⟩

theorem intercalate_cons {α : Type} (sep x : List α) (xs : List (List α)) :
    ∃ tail, sep.intercalate (x :: xs) = x ++ tail := by
  cases xs with
  | nil => exact ⟨[], by simp [List.intercalate]⟩
  | cons y ys => exact ⟨_, by rw [List.intercalate_cons_cons, List.append_assoc]⟩

/-- The fragments of a table with columns: the first one of them has lost its quote. -/
theorem appendTable_eq (out : Text) (hcols : t.columns ≠ []) : ∃ tail, appendTable (out ++ ['"']) t
    = out ++ '"' :: ',' :: '"' :: ("column_count".toList ++ '"' :: ':' ::
        (intText t.columns.length ++ ',' :: '"' :: ("row_count".toList ++ '"' :: ':' ::
          (intText t.rows.length ++ ',' :: '"' :: ("columns".toList ++ '"' :: ':' ::
            '[' :: 'n' :: 'a' :: tail))))) := by
  obtain ⟨col, cols, hcons⟩ := List.exists_cons_of_ne_nil hcols
  obtain ⟨tail, htail⟩ := intercalate_cons [','] (serializeColumn col) (cols.map serializeColumn)
  obtain ⟨tail', htail'⟩ := serializeColumn_eq col
  have hcount : jsonAppendKvInt (out ++ ['"'] ++ [',']) "column_count".toList t.columns.length
      = out ++ '"' :: ',' :: '"' :: ("column_count".toList ++ ['"', ':'])
          ++ intText t.columns.length := by
    have hsame : appendCommaIfNeeded (out ++ ['"'] ++ [',']) = out ++ ['"'] ++ [','] := by
      simp [appendCommaIfNeeded]
    rw [jsonAppendKvInt, hsame]
    simp
    rfl
  have hrows (p : Text) : jsonAppendKvInt (p ++ intText t.columns.length) "row_count".toList
      t.rows.length = p ++ (intText t.columns.length ++ ',' :: '"' :: ("row_count".toList ++ '"' ::
          ':' :: intText t.rows.length)) := by
    rw [jsonAppendKvInt, appendCommaIfNeeded_append (intText_ne_nil _) fun _ => intText_ne_bracket]
    simp
    rfl
  refine ⟨tail' ++ tail ++ "],\"rows\":[".toList
    ++ [','].intercalate (t.rows.map serializeRow) ++ "]".toList, ?_⟩
  simp only [appendTable, hcount, hrows]
  rw [hcons, List.map_cons, htail, htail']
  simp only [List.append_assoc, List.cons_append]
  rfl

end Texts

/-! ## What is read -/

section Reading

variable {status message body name : Text} {json : Json.Value}

instance (s : Text) : Decidable (Plain s) := inferInstanceAs (Decidable (_ = true))

/-- A plain text holds no control character, and no NUL. -/
theorem cString_of_plain {s : Text} (h : Plain s) : cString s = s := by
  refine cString_of_notMem fun h0 => ?_
  have hle := Json.isPlain_le (m := .char) trivial h '\x00' h0
  revert hle
  decide

theorem plain_message : Plain "message".toList := by decide

theorem plain_statusText (status : Status) : Plain (statusText status) := by
  cases status <;> rfl

/-- The text of a member that is a string. -/
def memberText (name bytes : Text) : Text :=
  '"' :: (name ++ '"' :: ':' :: '"' :: (bytes ++ ['"']))

/-- What a response starts with, member by member. -/
theorem opening_eq (status body : Text) : opening status body = '\x7b' ::
    (Json.commas [memberText "status".toList status] ++
      '"' :: ("message".toList ++ '"' :: ':' :: '"' :: body)) := by
  simp [opening, Json.commas, memberText]

theorem isMember_status (hstatus : Plain status) :
    List.Forall₂ Json.IsMember [memberText "status".toList status]
      [("status".toList, .string status)] :=
  .cons (Json.isMember_string (by decide) hstatus) .nil

/-- **Whatever is read of an answer, its message is the body of a string.** -/
theorem readBody_of_decode (hstatus : Plain status)
    (h : Json.decode (opening status body) = some json)
    (hmessage : json.field "message".toList = some (.string message)) :
    ∃ rest, Json.readBody .char body = some (message, rest) := by
  rw [opening_eq] at h
  exact Json.readBody_of_decode (isMember_status hstatus) plain_message (by simp) h hmessage

/-- The message may be the last member. -/
theorem decode_last (hstatus : Plain status) (hmessage : Plain message) :
    Json.decode (opening status (message ++ ['"', '\x7d'])) = some
      (.object [("status".toList, .string status), ("message".toList, .string message)]) := by
  have hobject := Json.decode_members (isMember_status hstatus)
    (Json.isMember_string plain_message hmessage)
  rw [opening_eq]
  simpa using hobject

/-- No object is read whose members behind the message are not. -/
theorem decode_opening_none {rest : Text} (hstatus : Plain status) (hmessage : Plain message)
    (h : ∀ k n, Json.readMembers (Json.readValue (k + 2)) n ('"' :: rest) = none) :
    Json.decode (opening status (message ++ '"' :: ',' :: '"' :: rest)) = none := by
  have htwo : List.Forall₂ Json.IsMember
      [memberText "status".toList status, memberText "message".toList message]
      [("status".toList, .string status), ("message".toList, .string message)] :=
    .cons (Json.isMember_string (by decide) hstatus)
      (.cons (Json.isMember_string plain_message hmessage) .nil)
  have hnone := Json.decode_none htwo h
  rw [opening_eq]
  simpa [Json.commas, memberText] using hnone

theorem isNumberChar_intText {n : Int} {c : Char} (h : c ∈ intText n) :
    Json.isNumberChar c = true := by
  rcases mem_intText h with rfl | h
  · rfl
  · have hdigit : Json.isDigit c = true := h
    simp [Json.isNumberChar, hdigit]

theorem readMembers_count_none {rest : Text} (hname : Plain name) (z : Int) {k : Nat}
    (h : ∀ n, Json.readMembers (Json.readValue (k + 2)) n ('"' :: rest) = none) (n : Nat) :
    Json.readMembers (Json.readValue (k + 2)) n
      ('"' :: (name ++ '"' :: ':' :: (intText z ++ ',' :: '"' :: rest))) = none := by
  refine Json.readMembers_number_none hname (intText_ne_nil z) (fun _ => isNumberChar_intText) ?_ n
  intro n
  rw [Json.skipWs_cons rfl, h]

/-- The columns: the first element is a name without its opening quote. -/
theorem readMembers_columns_none (k n : Nat) (tail : Text) :
    Json.readMembers (Json.readValue k) n
      ('"' :: ("columns".toList ++ '"' :: ':' :: '[' :: 'n' :: 'a' :: tail)) = none := by
  have helement (n : Nat) : Json.readValue n ('n' :: 'a' :: tail) = none := by
    cases n with
    | zero => rfl
    | succ n => exact Json.readValue_scalar (by decide) (by decide) (by decide) n ('a' :: tail)
  exact Json.readMembers_value_none (by decide) rfl
    (Json.readValue_array_none (by decide) rfl helement) k n

/-- **An answer with columns is no JSON text.** -/
theorem decode_table {t : Table} {r : ExecResult} (hok : r.status = .ok)
    (ht : r.resultTable = some t) (hmessage : Plain r.message) (hcols : t.columns ≠ []) :
    Json.decode (serializeExecResult r) = none := by
  have hclean : '\x00' ∉ "ok".toList := by decide
  have htext : serializeExecResult r
      = appendTable (opening "ok".toList (cString r.message) ++ ['"']) t ++ ['\x7d'] := by
    rw [serializeExecResult, opening_append]
    simp only [hok, ht, jsonAppendKv_opening hclean, List.isEmpty_eq_false_iff.mpr hcols]
    rfl
  obtain ⟨tail, htail⟩ := appendTable_eq (opening "ok".toList (cString r.message)) hcols
  rw [htext, htail, cString_of_plain hmessage]
  simp only [opening_append, List.append_assoc, List.cons_append]
  refine decode_opening_none (plain_statusText .ok) hmessage fun k => ?_
  exact readMembers_count_none (by decide) _ <| readMembers_count_none (by decide) _ fun n =>
    readMembers_columns_none _ n _

/-- **An answer is read back exactly when its message needs no escape and it has no table.** -/
theorem reads_back_iff {e e' : Executor} {stmt : Parser.SQLStatement} {r : ExecResult}
    (hexec : e.execute stmt = some (r, e')) :
    ReadsBack r ↔ Plain r.message ∧ r.resultTable = none := by
  have hanswer := (Executor.rooted_execute hexec).answer
  constructor
  · rintro ⟨json, hjson, -, hmessage, htable⟩
    cases ht : r.resultTable with
    | none =>
      rw [serializeExecResult_of_isEmpty (by simp [ht])] at hjson
      obtain ⟨rest, hbody⟩ := readBody_of_decode (plain_statusText _) hjson hmessage
      obtain ⟨w, hw, hlen, hplain⟩ := Json.readBody_eq hbody
      have hshort : (cString r.message).length ≤ r.message.length :=
        (List.takeWhile_prefix _).length_le
      -- the closing quote is not the last character
      have hrest : rest ≠ [] := by
        rintro rfl
        have hlast := congrArg List.getLast? hw
        simp at hlast
      have hpos := List.length_pos_iff.mpr hrest
      have hlength := congrArg List.length hw
      simp only [List.length_append, List.length_cons, List.length_nil] at hlength
      have hcredit : Json.Mode.char.credit = 0 := rfl
      obtain ⟨rfl, hplain⟩ := hplain trivial (by omega)
      exact ⟨hplain, rfl⟩
    | some t =>
      obtain ⟨hok, hquery⟩ := hanswer t ht
      have hcols : t.columns = [] := by
        by_contra hcols
        rw [decode_table hok ht (by rw [hquery]; decide) hcols] at hjson
        cases hjson
      obtain ⟨hcolumns, -⟩ := htable t ht
      rw [serializeExecResult_of_isEmpty (by simp [ht, hcols]), hquery,
        decode_last (plain_statusText _) (by decide)] at hjson
      cases hjson
      cases hcolumns
  · rintro ⟨hplain, hnone⟩
    rw [ReadsBack, serializeExecResult_of_isEmpty (by simp [hnone]), cString_of_plain hplain,
      decode_last (plain_statusText _) hplain]
    exact ⟨_, rfl, rfl, rfl, by simp [hnone]⟩

theorem reads_back_use : ReadsBack (.ok "Using database 'd'".toList) := by
  have huse : (Executor.new "data".toList {}).execute
      { kind := .use, useStmt := { databaseName := ['d'] } }
      = some (.ok "Using database 'd'".toList, Executor.sampleUsed) := by decide +kernel
  exact (reads_back_iff huse).mpr (by decide)

/-- **The answer to `select * from t` is no JSON text.** -/
theorem select_not_read_back :
    Executor.Reachable (Executor.sampleState [[.int 1]] [{ key := 1, rowId := 0 }]) ∧
      ∃ r e', Executor.run (Executor.sampleState [[.int 1]] [{ key := 1, rowId := 0 }])
        "select * from t".toList = some (r, e') ∧ ¬ ReadsBack r := by
  refine ⟨Executor.sample_reachable, ?_⟩
  have hrun : (Executor.run (Executor.sampleState [[.int 1]] [{ key := 1, rowId := 0 }])
      "select * from t".toList).map (fun out => (Json.decode (serializeExecResult out.1)).isSome)
      = some false := by decide +kernel
  obtain ⟨⟨r, e'⟩, hrun, hnone⟩ := Option.map_eq_some_iff.mp hrun
  refine ⟨r, e', hrun, ?_⟩
  rintro ⟨json, hjson, -⟩
  rw [hjson] at hnone
  cases hnone

end Reading

end MiniDB.Network

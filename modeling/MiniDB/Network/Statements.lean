import MiniDB.Network.Response
import MiniDB.Parser.Contract

/-!
# Network/Statements — the parse-only encoder

A statement is encoded member by member.  What is nested in it, a column, a value or a condition, is
put together from fragments that are built in buffers of their own: the first loses its first
character, which is its opening quote and not a brace, and none of them asks for a comma.  So an
encoding with one of these in it is no JSON text.  A string is copied without escapes.

**`statement_read_back_iff`**: a statement the parser returns is read back exactly when it is
`Encodable`.
-/

namespace MiniDB.Network

open MiniDB.Core MiniDB.Parser

/-! ## The encoder -/

/-- `stmt_kind_name`. -/
def stmtKindName : StmtKind → Text
  | .createDatabase => "CREATE DATABASE".toList
  | .dropDatabase => "DROP DATABASE".toList
  | .use => "USE".toList
  | .createTable => "CREATE TABLE".toList
  | .dropTable => "DROP TABLE".toList
  | .select => "SELECT".toList
  | .delete => "DELETE".toList
  | .insert => "INSERT".toList
  | .update => "UPDATE".toList
  | .invalid => "INVALID".toList

/-- `"key":true` or `"key":false`. -/
def jsonAppendKvBool (out key : Text) (value : Bool) : Text :=
  appendCommaIfNeeded out ++ '"' :: cString key ++ "\":".toList
    ++ (if value then "true" else "false").toList

/-- A condition: the first character of its first fragment is skipped. -/
def serializeWhere (out : Text) (cond : WhereClause) : Text :=
  out ++ "\"where\":\x7b".toList ++ (jsonAppendKv [] "column".toList cond.column).drop 1
    ++ jsonAppendKv [] "op".toList cond.op ++ jsonAppendKv [] "value".toList cond.constValue
    ++ jsonAppendKvBool [] "is_int".toList cond.isIntLiteral ++ ['\x7d']

/-- Whether there is a condition, and the condition. -/
def appendWhere (out : Text) (hasWhere : Bool) (cond : WhereClause) : Text :=
  let out := jsonAppendKvBool out "has_where".toList hasWhere
  if hasWhere then serializeWhere (out ++ [',']) cond else out

/-- A column of CREATE TABLE: again the first character is skipped. -/
def serializeColumnDef (col : ColumnDef) : Text :=
  '\x7b' :: (jsonAppendKv [] "name".toList col.name).drop 1
    ++ jsonAppendKv [] "type".toList col.type
    ++ jsonAppendKvBool [] "primary".toList col.isPrimary ++ ['\x7d']

/-- A value of INSERT: and again. -/
def serializeInsertValue (value : Text) (isInt : Bool) : Text :=
  '\x7b' :: (jsonAppendKv [] "value".toList value).drop 1
    ++ jsonAppendKvBool [] "is_int".toList isInt ++ ['\x7d']

/-- The loop over the values and their flags. -/
def serializeInsertValues : List Text → List Bool → Option (List Text)
  | [], _ => some []
  | _ :: _, [] => none
  | v :: values, b :: isInt => do
    return serializeInsertValue v b :: (← serializeInsertValues values isInt)

/-- The `switch` over the kinds. -/
def serializeFields (out : Text) (stmt : SQLStatement) : Option Text :=
  match stmt.kind with
  | .createDatabase => some (jsonAppendKv out "name".toList stmt.createDatabase.databaseName)
  | .dropDatabase => some (jsonAppendKv out "name".toList stmt.dropDatabase.databaseName)
  | .use => some (jsonAppendKv out "name".toList stmt.useStmt.databaseName)
  | .createTable =>
    let out := jsonAppendKv out "table".toList stmt.createTable.tableName
    let out := jsonAppendKvInt out "column_count".toList stmt.createTable.columns.length
    some (out ++ ",\"columns\":[".toList
      ++ [','].intercalate (stmt.createTable.columns.map serializeColumnDef) ++ [']'])
  | .dropTable => some (jsonAppendKv out "table".toList stmt.dropTable.tableName)
  | .select =>
    let out := jsonAppendKv out "column".toList stmt.selectStmt.columnName
    let out := jsonAppendKv out "table".toList stmt.selectStmt.tableName
    some (appendWhere out stmt.selectStmt.hasWhere stmt.selectStmt.cond)
  | .delete =>
    let out := jsonAppendKv out "table".toList stmt.deleteStmt.tableName
    some (appendWhere out stmt.deleteStmt.hasWhere stmt.deleteStmt.cond)
  | .insert => do
    let out := jsonAppendKv out "table".toList stmt.insertStmt.tableName
    let out := jsonAppendKvInt out "value_count".toList stmt.insertStmt.values.length
    let values ← serializeInsertValues stmt.insertStmt.values stmt.insertStmt.isInt
    return out ++ ",\"values\":[".toList ++ [','].intercalate values ++ [']']
  | .update =>
    let out := jsonAppendKv out "table".toList stmt.updateStmt.tableName
    let out := jsonAppendKv out "set_column".toList stmt.updateStmt.setColumn
    let out := jsonAppendKv out "set_value".toList stmt.updateStmt.setValue
    let out := jsonAppendKvBool out "set_is_int".toList stmt.updateStmt.setIsInt
    some (appendWhere out stmt.updateStmt.hasWhere stmt.updateStmt.cond)
  | .invalid => some out

/-- `serialize_response`: none for an INSERT with fewer flags than values. -/
def serializeResponse (stmt : SQLStatement) : Option Text :=
  if stmt.kind = .invalid then some (serializeError stmt.errorMsg)
  else do
    let out := jsonAppendKv ['\x7b'] "status".toList "ok".toList
    let out := jsonAppendKv out "kind".toList (stmtKindName stmt.kind)
    let out ← serializeFields out stmt
    return out ++ ['\x7d']

/-! ## What is to be read -/

def whereJson (cond : WhereClause) : Json.Value :=
  .object [("column".toList, .string cond.column), ("op".toList, .string cond.op),
    ("value".toList, .string cond.constValue), ("is_int".toList, .bool cond.isIntLiteral)]

def whereMembers (hasWhere : Bool) (cond : WhereClause) : List (Text × Json.Value) :=
  ("has_where".toList, .bool hasWhere) ::
    if hasWhere then [("where".toList, whereJson cond)] else []

def columnDefJson (col : ColumnDef) : Json.Value :=
  .object [("name".toList, .string col.name), ("type".toList, .string col.type),
    ("primary".toList, .bool col.isPrimary)]

def insertValueJson (v : Text × Bool) : Json.Value :=
  .object [("value".toList, .string v.1), ("is_int".toList, .bool v.2)]

/-- The fields of a statement, by its kind. -/
def fieldMembers (stmt : SQLStatement) : List (Text × Json.Value) :=
  match stmt.kind with
  | .createDatabase => [("name".toList, .string stmt.createDatabase.databaseName)]
  | .dropDatabase => [("name".toList, .string stmt.dropDatabase.databaseName)]
  | .use => [("name".toList, .string stmt.useStmt.databaseName)]
  | .createTable =>
    [("table".toList, .string stmt.createTable.tableName),
     ("column_count".toList, .number (intText stmt.createTable.columns.length)),
     ("columns".toList, .array (stmt.createTable.columns.map columnDefJson))]
  | .dropTable => [("table".toList, .string stmt.dropTable.tableName)]
  | .select =>
    ("column".toList, .string stmt.selectStmt.columnName) ::
    ("table".toList, .string stmt.selectStmt.tableName) ::
    whereMembers stmt.selectStmt.hasWhere stmt.selectStmt.cond
  | .delete =>
    ("table".toList, .string stmt.deleteStmt.tableName) ::
    whereMembers stmt.deleteStmt.hasWhere stmt.deleteStmt.cond
  | .insert =>
    [("table".toList, .string stmt.insertStmt.tableName),
     ("value_count".toList, .number (intText stmt.insertStmt.values.length)),
     ("values".toList,
      .array ((stmt.insertStmt.values.zip stmt.insertStmt.isInt).map insertValueJson))]
  | .update =>
    ("table".toList, .string stmt.updateStmt.tableName) ::
    ("set_column".toList, .string stmt.updateStmt.setColumn) ::
    ("set_value".toList, .string stmt.updateStmt.setValue) ::
    ("set_is_int".toList, .bool stmt.updateStmt.setIsInt) ::
    whereMembers stmt.updateStmt.hasWhere stmt.updateStmt.cond
  | .invalid => []

/-- The members of an encoding: the status, and the message or the kind and its fields. -/
def statementMembers (stmt : SQLStatement) : List (Text × Json.Value) :=
  if stmt.kind = .invalid then
    [("status".toList, .string "error".toList), ("message".toList, .string stmt.errorMsg)]
  else
    ("status".toList, .string "ok".toList) ::
    ("kind".toList, .string (stmtKindName stmt.kind)) :: fieldMembers stmt

/-- A decoder of JSON reads the statement back: one object with all its members. -/
def StatementReadsBack (stmt : SQLStatement) : Prop :=
  ∃ text json, serializeResponse stmt = some text ∧ Json.decode text = some json ∧
    ∀ m ∈ statementMembers stmt, json.field m.1 = some m.2

/-- Nothing nested, and nothing to escape. -/
def Encodable (stmt : SQLStatement) : Prop :=
  match stmt.kind with
  | .createTable => False
  | .insert => False
  | .select => stmt.selectStmt.hasWhere = false
  | .delete => stmt.deleteStmt.hasWhere = false
  | .update => stmt.updateStmt.hasWhere = false ∧ Plain stmt.updateStmt.setValue
  | .invalid => Plain stmt.errorMsg
  | _ => True

/-! ## Objects in the making -/

section Building

variable {ms : List (Text × Json.Value)} {out key value w : Text} {m : Text × Json.Value}

/-- A text that a comma is put behind. -/
def Closed (w : Text) : Prop := ∃ p c, w = p ++ [c] ∧ c ≠ '\x7b' ∧ c ≠ ','

theorem appendCommaIfNeeded_closed (hw : Closed w) (p : Text) :
    appendCommaIfNeeded (p ++ w) = p ++ w ++ [','] := by
  obtain ⟨q, c, rfl, hbrace, hcomma⟩ := hw
  rw [appendCommaIfNeeded, ← List.append_assoc, List.getLast?_concat]
  simp [hbrace, hcomma]

/-- The text of a member that is true or false. -/
def boolText (name : Text) (b : Bool) : Text :=
  '"' :: (name ++ '"' :: ':' :: (if b then "true" else "false").toList)

theorem closed_memberText (name bytes : Text) : Closed (memberText name bytes) :=
  ⟨'"' :: (name ++ '"' :: ':' :: '"' :: bytes), '"', by simp [memberText], by decide, by decide⟩

theorem closed_boolText (name : Text) (b : Bool) : Closed (boolText name b) := by
  cases b
  · exact ⟨'"' :: (name ++ '"' :: ':' :: "fals".toList), 'e', by simp [boolText], by decide,
      by decide⟩
  · exact ⟨'"' :: (name ++ '"' :: ':' :: "tru".toList), 'e', by simp [boolText], by decide,
      by decide⟩

/-- The object with these members, without its closing brace. -/
inductive Building : List (Text × Json.Value) → Text → Prop
  | mk {ws : List Text} {w : Text} {ms : List (Text × Json.Value)} {m : Text × Json.Value}
      (h : List.Forall₂ Json.IsMember ws ms) (hw : Json.IsMember w m) (hclosed : Closed w) :
    Building (ms ++ [m]) ('\x7b' :: (Json.commas ws ++ w))

/-- A first member. -/
theorem building_first (hkey : Plain key) (hvalue : Plain value) :
    Building [(key, .string value)] (jsonAppendKv ['\x7b'] key value) := by
  have htext : jsonAppendKv ['\x7b'] key value
      = '\x7b' :: (Json.commas [] ++ memberText key value) := by
    simp [jsonAppendKv, appendCommaIfNeeded, cString_of_plain hkey, cString_of_plain hvalue,
      memberText, Json.commas]
  rw [htext]
  exact .mk .nil (Json.isMember_string hkey hvalue) (closed_memberText key value)

/-- One more member. -/
theorem Building.append (h : Building ms out) (hw : Json.IsMember w m) (hclosed : Closed w) :
    Building (ms ++ [m]) (appendCommaIfNeeded out ++ w) := by
  cases h with
  | mk hws hw₀ hclosed₀ =>
    rw [← List.cons_append, appendCommaIfNeeded_closed hclosed₀]
    have hnext := Building.mk (List.rel_append hws (.cons hw₀ .nil)) hw hclosed
    simpa [Json.commas] using hnext

theorem Building.kv (h : Building ms out) (hkey : Plain key) (hvalue : Plain value) :
    Building (ms ++ [(key, .string value)]) (jsonAppendKv out key value) := by
  have hnext := h.append (Json.isMember_string hkey hvalue) (closed_memberText key value)
  simpa [jsonAppendKv, cString_of_plain hkey, cString_of_plain hvalue, memberText] using hnext

theorem Building.kvBool (h : Building ms out) (hkey : Plain key) (b : Bool) :
    Building (ms ++ [(key, .bool b)]) (jsonAppendKvBool out key b) := by
  have hnext := h.append (Json.isMember_bool hkey b) (closed_boolText key b)
  simpa [jsonAppendKvBool, cString_of_plain hkey, boolText] using hnext

/-- **The closing brace ends a JSON text.** -/
theorem Building.decode (h : Building ms out) :
    Json.decode (out ++ ['\x7d']) = some (.object ms) := by
  cases h with
  | mk hws hw _ => simpa using Json.decode_members hws hw

theorem Building.comma (h : Building ms out) : appendCommaIfNeeded out = out ++ [','] := by
  cases h with
  | mk _ _ hclosed => exact appendCommaIfNeeded_closed (p := _ :: _) hclosed

/-- **Members that are not read spoil it.** -/
theorem Building.decode_none {t : Text} (h : Building ms out)
    (ht : ∀ k n, Json.readMembers (Json.readValue (k + 2)) n ('"' :: t) = none) :
    Json.decode (out ++ ',' :: '"' :: t) = none := by
  cases h with
  | mk hws hw _ =>
    have hnone := Json.decode_none (List.rel_append hws (.cons hw .nil)) ht
    simpa [Json.commas] using hnone

/-- **A string that is read back needs no escape.** -/
theorem Building.plain {t : Text} {json : Json.Value} (h : Building ms out) (hkey : Plain key)
    (hnew : key ∉ ms.map Prod.fst) (hnul : '\x00' ∉ value) (hquote : '"' ∉ value)
    (hjson : Json.decode (jsonAppendKv out key value ++ t) = some json)
    (hfield : json.field key = some (.string value)) : Plain value := by
  cases h with
  | mk hws hw hclosed =>
    rw [jsonAppendKv, ← List.cons_append, appendCommaIfNeeded_closed hclosed,
      cString_of_plain hkey, cString_of_notMem hnul] at hjson
    refine Json.isPlain_of_decode (List.rel_append hws (.cons hw .nil)) hkey (by simpa using hnew)
      hquote (t := t) ?_ hfield
    simpa [Json.commas] using hjson

end Building

/-! ## What is read -/

section Reading

variable {stmt : SQLStatement} {ms : List (Text × Json.Value)} {out name : Text}

theorem toNat_of_isIdentChar {c : Char} (h : isIdentChar c = true) :
    0x20 ≤ c.toNat ∧ c.toNat < 0x80 := by
  have hle (a b : Char) : a ≤ b ↔ a.toNat ≤ b.toNat := Iff.rfl
  simp only [isIdentChar, Bool.or_eq_true, Bool.and_eq_true, decide_eq_true_eq, hle, beq_iff_eq]
    at h
  obtain ((h | h) | h) | rfl := h
  · exact ⟨le_trans (by decide) h.1, lt_of_le_of_lt h.2 (by decide)⟩
  · exact ⟨le_trans (by decide) h.1, lt_of_le_of_lt h.2 (by decide)⟩
  · exact ⟨le_trans (by decide) h.1, lt_of_le_of_lt h.2 (by decide)⟩
  · decide

theorem plain_of_isName (h : IsName name) : Plain name := by
  refine Json.isPlain_of_ascii fun c hc => ?_
  have hchar := h.2 c hc
  obtain ⟨hlo, hhi⟩ := toNat_of_isIdentChar hchar
  refine ⟨hlo, hhi, ?_, ?_⟩ <;> rintro rfl <;> revert hchar <;> decide

/-- The status and the kind. -/
def encodingStart (kind : StmtKind) : Text :=
  jsonAppendKv (jsonAppendKv ['\x7b'] "status".toList "ok".toList) "kind".toList (stmtKindName kind)

theorem building_start (kind : StmtKind) :
    Building [("status".toList, .string "ok".toList), ("kind".toList, .string (stmtKindName kind))]
      (encodingStart kind) := by
  have hkind : Plain (stmtKindName kind) := by
    cases kind <;> decide
  exact (building_first (by decide) (by decide)).kv (by decide) hkind

theorem serializeResponse_of_valid (hk : stmt.kind ≠ .invalid) :
    serializeResponse stmt
      = (serializeFields (encodingStart stmt.kind) stmt).map (· ++ ['\x7d']) := by
  rw [serializeResponse, if_neg hk]
  cases h : serializeFields (encodingStart stmt.kind) stmt with
  | none => exact congrArg (Option.bind · _) h
  | some out => exact congrArg (Option.bind · _) h

/-- An object with the members of the statement reads it back. -/
theorem readsBack_of_building (hk : stmt.kind ≠ .invalid)
    (hout : serializeFields (encodingStart stmt.kind) stmt = some out)
    (h : Building (statementMembers stmt) out)
    (hnodup : ((statementMembers stmt).map Prod.fst).Nodup) : StatementReadsBack stmt := by
  refine ⟨_, _, ?_, h.decode, fun m hm => Json.field_of_mem hnodup hm⟩
  rw [serializeResponse_of_valid hk, hout]
  rfl

/-- A text that is not read reads nothing back. -/
theorem not_readsBack (hk : stmt.kind ≠ .invalid)
    (h : ∀ out, serializeFields (encodingStart stmt.kind) stmt = some out →
      Json.decode (out ++ ['\x7d']) = none) : ¬ StatementReadsBack stmt := by
  rintro ⟨text, json, htext, hjson, -⟩
  rw [serializeResponse_of_valid hk] at htext
  obtain ⟨out, hout, rfl⟩ := Option.map_eq_some_iff.mp htext
  rw [h out hout] at hjson
  cases hjson

/-- Without a condition, that is the last member. -/
theorem building_where (h : Building ms out) (cond : WhereClause) :
    Building (ms ++ whereMembers false cond) (appendWhere out false cond) :=
  h.kvBool (by decide) false

/-- The condition: its first member has lost its opening quote. -/
theorem decode_where (h : Building ms out) (cond : WhereClause) (t : Text) :
    Json.decode (appendWhere out true cond ++ t) = none := by
  have hbool : Building _ (jsonAppendKvBool out "has_where".toList true) :=
    h.kvBool (by decide) true
  obtain ⟨tail, htail⟩ : ∃ tail, appendWhere out true cond ++ t
      = jsonAppendKvBool out "has_where".toList true ++
        ',' :: '"' :: ("where".toList ++ '"' :: ':' :: '\x7b' :: 'c' :: tail) := by
    simp only [appendWhere, if_true, serializeWhere, List.append_assoc]
    exact ⟨_, rfl⟩
  rw [htail]
  exact hbool.decode_none fun k n => Json.readMembers_value_none (by decide) rfl
    (fun n => Json.readValue_object_none (by decide) (by decide) rfl n tail) _ n

/-- A list of objects: the first of them has lost its first quote. -/
theorem decode_nested (h : Building ms out) {count list : Text} (hcount : Plain count)
    (hlist : Plain list) (z : Int) {c : Char} (hquote : c ≠ '"') (hbrace : c ≠ '\x7d')
    (hws : (c == ' ' || c == '\t' || c == '\n' || c == '\r') = false) (t : Text) :
    Json.decode (jsonAppendKvInt out count z ++
      ',' :: '"' :: (list ++ '"' :: ':' :: '[' :: '\x7b' :: c :: t)) = none := by
  have hnone := h.decode_none fun k n => readMembers_count_none (k := k) hcount z
    (fun n => Json.readMembers_value_none hlist rfl
      (Json.readValue_array_none (by decide) rfl
        fun n => Json.readValue_object_none hquote hbrace hws n t) _ n) n
  rw [jsonAppendKvInt, h.comma, cString_of_plain hcount]
  simpa using hnone

/-- The first column: its name has lost its opening quote. -/
theorem createTable_eq {s : CreateTableStmt} (hne : s.columns ≠ [])
    (hout : serializeFields (encodingStart .createTable) { kind := .createTable, createTable := s }
      = some out) : ∃ tail, out ++ ['\x7d']
        = jsonAppendKvInt (jsonAppendKv (encodingStart .createTable) "table".toList s.tableName)
            "column_count".toList s.columns.length ++
          ',' :: '"' :: ("columns".toList ++ '"' :: ':' :: '[' :: '\x7b' :: 'n' :: tail) := by
  obtain ⟨col, cols, hcons⟩ := List.exists_cons_of_ne_nil hne
  obtain ⟨tail, htail⟩ := intercalate_cons [','] (serializeColumnDef col)
    (cols.map serializeColumnDef)
  obtain rfl := Option.some.inj hout
  generalize jsonAppendKvInt (jsonAppendKv _ _ _) _ _ = p
  simp only [hcons, List.map_cons, htail, List.append_assoc]
  exact ⟨_, rfl⟩

/-- The first value has lost its opening quote. -/
theorem insert_eq {s : InsertStmt} (hne : s.values ≠ [])
    (hout : serializeFields (encodingStart .insert) { kind := .insert, insertStmt := s }
      = some out) : ∃ tail, out ++ ['\x7d']
        = jsonAppendKvInt (jsonAppendKv (encodingStart .insert) "table".toList s.tableName)
            "value_count".toList s.values.length ++
          ',' :: '"' :: ("values".toList ++ '"' :: ':' :: '[' :: '\x7b' :: 'v' :: tail) := by
  obtain ⟨values, hvalues, hout⟩ := Option.bind_eq_some_iff.mp hout
  obtain rfl := Option.some.inj hout
  obtain ⟨v, vs, hcons⟩ := List.exists_cons_of_ne_nil hne
  rw [hcons] at hvalues
  cases hflags : s.isInt with
  | nil =>
    rw [hflags] at hvalues
    cases hvalues
  | cons b bs =>
    rw [hflags] at hvalues
    obtain ⟨rest, -, hrest⟩ := Option.bind_eq_some_iff.mp hvalues
    obtain rfl := Option.some.inj hrest
    obtain ⟨tail, htail⟩ := intercalate_cons [','] (serializeInsertValue v b) rest
    generalize jsonAppendKvInt (jsonAppendKv _ _ _) _ _ = p
    simp only [htail, List.append_assoc]
    exact ⟨_, rfl⟩

/-- **With a condition nothing is read back**, and without one everything is. -/
theorem readsBack_where_iff {hasWhere : Bool} {cond : WhereClause} (hk : stmt.kind ≠ .invalid)
    (h : Building ms out)
    (hout : serializeFields (encodingStart stmt.kind) stmt = some (appendWhere out hasWhere cond))
    (hms : statementMembers stmt = ms ++ whereMembers hasWhere cond)
    (hnodup : (ms.map Prod.fst ++ ["has_where".toList]).Nodup) :
    StatementReadsBack stmt ↔ hasWhere = false := by
  cases hasWhere with
  | false =>
    refine iff_of_true (readsBack_of_building hk hout ?_ ?_) rfl
    · rw [hms]
      exact building_where h cond
    · rw [hms, List.map_append]
      exact hnodup
  | true =>
    refine iff_of_false (not_readsBack hk fun out' hout' => ?_) (by decide)
    rw [hout] at hout'
    obtain rfl := Option.some.inj hout'
    exact decode_where h cond _

theorem isPrefix_appendCommaIfNeeded (out : Text) : out <+: appendCommaIfNeeded out := by
  rw [appendCommaIfNeeded]
  split
  · exact List.prefix_rfl
  · split
    · exact List.prefix_append _ _
    · exact List.prefix_rfl

theorem isPrefix_jsonAppendKvBool (out key : Text) (b : Bool) :
    out <+: jsonAppendKvBool out key b := by
  rw [jsonAppendKvBool, List.append_assoc, List.append_assoc]
  exact (isPrefix_appendCommaIfNeeded out).trans (List.prefix_append _ _)

theorem isPrefix_appendWhere (out : Text) (hasWhere : Bool) (cond : WhereClause) :
    out <+: appendWhere out hasWhere cond := by
  have hbool := isPrefix_jsonAppendKvBool out "has_where".toList hasWhere
  cases hasWhere with
  | false => exact hbool
  | true =>
    refine hbool.trans ?_
    simp only [appendWhere, if_true, serializeWhere, List.append_assoc]
    exact List.prefix_append _ _

/-- **The value of an UPDATE that is read back needs no escape**, whatever comes behind it. -/
theorem plain_setValue {s : UpdateStmt}
    (h : Building ms (jsonAppendKv (jsonAppendKv (encodingStart .update) "table".toList s.tableName)
      "set_column".toList s.setColumn))
    (hnew : "set_value".toList ∉ ms.map Prod.fst) (hnul : '\x00' ∉ s.setValue)
    (hquote : '"' ∉ s.setValue)
    (hback : StatementReadsBack { kind := .update, updateStmt := s }) : Plain s.setValue := by
  obtain ⟨text, json, htext, hjson, hall⟩ := hback
  rw [serializeResponse_of_valid (by exact nofun)] at htext
  obtain ⟨out, hout, rfl⟩ := Option.map_eq_some_iff.mp htext
  obtain rfl := Option.some.inj hout
  obtain ⟨t, ht⟩ := ((isPrefix_jsonAppendKvBool _ _ s.setIsInt).trans
    (isPrefix_appendWhere _ s.hasWhere s.cond)).trans (List.prefix_append _ ['\x7d'])
  rw [← ht] at hjson
  have hmem : ("set_value".toList, Json.Value.string s.setValue)
      ∈ statementMembers { kind := .update, updateStmt := s } := by
    simp [statementMembers, fieldMembers]
  exact h.plain (by decide) hnew hnul hquote hjson (hall _ hmem)

/-- An INVALID statement is read back when its message needs no escape. -/
theorem readsBack_invalid_iff (h : stmt.Reported) :
    StatementReadsBack stmt ↔ Plain stmt.errorMsg := by
  have htext : serializeResponse stmt = some (serializeError stmt.errorMsg) := if_pos h.1.1
  have hmembers : statementMembers stmt = [("status".toList, .string "error".toList),
      ("message".toList, .string stmt.errorMsg)] := if_pos h.1.1
  have hnul : '\x00' ∉ stmt.errorMsg := h.2.notMem rfl
  have hencoding : serializeError stmt.errorMsg
      = opening "error".toList (stmt.errorMsg ++ ['"', '\x7d']) := by
    rw [serializeError, serializeStatus_eq (by decide), cString_of_notMem hnul]
  rw [StatementReadsBack, htext, hmembers, hencoding]
  constructor
  · rintro ⟨text, json, htext, hjson, hall⟩
    cases htext
    obtain ⟨rest, hbody⟩ := readBody_of_decode (plain_statusText .error) hjson
      (hall _ (List.mem_cons_of_mem _ List.mem_cons_self))
    exact Json.isPlain_of_readBody h.2.noQuote hbody
  · intro hplain
    refine ⟨_, _, rfl, decode_last (plain_statusText .error) hplain, fun m hm => ?_⟩
    exact Json.field_of_mem (by simp) hm

end Reading

/-- **A statement is read back exactly when it is encodable**: it has no list and no condition, and
the value it sets, or its message, needs no escape. -/
theorem statement_read_back_iff {sql : Text} {stmt : SQLStatement} (h : parse sql = some stmt) :
    StatementReadsBack stmt ↔ Encodable stmt := by
  rcases parse_reported h with hd | hf
  case inr =>
    rw [readsBack_invalid_iff hf, Encodable, hf.1.1]
  have hk := hd.valid.1
  have hname : (["status".toList, "kind".toList, "name".toList] : List Text).Nodup := by decide
  cases hd with
  | createDatabase hn =>
    refine iff_of_true (readsBack_of_building hk rfl ?_ hname) trivial
    exact (building_start _).kv (by decide) (plain_of_isName hn)
  | dropDatabase hn =>
    refine iff_of_true (readsBack_of_building hk rfl ?_ hname) trivial
    exact (building_start _).kv (by decide) (plain_of_isName hn)
  | use hn =>
    refine iff_of_true (readsBack_of_building hk rfl ?_ hname) trivial
    exact (building_start _).kv (by decide) (plain_of_isName hn)
  | createTable hn hne =>
    refine iff_of_false (not_readsBack hk fun out hout => ?_) id
    obtain ⟨tail, htail⟩ := createTable_eq hne hout
    rw [htail]
    exact decode_nested ((building_start _).kv (by decide) (plain_of_isName hn)) (by decide)
      (by decide) _ (by decide) (by decide) rfl tail
  | dropTable hn =>
    have htable : (["status".toList, "kind".toList, "table".toList] : List Text).Nodup := by decide
    refine iff_of_true (readsBack_of_building hk rfl ?_ htable) trivial
    exact (building_start _).kv (by decide) (plain_of_isName hn)
  | @select s hn hcol =>
    have hplain : Plain s.columnName := by
      rcases hcol with hstar | hcol
      · rw [hstar]
        decide
      · exact plain_of_isName hcol
    have hb := ((building_start .select).kv (by decide : Plain "column".toList) hplain).kv
      (by decide : Plain "table".toList) (plain_of_isName hn)
    have hnames : (["status".toList, "kind".toList, "column".toList, "table".toList,
      "has_where".toList] : List Text).Nodup := by decide
    exact readsBack_where_iff hk hb rfl rfl hnames
  | @delete s hn =>
    have hb := (building_start .delete).kv (by decide : Plain "table".toList) (plain_of_isName hn)
    have hnames : (["status".toList, "kind".toList, "table".toList, "has_where".toList]
      : List Text).Nodup := by decide
    exact readsBack_where_iff hk hb rfl rfl hnames
  | insert hn hne hlen =>
    refine iff_of_false (not_readsBack hk fun out hout => ?_) id
    obtain ⟨tail, htail⟩ := insert_eq hne hout
    rw [htail]
    exact decode_nested ((building_start _).kv (by decide) (plain_of_isName hn)) (by decide)
      (by decide) _ (by decide) (by decide) rfl tail
  | @update s hn hcol hlit hquote =>
    have hb := ((building_start .update).kv (by decide : Plain "table".toList)
      (plain_of_isName hn)).kv (by decide : Plain "set_column".toList) (plain_of_isName hcol)
    have hset (hplain : Plain s.setValue) := (hb.kv (by decide : Plain "set_value".toList)
      hplain).kvBool (by decide : Plain "set_is_int".toList) s.setIsInt
    have hnames : (["status".toList, "kind".toList, "table".toList, "set_column".toList,
      "set_value".toList, "set_is_int".toList, "has_where".toList] : List Text).Nodup := by decide
    constructor
    · intro hback
      have hplain := plain_setValue hb (by simp) hlit.1 hquote hback
      exact ⟨(readsBack_where_iff hk (hset hplain) rfl rfl hnames).mp hback, hplain⟩
    · rintro ⟨hwhere, hplain⟩
      exact (readsBack_where_iff hk (hset hplain) rfl rfl hnames).mpr hwhere

theorem statement_read_back_use :
    StatementReadsBack { kind := .use, useStmt := { databaseName := ['d'] } } := by
  have hparse : parse "use d".toList
      = some { kind := .use, useStmt := { databaseName := ['d'] } } := by decide +kernel
  exact (statement_read_back_iff hparse).mpr trivial

/-- **The encoding of `create table t (a int)` is no JSON text.** -/
theorem create_table_not_read_back :
    ∃ stmt, parse "create table t (a int)".toList = some stmt ∧ ¬ StatementReadsBack stmt := by
  have hrun : (parse "create table t (a int)".toList).map (fun stmt =>
      (serializeResponse stmt).map fun text => (Json.decode text).isSome) = some (some false) := by
    decide +kernel
  obtain ⟨stmt, hparse, hnone⟩ := Option.map_eq_some_iff.mp hrun
  obtain ⟨text, htext, hnone⟩ := Option.map_eq_some_iff.mp hnone
  refine ⟨stmt, hparse, ?_⟩
  rintro ⟨text', json, htext', hjson, -⟩
  cases htext.symm.trans htext'
  rw [hjson] at hnone
  cases hnone

end MiniDB.Network

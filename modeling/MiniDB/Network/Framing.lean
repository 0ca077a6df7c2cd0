import MiniDB.Network.Response

/-!
# Network/Framing — responses, line after line

The server writes each response as a line, and the client reads lines into a buffer of 8192 bytes.
A response that leaves room in the buffer comes back with its newline gone from the stream; one that
fills the buffer comes back too, but its newline is then read as an empty response; a longer one is
cut.

**`framing_iff`**: the responses come back exactly when all but the last leave room, and the last
fits.
-/

namespace MiniDB.Network

open MiniDB.Core MiniDB.Storage MiniDB.Execution

/-- The texts the server answers with. -/
inductive IsResponse : Text → Prop
  | execResult (r : ExecResult) : IsResponse (serializeExecResult r)
  | error (message : Text) : IsResponse (serializeError message)
  | status (status message : Text) : IsResponse (serializeStatus status message)

/-- What `n` calls of `recv_line` return, and what they leave in the stream. -/
def recvLines : Nat → Text → List Text × Text
  | 0, stream => ([], stream)
  | n + 1, stream =>
    let (line, stream) := recvLine stream
    let (lines, stream) := recvLines n stream
    (line :: lines, stream)

/-- No carriage return, newline or NUL. -/
def IsLine (msg : Text) : Prop := '\r' ∉ msg ∧ '\n' ∉ msg ∧ '\x00' ∉ msg

instance (msg : Text) : Decidable (IsLine msg) := inferInstanceAs (Decidable (_ ∧ _))

theorem IsResponse.ne_nil {msg : Text} (h : IsResponse msg) : msg ≠ [] := by
  cases h with
  | execResult r =>
    rw [serializeExecResult]
    split
    · exact List.concat_ne_nil _ _
    · exact List.concat_ne_nil _ _
  | error message => exact List.concat_ne_nil _ _
  | status status message => exact List.concat_ne_nil _ _

/-! ## One line -/

/-- **One line**: what fits the buffer is received, and what does not stays in the stream. -/
theorem recvLine_sendLine {msg : Text} (h : IsLine msg) (rest : Text) :
    recvLine (sendLine msg ++ rest) = (msg.take (maxMsg - 1),
      if msg.length < maxMsg - 1 then rest else msg.drop (maxMsg - 1) ++ '\n' :: rest) := by
  obtain ⟨hcr, hnl, hnul⟩ := h
  rw [sendLine, cString_of_notMem hnul, List.append_assoc]
  split
  · next hlt =>
    rw [recvLine, List.singleton_append, recvLoop_line rest hnl hcr hlt.le, if_pos hlt,
      List.take_of_length_le hlt.le]
    exact Prod.ext (cString_of_notMem hnul) rfl
  · next hlt =>
    rw [recvLine, recvLoop_long _ hnl hcr (Nat.le_of_not_lt hlt)]
    exact Prod.ext (cString_of_notMem fun h0 => hnul (List.mem_of_mem_take h0)) rfl

/-! ## All of them -/

section Lines

variable {msg : Text} {msgs : List Text}

/-- Behind a response that leaves room, the next one is read. -/
theorem recvLines_of_lt (hmsg : IsLine msg) (hlt : msg.length < maxMsg - 1) (n : Nat)
    (rest : Text) : recvLines (n + 1) (sendLine msg ++ rest)
      = (msg :: (recvLines n rest).1, (recvLines n rest).2) := by
  rw [recvLines, recvLine_sendLine hmsg, if_pos hlt, List.take_of_length_le hlt.le]

/-- Behind a response that fills the buffer, its newline is read. -/
theorem recvLines_of_eq (hmsg : IsLine msg) (heq : msg.length = maxMsg - 1) (n : Nat)
    (rest : Text) : recvLines (n + 1) (sendLine msg ++ rest)
      = (msg :: (recvLines n ('\n' :: rest)).1, (recvLines n ('\n' :: rest)).2) := by
  rw [recvLines, recvLine_sendLine hmsg, if_neg heq.not_lt, List.take_of_length_le heq.le,
    List.drop_of_length_le heq.le]
  rfl

/-- A longer response does not come back. -/
theorem recvLines_of_gt (hmsg : IsLine msg) (hgt : maxMsg - 1 < msg.length) (n : Nat)
    (rest : Text) (msgs : List Text) :
    (recvLines (n + 1) (sendLine msg ++ rest)).1 ≠ msg :: msgs := by
  rw [recvLines, recvLine_sendLine hmsg]
  intro h
  have hlength := congrArg List.length (List.cons.inj h).1
  rw [List.length_take] at hlength
  omega

/-- No response is read as the newline of the one before it. -/
theorem recvLines_newline (hne : ∀ m ∈ msgs, m ≠ []) (rest : Text) :
    (recvLines msgs.length ('\n' :: rest)).1 = msgs → msgs = [] := by
  intro h
  cases msgs with
  | nil => rfl
  | cons m msgs =>
    have hnil : recvLine ('\n' :: rest) = ([], rest) := rfl
    rw [List.length_cons, recvLines, hnil] at h
    exact absurd (List.cons.inj h).1.symm (hne m List.mem_cons_self)

/-- **The lines come back** exactly when they fit. -/
theorem recvLines_eq_iff (hline : ∀ m ∈ msgs, IsLine m) (hne : ∀ m ∈ msgs, m ≠ []) (rest : Text) :
    (recvLines msgs.length (msgs.flatMap sendLine ++ rest)).1 = msgs
      ↔ Scan.Fit (maxMsg - 1) msgs := by
  induction msgs generalizing rest with
  | nil => simp [recvLines, Scan.Fit]
  | cons m msgs ih =>
    obtain ⟨hm, hline⟩ := List.forall_mem_cons.mp hline
    obtain ⟨-, hne⟩ := List.forall_mem_cons.mp hne
    rw [List.length_cons, List.flatMap_cons, List.append_assoc]
    rcases lt_trichotomy m.length (maxMsg - 1) with hlt | heq | hgt
    · rw [recvLines_of_lt hm hlt, List.cons_inj_right, ih hline hne, Scan.fit_cons_of_lt hlt]
    · rw [recvLines_of_eq hm heq, List.cons_inj_right, Scan.fit_cons_of_eq heq]
      refine ⟨recvLines_newline hne _, ?_⟩
      rintro rfl
      rfl
    · exact ⟨fun h => absurd h (recvLines_of_gt hm hgt _ _ _),
        fun h => absurd (h.2 m List.mem_cons_self) hgt.not_ge⟩

/-- **Nothing is left of them** exactly when each leaves room. -/
theorem recvLines_all_iff (hline : ∀ m ∈ msgs, IsLine m) (hne : ∀ m ∈ msgs, m ≠ [])
    (rest : Text) : recvLines msgs.length (msgs.flatMap sendLine ++ rest) = (msgs, rest)
      ↔ ∀ m ∈ msgs, m.length < maxMsg - 1 := by
  induction msgs generalizing rest with
  | nil => simp [recvLines]
  | cons m msgs ih =>
    obtain ⟨hm, hline⟩ := List.forall_mem_cons.mp hline
    obtain ⟨-, hne⟩ := List.forall_mem_cons.mp hne
    rw [List.length_cons, List.flatMap_cons, List.append_assoc, List.forall_mem_cons]
    rcases lt_trichotomy m.length (maxMsg - 1) with hlt | heq | hgt
    · rw [recvLines_of_lt hm hlt, Prod.mk.injEq, List.cons_inj_right, ← Prod.mk.injEq,
        ih hline hne]
      exact (and_iff_right hlt).symm
    · refine iff_of_false (fun h => ?_) fun h => heq.not_lt h.1
      rw [recvLines_of_eq hm heq, Prod.mk.injEq, List.cons_inj_right] at h
      obtain rfl := recvLines_newline hne _ h.1
      exact List.cons_ne_self _ _ h.2
    · exact iff_of_false (fun h => recvLines_of_gt hm hgt _ _ _ (congrArg Prod.fst h))
        fun h => hgt.not_gt h.1

end Lines

/-- **Responses come back** exactly when all but the last leave room in the buffer and the last
fits; and nothing is left of them exactly when each leaves room. -/
theorem framing_iff {msgs : List Text} (hresp : ∀ m ∈ msgs, IsResponse m)
    (hline : ∀ m ∈ msgs, IsLine m) :
    ((recvLines msgs.length (msgs.flatMap sendLine)).1 = msgs ↔ Scan.Fit (maxMsg - 1) msgs) ∧
      (recvLines msgs.length (msgs.flatMap sendLine) = (msgs, [])
        ↔ ∀ m ∈ msgs, m.length < maxMsg - 1) := by
  have hne : ∀ m ∈ msgs, m ≠ [] := fun m hm => (hresp m hm).ne_nil
  have hall := recvLines_eq_iff hline hne []
  have hleft := recvLines_all_iff hline hne []
  rw [List.append_nil] at hall hleft
  exact ⟨hall, hleft⟩

/-- An answer and a goodbye. -/
theorem framing_two :
    let msgs := [serializeExecResult (.ok "1 row inserted".toList),
      serializeStatus "ok".toList "bye".toList]
    (recvLines msgs.length (msgs.flatMap sendLine)).1 = msgs := by
  refine (framing_iff ?_ ?_).1.mpr (Scan.fit_of_lt ?_)
  · exact List.forall_mem_cons.mpr ⟨.execResult _, List.forall_mem_singleton.mpr (.status _ _)⟩
  · exact List.forall_mem_cons.mpr ⟨by decide, List.forall_mem_singleton.mpr (by decide)⟩
  · exact List.forall_mem_cons.mpr ⟨by decide, List.forall_mem_singleton.mpr (by decide)⟩

/-! ## Long answers -/

section Long

variable {s key value out : Text} {r : ExecResult} {t : Table}

@[simp]
theorem isLine_append {s₁ s₂ : Text} : IsLine (s₁ ++ s₂) ↔ IsLine s₁ ∧ IsLine s₂ := by
  simp only [IsLine, List.mem_append, not_or]
  tauto

@[simp]
theorem isLine_nil : IsLine [] := by decide

@[simp]
theorem isLine_cons {c : Char} :
    IsLine (c :: s) ↔ (c ≠ '\r' ∧ c ≠ '\n' ∧ c ≠ '\x00') ∧ IsLine s := by
  simp only [IsLine, List.mem_cons, not_or, ne_comm (a := c)]
  tauto

theorem isLine_cString (h : IsLine s) : IsLine (cString s) := by
  rwa [cString_of_notMem h.2.2]

theorem isLine_intText (n : Int) : IsLine (intText n) := by
  have hne (c : Char) (hminus : c ≠ '-') (hdigit : isDigit c = false) : c ∉ intText n := fun h =>
    (mem_intText h).elim hminus fun h => by
      rw [hdigit] at h
      cases h
  exact ⟨hne _ (by decide) rfl, hne _ (by decide) rfl, hne _ (by decide) rfl⟩

theorem isLine_intercalate {xs : List Text} (h : ∀ x ∈ xs, IsLine x) :
    IsLine ([','].intercalate xs) := by
  induction xs with
  | nil => exact isLine_nil
  | cons x xs ih =>
    obtain ⟨hx, hxs⟩ := List.forall_mem_cons.mp h
    cases xs with
    | nil => simpa using hx
    | cons y ys => simp [List.intercalate_cons_cons, hx, ih hxs]

theorem isLine_appendCommaIfNeeded (h : IsLine out) : IsLine (appendCommaIfNeeded out) := by
  rw [appendCommaIfNeeded]
  split
  · exact h
  · split
    · simp [h]
    · exact h

theorem isLine_jsonAppendKv (hout : IsLine out) (hkey : IsLine key) (hvalue : IsLine value) :
    IsLine (jsonAppendKv out key value) := by
  simp [jsonAppendKv, isLine_appendCommaIfNeeded hout, isLine_cString hkey, isLine_cString hvalue]

theorem isLine_jsonAppendKvInt (hout : IsLine out) (hkey : IsLine key) (n : Int) :
    IsLine (jsonAppendKvInt out key n) := by
  simp [jsonAppendKvInt, isLine_appendCommaIfNeeded hout, isLine_cString hkey, isLine_intText n]

theorem isLine_drop (h : IsLine s) (n : Nat) : IsLine (s.drop n) :=
  ⟨mt List.mem_of_mem_drop h.1, mt List.mem_of_mem_drop h.2.1, mt List.mem_of_mem_drop h.2.2⟩

theorem isLine_serializeColumn {col : Column} (h : IsLine col.name) :
    IsLine (serializeColumn col) := by
  have hname : IsLine "name".toList := by decide
  have hkey : IsLine "type".toList := by decide
  have htype : IsLine (typeText col.type) := by
    cases col.type <;> decide
  exact isLine_append.mpr ⟨isLine_drop (isLine_jsonAppendKv isLine_nil hname h) 1,
    isLine_jsonAppendKv isLine_nil hkey htype⟩

/-- A cell whose text is a line. -/
def CellIsLine : Value → Prop
  | .string s => IsLine s
  | _ => True

theorem isLine_serializeRow {row : Row} (h : ∀ v ∈ row, CellIsLine v) :
    IsLine (serializeRow row) := by
  have hcells : IsLine ([','].intercalate (row.map serializeCell)) := by
    refine isLine_intercalate ?_
    intro x hx
    obtain ⟨v, hv, rfl⟩ := List.mem_map.mp hx
    cases v with
    | int n => exact isLine_intText n
    | string s => simp [serializeCell, isLine_cString (h _ hv)]
    | none => decide
  simp [serializeRow, hcells]

theorem isLine_appendTable (hout : IsLine out) (hcols : ∀ col ∈ t.columns, IsLine col.name)
    (hrows : ∀ row ∈ t.rows, ∀ v ∈ row, CellIsLine v) : IsLine (appendTable out t) := by
  have hcount : IsLine "column_count".toList := by decide
  have hrow : IsLine "row_count".toList := by decide
  have hcolumns : IsLine ([','].intercalate (t.columns.map serializeColumn)) := by
    refine isLine_intercalate ?_
    intro x hx
    obtain ⟨col, hcol, rfl⟩ := List.mem_map.mp hx
    exact isLine_serializeColumn (hcols col hcol)
  have htable : IsLine ([','].intercalate (t.rows.map serializeRow)) := by
    refine isLine_intercalate ?_
    intro x hx
    obtain ⟨row, hrow, rfl⟩ := List.mem_map.mp hx
    exact isLine_serializeRow (hrows row hrow)
  have hcomma : IsLine (out ++ [',']) := by
    simp [hout]
  have hcounts := isLine_jsonAppendKvInt (isLine_jsonAppendKvInt hcomma hcount t.columns.length)
    hrow t.rows.length
  simp only [appendTable, isLine_append]
  exact ⟨⟨⟨⟨⟨hcounts, by decide⟩, hcolumns⟩, by decide⟩, htable⟩, by decide⟩

/-- **An answer is a line** when its message, the names of its columns and its cells are. -/
theorem isLine_serializeExecResult (hmessage : IsLine r.message)
    (htable : ∀ t, r.resultTable = some t → (∀ col ∈ t.columns, IsLine col.name) ∧
      ∀ row ∈ t.rows, ∀ v ∈ row, CellIsLine v) : IsLine (serializeExecResult r) := by
  have hstatus : IsLine "status".toList := by decide
  have hkey : IsLine "message".toList := by decide
  have hopen (s : Text) (hs : IsLine s) : IsLine (jsonAppendKv (jsonAppendKv ['\x7b']
      "status".toList s) "message".toList r.message) :=
    isLine_jsonAppendKv (isLine_jsonAppendKv (by decide) hstatus hs) hkey hmessage
  rw [serializeExecResult]
  split
  · exact isLine_append.mpr ⟨hopen "error".toList (by decide), by decide⟩
  · have hok := hopen "ok".toList (by decide)
    refine isLine_append.mpr ⟨?_, by decide⟩
    split
    · exact hok
    · next t ht =>
      split
      · exact hok
      · exact isLine_appendTable hok (htable t ht).1 (htable t ht).2

/-- Each row takes room. -/
theorem length_intercalate_rows (rows : List Row) :
    2 * rows.length ≤ ([','].intercalate (rows.map serializeRow)).length := by
  induction rows with
  | nil => simp
  | cons row rows ih =>
    cases rows with
    | nil => simp [serializeRow]
    | cons row' rows =>
      rw [List.map_cons, List.map_cons, List.intercalate_cons_cons]
      simp only [List.length_append, List.map_cons, List.length_cons, serializeRow] at ih ⊢
      omega

/-- **An answer is longer than its table has rows**, twice over. -/
theorem length_serializeExecResult (hok : r.status = .ok) (ht : r.resultTable = some t)
    (hcols : t.columns ≠ []) : 2 * t.rows.length < (serializeExecResult r).length := by
  have hrows := length_intercalate_rows t.rows
  rw [serializeExecResult]
  simp only [hok, ht, List.isEmpty_eq_false_iff.mpr hcols, Bool.false_eq_true, if_false,
    appendTable, List.length_append, List.length_singleton]
  omega

end Long

/-- The answer to a query over `n` rows. -/
def longAnswer (n : Nat) : ExecResult :=
  { message := "Query OK".toList
    resultTable := some (Executor.sampleTable (List.replicate n [.int 1])) }

/-- **An answer with 4096 rows is cut.** -/
theorem long_answer_cut : IsLine (serializeExecResult (longAnswer 4096)) ∧
    (recvLines 1 (sendLine (serializeExecResult (longAnswer 4096)))).1
      ≠ [serializeExecResult (longAnswer 4096)] := by
  have hline : IsLine (serializeExecResult (longAnswer 4096)) := by
    refine isLine_serializeExecResult (by decide) fun t ht => ?_
    cases ht
    refine ⟨List.forall_mem_singleton.mpr (by decide), fun row hrow v hv => ?_⟩
    rw [List.eq_of_mem_replicate hrow] at hv
    rw [List.mem_singleton.mp hv]
    trivial
  have hlong := length_serializeExecResult (r := longAnswer 4096) rfl rfl (List.cons_ne_nil _ _)
  rw [show (Executor.sampleTable (List.replicate 4096 [.int 1])).rows.length = 4096 from
    List.length_replicate] at hlong
  refine ⟨hline, ?_⟩
  have hcut := recvLines_of_gt hline (Nat.lt_of_lt_of_le (by decide) hlong.le) 0 [] []
  rwa [List.append_nil] at hcut

end MiniDB.Network

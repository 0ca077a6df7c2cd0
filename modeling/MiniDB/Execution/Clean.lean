import MiniDB.Core.Numerals
import MiniDB.Execution.Frame
import MiniDB.Execution.Reachable

/-!
# Execution/Clean — statements without line breaks

A name is spelt in identifier characters, and a string literal holds no quote; so where the
statements hold no line break, neither do the cells they store (`cells_clean`), and no answer has a
quote, a line break or a NUL in its message, the names of its columns or its cells.

**`run_clean`**: in every state that statements without line breaks reach, such a statement is
answered with clean texts.
-/

namespace MiniDB.Parser

open MiniDB.Core Reader Lang

/-- The literals an INSERT or an UPDATE puts into a table, each with its flag. -/
def SQLStatement.stored (stmt : SQLStatement) : List (Text × Bool) :=
  match stmt.kind with
  | .insert => stmt.insertStmt.values.zip stmt.insertStmt.isInt
  | .update => [(stmt.updateStmt.setValue, stmt.updateStmt.setIsInt)]
  | _ => []

section Stored

variable {P : Token → Prop} {C : Text × Bool → Prop}

/-- What holds of every literal that a token can be, and of the missing one. -/
structure LiteralsAre (P : Token → Prop) (C : Text × Bool → Prop) : Prop where
  int : ∀ t, P t → t.kind = .intLiteral → C (t.lexeme, true)
  string : ∀ t, P t → t.kind = .stringLiteral → C (t.lexeme, false)
  nil : C ([], false)

theorem value_stored (h : LiteralsAre P C) (lax : Bool) : (value lax).Ensures P C := by
  refine Ensures.alt ?_ (Ensures.alt ?_ (ensures_given fun _ => h.nil))
  · exact (ensures_one fun t ht hP => h.int t hP (eq_of_beq ht)).bind fun _ h => ensures_pure h
  · exact (ensures_one fun t ht hP => h.string t hP (eq_of_beq ht)).bind fun _ h => ensures_pure h

/-- **What a statement stores are literals of its tokens**, or the missing one. -/
theorem sentence_stored (h : LiteralsAre P C) (lax : Bool) :
    (sentence lax).Ensures P fun stmt => ∀ v ∈ stmt.stored, C v := by
  let Keeps : SQLStatement → Prop := fun stmt => ∀ v ∈ stmt.stored, C v
  have after {α : Type} {L : Lang Token α} {F : α → Lang Token SQLStatement}
      (h : ∀ a, (F a).Ensures P Keeps) : (L >>= F).Ensures P Keeps :=
    Ensures.bind (Q := fun _ => True) (fun _ _ _ _ => trivial) fun a _ => h a
  have semi {stmt : SQLStatement} (h : Keeps stmt) : (semicolon stmt).Ensures P Keeps :=
    Ensures.alt (after fun _ => ensures_pure h) (ensures_pure h)
  have tail {stmt : SQLStatement} {add : WhereClause → SQLStatement} (h : Keeps stmt)
      (hadd : ∀ wc, Keeps (add wc)) : (whereTail lax stmt add).Ensures P Keeps :=
    Ensures.bind (Ensures.alt (after fun _ => after fun wc => ensures_pure (hadd wc))
      (ensures_pure h)) fun _ => semi
  have none {stmt : SQLStatement} (h : stmt.stored = []) : Keeps stmt := by simp [Keeps, h]
  refine Ensures.alt (after fun _ => Ensures.alt ?_ ?_) <|
    Ensures.alt (after fun _ => Ensures.alt ?_ ?_) <|
    Ensures.alt (after fun _ => after fun _ => semi (none rfl)) <|
    Ensures.alt (after fun _ => ?_) <| Ensures.alt (after fun _ => ?_) <|
    Ensures.alt (after fun _ => ?_) (after fun _ => ?_)
  · exact after fun _ => after fun _ => semi (none rfl)
  · exact after fun _ => after fun _ => after fun _ => after fun _ => semi (none rfl)
  · exact after fun _ => after fun _ => semi (none rfl)
  · exact after fun _ => after fun _ => semi (none rfl)
  · exact after fun _ => after fun _ => after fun _ => tail (none rfl) fun _ => none rfl
  · exact after fun _ => after fun _ => tail (none rfl) fun _ => none rfl
  · refine after fun _ => after fun _ => after fun _ => after fun _ =>
      ((value_stored h lax).items.notFrom).bind fun vals hv => semi fun v hmem => ?_
    simp only [SQLStatement.stored, List.zip_map', List.map_id'] at hmem
    exact hv.2 v hmem
  · refine after fun _ => after fun _ => after fun _ => after fun _ =>
      (value_stored h lax).bind fun v hv => tail ?_ fun _ => ?_
    · exact fun w hw => List.mem_singleton.mp hw ▸ hv
    · exact fun w hw => List.mem_singleton.mp hw ▸ hv

end Stored

theorem IsName.clean {n : Text} (h : IsName n) : n.all isClean = true :=
  List.all_eq_true.mpr fun c hc => isClean_of_isIdentChar (h.2 c hc)

/-- A text without line breaks. -/
def Unbroken (s : Text) : Prop := '\r' ∉ s ∧ '\n' ∉ s

section Parsed

variable {sql : Text} {stmt : SQLStatement}

/-- **What a text stores** is read off its tokens. -/
theorem parse_stored {C : Text × Bool → Prop} (h : (Lexer.tokenize sql).2.hasError = false →
    LiteralsAre (· ∈ (Lexer.tokenize sql).1) C) (hparse : parse sql = some stmt) :
    ∀ v ∈ stmt.stored, C v := by
  have hnone (hk : stmt.kind = .invalid) : ∀ v ∈ stmt.stored, C v := by
    simp [SQLStatement.stored, hk]
  simp only [parse] at hparse
  split_ifs at hparse with herr
  · exact hnone (by cases hparse; rfl)
  · cases hp : parseTokens (Lexer.tokenize sql).1 with
    | ok s rest =>
      rw [hp] at hparse
      obtain rfl := Option.some.inj hparse
      obtain ⟨w, hw, hs⟩ := reads_statement.follows.sound hp
      exact sentence_stored (h (by simpa using herr)) true hs
        fun t ht => hw ▸ List.mem_append_left rest ht
    | error e =>
      rw [hp] at hparse
      obtain rfl := Option.some.inj hparse
      exact hnone (honest_parseStatement hp).1.1
    | outOfRange =>
      rw [hp] at hparse
      cases hparse

/-- **A text without line breaks stores clean texts.** -/
theorem parse_clean (hsql : Unbroken sql) (hparse : parse sql = some stmt) :
    ∀ v ∈ stmt.stored, v.1.all isClean = true := by
  refine parse_stored (C := fun v => v.1.all isClean = true) (fun herr => ?_) hparse
  have hclean : ∀ t ∈ (Lexer.tokenize sql).1, t.kind ≠ .endOfFile →
      t.lexeme.all isClean = true := by
    intro t ht hkind
    obtain ⟨hsub, rest, hspell, -⟩ := tokenize_stands herr t ht hkind
    refine List.all_eq_true.mpr fun c hc => ?_
    have hsrc : c ∈ sql := (List.takeWhile_prefix _).subset (hsub hc)
    unfold isClean
    simp only [Bool.and_eq_true, bne_iff_ne]
    refine ⟨⟨⟨?_, ?_⟩, ?_⟩, ?_⟩
    · exact fun heq => hspell.noQuote (heq ▸ hc)
    · exact fun heq => hsql.1 (heq ▸ hsrc)
    · exact fun heq => hsql.2 (heq ▸ hsrc)
    · exact fun heq => notMem_cString sql (heq ▸ hsub hc)
  exact ⟨fun t ht hk => hclean t ht (by simp [hk]), fun t ht hk => hclean t ht (by simp [hk]), rfl⟩

/-- **A text without quotes stores no text**: each literal is an int, or missing. -/
theorem parse_bare (hsql : '"' ∉ sql) (hparse : parse sql = some stmt) :
    ∀ v ∈ stmt.stored, v.2 = true ∨ v.1 = [] := by
  refine parse_stored (C := fun v => v.2 = true ∨ v.1 = []) (fun herr => ?_) hparse
  refine ⟨fun t _ _ => .inl rfl, fun t ht hk => ?_, .inr rfl⟩
  obtain ⟨-, rest, hspell, hraw⟩ := tokenize_stands herr t ht (by simp [hk])
  have hquote : '"' ∈ t.raw := by simp [Token.raw, hk]
  exact absurd ((List.takeWhile_prefix _).subset (hraw hquote)) hsql

end Parsed

end MiniDB.Parser

namespace MiniDB.Execution

open MiniDB.Core MiniDB.Parser MiniDB.Storage

/-- A cell without a quote, a line break or a NUL. -/
def CleanCell : Value → Prop
  | .string s => s.all isClean = true
  | _ => True

/-- An int, or the empty text. -/
def BareCell : Value → Prop
  | .int _ => True
  | .string s => s = []
  | .none => False

/-- An answer without quotes, line breaks and NULs: its message, the names of its columns and its
cells. -/
structure CleanAnswer (r : ExecResult) : Prop where
  message : r.message.all isClean = true
  columns : ∀ t, r.resultTable = some t → ∀ col ∈ t.columns, col.name.all isClean = true
  cells : ∀ t, r.resultTable = some t → ∀ row ∈ t.rows, ∀ v ∈ row, CleanCell v

namespace Executor

/-! ## Cells -/

/-- All cells of the table have a property. -/
def CellsAre (D : Value → Prop) (s : Slot) : Prop := ∀ row ∈ s.table.rows, ∀ v ∈ row, D v

section Cells

variable {C : Text × Bool → Prop} {D : Value → Prop}

/-- **A step keeps what holds of every cell**, when it holds of the literals it stores. -/
theorem cellsAre_step (hlit : ∀ v, C v → D (literal v.1 v.2)) {s s' : Slot} {stmt : SQLStatement}
    (h : CellsAre D s) (hok : ∀ v ∈ stmt.stored, C v) (hst : SlotStep s stmt s') :
    CellsAre D s' := by
  cases hst with
  | insert hk =>
    intro row hrow v hv
    rcases List.mem_append.mp hrow with hrow | hrow
    · exact h row hrow v hv
    · rw [List.mem_singleton.mp hrow] at hv
      obtain ⟨lit, hmem, rfl⟩ := List.mem_map.mp hv
      exact hlit lit (hok lit (by rwa [SQLStatement.stored, hk]))
  | delete => exact fun row hrow => h row (List.mem_of_mem_filter hrow)
  | update hk =>
    intro row hrow v hv
    obtain ⟨row, hmem, rfl⟩ := List.mem_map.mp hrow
    rw [updateRow] at hv
    split at hv
    · rcases List.mem_or_eq_of_mem_set hv with hv | rfl
      · exact h row hmem v hv
      · exact hlit (_, _) (hok _ (by simp [SQLStatement.stored, hk]))
    · exact h row hmem v hv

/-- **What holds of every literal that the statements store holds of every cell.** -/
theorem cells_of_reaches {ok : Text → Prop}
    (hok : ∀ sql stmt, ok sql → parse sql = some stmt → ∀ v ∈ stmt.stored, C v)
    (hlit : ∀ v, C v → D (literal v.1 v.2)) {root : Text} {disk : Disk} {e : Executor}
    (h : Machine.Reaches run (fun _ sql => ok sql) (new root disk) e) :
    ∀ s ∈ e.slots, CellsAre D s := by
  have hguarded : Machine.Reaches run (Guarded fun stmt _ => ∀ v ∈ stmt.stored, C v)
      (new root disk) e :=
    h.mono fun e sql hsql stmt hparse _ _ _ => hok sql stmt hsql hparse
  exact slots_invariant (P := CellsAre D) (fun _ _ _ => nofun) (fun _ => cellsAre_step hlit) hguarded

/-- Statements without line breaks store clean cells only. -/
theorem cells_clean {root : Text} {disk : Disk} {e : Executor}
    (h : Machine.Reaches run (fun _ sql => Unbroken sql) (new root disk) e) :
    ∀ s ∈ e.slots, CellsAre CleanCell s := by
  refine cells_of_reaches (fun sql stmt => parse_clean) (fun v hv => ?_) h
  rw [literal]
  split
  · trivial
  · exact hv

/-- Statements without quotes store ints and empty texts only. -/
theorem cells_bare {root : Text} {disk : Disk} {e : Executor}
    (h : Machine.Reaches run (fun _ sql => '"' ∉ sql) (new root disk) e) :
    ∀ s ∈ e.slots, CellsAre BareCell s := by
  refine cells_of_reaches (fun sql stmt => parse_bare) (fun v hv => ?_) h
  rw [literal]
  split
  · trivial
  · next hint => exact hv.resolve_left hint

end Cells

/-! ## Messages -/

section Messages

variable {e : Executor} {k : StmtKind} {n before after msg : Text}

/-- The message of an answer is clean, and only a SELECT is answered with a table. -/
def Says (k : StmtKind) (r : ExecResult) (_ : Executor) : Prop :=
  r.message.all isClean = true ∧ ∀ t, r.resultTable = some t → k = .select

theorem all_isClean_cString (h : msg.all isClean = true) : (cString msg).all isClean = true :=
  List.all_eq_true.mpr fun c hc =>
    List.all_eq_true.mp h c ((List.takeWhile_prefix _).subset hc)

theorem all_isClean_snprintf (size : Nat) (h : msg.all isClean = true) :
    (snprintf size msg).all isClean = true :=
  List.all_eq_true.mpr fun c hc => List.all_eq_true.mp h c (List.mem_of_mem_take hc)

theorem says_ok (h : msg.all isClean = true) : Says k (.ok msg) e := ⟨all_isClean_cString h, nofun⟩

theorem says_error (h : msg.all isClean = true) : Says k (.error msg) e :=
  ⟨all_isClean_cString h, nofun⟩

theorem says_noDatabase : ∀ msg ∈ noDatabase, Says k (.error msg) e := by
  refine List.forall_mem_cons.mpr ⟨says_error (by decide), ?_⟩
  exact List.forall_mem_singleton.mpr (says_error (by decide))

theorem all_isClean_nameMessage (h : IsName n) (hbefore : before.all isClean = true)
    (hafter : after.all isClean = true) : (nameMessage before n after).all isClean = true := by
  refine all_isClean_snprintf _ ?_
  rw [List.all_append, List.all_append, hbefore, all_isClean_cString h.clean, hafter]
  rfl

theorem says_noTable (h : IsName n) : Says k (noTable n) e :=
  says_error (all_isClean_nameMessage h (by decide) (by decide))

theorem says_noColumn {col : Text} (hcol : IsName col) (h : IsName n) :
    Says k (noColumn col n) e := by
  refine says_error (all_isClean_snprintf _ ?_)
  simp only [List.all_append, Bool.and_eq_true]
  exact ⟨⟨⟨⟨by decide, all_isClean_cString hcol.clean⟩, by decide⟩,
    all_isClean_cString h.clean⟩, by decide⟩

theorem says_noWhere {hasWhere : Bool} {cond : WhereClause} {missing : Bool}
    (hwhere : hasWhere = true → cond.WellFormed ∧ IsOperator cond.op) (h : IsName n)
    (hmiss : (hasWhere && missing) = true) : Says k (noColumn cond.column n) e :=
  says_noColumn (hwhere (Bool.and_eq_true_iff.mp hmiss).1).1.name h

theorem all_isClean_intText (n : Int) : (intText n).all isClean = true := by
  refine List.all_eq_true.mpr fun c hc => ?_
  rcases mem_intText hc with rfl | hdigit
  · rfl
  · exact isClean_of_isDigit hdigit

theorem says_count (m : Nat) {text : String} (h : text.toList.all isClean = true) :
    Says k (.ok (countMessage m text)) e := by
  refine says_ok (all_isClean_snprintf _ ?_)
  rw [List.all_append, isClean_natText, h]
  rfl

/-- **Every statement of the parser is answered with a clean message**, and only a SELECT with a
table. -/
theorem says_execute {stmt : SQLStatement} (h : Denoted stmt ∨ stmt.Reported) :
    Ends (Says stmt.kind) (e.execute stmt) := by
  rcases h with h | h
  case inr =>
    rw [execute, h.1.1]
    refine ends_some (says_error ?_)
    rw [if_neg (by simpa using h.1.2)]
    exact h.2.clean
  have named {k : StmtKind} {before after : Text} {n : Text} (hn : IsName n)
      (hbefore : before.all isClean = true) (hafter : after.all isClean = true) :
      Says k (.ok (nameMessage before n after)) e ∧
        Says k (.error (nameMessage before n after)) e :=
    ⟨says_ok (all_isClean_nameMessage hn hbefore hafter),
      says_error (all_isClean_nameMessage hn hbefore hafter)⟩
  cases h with
  | createDatabase hn =>
    exact ends_ite (fun _ => ends_some (named hn (by decide) (by decide)).2)
      fun _ => ends_some (named hn (by decide) (by decide)).1
  | dropDatabase hn =>
    refine ends_ite (fun _ => ends_bind fun _ _ => ?_) fun _ => ?_
    all_goals
      exact ends_ite (fun _ => ends_some (named hn (by decide) (by decide)).2)
        fun _ => ends_some (named hn (by decide) (by decide)).1
  | use hn => exact ends_some (named hn (by decide) (by decide)).1
  | createTable hn =>
    exact ends_withDb says_noDatabase fun _ _ =>
      ends_ite (fun _ => ends_some (named hn (by decide) (by decide)).2)
        fun _ => ends_some (named hn (by decide) (by decide)).1
  | dropTable hn =>
    exact ends_withDb says_noDatabase fun _ _ => ends_bind fun _ _ =>
      ends_ite (fun _ => ends_some (says_noTable hn))
        fun _ => ends_some (named hn (by decide) (by decide)).1
  | select hn hcol hwhere =>
    refine ends_withTable says_noDatabase (says_noTable hn) fun _ _ t =>
      ends_ite (fun hmiss => ends_some ?_) fun _ =>
      ends_ite (fun hmiss => ends_some (says_noWhere hwhere hn hmiss)) fun _ => ?_
    · simp only [Bool.and_eq_true, Bool.not_eq_true', beq_eq_false_iff_ne] at hmiss
      exact says_noColumn (hcol.resolve_left hmiss.1) hn
    · refine ends_bind fun _ _ => ends_bind fun _ _ => ends_some ⟨?_, fun _ _ => rfl⟩
      exact all_isClean_cString (by decide)
  | delete hn hwhere =>
    refine ends_withTable says_noDatabase (says_noTable hn) fun _ _ t => ends_bind fun _ _ =>
      ends_ite (fun hmiss => ends_some (says_noWhere hwhere hn hmiss)) fun _ => ?_
    exact ends_bind fun _ _ => ends_some (says_count _ (by decide))
  | insert hn =>
    refine ends_withTable says_noDatabase (says_noTable hn) fun _ _ t =>
      ends_ite (fun _ => ends_some (says_error (all_isClean_snprintf _ ?_))) fun _ => ?_
    · simp only [List.all_append, Bool.and_eq_true]
      exact ⟨⟨⟨by decide, isClean_natText _⟩, by decide⟩, isClean_natText _⟩
    · refine ends_bind fun _ _ => ends_bind fun _ _ => ends_bind fun found _ =>
        ends_ite (fun _ => ends_some (says_error (all_isClean_snprintf _ ?_))) fun _ => ?_
      · rw [List.all_append, all_isClean_intText]
        decide
      · exact ends_bind fun _ _ => ends_some (says_ok (by decide))
  | update hn hcol hlit _ hwhere =>
    refine ends_withTable says_noDatabase (says_noTable hn) fun _ _ t => ?_
    split
    · exact ends_some (says_noColumn hcol hn)
    · refine ends_ite (fun hmiss => ends_some (says_noWhere hwhere hn hmiss)) fun _ => ?_
      exact ends_bind fun _ _ => ends_bind fun _ _ => ends_some (says_count _ (by decide))

end Messages

/-! ## Answers -/

section Answers

variable {e e' : Executor} {stmt : SQLStatement} {r : ExecResult}

/-- The table of an answer is taken from one of the tables. -/
theorem table_of_execute (he : e.WellFormed) (hk : stmt.kind = .select) (hs : stmt.WellFormed)
    (hexec : e.execute stmt = some (r, e')) {t : Table} (ht : r.resultTable = some t) :
    ∃ s ∈ e.slots, s.WellFormed ∧ t = selectAnswer stmt.selectStmt s.table := by
  rw [execute, hk] at hexec
  change e.execSelect stmt.selectStmt = some (r, e') at hexec
  simp only [SQLStatement.WellFormed, hk] at hs
  cases he with
  | idle hname _ =>
    rw [execSelect, withTable, withDb, if_pos (by simp [hname])] at hexec
    cases hexec
    cases ht
  | @holds name dir slots hh hslots =>
    rcases Database.absent_or_split slots stmt.selectStmt.tableName with
      habs | ⟨pre, s, post, rfl, hname, hfirst⟩
    · rw [execSelect, withTable_absent hh hs.1.noNul habs] at hexec
      cases hexec
      cases ht
    · have hat : e.At stmt.selectStmt.tableName name dir pre s post :=
        ⟨hh, hs.1.noNul, hname, hfirst, hslots.slot s (by simp)⟩
      rw [execSelect_at hat] at hexec
      split_ifs at hexec
      · cases hexec
        cases ht
      · cases hexec
        cases ht
      · cases hexec
        cases ht
        exact ⟨s, by simp [hh.slots_eq], hat.slot, rfl⟩

/-- A projection keeps some of the cells. -/
theorem mem_of_mem_project {target : Option Nat} {row : Row} {v : Value}
    (h : v ∈ project target row) : v ∈ row := by
  cases target with
  | none => exact h
  | some c => exact List.mem_of_getElem? (Option.mem_toList.mp h)

/-- Only a SELECT of the parser is answered with a table, taken from one of the tables. -/
theorem select_of_execute (he : e.WellFormed) (hs : Denoted stmt ∨ stmt.Reported)
    (hexec : e.execute stmt = some (r, e')) {t : Table} (ht : r.resultTable = some t) :
    ∃ s ∈ e.slots, s.WellFormed ∧ t = selectAnswer stmt.selectStmt s.table := by
  have hk := (says_execute hs hexec).2 t ht
  have hwf := (hs.resolve_right fun h => by cases hk.symm.trans h.1.1).wellFormed
  exact table_of_execute he hk hwf hexec ht

/-- What holds of every cell of the tables holds of those of an answer. -/
theorem cells_of_execute {D : Value → Prop} (he : e.WellFormed)
    (hslots : ∀ s ∈ e.slots, CellsAre D s) (hs : Denoted stmt ∨ stmt.Reported)
    (hexec : e.execute stmt = some (r, e')) {t : Table} (ht : r.resultTable = some t) :
    ∀ row ∈ t.rows, ∀ v ∈ row, D v := by
  intro row hmem v hv
  obtain ⟨s, hs, -, rfl⟩ := select_of_execute he hs hexec ht
  obtain ⟨row, hrow, rfl⟩ := List.mem_map.mp hmem
  exact hslots s hs row (List.mem_of_mem_filter hrow) v (mem_of_mem_project hv)

theorem cleanAnswer_of_execute (he : e.WellFormed) (hslots : ∀ s ∈ e.slots, CellsAre CleanCell s)
    (hs : Denoted stmt ∨ stmt.Reported) (hexec : e.execute stmt = some (r, e')) :
    CleanAnswer r := by
  refine ⟨(says_execute hs hexec).1, fun t ht col hcol => ?_,
    fun t ht => cells_of_execute he hslots hs hexec ht⟩
  obtain ⟨s, -, hwf, rfl⟩ := select_of_execute he hs hexec ht
  refine (hwf.table.columnNames col ?_).clean
  simp only [selectAnswer, selectColumns] at hcol
  split at hcol
  · exact hcol
  · exact List.mem_of_getElem? (Option.mem_toList.mp hcol)

end Answers

/-- **Without line breaks in the statements there is none in the tables and none in the answers**,
nor a quote or a NUL: in every state that such statements reach, the cells are clean, and every such
statement is answered with a clean message and a table of clean names and cells. -/
theorem run_clean {root : Text} {disk : Disk} {e : Executor}
    (h : Machine.Reaches run (fun _ sql => Unbroken sql) (new root disk) e) :
    (∀ s ∈ e.slots, CellsAre CleanCell s) ∧
      ∀ sql r e', Unbroken sql → e.run sql = some (r, e') → CleanAnswer r := by
  refine ⟨cells_clean h, fun sql r e' hsql hrun => ?_⟩
  obtain ⟨stmt, hparse, hexec, -⟩ := run_moves (wellFormed_of_reaches h) hrun
  exact cleanAnswer_of_execute (wellFormed_of_reaches h) (cells_clean h) (parse_reported hparse)
    hexec

/-- A string on its way through a table. -/
theorem run_clean_string : ∃ (e : Executor) (r : ExecResult) (e' : Executor),
    (∀ s ∈ e.slots, CellsAre CleanCell s) ∧ e.run "select a from t".toList = some (r, e') ∧
      CleanAnswer r := by
  have hsome : ((Machine.exec run (new "data".toList {}) ["use d".toList,
      "create table t (a string)".toList, "insert into t values (\"x\")".toList]).bind
        fun p => p.2.run "select a from t".toList).isSome = true := by decide +kernel
  obtain ⟨⟨r, e'⟩, h⟩ := Option.isSome_iff_exists.mp hsome
  obtain ⟨⟨rs, e⟩, hexec, hrun⟩ := Option.bind_eq_some_iff.mp h
  have hclean := run_clean ((Machine.run_of_exec hexec).reaches fun _ sql hsql => by
    revert sql
    unfold Unbroken
    decide)
  have hselect : Unbroken "select a from t".toList := by
    unfold Unbroken
    decide
  exact ⟨e, r, e', hclean.1, hrun, hclean.2 _ _ _ hselect hrun⟩

end Executor

end MiniDB.Execution

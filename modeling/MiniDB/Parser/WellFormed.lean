import MiniDB.Parser.Grammar
import MiniDB.Parser.Lossless

/-!
# Parser/WellFormed — what the executor may rely on

A statement the parser returns is INVALID with a message, or of one of the nine kinds with names
that are names, literals that are literals, and lists that are not empty.

**`parse_wellFormed`**: every statement `parse` returns is one or the other.
-/

namespace MiniDB.Parser

open MiniDB.Core Reader Lang

/-! ## Well-formed statements -/

/-- The text of a literal with its flag: digits, or a text without NUL. -/
def IsLiteral (v : Text × Bool) : Prop := '\x00' ∉ v.1 ∧ (v.2 = true → IsNumeral v.1)

structure WhereClause.WellFormed (wc : WhereClause) : Prop where
  name : IsName wc.column
  literal : IsLiteral (wc.constValue, wc.isIntLiteral)

/-- What holds of the part of a statement that its kind names. -/
def SQLStatement.WellFormed (stmt : SQLStatement) : Prop :=
  match stmt.kind with
  | .createDatabase => IsName stmt.createDatabase.databaseName
  | .dropDatabase => IsName stmt.dropDatabase.databaseName
  | .use => IsName stmt.useStmt.databaseName
  | .createTable => IsName stmt.createTable.tableName ∧ stmt.createTable.columns ≠ [] ∧
      (∀ col ∈ stmt.createTable.columns, IsName col.name) ∧
      stmt.createTable.columns.countP ColumnDef.isPrimary ≤ 1
  | .dropTable => IsName stmt.dropTable.tableName
  | .select => IsName stmt.selectStmt.tableName ∧
      (stmt.selectStmt.columnName = ['*'] ∨ IsName stmt.selectStmt.columnName) ∧
      (stmt.selectStmt.hasWhere = true → stmt.selectStmt.cond.WellFormed)
  | .delete => IsName stmt.deleteStmt.tableName ∧
      (stmt.deleteStmt.hasWhere = true → stmt.deleteStmt.cond.WellFormed)
  | .insert => IsName stmt.insertStmt.tableName ∧ stmt.insertStmt.values ≠ [] ∧
      stmt.insertStmt.values.length = stmt.insertStmt.isInt.length ∧
      ∀ v ∈ stmt.insertStmt.values.zip stmt.insertStmt.isInt, IsLiteral v
  | .update => IsName stmt.updateStmt.tableName ∧ IsName stmt.updateStmt.setColumn ∧
      IsLiteral (stmt.updateStmt.setValue, stmt.updateStmt.setIsInt) ∧
      (stmt.updateStmt.hasWhere = true → stmt.updateStmt.cond.WellFormed)
  | .invalid => False

/-- An INVALID statement, with a message. -/
def SQLStatement.Failed (stmt : SQLStatement) : Prop := stmt.kind = .invalid ∧ stmt.errorMsg ≠ []

/-- No quote, no line break and no NUL. -/
def isClean (c : Char) : Bool := c != '"' && c != '\r' && c != '\n' && c != '\x00'

/-- A message that can be put between quotes, and on a line: clean and short. -/
structure IsReport (m : Text) : Prop where
  clean : m.all isClean = true
  short : m.length < 512

/-- A failed statement whose message is a report. -/
def SQLStatement.Reported (stmt : SQLStatement) : Prop := stmt.Failed ∧ IsReport stmt.errorMsg

/-- An operator of a condition. -/
def IsOperator (op : Text) : Prop := op = ['='] ∨ op = ['<'] ∨ op = ['>']

/-- The nine forms of a statement, with what the fields of each are. -/
inductive Denoted : SQLStatement → Prop
  | createDatabase {n : Text} (hn : IsName n) :
      Denoted { kind := .createDatabase, createDatabase := { databaseName := n } }
  | dropDatabase {n : Text} (hn : IsName n) :
      Denoted { kind := .dropDatabase, dropDatabase := { databaseName := n } }
  | use {n : Text} (hn : IsName n) : Denoted { kind := .use, useStmt := { databaseName := n } }
  | createTable {s : CreateTableStmt} (hn : IsName s.tableName) (hne : s.columns ≠ [])
      (hnames : ∀ col ∈ s.columns, IsName col.name)
      (hone : s.columns.countP ColumnDef.isPrimary ≤ 1) :
      Denoted { kind := .createTable, createTable := s }
  | dropTable {n : Text} (hn : IsName n) :
      Denoted { kind := .dropTable, dropTable := { tableName := n } }
  | select {s : SelectStmt} (hn : IsName s.tableName)
      (hcol : s.columnName = ['*'] ∨ IsName s.columnName)
      (hwhere : s.hasWhere = true → s.cond.WellFormed ∧ IsOperator s.cond.op) :
      Denoted { kind := .select, selectStmt := s }
  | delete {s : DeleteStmt} (hn : IsName s.tableName)
      (hwhere : s.hasWhere = true → s.cond.WellFormed ∧ IsOperator s.cond.op) :
      Denoted { kind := .delete, deleteStmt := s }
  | insert {s : InsertStmt} (hn : IsName s.tableName) (hne : s.values ≠ [])
      (hlen : s.values.length = s.isInt.length) (hlit : ∀ v ∈ s.values.zip s.isInt, IsLiteral v) :
      Denoted { kind := .insert, insertStmt := s }
  | update {s : UpdateStmt} (hn : IsName s.tableName) (hcol : IsName s.setColumn)
      (hlit : IsLiteral (s.setValue, s.setIsInt)) (hquote : '"' ∉ s.setValue)
      (hwhere : s.hasWhere = true → s.cond.WellFormed ∧ IsOperator s.cond.op) :
      Denoted { kind := .update, updateStmt := s }

theorem Denoted.wellFormed {stmt : SQLStatement} (h : Denoted stmt) : stmt.WellFormed := by
  cases h with
  | createDatabase hn => exact hn
  | dropDatabase hn => exact hn
  | use hn => exact hn
  | createTable hn hne hnames hone => exact ⟨hn, hne, hnames, hone⟩
  | dropTable hn => exact hn
  | select hn hcol hwhere => exact ⟨hn, hcol, fun h => (hwhere h).1⟩
  | delete hn hwhere => exact ⟨hn, fun h => (hwhere h).1⟩
  | insert hn hne hlen hlit => exact ⟨hn, hne, hlen, hlit⟩
  | update hn hcol hlit _ hwhere => exact ⟨hn, hcol, hlit, fun h => (hwhere h).1⟩

/-! ## The grammar denotes these forms -/

/-- What an error-free lexing gives of a token. -/
def Token.Spelt (t : Token) : Prop := t.Lexed ∧ ∃ w rest, Spells w t.kind t.lexeme rest

theorem tok_ensures {kind : TokenKind} {Q : Token → Prop}
    (h : ∀ t : Token, t.kind = kind → t.Spelt → Q t) : (tok kind).Ensures Token.Spelt Q :=
  ensures_one fun t ht hl => h t (eq_of_beq ht) hl

theorem name_ensures : (tok .identifier).Ensures Token.Spelt fun t => IsName t.lexeme :=
  tok_ensures fun _ ht hl => hl.1.name ht

theorem any_ensures (kind : TokenKind) : (tok kind).Ensures Token.Spelt fun _ => True :=
  tok_ensures fun _ _ _ => trivial

/-- No token's text holds a quote. -/
theorem Spells.noQuote {w lexeme rest : Text} {kind : TokenKind} (h : Spells w kind lexeme rest) :
    '"' ∉ lexeme := by
  cases h with
  | mark h =>
    intro hmem
    rw [← List.mem_singleton.mp hmem] at h
    cases h
  | string h => exact h
  | number h => exact fun hmem => absurd (h.2 _ hmem) (by decide)
  | word h =>
    cases w with
    | nil => exact List.not_mem_nil
    | cons c s => exact fun hmem => absurd ((isWord_cons.mp h).2 _ hmem) (by decide)

theorem value_ensures (lax : Bool) :
    (value lax).Ensures Token.Spelt fun v => IsLiteral v ∧ '"' ∉ v.1 := by
  have hquote {t : Token} (hl : t.Spelt) : '"' ∉ t.lexeme :=
    let ⟨_, _, hspell⟩ := hl.2
    hspell.noQuote
  refine Ensures.alt (Ensures.bind (tok_ensures fun _ ht hl => And.intro hl (hl.1.numeral ht))
      fun _ h => ensures_pure ⟨⟨h.1.1.noNul, fun _ => h.2⟩, hquote h.1⟩) <|
    Ensures.alt (Ensures.bind (tok_ensures fun _ _ hl => hl)
      fun _ h => ensures_pure ⟨⟨h.1.noNul, nofun⟩, hquote h⟩) <|
    ensures_given fun _ => ⟨⟨List.not_mem_nil, nofun⟩, List.not_mem_nil⟩

/-- An operator is spelt by its mark alone. -/
theorem Spells.operator {w lexeme rest : Text} {kind : TokenKind} (h : Spells w kind lexeme rest)
    (hk : kind.isComparison = true) : IsOperator lexeme := by
  cases h with
  | mark h =>
    unfold punctuation at h
    split at h <;> cases h <;> first | exact absurd hk (by decide) | simp [IsOperator]
  | string => cases hk
  | number => cases hk
  | word =>
    have hkw : ∀ kw ∈ keywords, kw.2.isComparison = false := by decide
    rcases matchKeyword_cases w with hmem | ⟨hname, -⟩
    · rw [hkw _ hmem] at hk
      cases hk
    · rw [hname] at hk
      cases hk

theorem comparison_ensures : comparison.Ensures Token.Spelt fun t => IsOperator t.lexeme := by
  have hmark {kind : TokenKind} (hk : kind.isComparison = true) :
      (tok kind).Ensures Token.Spelt fun t => IsOperator t.lexeme :=
    tok_ensures fun _ ht hl =>
      let ⟨_, _, hspell⟩ := hl.2
      hspell.operator (ht ▸ hk)
  exact Ensures.alt (hmark rfl) (Ensures.alt (hmark rfl) (hmark rfl))

theorem condition_ensures (lax : Bool) : (condition lax).Ensures Token.Spelt
    fun wc => wc.WellFormed ∧ IsOperator wc.op :=
  Ensures.bind name_ensures fun _ hn => Ensures.bind comparison_ensures fun _ hop =>
    Ensures.bind (value_ensures lax) fun _ hv => ensures_given fun _ => ⟨⟨hn, hv.1⟩, hop⟩

theorem semicolon_ensures {stmt : SQLStatement} (h : Denoted stmt) :
    (semicolon stmt).Ensures Token.Spelt Denoted :=
  Ensures.alt (Ensures.bind (any_ensures _) fun _ _ => ensures_pure h) (ensures_pure h)

theorem whereTail_ensures (lax : Bool) {stmt : SQLStatement} {add : WhereClause → SQLStatement}
    (h : Denoted stmt) (hadd : ∀ wc, wc.WellFormed ∧ IsOperator wc.op → Denoted (add wc)) :
    (whereTail lax stmt add).Ensures Token.Spelt Denoted :=
  Ensures.bind (Ensures.alt (Ensures.bind (any_ensures _) fun _ _ =>
      Ensures.bind (condition_ensures lax) fun wc hwc => ensures_pure (hadd wc hwc))
    (ensures_pure h)) fun _ h => semicolon_ensures h

theorem columnList_ensures : columnList.Ensures Token.Spelt fun columns =>
    columns ≠ [] ∧ (∀ col ∈ columns, IsName col.name) ∧
      columns.countP ColumnDef.isPrimary ≤ 1 := by
  have hdef : columnDef.Ensures Token.Spelt fun col => IsName col.name :=
    Ensures.bind name_ensures fun _ hn =>
      Ensures.bind (Q := fun _ => True) (fun _ _ _ _ => trivial) fun _ _ =>
      Ensures.bind (Q := fun _ => True) (fun _ _ _ _ => trivial) fun _ _ =>
      ensures_given fun _ => hn
  exact hdef.items.bind fun columns h => ensures_given fun hc => ⟨h.1, h.2, Nat.le_of_not_lt hc⟩

/-- **Every sentence denotes a statement of one of the forms.** -/
theorem sentence_ensures (lax : Bool) : (sentence lax).Ensures Token.Spelt Denoted := by
  have after {kind : TokenKind} {F : Token → Lang Token SQLStatement}
      (h : ∀ t, (F t).Ensures Token.Spelt Denoted) :
      (tok kind >>= F).Ensures Token.Spelt Denoted :=
    (any_ensures kind).bind fun t _ => h t
  have named {F : Token → Lang Token SQLStatement}
      (h : ∀ t : Token, IsName t.lexeme → (F t).Ensures Token.Spelt Denoted) :
      (tok .identifier >>= F).Ensures Token.Spelt Denoted := name_ensures.bind h
  refine Ensures.alt (after fun _ => Ensures.alt ?_ ?_) <|
    Ensures.alt (after fun _ => Ensures.alt ?_ ?_) <|
    Ensures.alt (after fun _ => named fun _ hn => semicolon_ensures (.use hn)) <|
    Ensures.alt (after fun _ => ?_) <| Ensures.alt (after fun _ => ?_) <|
    Ensures.alt (after fun _ => ?_) (after fun _ => ?_)
  · exact after fun _ => named fun _ hn => semicolon_ensures (.createDatabase hn)
  · exact after fun _ => named fun _ hn => after fun _ => columnList_ensures.bind fun _ hc =>
      semicolon_ensures (.createTable hn hc.1 hc.2.1 hc.2.2)
  · exact after fun _ => named fun _ hn => semicolon_ensures (.dropDatabase hn)
  · exact after fun _ => named fun _ hn => semicolon_ensures (.dropTable hn)
  · have hcol : (alt (tok .identifier) (tok .opStar)).Ensures Token.Spelt
        fun t => t.lexeme = ['*'] ∨ IsName t.lexeme :=
      Ensures.alt (tok_ensures fun _ ht hl => Or.inr (hl.1.name ht))
        (tok_ensures fun _ ht hl => Or.inl (hl.1.star ht))
    exact hcol.bind fun _ hc => after fun _ => named fun _ hn =>
      whereTail_ensures lax (.select hn hc nofun) fun wc hwc => .select hn hc fun _ => hwc
  · exact after fun _ => named fun _ hn =>
      whereTail_ensures lax (.delete hn nofun) fun wc hwc => .delete hn fun _ => hwc
  · refine after fun _ => named fun _ hn => after fun _ => after fun _ =>
      ((value_ensures lax).items.notFrom).bind fun vals hv =>
      semicolon_ensures (.insert hn ?_ ?_ ?_)
    · simpa using hv.1
    · simp
    · intro v hm
      rw [List.zip_map', List.map_id'] at hm
      exact (hv.2 v hm).1
  · exact named fun _ hn => after fun _ => named fun _ hc => after fun _ =>
      (value_ensures lax).bind fun v hv =>
      whereTail_ensures lax (.update hn hc hv.1 hv.2 nofun) fun wc hwc =>
        .update hn hc hv.1 hv.2 fun _ => hwc

/-! ## Messages are reports -/

section Reports

variable {s : Text} {c : Char}

theorem IsReport.notMem (h : IsReport s) (hc : isClean c = false) : c ∉ s := fun hmem => by
  rw [List.all_eq_true.mp h.clean c hmem] at hc
  cases hc

theorem IsReport.noQuote (h : IsReport s) : '"' ∉ s := h.notMem rfl

theorem isReport_snprintf {size : Nat} (hsize : size ≤ 512) (h0 : 0 < size)
    (h : s.all isClean = true) : IsReport (snprintf size s) :=
  ⟨List.all_eq_true.mpr fun c hc => List.all_eq_true.mp h c (List.mem_of_mem_take hc), by
    rw [snprintf, List.length_take]
    omega⟩

theorem isClean_of_isDigit (h : isDigit c = true) : isClean c = true := by
  unfold isClean
  simp only [Bool.and_eq_true, bne_iff_ne]
  refine ⟨⟨⟨?_, ?_⟩, ?_⟩, ?_⟩ <;> rintro rfl <;> revert h <;> decide

theorem isClean_of_isIdentChar (h : isIdentChar c = true) : isClean c = true := by
  unfold isClean
  simp only [Bool.and_eq_true, bne_iff_ne]
  refine ⟨⟨⟨?_, ?_⟩, ?_⟩, ?_⟩ <;> rintro rfl <;> revert h <;> decide

theorem isClean_natText (n : Nat) : (natText n).all isClean = true :=
  List.all_eq_true.mpr fun _ hc => isClean_of_isDigit (isDigit_natText hc)

/-- What the lexer is stuck at is no line break, and a quote is not printed. -/
theorem isReport_stuckMessage {rest : Text} (h : Stuck c rest) (h0 : c ≠ '\x00') :
    IsReport (stuckMessage c) := by
  rw [stuckMessage]
  split
  · exact ⟨by decide, by decide⟩
  · next hquote =>
    have hclean : isClean c = true := by
      have hblank := h.1
      unfold isClean
      simp only [Bool.and_eq_true, bne_iff_ne]
      refine ⟨⟨⟨hquote, ?_⟩, ?_⟩, h0⟩ <;> rintro rfl <;> revert hblank <;> decide
    refine ⟨?_, by simp⟩
    rw [List.all_append, List.all_cons, hclean]
    decide

end Reports

/-! ## The parser exits early with a message only -/

/-- A parsing function that exits early with reported failures only. -/
abbrev Honest {α : Type} (p : ParserM α) : Prop := Throws SQLStatement.Reported p

section Honest

variable {α : Type} {yes : Token → ParserM α} {no : ParserM α}

theorem honest_isAtEnd : Honest isAtEnd := throws_peek.bind fun _ => throws_pure _

theorem honest_check (kind : TokenKind) : Honest (check kind) :=
  honest_isAtEnd.bind fun _ => .ite (throws_pure _) (throws_peek.bind fun _ => throws_pure _)

theorem honest_fail (msg : String) (h : msg.toList.all isClean = true := by decide +kernel) :
    Honest (fail msg : ParserM α) := by
  rintro n (_ | ⟨t, ts⟩) e ⟨⟩
  refine ⟨⟨rfl, by simp [snprintf]⟩, isReport_snprintf le_rfl (by decide) ?_⟩
  simp only [List.all_append, Bool.and_eq_true]
  exact ⟨⟨⟨⟨⟨by decide, isClean_natText _⟩, by decide⟩, isClean_natText _⟩, by decide⟩, h⟩

theorem honest_onToken (kind : TokenKind) (hy : ∀ t, Honest (yes t)) (hn : Honest no) :
    Honest (onToken kind yes no) :=
  (honest_check kind).bind fun _ => .ite (throws_advance.bind hy) hn

theorem honest_need (kind : TokenKind) (msg : String)
    (h : msg.toList.all isClean = true := by decide +kernel) : Honest (need kind msg) :=
  honest_onToken kind (fun _ => throws_pure _) (honest_fail msg h)

theorem honest_refuse (kind : TokenKind) (msg : String) (hn : Honest no)
    (h : msg.toList.all isClean = true := by decide +kernel) : Honest (refuse kind msg no) :=
  (honest_check kind).bind fun _ => .ite (honest_fail msg h) hn

theorem honest_parseValueString : Honest parseValueString :=
  honest_onToken _ (fun _ => throws_pure _) <| honest_onToken _ (fun _ => throws_pure _) <|
    throws_pure _

theorem honest_parseWhereClause : Honest parseWhereClause := by
  refine honest_onToken _ (fun col => ?_) (throws_pure _)
  have hconst (op : Token) : Honest (parseValueString >>= fun v => (pure
      { column := col.lexeme, op := op.lexeme, constValue := v.1, isIntLiteral := v.2 }
      : ParserM WhereClause)) := honest_parseValueString.bind fun _ => throws_pure _
  exact honest_onToken _ hconst <| honest_onToken _ hconst <| honest_onToken _ hconst <|
    throws_pure _

theorem honest_columnItem : Honest columnItem := by
  refine Throws.bind ?_ fun _ => .ite (honest_fail _) (throws_pure _)
  refine honest_onToken _ (fun name => ?_) (throws_pure _)
  exact honest_onToken _ (fun _ => honest_onToken _ (fun _ => throws_pure _) (throws_pure _)) <|
    honest_onToken _ (fun _ => honest_onToken _ (fun _ => throws_pure _) (throws_pure _)) <|
    throws_pure _

theorem honest_commaList {item : ParserM α} (hi : Honest item) (msg : String)
    (h : msg.toList.all isClean = true := by decide +kernel) :
    Honest (commaList item msg) := by
  have hloop (k : Nat) : Honest (commaLoop item msg k) := by
    induction k with
    | zero => exact fun _ _ _ h => nomatch h
    | succ k ih =>
      exact hi.bind fun _ => honest_onToken _ (fun _ => throws_pure _) <|
        honest_onToken _ (fun _ => ih.bind fun _ => throws_pure _) (honest_fail _ h)
  exact fun n _ _ h => hloop n h

theorem honest_finish (stmt : SQLStatement) : Honest (finish stmt) :=
  (honest_onToken _ (fun _ => throws_pure _) (throws_pure _)).bind fun _ => throws_pure _

theorem honest_finishWhere (stmt : SQLStatement) (add : WhereClause → SQLStatement) :
    Honest (finishWhere stmt add) := by
  have hreport : IsReport "Error parsing WHERE clause".toList := ⟨by decide, by decide⟩
  refine Throws.bind (honest_onToken _ (fun _ => ?_) (throws_pure _)) honest_finish
  exact honest_parseWhereClause.bind fun _ =>
    .ite (throws_throw ⟨⟨rfl, List.cons_ne_nil _ _⟩, hreport⟩) (throws_pure _)

theorem honest_parseCreate : Honest parseCreate := by
  refine honest_onToken _ (fun _ => ?_) <| honest_onToken _ (fun _ => ?_) (honest_fail _)
  · exact (honest_need _ _).bind fun _ => honest_finish _
  · exact (honest_need _ _).bind fun _ => (honest_need _ _).bind fun _ => honest_refuse _ _ <|
      (honest_commaList honest_columnItem _).bind fun _ => .ite (honest_fail _) (honest_finish _)

theorem honest_parseDrop : Honest parseDrop :=
  honest_onToken _ (fun _ => (honest_need _ _).bind fun _ => honest_finish _) <|
    honest_onToken _ (fun _ => (honest_need _ _).bind fun _ => honest_finish _) (honest_fail _)

theorem honest_parseSelect : Honest parseSelect :=
  (honest_onToken _ (fun _ => throws_pure _) <| honest_onToken _ (fun _ => throws_pure _)
    (honest_fail _)).bind fun _ => (honest_need _ _).bind fun _ => (honest_need _ _).bind fun _ =>
    honest_finishWhere _ _

theorem honest_parseInsert : Honest parseInsert :=
  (honest_need _ _).bind fun _ => (honest_need _ _).bind fun _ => (honest_need _ _).bind fun _ =>
    (honest_need _ _).bind fun _ => honest_refuse _ _ <|
    (honest_commaList honest_parseValueString _).bind fun _ => honest_finish _

theorem honest_parseUpdate : Honest parseUpdate :=
  (honest_need _ _).bind fun _ => (honest_need _ _).bind fun _ => (honest_need _ _).bind fun _ =>
    (honest_need _ _).bind fun _ => honest_parseValueString.bind fun _ => honest_finishWhere _ _

theorem honest_parseStatement : Honest parseStatement := by
  refine honest_isAtEnd.bind fun _ => .ite (honest_fail _) ?_
  refine honest_onToken _ (fun _ => honest_parseCreate) <|
    honest_onToken _ (fun _ => honest_parseDrop) <| honest_onToken _ (fun _ => ?_) <|
    honest_onToken _ (fun _ => honest_parseSelect) <| honest_onToken _ (fun _ => ?_) <|
    honest_onToken _ (fun _ => honest_parseInsert) <|
    honest_onToken _ (fun _ => honest_parseUpdate) (honest_fail _)
  · exact (honest_need _ _).bind fun _ => honest_finish _
  · exact (honest_need _ _).bind fun _ => (honest_need _ _).bind fun _ => honest_finishWhere _ _

end Honest

/-! ## What `parse` returns -/

/-- **The kind of a sentence is one of the nine**, whatever its tokens. -/
theorem sentence_kind {lax : Bool} {w : List Token} {stmt : SQLStatement}
    (h : sentence lax w stmt) : stmt.kind ≠ .invalid := by
  let Valid : SQLStatement → Prop := fun stmt => stmt.kind ≠ .invalid
  have after {α : Type} {L : Lang Token α} {F : α → Lang Token SQLStatement}
      (h : ∀ a, (F a).Ensures (fun _ => True) Valid) : (L >>= F).Ensures (fun _ => True) Valid :=
    Ensures.bind (Q := fun _ => True) (fun _ _ _ _ => trivial) fun a _ => h a
  have semi {stmt : SQLStatement} (h : Valid stmt) :
      (semicolon stmt).Ensures (fun _ => True) Valid :=
    Ensures.alt (after fun _ => ensures_pure h) (ensures_pure h)
  have tail {stmt : SQLStatement} {add : WhereClause → SQLStatement} (h : Valid stmt)
      (hadd : ∀ wc, Valid (add wc)) : (whereTail lax stmt add).Ensures (fun _ => True) Valid :=
    Ensures.bind (Ensures.alt (after fun _ => after fun wc => ensures_pure (hadd wc))
      (ensures_pure h)) fun _ => semi
  have hall : (sentence lax).Ensures (fun _ => True) Valid := by
    refine Ensures.alt (after fun _ => Ensures.alt ?_ ?_) <|
      Ensures.alt (after fun _ => Ensures.alt ?_ ?_) <|
      Ensures.alt (after fun _ => after fun _ => semi nofun) <|
      Ensures.alt (after fun _ => ?_) <| Ensures.alt (after fun _ => ?_) <|
      Ensures.alt (after fun _ => ?_) (after fun _ => ?_)
    · exact after fun _ => after fun _ => semi nofun
    · exact after fun _ => after fun _ => after fun _ => after fun _ => semi nofun
    · exact after fun _ => after fun _ => semi nofun
    · exact after fun _ => after fun _ => semi nofun
    · exact after fun _ => after fun _ => after fun _ => tail nofun nofun
    · exact after fun _ => after fun _ => tail nofun nofun
    · exact after fun _ => after fun _ => after fun _ => after fun _ => after fun _ => semi nofun
    · exact after fun _ => after fun _ => after fun _ => after fun _ => after fun _ =>
        tail nofun nofun
  exact hall h fun _ _ => trivial

/-- The tokens of an error-free text are spelt in it. -/
theorem Lexer.tokenize_spelt {sql : Text} (herr : (tokenize sql).2.hasError = false) :
    ∃ toks eof, (tokenize sql).1 = toks ++ [eof] ∧ (∀ t ∈ toks, t.Spelt) ∧
      eof.kind = .endOfFile := by
  obtain ⟨toks, eof, htok, hlex, heof⟩ := tokenize_lexed herr
  refine ⟨toks, eof, htok, fun t ht => ⟨hlex t ht, ?_⟩, heof⟩
  rcases lexes_or_stuck (cString sql) (1, 1) with
    ⟨ps, last, p, h, hlast⟩ | ⟨ps, gap, c, rest, p, h, hgap, hstuck⟩
  · obtain ⟨rfl, -⟩ := List.append_inj' (htok.symm.trans (tokenize_of_lexes h hlast).1) rfl
    obtain ⟨q, hq, rfl⟩ := List.mem_map.mp ht
    obtain ⟨-, rest, hspell⟩ := h.munched.2.mem q hq
    exact ⟨_, rest, hspell⟩
  · obtain ⟨_, _, -, -, -, -, herr', -⟩ := tokenize_of_stuck h hgap hstuck
    rw [herr] at herr'
    cases herr'

/-- The tokens a sentence takes from an error-free text are spelt in it. -/
theorem spelt_of_sentence {lax : Bool} {toks w rest : List Token} {eof : Token}
    {stmt : SQLStatement} (hlex : ∀ t ∈ toks, t.Spelt) (heof : eof.kind = .endOfFile)
    (hw : toks ++ [eof] = w ++ rest) (hs : sentence lax w stmt) : ∀ t ∈ w, t.Spelt := by
  intro t ht
  have hmem : t ∈ toks ++ [eof] := hw ▸ List.mem_append_left rest ht
  rcases List.mem_append.mp hmem with h | h
  · exact hlex t h
  · rw [List.mem_singleton.mp h] at ht
    exact absurd heof (sentence_avoids lax hs eof ht)

/-- **A statement comes from a sentence, or is a failure**, and then its message is a report. -/
theorem parse_reported {sql : Text} {stmt : SQLStatement} (h : parse sql = some stmt) :
    Denoted stmt ∨ stmt.Reported := by
  simp only [parse] at h
  split_ifs at h with herr
  · cases h
    obtain ⟨c, _, hstuck, h0, hmsg⟩ := Lexer.tokenize_errorMsg herr
    refine Or.inr ⟨⟨rfl, ?_⟩, ?_⟩
    · change (Lexer.tokenize sql).2.errorMsg ≠ []
      rw [hmsg, stuckMessage]
      split <;> simp
    · change IsReport (Lexer.tokenize sql).2.errorMsg
      rw [hmsg]
      exact isReport_stuckMessage hstuck h0
  · obtain ⟨toks, eof, htok, hlex, heof⟩ := Lexer.tokenize_spelt (by simpa using herr)
    rw [htok] at h
    cases hp : parseTokens (toks ++ [eof]) with
    | ok s rest =>
      rw [hp] at h
      obtain rfl := Option.some.inj h
      obtain ⟨w, hw, hs⟩ := reads_statement.follows.sound hp
      exact Or.inl (sentence_ensures true hs (spelt_of_sentence hlex heof hw hs))
    | error e =>
      rw [hp] at h
      obtain rfl := Option.some.inj h
      exact Or.inr (honest_parseStatement hp)
    | outOfRange =>
      rw [hp] at h
      cases h

theorem parse_denoted {sql : Text} {stmt : SQLStatement} (h : parse sql = some stmt) :
    Denoted stmt ∨ stmt.Failed := (parse_reported h).imp_right And.left

theorem parse_wellFormed {sql : Text} {stmt : SQLStatement} (h : parse sql = some stmt) :
    stmt.WellFormed ∨ stmt.kind = .invalid :=
  (parse_denoted h).imp Denoted.wellFormed And.left

end MiniDB.Parser

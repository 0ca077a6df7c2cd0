import MiniDB.Parser.Acceptance
import MiniDB.Parser.Spelling

/-!
# Parser/Printing — parsing undoes printing

A `Stmt` is a statement of the documented language: its names are names, its literals can be
written, its lists are as CREATE TABLE and INSERT want them.  `Stmt.words` prints it as a list of
tokens in print, and a `Layout` sets such a list as a text, with white space between any two.

**`parse_layout`**: the parser reads every layout of a statement back as that statement.
-/

namespace MiniDB.Parser

open MiniDB.Core Lang

/-! ## The statements -/

/-- An identifier that is not a keyword. -/
structure Name where
  text : Text
  isWord : isWord text = true
  notKeyword : matchKeyword text = .identifier

/-- A literal; a string has no escapes, so it cannot hold a quote. -/
inductive Literal where
  | int (digits : Text) (h : IsNumeral digits)
  | string (content : Text) (hquote : '"' ∉ content) (hnul : '\x00' ∉ content)

/-- The text of a literal and its flag, as a statement holds them. -/
def Literal.value : Literal → Text × Bool
  | .int digits _ => (digits, true)
  | .string content _ _ => (content, false)

inductive Comparison where
  | eq | lt | gt

def Comparison.op : Comparison → Text
  | .eq => ['=']
  | .lt => ['<']
  | .gt => ['>']

/-- A WHERE condition: column, operator, constant. -/
structure Condition where
  column : Name
  op : Comparison
  const : Literal

def Condition.clause (c : Condition) : WhereClause :=
  { column := c.column.text, op := c.op.op, constValue := c.const.value.1,
    isIntLiteral := c.const.value.2 }

inductive TypeWord where
  | int | string

def TypeWord.text : TypeWord → Text
  | .int => "int".toList
  | .string => "string".toList

/-- A column definition in CREATE TABLE. -/
structure ColumnSpec where
  name : Name
  type : TypeWord
  isPrimary : Bool

def ColumnSpec.columnDef (col : ColumnSpec) : ColumnDef :=
  { name := col.name.text, type := col.type.text, isPrimary := col.isPrimary }

/-- The statements of the nine kinds; no column in SELECT stands for `*`. -/
inductive Stmt where
  | createDatabase (name : Name)
  | dropDatabase (name : Name)
  | use (name : Name)
  | createTable (table : Name) (columns : List ColumnSpec) (hne : columns ≠ [])
      (hprimary : columns.countP ColumnSpec.isPrimary ≤ 1)
  | dropTable (table : Name)
  | select (column : Option Name) (table : Name) (cond : Option Condition)
  | delete (table : Name) (cond : Option Condition)
  | insert (table : Name) (values : List Literal) (hne : values ≠ [])
  | update (table column : Name) (value : Literal) (cond : Option Condition)

/-- The statement the parser should return. -/
def Stmt.statement : Stmt → SQLStatement
  | .createDatabase name =>
    { kind := .createDatabase, createDatabase := { databaseName := name.text } }
  | .dropDatabase name => { kind := .dropDatabase, dropDatabase := { databaseName := name.text } }
  | .use name => { kind := .use, useStmt := { databaseName := name.text } }
  | .createTable table columns _ _ =>
    { kind := .createTable
      createTable := { tableName := table.text, columns := columns.map ColumnSpec.columnDef } }
  | .dropTable table => { kind := .dropTable, dropTable := { tableName := table.text } }
  | .select column table cond =>
    { kind := .select
      selectStmt :=
        { columnName := column.elim ['*'] Name.text, tableName := table.text
          hasWhere := cond.isSome, cond := cond.elim {} Condition.clause } }
  | .delete table cond =>
    { kind := .delete
      deleteStmt :=
        { tableName := table.text, hasWhere := cond.isSome
          cond := cond.elim {} Condition.clause } }
  | .insert table values _ =>
    { kind := .insert
      insertStmt :=
        { tableName := table.text, values := values.map fun v => v.value.1
          isInt := values.map fun v => v.value.2 } }
  | .update table column value cond =>
    { kind := .update
      updateStmt :=
        { tableName := table.text, setColumn := column.text, setValue := value.value.1
          setIsInt := value.value.2, hasWhere := cond.isSome
          cond := cond.elim {} Condition.clause } }

/-! ## Words -/

/-- A token in print: in front of white space, or at the end, it is a token of its kind and
lexeme. -/
structure Word where
  text : Text
  kind : TokenKind
  lexeme : Text
  spells : ∀ {rest : Text}, Ended (fun c => !isBlank c) rest → Spells text kind lexeme rest
  noNul : '\x00' ∉ text

/-- White space ends a run of the characters of any class without white space. -/
theorem Ended.of_blank {p : Char → Bool} (hp : [' ', '\t', '\r', '\n'].all (fun c => !p c) = true)
    {rest : Text} (h : Ended (fun c => !isBlank c) rest) : Ended p rest := by
  intro c hc
  have hc : isBlank c = true := by simpa using h c hc
  simp only [isBlank, Bool.or_eq_true, beq_iff_eq] at hc
  simp only [List.all_cons, Bool.and_eq_true, Bool.not_eq_true'] at hp
  obtain ⟨h₁, h₂, h₃, h₄, -⟩ := hp
  rcases hc with ((rfl | rfl) | rfl) | rfl <;> assumption

namespace Word

/-- A mark: an operator or a piece of punctuation. -/
def mark (c : Char) (kind : TokenKind) (h : punctuation c = some kind) : Word where
  text := [c]
  kind := kind
  lexeme := [c]
  spells _ := .mark h
  noNul h0 := by
    obtain rfl := List.mem_singleton.mp h0
    cases h

/-- A word as the lexer classifies it: a name or a keyword. -/
def word (w : Text) (h : isWord w = true) : Word where
  text := w
  kind := matchKeyword w
  lexeme := w
  spells hrest := .word h (hrest.of_blank (by decide))
  noNul h0 := by
    cases w with
    | nil => cases h0
    | cons c s => exact absurd ((isWord_cons.mp h).2 _ h0) (by decide)

def name (n : Name) : Word := word n.text n.isWord

def literal : Literal → Word
  | .int digits h =>
    { text := digits, kind := .intLiteral, lexeme := digits
      spells := fun hrest => .number h (hrest.of_blank (by decide))
      noNul := fun h0 => absurd (h.2 _ h0) (by decide) }
  | .string content hquote hnul =>
    { text := '"' :: (content ++ ['"']), kind := .stringLiteral, lexeme := content
      spells := fun _ => .string hquote
      noNul := by simpa using hnul }

def comparison : Comparison → Word
  | .eq => mark '=' .opEq rfl
  | .lt => mark '<' .opLt rfl
  | .gt => mark '>' .opGt rfl

def typeWord : TypeWord → Word
  | .int => word "int".toList rfl
  | .string => word "string".toList rfl

end Word

/-- `[WHERE <col> <op> <value>]`. -/
def conditionWords : Option Condition → List Word
  | none => []
  | some c => [.word "where".toList rfl, .name c.column, .comparison c.op, .literal c.const]

/-- `<col> <type> [PRIMARY]`. -/
def ColumnSpec.words (col : ColumnSpec) : List Word :=
  .name col.name :: .typeWord col.type ::
    if col.isPrimary then [.word "primary".toList rfl] else []

/-- A list in parentheses, from its first item on. -/
def listWords {ι : Type} (item : ι → List Word) : List ι → List Word :=
  listed item (.mark ',' .comma rfl) (.mark ')' .rparen rfl)

/-- A statement in print, up to the semicolon. -/
def Stmt.body : Stmt → List Word
  | .createDatabase name => [.word "create".toList rfl, .word "database".toList rfl, .name name]
  | .dropDatabase name => [.word "drop".toList rfl, .word "database".toList rfl, .name name]
  | .use name => [.word "use".toList rfl, .name name]
  | .createTable table columns _ _ =>
    .word "create".toList rfl :: .word "table".toList rfl :: .name table ::
      .mark '(' .lparen rfl :: listWords ColumnSpec.words columns
  | .dropTable table => [.word "drop".toList rfl, .word "table".toList rfl, .name table]
  | .select column table cond =>
    .word "select".toList rfl :: column.elim (.mark '*' .opStar rfl) .name ::
      .word "from".toList rfl :: .name table :: conditionWords cond
  | .delete table cond =>
    .word "delete".toList rfl :: .word "from".toList rfl :: .name table :: conditionWords cond
  | .insert table values _ =>
    .word "insert".toList rfl :: .word "into".toList rfl :: .name table ::
      .word "values".toList rfl :: .mark '(' .lparen rfl :: listWords (fun v => [.literal v]) values
  | .update table column value cond =>
    .word "update".toList rfl :: .name table :: .word "set".toList rfl :: .name column ::
      .mark '=' .opEq rfl :: .literal value :: conditionWords cond

/-- `[;]`. -/
def endWords (semi : Bool) : List Word := if semi then [.mark ';' .semicolon rfl] else []

/-- A statement in print, with the optional semicolon. -/
def Stmt.words (s : Stmt) (semi : Bool) : List Word := s.body ++ endWords semi

/-! ## Layouts -/

def IsSpace (s : Text) : Prop := ∀ c ∈ s, isBlank c = true

/-- A list of words set as a text: white space in front, then each word with the white space behind
it.  Two words are kept apart. -/
structure Layout (ws : List Word) where
  lead : Text
  shown : List (Word × Text)
  words : shown.map Prod.fst = ws
  lead_space : IsSpace lead
  gap_space : ∀ p ∈ shown, IsSpace p.2
  apart : ∀ p ∈ shown.dropLast, p.2 ≠ []

/-- The words and the white space behind them. -/
def setText (shown : List (Word × Text)) : Text := shown.flatMap fun p => p.1.text ++ p.2

def Layout.text {ws : List Word} (layout : Layout ws) : Text := layout.lead ++ setText layout.shown

/-- One space behind every word. -/
instance (ws : List Word) : Inhabited (Layout ws) where
  default :=
    { lead := []
      shown := ws.map fun w => (w, [' '])
      words := by rw [List.map_map]; exact List.map_id ws
      lead_space := nofun
      gap_space := by simp [IsSpace, isBlank]
      apart := by simp [← List.map_dropLast] }

example : (default : Layout ((Stmt.delete ⟨['t'], rfl, rfl⟩
    (some ⟨⟨['a'], rfl, rfl⟩, .lt, .string ['b'] (by simp) (by simp)⟩)).words true)).text
      = "delete from t where a < \"b\" ; ".toList := rfl

/-- A token of the kind and the lexeme of a word. -/
def Shows (t : Token) (w : Word) : Prop := t.kind = w.kind ∧ t.lexeme = w.lexeme

theorem isSpace_noNul {s : Text} (h : IsSpace s) : '\x00' ∉ s := fun h0 =>
  absurd (h _ h0) (by decide)

theorem setText_noNul {shown : List (Word × Text)} (h : ∀ p ∈ shown, IsSpace p.2) :
    '\x00' ∉ setText shown := by
  intro h0
  obtain ⟨p, hp, h0⟩ := List.mem_flatMap.mp h0
  exact (List.mem_append.mp h0).elim p.1.noNul (isSpace_noNul (h p hp))

/-- Every word takes a character. -/
theorem length_le_setText (shown : List (Word × Text)) : shown.length ≤ (setText shown).length := by
  induction shown with
  | nil => exact Nat.zero_le _
  | cons p shown ih =>
    obtain ⟨c, v, hw, -⟩ := (@Word.spells p.1 [] nofun).head
    simp only [setText, List.flatMap_cons, List.length_append, hw, List.length_cons] at ih ⊢
    omega

/-- White space, or the end, follows a word of a layout. -/
theorem ended_gap {gap : Text} {shown : List (Word × Text)} (hgap : IsSpace gap)
    (hapart : shown ≠ [] → gap ≠ []) : Ended (fun c => !isBlank c) (gap ++ setText shown) := by
  intro c hc
  cases gap with
  | nil =>
    obtain rfl : shown = [] := by
      by_contra hne
      exact hapart hne rfl
    cases hc
  | cons d gap =>
    obtain rfl : d = c := by simpa using hc
    simp [hgap d]

namespace Lexer

theorem tokenizeLoop_space {gap : Text} (hgap : IsSpace gap) (n : Nat) (s : Text) (line col : Nat)
    (tokens : List Token) :
    ∃ line' col', tokenizeLoop (n + 1) { src := gap ++ s, line, col } tokens
      = tokenizeLoop (n + 1) { src := s, line := line', col := col' } tokens := by
  induction gap generalizing line col with
  | nil => exact ⟨line, col, rfl⟩
  | cons c gap ih =>
    rw [List.cons_append, tokenizeLoop_blank (hgap c List.mem_cons_self)]
    exact ih (fun d hd => hgap d (List.mem_cons_of_mem c hd)) _ _

/-- **The tokens of a layout**: one for each word, and no error. -/
theorem tokenizeLoop_shown {shown : List (Word × Text)} {lead : Text} (hlead : IsSpace lead)
    (hgaps : ∀ p ∈ shown, IsSpace p.2) (hapart : ∀ p ∈ shown.dropLast, p.2 ≠ []) {n : Nat}
    (hn : shown.length ≤ n) (line col : Nat) (tokens : List Token) :
    ∃ toks l, tokenizeLoop n { src := lead ++ setText shown, line, col } tokens
        = (tokens ++ toks, l) ∧ l.hasError = false ∧
      List.Forall₂ Shows toks (shown.map Prod.fst) := by
  induction shown generalizing lead n line col tokens with
  | nil =>
    cases n with
    | zero => exact ⟨[], _, by rw [List.append_nil]; rfl, rfl, .nil⟩
    | succ n =>
      obtain ⟨line', col', hspace⟩ := tokenizeLoop_space hlead n [] line col tokens
      refine ⟨[], { src := [], line := line', col := col' }, ?_, rfl, .nil⟩
      rw [setText, List.flatMap_nil, hspace, List.append_nil]
      rfl
  | cons p shown ih =>
    obtain ⟨n, rfl⟩ : ∃ m, n = m + 1 := ⟨n - 1, by simp at hn; omega⟩
    obtain ⟨w, gap⟩ := p
    obtain ⟨line', col', hspace⟩ :=
      tokenizeLoop_space hlead n (setText ((w, gap) :: shown)) line col tokens
    have hgap : IsSpace gap := hgaps (w, gap) List.mem_cons_self
    have hrest : Ended (fun c => !isBlank c) (gap ++ setText shown) := by
      refine ended_gap hgap fun hne => hapart (w, gap) ?_
      rw [List.dropLast_cons_of_ne_nil hne]
      exact List.mem_cons_self
    have happart' : ∀ p ∈ shown.dropLast, p.2 ≠ [] := fun p hp => by
      refine hapart p ?_
      rw [List.dropLast_cons_of_ne_nil fun e => by simp [e] at hp]
      exact List.mem_cons_of_mem _ hp
    have htext : setText ((w, gap) :: shown) = w.text ++ (gap ++ setText shown) := by
      simp [setText]
    obtain ⟨toks, l, hloop, hl, htoks⟩ := ih hgap (fun p hp => hgaps p (List.mem_cons_of_mem _ hp))
      happart' (Nat.le_of_succ_le_succ hn) line' (col' + w.text.length)
      (tokens ++ [tokenOf w.kind w.lexeme line' col'])
    refine ⟨tokenOf w.kind w.lexeme line' col' :: toks, l, ?_, hl, .cons ⟨rfl, rfl⟩ htoks⟩
    rw [hspace, htext, tokenizeLoop_spells (w.spells hrest), hloop, List.append_assoc]
    rfl

theorem tokenize_layout {ws : List Word} (layout : Layout ws) :
    ∃ toks eof, (tokenize layout.text).1 = toks ++ [eof] ∧
      (tokenize layout.text).2.hasError = false ∧ eof.kind = .endOfFile ∧
      List.Forall₂ Shows toks ws := by
  have hnul : '\x00' ∉ layout.text := fun h0 =>
    (List.mem_append.mp h0).elim (isSpace_noNul layout.lead_space)
      (setText_noNul layout.gap_space)
  have hlen : layout.shown.length ≤ layout.text.length := by
    have := length_le_setText layout.shown
    rw [Layout.text, List.length_append]
    omega
  obtain ⟨toks, l, hloop, hl, htoks⟩ := tokenizeLoop_shown layout.lead_space layout.gap_space
    layout.apart hlen 1 1 []
  refine ⟨toks, { kind := .endOfFile, line := l.line, column := l.col }, ?_, ?_, rfl, ?_⟩
  · rw [tokenize, cString_of_notMem hnul]
    simp only [Layout.text] at hloop ⊢
    rw [hloop]
    rfl
  · rw [tokenize, cString_of_notMem hnul]
    simp only [Layout.text] at hloop ⊢
    rw [hloop]
    exact hl
  · rwa [layout.words] at htoks

end Lexer

/-! ## The print of a statement is a sentence -/

section Derivations

variable {α : Type} {kind : TokenKind} {w : Word} {ws us : List Word} {P : α → Prop}

theorem derives_kind (hw : w.kind = kind) :
    Derives Shows (tok kind) [w] fun t => t.lexeme = w.lexeme :=
  (derives_one fun _ ht => beq_iff_eq.mpr (ht.1.trans hw)).imp fun _ ht => ht.2

theorem derives_tok {F : Token → Lang Token α} (hw : w.kind = kind)
    (h : ∀ t : Token, t.lexeme = w.lexeme → Derives Shows (F t) ws P) :
    Derives Shows (tok kind >>= F) (w :: ws) P :=
  (derives_kind hw).bind h

theorem derives_value (v : Literal) :
    Derives Shows (value false) [.literal v] (· = v.value) := by
  cases v with
  | int digits h =>
    refine Derives.left (derives_tok rfl fun t ht => derives_pure ?_)
    rw [ht]
    rfl
  | string content hquote hnul =>
    refine Derives.right (Derives.left (derives_tok rfl fun t ht => derives_pure ?_))
    rw [ht]
    rfl

theorem derives_comparison (op : Comparison) :
    Derives Shows comparison [.comparison op] fun t => t.lexeme = op.op := by
  cases op with
  | eq => exact Derives.left (derives_kind rfl)
  | lt => exact Derives.right (Derives.left (derives_kind rfl))
  | gt => exact Derives.right (Derives.right (derives_kind rfl))

/-- The kind of a printed name. -/
theorem Word.name_kind (n : Name) : (Word.name n).kind = .identifier := n.notKeyword

theorem Name.text_ne_nil (n : Name) : n.text.isEmpty = false := by
  cases h : n.text with
  | nil =>
    have := n.isWord
    rw [h] at this
    cases this
  | cons => rfl

theorem derives_condition (c : Condition) :
    Derives Shows (condition false) [.name c.column, .comparison c.op, .literal c.const]
      (· = c.clause) := by
  refine derives_tok (Word.name_kind _) fun col hcol => ?_
  refine (derives_comparison c.op).bind fun op hop => (derives_value c.const).bind fun v hv => ?_
  refine derives_given ?_ ?_
  · rw [hcol]
    simpa [Word.name, Word.word] using c.column.text_ne_nil
  · rw [hcol, hop, hv]
    rfl

/-- The optional semicolon changes nothing. -/
theorem derives_semicolon (stmt : SQLStatement) (semi : Bool) :
    Derives Shows (semicolon stmt) (endWords semi) (· = stmt) := by
  cases semi with
  | true => exact Derives.left (derives_tok rfl fun _ _ => derives_pure rfl)
  | false => exact Derives.right (derives_pure rfl)

theorem derives_whereTail {stmt : SQLStatement} {add : WhereClause → SQLStatement}
    {cond : Option Condition} {semi : Bool} :
    Derives Shows (whereTail false stmt add) (conditionWords cond ++ endWords semi)
      (· = cond.elim stmt fun c => add c.clause) := by
  refine Derives.bind (Q := (· = cond.elim stmt fun c => add c.clause)) ?_ ?_
  · cases cond with
    | none => exact Derives.right (derives_pure rfl)
    | some c =>
      refine Derives.left (derives_tok (by decide) fun _ _ => ?_)
      refine (derives_condition c).bind fun wc hwc => derives_pure ?_
      rw [hwc]
      rfl
  · rintro _ rfl
    exact derives_semicolon _ semi

theorem derives_columnDef (col : ColumnSpec) :
    Derives Shows columnDef col.words (· = col.columnDef) := by
  have htype : Derives Shows columnType [.typeWord col.type]
      fun t => t.lexeme = col.type.text := by
    cases col.type with
    | int => exact Derives.left (derives_kind (by decide))
    | string => exact Derives.right (derives_kind (by decide))
  have hprimary : Derives Shows primary
      (if col.isPrimary then [.word "primary".toList rfl] else []) (· = col.isPrimary) := by
    cases col.isPrimary with
    | true => exact Derives.left (derives_tok (by decide) fun _ _ => derives_pure rfl)
    | false => exact Derives.right (derives_pure rfl)
  refine derives_tok (Word.name_kind _) fun name hname => ?_
  refine htype.bind fun type ht => hprimary.bind_nil fun isPrimary hp => derives_given ?_ ?_
  · rw [hname]
    simpa [Word.name, Word.word] using col.name.text_ne_nil
  · rw [hname, ht, hp]
    rfl

theorem derives_columnList {columns : List ColumnSpec} (hne : columns ≠ [])
    (hprimary : columns.countP ColumnSpec.isPrimary ≤ 1) :
    Derives Shows columnList (listWords ColumnSpec.words columns)
      (· = columns.map ColumnSpec.columnDef) := by
  refine (derives_items (fun t ht => beq_iff_eq.mpr ht.1) (fun t ht => beq_iff_eq.mpr ht.1) hne
    fun col _ => derives_columnDef col).bind_nil fun cols hcols => ?_
  obtain rfl : cols = columns.map ColumnSpec.columnDef := by
    clear hne hprimary
    induction hcols with
    | nil => rfl
    | cons h _ ih => rw [List.map_cons, ← h, ← ih]
  refine derives_given ?_ rfl
  rw [List.countP_map]
  exact Nat.not_lt.mpr hprimary

theorem derives_valueList {values : List Literal} (hne : values ≠ []) :
    Derives Shows (valueList false) (listWords (fun v => [.literal v]) values)
      (· = values.map Literal.value) := by
  refine Derives.notFrom ((derives_items (fun t ht => beq_iff_eq.mpr ht.1)
    (fun t ht => beq_iff_eq.mpr ht.1) hne fun v _ => derives_value v).imp fun vals hvals => ?_) ?_
  · clear hne
    induction hvals with
    | nil => rfl
    | cons h _ ih => rw [List.map_cons, ← h, ← ih]
  · -- the first symbol is a literal
    obtain ⟨v, values, rfl⟩ := List.exists_cons_of_ne_nil hne
    have hv : (listWords (fun v => [Word.literal v]) (v :: values)).head? = some (.literal v) := by
      cases values <;> rfl
    rintro w hw t ht hclose
    obtain rfl := Option.some.inj (hv.symm.trans hw)
    have hkind : (Word.literal v).kind = .rparen := ht.1.symm.trans (eq_of_beq hclose)
    cases v <;> cases hkind

/-- The end of a statement that a name completes. -/
theorem derives_named (f : Text → SQLStatement) (name : Name) (semi : Bool) :
    Derives Shows (tok .identifier >>= fun t => semicolon (f t.lexeme))
      (.name name :: endWords semi) (· = f name.text) := by
  refine derives_tok (Word.name_kind _) fun t ht => ?_
  rw [ht]
  exact derives_semicolon _ semi

/-- **A statement in print is a documented sentence**, which denotes the statement. -/
theorem sentence_words (s : Stmt) (semi : Bool) :
    Derives Shows (sentence false) (s.words semi) (· = s.statement) := by
  cases s with
  | createDatabase name =>
    refine Derives.left (derives_tok (by decide) fun _ _ => Derives.left ?_)
    exact derives_tok (by decide) fun _ _ => derives_named (fun text =>
      { kind := .createDatabase, createDatabase := { databaseName := text } }) name semi
  | dropDatabase name =>
    refine Derives.right (Derives.left (derives_tok (by decide) fun _ _ => Derives.left ?_))
    exact derives_tok (by decide) fun _ _ => derives_named (fun text =>
      { kind := .dropDatabase, dropDatabase := { databaseName := text } }) name semi
  | use name =>
    refine Derives.right (Derives.right (Derives.left (derives_tok (by decide) fun _ _ => ?_)))
    exact derives_named (fun text =>
      { kind := .use, useStmt := { databaseName := text } }) name semi
  | createTable table columns hne hprimary =>
    refine Derives.left (derives_tok (by decide) fun _ _ => Derives.right ?_)
    refine derives_tok (by decide) fun _ _ => derives_tok (Word.name_kind _) fun t ht => ?_
    refine derives_tok rfl fun _ _ => (derives_columnList hne hprimary).bind fun cols hcols => ?_
    rw [ht, hcols]
    exact derives_semicolon _ semi
  | dropTable table =>
    refine Derives.right (Derives.left (derives_tok (by decide) fun _ _ => Derives.right ?_))
    exact derives_tok (by decide) fun _ _ => derives_named (fun text =>
      { kind := .dropTable, dropTable := { tableName := text } }) table semi
  | select column table cond =>
    refine Derives.right (Derives.right (Derives.right (Derives.left
      (derives_tok (by decide) fun _ _ => ?_))))
    have hcol : Derives Shows (alt (tok .identifier) (tok .opStar))
        [column.elim (.mark '*' .opStar rfl) .name]
        fun t => t.lexeme = column.elim ['*'] Name.text := by
      cases column with
      | none => exact Derives.right (derives_kind rfl)
      | some column => exact Derives.left (derives_kind (Word.name_kind column))
    refine hcol.bind fun col hcol => derives_tok (by decide) fun _ _ => ?_
    refine derives_tok (Word.name_kind _) fun t ht => derives_whereTail.imp fun stmt hstmt => ?_
    rw [hstmt, selectOf, hcol, ht]
    cases cond <;> rfl
  | delete table cond =>
    refine Derives.right (Derives.right (Derives.right (Derives.right (Derives.left
      (derives_tok (by decide) fun _ _ => ?_)))))
    refine derives_tok (by decide) fun _ _ => ?_
    refine derives_tok (Word.name_kind _) fun t ht => derives_whereTail.imp fun stmt hstmt => ?_
    rw [hstmt, ht]
    cases cond <;> rfl
  | insert table values hne =>
    refine Derives.right (Derives.right (Derives.right (Derives.right (Derives.right (Derives.left
      (derives_tok (by decide) fun _ _ => ?_))))))
    refine derives_tok (by decide) fun _ _ => derives_tok (Word.name_kind _) fun t ht => ?_
    refine derives_tok (by decide) fun _ _ => derives_tok rfl fun _ _ => ?_
    refine (derives_valueList hne).bind fun vals hvals => ?_
    rw [ht, hvals, List.map_map, List.map_map]
    exact derives_semicolon _ semi
  | update table column value cond =>
    refine Derives.right (Derives.right (Derives.right (Derives.right (Derives.right (Derives.right
      (derives_tok (by decide) fun _ _ => ?_))))))
    refine derives_tok (Word.name_kind _) fun t ht => derives_tok (by decide) fun _ _ => ?_
    refine derives_tok (Word.name_kind _) fun col hcol => derives_tok rfl fun _ _ => ?_
    refine (derives_value value).bind fun v hv => derives_whereTail.imp fun stmt hstmt => ?_
    rw [hstmt, updateOf, ht, hcol, hv]
    cases cond <;> rfl

end Derivations

/-! ## Parsing undoes printing -/

/-- **Parsing undoes printing**: every layout of a statement, with a final semicolon or without, is
read as that statement, and with no message. -/
theorem parse_layout (s : Stmt) (semi : Bool) (layout : Layout (s.words semi)) :
    parse layout.text = some s.statement ∧ s.statement.errorMsg = [] := by
  obtain ⟨toks, eof, htok, herr, heof, hshow⟩ := Lexer.tokenize_layout layout
  obtain ⟨_, hsent, rfl⟩ := sentence_words s semi hshow
  have hstop : StopsAt toks eof s.statement :=
    ⟨sentence_lax hsent, (sentence_avoids true).not_viable heof toks⟩
  constructor
  · rw [parse_of_noError herr, htok, parseTokens_eq_ok.mpr hstop]
    rfl
  · cases s <;> rfl

end MiniDB.Parser

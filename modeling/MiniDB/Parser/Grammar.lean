import MiniDB.Parser.Parser

/-!
# Parser/Grammar — the documented grammar, and what the parser takes

`sentence false` is the grammar of the README: a value is one literal.  The parser signals a missing
value by an empty string, which is also a string, so what it takes is `sentence true`, where a value
position may be empty.  It takes that language deterministically: `parseStatement_accepts` says that
it stops after exactly those sentences which the next token does not continue.
-/

namespace MiniDB.Parser

open MiniDB.Core Reader Lang

/-! ## The grammar -/

/-- One token of a kind. -/
def tok (kind : TokenKind) : Lang Token Token := Lang.one fun t => (t.kind == kind) = true

/-- A value: one literal — or, in the lax grammar, nothing. -/
def value (lax : Bool) : Lang Token (Text × Bool) :=
  .alt (do let t ← tok .intLiteral; return (t.lexeme, true)) <|
  .alt (do let t ← tok .stringLiteral; return (t.lexeme, false)) <|
  .given (lax = true) ([], false)

/-- `=`, `<` or `>`. -/
def comparison : Lang Token Token := .alt (tok .opEq) (.alt (tok .opLt) (tok .opGt))

/-- `<col> <op> <value>`. -/
def condition (lax : Bool) : Lang Token WhereClause := do
  let col ← tok .identifier
  let op ← comparison
  let v ← value lax
  .given (¬ col.lexeme.isEmpty)
    { column := col.lexeme, op := op.lexeme, constValue := v.1, isIntLiteral := v.2 }

/-- `[;]`. -/
def semicolon (stmt : SQLStatement) : Lang Token SQLStatement :=
  .alt (do let _ ← tok .semicolon; return stmt) (pure stmt)

/-- `[WHERE <cond>]`. -/
def whereOpt (lax : Bool) (stmt : SQLStatement) (add : WhereClause → SQLStatement) :
    Lang Token SQLStatement :=
  .alt (do let _ ← tok .kwWhere; let wc ← condition lax; return add wc) (pure stmt)

/-- `[WHERE <cond>] [;]`. -/
def whereTail (lax : Bool) (stmt : SQLStatement) (add : WhereClause → SQLStatement) :
    Lang Token SQLStatement := do
  let stmt ← whereOpt lax stmt add
  semicolon stmt

/-- `<type>`. -/
def columnType : Lang Token Token := .alt (tok .kwInt) (tok .kwString)

/-- `[PRIMARY]`. -/
def primary : Lang Token Bool :=
  .alt (do let _ ← tok .kwPrimary; return true) (pure false)

/-- `<col> <type> [PRIMARY]`. -/
def columnDef : Lang Token ColumnDef := do
  let name ← tok .identifier
  let type ← columnType
  let isPrimary ← primary
  .given (¬ name.lexeme.isEmpty) { name := name.lexeme, type := type.lexeme, isPrimary }

def isComma (t : Token) : Prop := (t.kind == .comma) = true

def isRparen (t : Token) : Prop := (t.kind == .rparen) = true

/-- `(<col> <type> [PRIMARY], ...)`, from the first column on; one primary column at most. -/
def columnList : Lang Token (List ColumnDef) := do
  let columns ← .items columnDef isComma isRparen
  .given (¬ 1 < columns.countP ColumnDef.isPrimary) columns

/-- `(<val>, ...)`, from the first value on; `()` is not a list. -/
def valueList (lax : Bool) : Lang Token (List (Text × Bool)) :=
  .notFrom isRparen (.items (value lax) isComma isRparen)

/-- CREATE DATABASE and CREATE TABLE, behind CREATE. -/
def createStmt : Lang Token SQLStatement :=
  .alt
    (do let _ ← tok .kwDatabase; let name ← tok .identifier
        semicolon { kind := .createDatabase, createDatabase := { databaseName := name.lexeme } })
    (do let _ ← tok .kwTable; let table ← tok .identifier; let _ ← tok .lparen
        let columns ← columnList
        semicolon { kind := .createTable, createTable := { tableName := table.lexeme, columns } })

/-- DROP DATABASE and DROP TABLE, behind DROP. -/
def dropStmt : Lang Token SQLStatement :=
  .alt
    (do let _ ← tok .kwDatabase; let name ← tok .identifier
        semicolon { kind := .dropDatabase, dropDatabase := { databaseName := name.lexeme } })
    (do let _ ← tok .kwTable; let table ← tok .identifier
        semicolon { kind := .dropTable, dropTable := { tableName := table.lexeme } })

def useGrammar : Lang Token SQLStatement := do
  let name ← tok .identifier
  semicolon { kind := .use, useStmt := { databaseName := name.lexeme } }

def selectGrammar (lax : Bool) : Lang Token SQLStatement := do
  let col ← .alt (tok .identifier) (tok .opStar)
  let _ ← tok .kwFrom
  let table ← tok .identifier
  whereTail lax { kind := .select, selectStmt := selectOf col table } fun wc =>
    { kind := .select, selectStmt := { selectOf col table with hasWhere := true, cond := wc } }

def deleteGrammar (lax : Bool) : Lang Token SQLStatement := do
  let _ ← tok .kwFrom
  let table ← tok .identifier
  whereTail lax { kind := .delete, deleteStmt := { tableName := table.lexeme } } fun wc =>
    { kind := .delete, deleteStmt := { tableName := table.lexeme, hasWhere := true, cond := wc } }

def insertGrammar (lax : Bool) : Lang Token SQLStatement := do
  let _ ← tok .kwInto
  let table ← tok .identifier
  let _ ← tok .kwValues
  let _ ← tok .lparen
  let vals ← valueList lax
  semicolon { kind := .insert, insertStmt :=
    { tableName := table.lexeme, values := vals.map Prod.fst, isInt := vals.map Prod.snd } }

def updateGrammar (lax : Bool) : Lang Token SQLStatement := do
  let table ← tok .identifier
  let _ ← tok .kwSet
  let col ← tok .identifier
  let _ ← tok .opEq
  let v ← value lax
  whereTail lax { kind := .update, updateStmt := updateOf table col v } fun wc =>
    { kind := .update, updateStmt := { updateOf table col v with hasWhere := true, cond := wc } }

/-- **The statements**: the README's grammar, or the lax one the parser takes. -/
def sentence (lax : Bool) : Lang Token SQLStatement :=
  .alt (do let _ ← tok .kwCreate; createStmt) <|
  .alt (do let _ ← tok .kwDrop; dropStmt) <|
  .alt (do let _ ← tok .kwUse; useGrammar) <|
  .alt (do let _ ← tok .kwSelect; selectGrammar lax) <|
  .alt (do let _ ← tok .kwDelete; deleteGrammar lax) <|
  .alt (do let _ ← tok .kwInsert; insertGrammar lax)
    (do let _ ← tok .kwUpdate; updateGrammar lax)

/-! ## The readers the parser is made of -/

section Readers

variable {α β : Type}

theorem isAtEnd_cons (n : Nat) (t : Token) (ts : List Token) :
    isAtEnd n (t :: ts) = .ok (t.kind == .endOfFile) (t :: ts) := rfl

theorem check_cons {kind : TokenKind} (hk : kind ≠ .endOfFile) (n : Nat) (t : Token)
    (ts : List Token) : check kind n (t :: ts) = .ok (t.kind == kind) (t :: ts) := by
  rw [check, bind_of_ok _ (isAtEnd_cons n t ts)]
  by_cases ht : t.kind = .endOfFile
  · have hne : (t.kind == kind) = false := by simp [ht, Ne.symm hk]
    rw [hne, ht]
    rfl
  · rw [if_neg (by simpa using ht)]
    rfl

/-- Testing for a token and advancing over it is one token of lookahead. -/
theorem onToken_eq {kind : TokenKind} (hk : kind ≠ .endOfFile) (yes : Token → ParserM α)
    (no : ParserM α) : onToken kind yes no = branch (·.kind == kind) yes no := by
  funext n ts
  cases ts with
  | nil => rfl
  | cons t ts =>
    rw [onToken, bind_of_ok _ (check_cons hk n t ts), branch]
    by_cases ht : (t.kind == kind) = true <;> simp [ht, bind_apply]

theorem onToken_bind {kind : TokenKind} (hk : kind ≠ .endOfFile) (yes : Token → ParserM α)
    (no : ParserM α) (f : α → ParserM β) :
    (onToken kind yes no >>= f) = onToken kind (fun t => yes t >>= f) (no >>= f) := by
  rw [onToken_eq hk, onToken_eq hk, branch_bind]

theorem refuse_eq {kind : TokenKind} (hk : kind ≠ .endOfFile) (msg : String) (go : ParserM α) :
    refuse kind msg go = guardNext (·.kind == kind) (fail msg) go := by
  funext n ts
  cases ts with
  | nil => rfl
  | cons t ts =>
    rw [refuse, bind_of_ok _ (check_cons hk n t ts), guardNext]
    by_cases ht : (t.kind == kind) = true <;> simp [ht]

theorem commits_fail (msg : String) : Commits (fail msg : ParserM α) Lang.empty :=
  commits_empty fun n ts a rest h => by cases ts <;> cases h

theorem reads_need {kind : TokenKind} {msg : String} {f : Token → ParserM α}
    {F : Token → Lang Token α} (hk : kind ≠ .endOfFile) (hf : ∀ t, Reads (f t) (F t)) :
    Reads (need kind msg >>= f) (tok kind >>= F) := by
  rw [need, onToken_eq hk]
  exact (commits_one (commits_fail msg)).bind_reads hf

section OnToken

variable {kind : TokenKind} {yes : Token → ParserM α} {no : ParserM α} {Y : Token → Lang Token α}
  {N : Lang Token α}

/-- One more alternative, with a first token of its own. -/
theorem reads_onToken (hk : kind ≠ .endOfFile) (hy : ∀ t, Reads (yes t) (Y t)) (hn : Reads no N)
    (hN : N.Begins (·.kind ≠ kind)) :
    Reads (onToken kind yes no) (.alt (tok kind >>= Y) N) := by
  rw [onToken_eq hk]
  exact .branch hy hn (hN.mono fun t ht => beq_false_of_ne ht)

/-- The last alternative. -/
theorem reads_onToken_last (hk : kind ≠ .endOfFile) (hy : ∀ t, Reads (yes t) (Y t))
    (hn : Commits no Lang.empty) : Reads (onToken kind yes no) (tok kind >>= Y) := by
  have h := reads_onToken hk hy hn.reads Lang.begins_empty
  rwa [Lang.alt_empty] at h

/-- An optional part: what follows it starts with another token. -/
theorem reads_onToken_open (hk : kind ≠ .endOfFile) (hy : ∀ t, Reads (yes t) (Y t))
    (hn : Reads no N) (hstart : ∀ {t v a}, N (t :: v) a → t.kind ≠ kind)
    (hopen : ∀ {a t}, N [] a → ∃ v b, Y t v b) :
    Reads (onToken kind yes no) (.alt (tok kind >>= Y) N) := by
  rw [onToken_eq hk]
  exact .branch_open hy hn (fun h => beq_false_of_ne (hstart h)) fun h _ => hopen h

end OnToken

/-- A test on what was read, with an error on one side. -/
theorem reads_ite {c : Prop} [Decidable c] {bad go : ParserM α} {L : Lang Token α}
    (hbad : Commits bad Lang.empty) (hgo : Reads go L) :
    Reads (if c then bad else go) (under (¬ c) L) := by
  by_cases hc : c
  · rw [if_pos hc]
    have he : under (¬ c) L = Lang.empty := by
      funext w a
      exact eq_false fun h => h.1 hc
    rw [he]
    exact hbad.reads
  · rw [if_neg hc]
    have he : under (¬ c) L = L := by
      funext w a
      exact propext ⟨And.right, fun h => ⟨hc, h⟩⟩
    rwa [he]

theorem begins_tok {p : Token → Prop} {kind : TokenKind} {F : Token → Lang Token α}
    (h : ∀ t, t.kind = kind → p t) : (tok kind >>= F).Begins p :=
  Lang.begins_one_bind fun t ht => h t (eq_of_beq ht)

theorem begins_tok_ne {k kind : TokenKind} (h : kind ≠ k) {F : Token → Lang Token α} :
    (tok kind >>= F).Begins (·.kind ≠ k) := begins_tok fun _ e => e ▸ h

theorem avoids_tok {k kind : TokenKind} (h : kind ≠ k) : (tok kind).Avoids (·.kind = k) :=
  Lang.avoids_one fun _ ht e => h ((eq_of_beq ht).symm.trans e)

end Readers

/-! ## The parts of a statement -/

theorem value_avoids {k : TokenKind} (lax : Bool) (hi : TokenKind.intLiteral ≠ k)
    (hs : TokenKind.stringLiteral ≠ k) : (value lax).Avoids (·.kind = k) :=
  Avoids.alt (Avoids.bind (avoids_tok hi) fun _ => avoids_pure _) <|
  Avoids.alt (Avoids.bind (avoids_tok hs) fun _ => avoids_pure _) (avoids_given _ _)

theorem reads_value : Reads parseValueString (value true) := by
  rw [value, Lang.given_true rfl]
  refine reads_onToken_open (by decide) (fun t => (commits_pure _).reads)
    (reads_onToken_open (by decide) (fun t => (commits_pure _).reads) (commits_pure _).reads ?_ ?_)
    ?_ ?_
  · rintro t v a ⟨h, -⟩
    cases h
  · exact fun _ => ⟨[], _, rfl, rfl⟩
  · rintro t v a (h | ⟨h, -⟩)
    · obtain ⟨_, _, e, hs, -⟩ := Lang.one_bind_iff.mp h
      obtain ⟨rfl, -⟩ := List.cons.inj e
      exact eq_of_beq hs ▸ by decide
    · cases h
  · exact fun _ => ⟨[], _, rfl, rfl⟩

theorem semicolon_begins {stmt b : SQLStatement} {c : Token} {v : List Token}
    (h : semicolon stmt (c :: v) b) : c.kind = .semicolon := by
  rcases h with h | ⟨h, -⟩
  · obtain ⟨_, _, e, hc, -⟩ := one_bind_iff.mp h
    obtain ⟨rfl, -⟩ := List.cons.inj e
    exact eq_of_beq hc
  · cases h

theorem reads_finish (stmt : SQLStatement) : Reads (finish stmt) (semicolon stmt) := by
  rw [finish, optionalSemicolon, onToken_bind (by decide)]
  refine reads_onToken_open (by decide) (fun t => (commits_pure _).reads) (commits_pure _).reads
    ?_ ?_
  · rintro t v a ⟨h, -⟩
    cases h
  · exact fun _ => ⟨[], _, rfl, rfl⟩

/-- A WHERE clause, behind the test for an empty column name. -/
theorem reads_whereClause {α : Type} {bad : ParserM α} (hbad : Commits bad Lang.empty)
    (add : WhereClause → α) :
    Reads (parseWhereClause >>= fun wc => if wc.column.isEmpty then bad else pure (add wc))
      (condition true >>= fun wc => pure (add wc)) := by
  rw [parseWhereClause, onToken_bind (by decide), condition, bind_assoc]
  refine reads_onToken_last (by decide) (fun col => ?_) hbad
  simp only [parseComparison, onToken_bind (show TokenKind.opEq ≠ .endOfFile by decide),
    onToken_bind (show TokenKind.opLt ≠ .endOfFile by decide),
    onToken_bind (show TokenKind.opGt ≠ .endOfFile by decide), comparison, bind_assoc, alt_bind]
  have hconst (op : Token) : Reads (parseValueString >>= fun v =>
      (pure { column := col.lexeme, op := op.lexeme, constValue := v.1, isIntLiteral := v.2 }
        >>= fun wc : WhereClause => if wc.column.isEmpty then bad else pure (add wc)))
      (value true >>= fun v => (given (¬ col.lexeme.isEmpty)
        { column := col.lexeme, op := op.lexeme, constValue := v.1, isIntLiteral := v.2 }
        >>= fun wc : WhereClause => pure (add wc))) := by
    simp only [pure_bind, given_bind]
    refine reads_value.bind (fun v => reads_ite hbad (commits_pure _).reads) ?_ ?_
    · rintro w a c v b - ⟨-, h, -⟩
      cases h
    · exact fun h => ⟨[], _, h.1, rfl, rfl⟩
  refine reads_onToken (by decide) hconst (reads_onToken (by decide) hconst
    (reads_onToken_last (by decide) hconst hbad) ?_) ?_
  · exact begins_tok_ne (by decide)
  · exact begins_alt.mpr ⟨begins_tok_ne (by decide), begins_tok_ne (by decide)⟩

theorem condition_avoids {k : TokenKind} (lax : Bool) (h : k = .semicolon ∨ k = .endOfFile) :
    (condition lax).Avoids (·.kind = k) := by
  have hk : TokenKind.identifier ≠ k ∧ TokenKind.opEq ≠ k ∧ TokenKind.opLt ≠ k ∧
      TokenKind.opGt ≠ k ∧ TokenKind.intLiteral ≠ k ∧ TokenKind.stringLiteral ≠ k := by
    rcases h with rfl | rfl <;> decide
  obtain ⟨hid, heq, hlt, hgt, hi, hs⟩ := hk
  refine Avoids.bind (avoids_tok hid) fun col => Avoids.bind ?_ fun op => ?_
  · exact Avoids.alt (avoids_tok heq) (Avoids.alt (avoids_tok hlt) (avoids_tok hgt))
  · exact Avoids.bind (value_avoids lax hi hs) fun v => avoids_given _ _

theorem whereOpt_avoids {k : TokenKind} (lax : Bool) (h : k = .semicolon ∨ k = .endOfFile)
    (stmt : SQLStatement) (add : WhereClause → SQLStatement) :
    (whereOpt lax stmt add).Avoids (·.kind = k) := by
  have hk : TokenKind.kwWhere ≠ k := by rcases h with rfl | rfl <;> decide
  exact Avoids.alt (Avoids.bind (avoids_tok hk) fun _ =>
    Avoids.bind (condition_avoids lax h) fun _ => avoids_pure _) (avoids_pure _)

theorem reads_optionalWhere (stmt : SQLStatement) (add : WhereClause → SQLStatement) :
    Reads (optionalWhere stmt add) (whereOpt true stmt add) := by
  refine reads_onToken_open (by decide) (fun _ => reads_whereClause (commits_throw _) add)
    (commits_pure _).reads ?_ ?_
  · rintro t v a ⟨h, -⟩
    cases h
  · intro a t _
    let col : Token := { kind := .identifier, lexeme := ['a'] }
    let op : Token := { kind := .opEq }
    exact ⟨_, _, [col, op], [], _, rfl, ⟨[col], [op], col, rfl, ⟨rfl, rfl⟩, [op], [], op, rfl,
      Or.inl ⟨rfl, rfl⟩, [], [], _, rfl, Or.inr (Or.inr ⟨rfl, rfl, rfl⟩), by decide, rfl, rfl⟩,
      rfl, rfl⟩

theorem reads_finishWhere (stmt : SQLStatement) (add : WhereClause → SQLStatement) :
    Reads (finishWhere stmt add) (whereTail true stmt add) := by
  refine (reads_optionalWhere stmt add).bind reads_finish ?_ ?_
  · intro w a c v b _ h
    exact (whereOpt_avoids true (Or.inl rfl) stmt add).not_viable (semicolon_begins h) w
  · exact fun _ => ⟨[], _, Or.inr ⟨rfl, rfl⟩⟩

theorem whereTail_begins {lax : Bool} {stmt b : SQLStatement} {add : WhereClause → SQLStatement}
    {c : Token} {v : List Token} (h : whereTail lax stmt add (c :: v) b) :
    c.kind = .kwWhere ∨ c.kind = .semicolon := by
  obtain ⟨w, u, a, e, h | ⟨rfl, -⟩, hs⟩ := h
  · obtain ⟨t, x, rfl, ht, -⟩ := one_bind_iff.mp h
    obtain ⟨rfl, -⟩ := List.cons.inj e
    exact Or.inl (eq_of_beq ht)
  · obtain rfl : c :: v = u := e
    exact Or.inr (semicolon_begins hs)

/-! ## The lists of CREATE TABLE and INSERT -/

theorem commaLoop_eq {α : Type} (item : ParserM α) (msg : String) (k : Nat) :
    commaLoop item msg k = itemsLoop item (·.kind == .comma) (·.kind == .rparen) (fail msg) k := by
  induction k with
  | zero => rfl
  | succ k ih =>
    simp only [commaLoop, itemsLoop, onToken_eq (show TokenKind.rparen ≠ .endOfFile by decide),
      onToken_eq (show TokenKind.comma ≠ .endOfFile by decide), ih]

theorem commits_commaList {α : Type} {item : ParserM α} {L : Lang Token α} (msg : String)
    (hi : Reads item L) (hc : L.Avoids (·.kind = .comma)) (hr : L.Avoids (·.kind = .rparen)) :
    Commits (commaList item msg) (.items L isComma isRparen) := by
  have he : commaList item msg
      = fun n ts => itemsLoop item (·.kind == .comma) (·.kind == .rparen) (fail msg) n n ts := by
    funext n ts
    rw [commaList, commaLoop_eq]
  rw [he]
  exact commits_itemsLoop hi (commits_fail msg)
    (fun t ht w => hc.not_viable (eq_of_beq ht) w) (fun t ht w => hr.not_viable (eq_of_beq ht) w)
    (fun t ht => by rw [eq_of_beq ht]; rfl)

theorem columnDef_avoids {k : TokenKind} (hk : k = .comma ∨ k = .rparen ∨ k = .endOfFile) :
    columnDef.Avoids (·.kind = k) := by
  have hk : TokenKind.identifier ≠ k ∧ TokenKind.kwInt ≠ k ∧ TokenKind.kwString ≠ k ∧
      TokenKind.kwPrimary ≠ k := by
    rcases hk with rfl | rfl | rfl <;> decide
  obtain ⟨hid, hint, hstr, hpk⟩ := hk
  refine Avoids.bind (avoids_tok hid) fun name => Avoids.bind ?_ fun type => Avoids.bind ?_ fun _ =>
    avoids_given _ _
  · exact Avoids.alt (avoids_tok hint) (avoids_tok hstr)
  · exact Avoids.alt (Avoids.bind (avoids_tok hpk) fun _ => avoids_pure _) (avoids_pure _)

theorem reads_columnItem : Reads columnItem columnDef := by
  rw [columnItem, parseColumnDef, onToken_bind (by decide)]
  refine reads_onToken_last (by decide) (fun name => ?_) (commits_fail _)
  simp only [parseColumnType, onToken_bind (show TokenKind.kwInt ≠ .endOfFile by decide),
    onToken_bind (show TokenKind.kwString ≠ .endOfFile by decide),
    onToken_bind (show TokenKind.kwPrimary ≠ .endOfFile by decide), columnType, primary, alt_bind,
    bind_assoc, pure_bind]
  refine reads_onToken (by decide) (fun type => ?_)
    (reads_onToken_last (by decide) (fun type => ?_) (commits_fail _))
    (begins_tok_ne (by decide))
  all_goals
    refine reads_onToken_open (by decide)
      (fun _ => reads_ite (commits_fail _) (commits_pure _).reads)
      (reads_ite (commits_fail _) (commits_pure _).reads) ?_ ?_
    · rintro t v a ⟨-, h, -⟩
      cases h
    · exact fun h => ⟨[], _, h.1, rfl, rfl⟩

/-- The exclusion of `)` in front of a list. -/
theorem reads_refuse (msg : String) {go : ParserM SQLStatement} {L : Lang Token SQLStatement}
    (hgo : Reads go L) (hL : ∀ a, ¬ L [] a) :
    Reads (refuse .rparen msg go) (.notFrom isRparen L) := by
  rw [refuse_eq (by decide)]
  exact .guardNext (commits_fail msg) hgo hL

/-! ## The statements -/

theorem reads_createTable (table : Token) : Reads
    (refuse .rparen "Expected at least one column definition in CREATE TABLE" do
      let columns ← commaList columnItem "Expected ',' or ')' in column list"
      if 1 < columns.countP ColumnDef.isPrimary then
        fail "Only one primary key column is allowed per table"
      else
        finish { kind := .createTable, createTable := { tableName := table.lexeme, columns } })
    (columnList >>= fun columns =>
      semicolon { kind := .createTable, createTable := { tableName := table.lexeme, columns } }) := by
  have hb : (Lang.items columnDef isComma isRparen).Begins fun t => ¬ isRparen t := by
    refine Begins.items (begins_tok fun t ht hr => ?_)
    rw [eq_of_beq hr] at ht
    cases ht
  simp only [columnList, bind_assoc, given_bind]
  have h := reads_refuse "Expected at least one column definition in CREATE TABLE"
    ((commits_commaList "Expected ',' or ')' in column list" reads_columnItem
      (columnDef_avoids (Or.inl rfl)) (columnDef_avoids (Or.inr (Or.inl rfl)))).bind_reads
      fun columns => reads_ite (c := 1 < columns.countP ColumnDef.isPrimary)
        (commits_fail "Only one primary key column is allowed per table") (reads_finish
          { kind := .createTable, createTable := { tableName := table.lexeme, columns } }))
    hb.bind.not_nil
  rwa [hb.bind.notFrom_eq] at h

theorem reads_create : Reads parseCreate createStmt := by
  refine reads_onToken (by decide) (fun _ => ?_)
    (reads_onToken_last (by decide) (fun _ => ?_) (commits_fail _))
    (begins_tok_ne (by decide))
  · exact reads_need (by decide) fun name => reads_finish _
  · exact reads_need (by decide) fun table => reads_need (by decide) fun _ =>
      reads_createTable table

theorem reads_drop : Reads parseDrop dropStmt := by
  refine reads_onToken (by decide) (fun _ => ?_)
    (reads_onToken_last (by decide) (fun _ => ?_) (commits_fail _))
    (begins_tok_ne (by decide))
  · exact reads_need (by decide) fun name => reads_finish _
  · exact reads_need (by decide) fun table => reads_finish _

theorem reads_use : Reads parseUse useGrammar :=
  reads_need (by decide) fun _ => reads_finish _

theorem commits_selectColumn :
    Commits selectColumn (.alt (tok .identifier) (tok .opStar)) := by
  rw [selectColumn, onToken_eq (by decide), onToken_eq (by decide)]
  have hstar : (tok .opStar).Begins fun t => (t.kind == .identifier) = false := by
    rintro w t ⟨rfl, ht⟩
    exact ⟨t, [], rfl, beq_false_of_ne (eq_of_beq ht ▸ by decide)⟩
  have h := Commits.branch (q := (·.kind == .identifier)) (fun t => commits_pure t)
    (commits_one (q := (·.kind == .opStar))
      (commits_fail "Expected column name or '*' after SELECT")) hstar
  rwa [bind_pure] at h

theorem reads_select : Reads parseSelect (selectGrammar true) :=
  commits_selectColumn.bind_reads fun _ => reads_need (by decide) fun _ =>
    reads_need (by decide) fun _ => reads_finishWhere _ _

theorem reads_delete : Reads parseDelete (deleteGrammar true) :=
  reads_need (by decide) fun _ => reads_need (by decide) fun _ => reads_finishWhere _ _

theorem reads_insert : Reads parseInsert (insertGrammar true) := by
  refine reads_need (by decide) fun _ => reads_need (by decide) fun table =>
    reads_need (by decide) fun _ => reads_need (by decide) fun _ => ?_
  rw [valueList, notFrom_bind (items_not_nil ·)]
  refine reads_refuse _ ((commits_commaList _ reads_value ?_ ?_).bind_reads fun vals =>
    reads_finish _) ?_
  · exact value_avoids true (by decide) (by decide)
  · exact value_avoids true (by decide) (by decide)
  · rintro a ⟨u, v, as, e, hu, -⟩
    obtain rfl := (List.append_eq_nil_iff.mp e.symm).1
    exact items_not_nil as hu

theorem reads_update : Reads parseUpdate (updateGrammar true) := by
  refine reads_need (by decide) fun table => reads_need (by decide) fun _ =>
    reads_need (by decide) fun col => reads_need (by decide) fun _ =>
    reads_value.bind (fun v => reads_finishWhere _ _) ?_ ?_
  · intro w v c u b _ h
    rcases whereTail_begins h with hc | hc
    · exact (value_avoids true (by decide) (by decide)).not_viable hc w
    · exact (value_avoids true (by decide) (by decide)).not_viable hc w
  · exact fun _ => ⟨[], _, [], [], _, rfl, Or.inr ⟨rfl, rfl⟩, Or.inr ⟨rfl, rfl⟩⟩

theorem reads_keyword : Reads parseKeyword (sentence true) := by
  refine reads_onToken (by decide) (fun _ => reads_create)
    (reads_onToken (by decide) (fun _ => reads_drop)
    (reads_onToken (by decide) (fun _ => reads_use)
    (reads_onToken (by decide) (fun _ => reads_select)
    (reads_onToken (by decide) (fun _ => reads_delete)
    (reads_onToken (by decide) (fun _ => reads_insert)
    (reads_onToken_last (by decide) (fun _ => reads_update) (commits_fail _)) ?_) ?_) ?_) ?_) ?_) ?_
  all_goals
    simp [begins_alt, begins_tok_ne]

theorem sentence_begins (lax : Bool) : (sentence lax).Begins (·.kind ≠ .endOfFile) := by
  simp only [sentence, begins_alt]
  simp [begins_tok_ne]

theorem semicolon_avoids (stmt : SQLStatement) : (semicolon stmt).Avoids (·.kind = .endOfFile) :=
  Avoids.alt (Avoids.bind (avoids_tok (by decide)) fun _ => avoids_pure _) (avoids_pure _)

theorem whereTail_avoids (lax : Bool) (stmt : SQLStatement) (add : WhereClause → SQLStatement) :
    (whereTail lax stmt add).Avoids (·.kind = .endOfFile) :=
  Avoids.bind (whereOpt_avoids lax (Or.inr rfl) stmt add) semicolon_avoids

theorem list_avoids {α : Type} {L : Lang Token α} (hL : L.Avoids (·.kind = .endOfFile)) :
    (Lang.items L isComma isRparen).Avoids (·.kind = .endOfFile) :=
  hL.items (fun t ht => eq_of_beq ht ▸ by decide) fun t ht => eq_of_beq ht ▸ by decide

theorem tok_bind_avoids {α : Type} {kind : TokenKind} {F : Token → Lang Token α}
    (hk : kind ≠ .endOfFile) (hF : ∀ t, (F t).Avoids (·.kind = .endOfFile)) :
    (tok kind >>= F).Avoids (·.kind = .endOfFile) :=
  Avoids.bind (avoids_tok hk) hF

/-- No sentence runs over the end of the input. -/
theorem sentence_avoids (lax : Bool) : (sentence lax).Avoids (·.kind = .endOfFile) := by
  have hcols : columnList.Avoids (·.kind = .endOfFile) :=
    Avoids.bind (list_avoids (columnDef_avoids (by simp))) fun _ => avoids_given _ _
  have hvals : (valueList lax).Avoids (·.kind = .endOfFile) :=
    (list_avoids (value_avoids lax (by decide) (by decide))).notFrom
  have hcol : (Lang.alt (tok .identifier) (tok .opStar)).Avoids (·.kind = .endOfFile) :=
    Avoids.alt (avoids_tok (by decide)) (avoids_tok (by decide))
  have hname {F : Token → SQLStatement} :
      (tok .identifier >>= fun name => semicolon (F name)).Avoids (·.kind = .endOfFile) :=
    tok_bind_avoids (by decide) fun _ => semicolon_avoids _
  refine Avoids.alt (tok_bind_avoids (by decide) fun _ => Avoids.alt ?_ ?_) <|
    Avoids.alt (tok_bind_avoids (by decide) fun _ => Avoids.alt ?_ ?_) <|
    Avoids.alt (tok_bind_avoids (by decide) fun _ => hname) <|
    Avoids.alt (tok_bind_avoids (by decide) fun _ => ?_) <|
    Avoids.alt (tok_bind_avoids (by decide) fun _ => ?_) <|
    Avoids.alt (tok_bind_avoids (by decide) fun _ => ?_) (tok_bind_avoids (by decide) fun _ => ?_)
  · exact tok_bind_avoids (by decide) fun _ => hname
  · refine tok_bind_avoids (by decide) fun _ => tok_bind_avoids (by decide) fun _ => ?_
    exact tok_bind_avoids (by decide) fun _ => hcols.bind fun _ => semicolon_avoids _
  · exact tok_bind_avoids (by decide) fun _ => hname
  · exact tok_bind_avoids (by decide) fun _ => hname
  · refine hcol.bind fun _ => tok_bind_avoids (by decide) fun _ => ?_
    exact tok_bind_avoids (by decide) fun _ => whereTail_avoids lax _ _
  · refine tok_bind_avoids (by decide) fun _ => tok_bind_avoids (by decide) fun _ => ?_
    exact whereTail_avoids lax _ _
  · refine tok_bind_avoids (by decide) fun _ => tok_bind_avoids (by decide) fun _ => ?_
    refine tok_bind_avoids (by decide) fun _ => tok_bind_avoids (by decide) fun _ => ?_
    exact hvals.bind fun _ => semicolon_avoids _
  · refine tok_bind_avoids (by decide) fun _ => tok_bind_avoids (by decide) fun _ => ?_
    refine tok_bind_avoids (by decide) fun _ => tok_bind_avoids (by decide) fun _ => ?_
    exact (value_avoids lax (by decide) (by decide)).bind fun _ => whereTail_avoids lax _ _

theorem isAtEnd_eq (msg : String) (go : ParserM SQLStatement) :
    (do if ← isAtEnd then fail msg else go) = guardNext (·.kind == .endOfFile) (fail msg) go := by
  funext n ts
  cases ts with
  | nil => rfl
  | cons t ts =>
    rw [bind_of_ok _ (isAtEnd_cons n t ts), guardNext]
    exact apply_ite (fun p : ParserM SQLStatement => p n (t :: ts)) ..

/-- **The parser reads the lax grammar.** -/
theorem reads_statement : Reads parseStatement (sentence true) := by
  have h := Reads.guardNext (q := (·.kind == .endOfFile))
    (commits_fail "Empty input, expected an SQL statement") reads_keyword
    (sentence_begins true).not_nil
  rw [((sentence_begins true).mono fun t ht e => ht (eq_of_beq e)).notFrom_eq, ← isAtEnd_eq] at h
  exact h

/-- **Where the parser stops**: after the sentences of the lax grammar that the next token does not
continue. -/
theorem parseStatement_accepts {n : Nat} {w : List Token} {stmt : SQLStatement} {t : Token}
    {u : List Token} (hn : w.length ≤ n) :
    parseStatement n (w ++ t :: u) = .ok stmt (t :: u) ↔
      sentence true w stmt ∧ ¬ (sentence true).Viable w t :=
  reads_statement.accepts_iff
    (fun w => (sentence_avoids true).not_viable (t := { kind := .endOfFile }) rfl w) hn

/-! ## The documented grammar is part of it -/

theorem value_lax : (value false).Sub (value true) :=
  (Sub.refl _).alt ((Sub.refl _).alt fun _ _ h => absurd h.1 (by decide))

theorem whereTail_lax (stmt : SQLStatement) (add : WhereClause → SQLStatement) :
    (whereTail false stmt add).Sub (whereTail true stmt add) :=
  Sub.bind
    (.alt (.bind (.refl _) fun _ => .bind (.bind (.refl _) fun _ => .bind (.refl _) fun _ =>
      .bind value_lax fun _ => .refl _) fun _ => .refl _) (.refl _))
    fun _ => .refl _

/-- **Every documented sentence is a lax one.** -/
theorem sentence_lax : (sentence false).Sub (sentence true) := by
  have under {kind : TokenKind} {F G : Token → Lang Token SQLStatement}
      (h : ∀ t, (F t).Sub (G t)) : (tok kind >>= F).Sub (tok kind >>= G) := (Sub.refl _).bind h
  refine (Sub.refl _).alt <| (Sub.refl _).alt <| (Sub.refl _).alt <| Sub.alt (under fun _ => ?_) <|
    Sub.alt (under fun _ => ?_) <| Sub.alt (under fun _ => ?_) (under fun _ => ?_)
  · exact (Sub.refl _).bind fun _ => under fun _ => under fun _ => whereTail_lax _ _
  · exact under fun _ => under fun _ => whereTail_lax _ _
  · exact under fun _ => under fun _ => under fun _ => under fun _ =>
      value_lax.items.notFrom.bind fun _ => .refl _
  · exact under fun _ => under fun _ => under fun _ => under fun _ =>
      value_lax.bind fun _ => whereTail_lax _ _

end MiniDB.Parser

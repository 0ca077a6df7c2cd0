import MiniDB.Machinery.Prompt
import MiniDB.Parser.Bounds
import MiniDB.Parser.WellFormed

/-!
# Parser/Blame — the token an error message names

Every function of the parser is `Prompt`: it exits at the first token that no statement has there.
Two things blur this.  A message about a WHERE clause names no position; and that there is more than
one PRIMARY is only found at the end of the column list, so behind two of them any error is late.

**`parse_blames_first`**: what stands in front of the blamed token begins a statement, unless it has
two PRIMARYs; with this token nothing is one; and the message is the same whatever follows.
-/

namespace MiniDB.Parser

open MiniDB.Core Reader Lang

/-! ## What a message names -/

/-- The message of `make_error` in front of a token. -/
def located (t : Token) (msg : String) : Text :=
  snprintf 512 ("Line ".toList ++ natText t.line ++ ":".toList ++ natText t.column ++ ": ".toList
    ++ msg.toList)

/-- A failure whose message names the token, or is about a WHERE clause. -/
def Names (t : Token) (stmt : SQLStatement) : Prop :=
  stmt.kind = .invalid ∧
    ((∃ msg, stmt.errorMsg = located t msg) ∨ stmt.errorMsg = "Error parsing WHERE clause".toList)

/-- A name has a text. -/
def Token.Named (t : Token) : Prop := t.kind = .identifier → t.lexeme.isEmpty = false

/-- More than one PRIMARY. -/
def Overloaded (w : List Token) : Prop := 1 < w.countP (·.kind == .kwPrimary)

/-- A statement is completed without a PRIMARY. -/
def blame : Policy Token SQLStatement where
  ok := Token.Named
  fill t := t.Named ∧ t.kind ≠ .kwPrimary
  late := Overloaded
  made := Names
  ok_of_fill _ h := h.1
  late_append u w h := by
    rw [Overloaded, List.countP_append]
    exact Nat.lt_of_lt_of_le h (Nat.le_add_left _ _)

/-- The tokens begin a word, and it is completed without a PRIMARY. -/
abbrev Opens {α : Type} (L : Lang Token α) (w : List Token) : Prop := Begun blame.fill L w

abbrev Blaming {α : Type} (p : ParserM α) (L : Lang Token α) : Prop := Prompt blame p L

/-! ## The readers the parser is made of -/

section Readers

variable {α β : Type} {kind : TokenKind} {yes : Token → ParserM α} {no : ParserM α}
  {Y : Token → Lang Token α} {N L : Lang Token α} {F : Token → Lang Token α}

/-- A token to complete a statement with. -/
def filler (kind : TokenKind) : Token := { kind, lexeme := ['a'] }

theorem filler_fill (hk : kind ≠ .kwPrimary) : blame.fill (filler kind) := ⟨fun _ => rfl, hk⟩

theorem opens_tok (hk : kind ≠ .kwPrimary) (hF : Opens (F (filler kind)) []) :
    Opens (tok kind >>= F) [] := by
  obtain ⟨v, a, hv, hfill⟩ := hF
  refine ⟨filler kind :: v, a, one_bind_iff.mpr ⟨_, v, rfl, beq_self_eq_true kind, hv⟩, ?_⟩
  exact List.forall_mem_cons.mpr ⟨filler_fill hk, hfill⟩

theorem exits_fail (msg : String) : Exits blame (fail msg : ParserM α) := by
  rintro n t ts _ ⟨⟩
  exact ⟨⟨rfl, Or.inl ⟨msg, rfl⟩⟩, fun m u => rfl⟩

theorem exits_where (stmt : SQLStatement) : Exits blame (throw
    { stmt with kind := .invalid, errorMsg := "Error parsing WHERE clause".toList } : ParserM α) :=
  exits_throw fun _ => ⟨rfl, Or.inr rfl⟩

theorem blaming_onToken (hk : kind ≠ .endOfFile)
    (hy : ∀ t, t.Named → t.kind = kind → Blaming (yes t) (Y t)) (hn : Blaming no N) :
    Blaming (onToken kind yes no) (.alt (tok kind >>= Y) N) := by
  rw [onToken_eq hk]
  refine prompt_branch (fun t hok ht => hy t hok (eq_of_beq ht)) (hn.mono fun _ _ => Or.inr) ?_
  exact fun _ _ => Or.inl

theorem blaming_onToken_last (hk : kind ≠ .endOfFile) (hp : kind ≠ .kwPrimary)
    (hy : ∀ t, t.Named → t.kind = kind → Blaming (yes t) (Y t)) (hno : Exits blame no)
    (hY : Opens (Y (filler kind)) []) : Blaming (onToken kind yes no) (tok kind >>= Y) := by
  rw [onToken_eq hk]
  exact prompt_branch_last (fun t hok ht => hy t hok (eq_of_beq ht)) hno (opens_tok hp hY)

theorem blaming_one (hk : kind ≠ .endOfFile) (hp : kind ≠ .kwPrimary) {bad : ParserM Token}
    (hbad : Exits blame bad) : Blaming (onToken kind (fun t => pure t) bad) (tok kind) := by
  have h : Blaming (onToken kind (fun t => pure t) bad) (tok kind >>= pure) :=
    blaming_onToken_last hk hp (fun t _ _ => prompt_pure t) hbad (begun_pure (filler kind))
  rwa [bind_pure] at h

theorem blaming_need (hk : kind ≠ .endOfFile) (hp : kind ≠ .kwPrimary) (msg : String)
    {f : Token → ParserM α} (hf : ∀ t, t.Named → t.kind = kind → Blaming (f t) (F t))
    (hF : ∀ t, t.Named → t.kind = kind → Opens (F t) []) :
    Blaming (need kind msg >>= f) (tok kind >>= F) := by
  have hneed : Blaming (need kind msg) (tok kind) := blaming_one hk hp (exits_fail msg)
  have hfollows : Follows (need kind msg) (tok kind) := by
    rw [need, onToken_eq hk]
    exact (commits_one (commits_fail msg)).follows
  refine hneed.bind hfollows ?_ ?_
  · rintro _ t ⟨rfl, ht⟩ hok
    exact hf t (hok t List.mem_cons_self) (eq_of_beq ht)
  · rintro _ t ⟨rfl, ht⟩ hok
    exact hF t (hok t List.mem_cons_self) (eq_of_beq ht)

end Readers

/-! ## Conditions and endings -/

theorem parseValueString_ne_error (n : Nat) (ts : List Token) (e : SQLStatement) :
    parseValueString n ts ≠ .error e := by
  rw [parseValueString, onToken_eq (by decide), onToken_eq (by decide)]
  intro h
  cases ts with
  | nil => cases h
  | cons t ts =>
    simp only [branch] at h
    split_ifs at h

theorem finish_ne_error (stmt : SQLStatement) (n : Nat) (ts : List Token) (e : SQLStatement) :
    finish stmt n ts ≠ .error e := by
  rw [finish, optionalSemicolon, onToken_bind (by decide), onToken_eq (by decide)]
  intro h
  cases ts with
  | nil => cases h
  | cons t ts =>
    simp only [branch] at h
    split_ifs at h

theorem opens_semicolon (stmt : SQLStatement) : Opens (semicolon stmt) [] :=
  (begun_pure stmt).right

theorem opens_whereTail (stmt : SQLStatement) (add : WhereClause → SQLStatement) :
    Opens (whereTail true stmt add) [] := by
  have hnone : whereOpt true stmt add [] stmt := Or.inr ⟨rfl, rfl⟩
  exact Begun.after hnone (opens_semicolon stmt)

theorem blaming_finish (stmt : SQLStatement) : Blaming (finish stmt) (semicolon stmt) :=
  prompt_of_noError (finish_ne_error stmt)

/-- The end of a condition on a column that has a name. -/
theorem opens_constant {col : Token} (hcol : col.lexeme.isEmpty = false) (op : Token)
    (v : Text × Bool) (add : WhereClause → SQLStatement) : Opens (given (¬ col.lexeme.isEmpty)
      { column := col.lexeme, op := op.lexeme, constValue := v.1, isIntLiteral := v.2 }
      >>= fun wc : WhereClause => pure (add wc)) [] := by
  rw [given_true (by simp [hcol]), pure_bind]
  exact begun_pure _

/-- A condition that cannot be parsed is blamed on the token it cannot have. -/
theorem blaming_whereClause {bad : ParserM SQLStatement} (hbad : Exits blame bad)
    (add : WhereClause → SQLStatement) :
    Blaming (parseWhereClause >>= fun wc => if wc.column.isEmpty then bad else pure (add wc))
      (condition true >>= fun wc => pure (add wc)) := by
  rw [parseWhereClause, onToken_bind (by decide), condition, bind_assoc]
  have hnone : value true [] ([], false) := Or.inr (Or.inr ⟨rfl, rfl, rfl⟩)
  refine blaming_onToken_last (by decide) (by decide) (fun col hcol hk => ?_) hbad ?_
  · simp only [parseComparison, onToken_bind (show TokenKind.opEq ≠ .endOfFile by decide),
      onToken_bind (show TokenKind.opLt ≠ .endOfFile by decide),
      onToken_bind (show TokenKind.opGt ≠ .endOfFile by decide), comparison, bind_assoc, alt_bind]
    have hconst (op : Token) : Blaming (parseValueString >>= fun v =>
        (pure { column := col.lexeme, op := op.lexeme, constValue := v.1, isIntLiteral := v.2 }
          >>= fun wc : WhereClause => if wc.column.isEmpty then bad else pure (add wc)))
        (value true >>= fun v => (given (¬ col.lexeme.isEmpty)
          { column := col.lexeme, op := op.lexeme, constValue := v.1, isIntLiteral := v.2 }
          >>= fun wc : WhereClause => pure (add wc))) := by
      refine (prompt_of_noError parseValueString_ne_error).bind reads_value.follows ?_ ?_
      · intro w v _ _
        rw [pure_bind, if_neg (by simp [hcol hk])]
        exact prompt_pure _
      · exact fun w v _ _ => opens_constant (hcol hk) op v add
    exact blaming_onToken (by decide) (fun op _ _ => hconst op) <|
      blaming_onToken (by decide) (fun op _ _ => hconst op) <|
      blaming_onToken_last (by decide) (by decide) (fun op _ _ => hconst op) hbad
        (Begun.after hnone (opens_constant (hcol hk) _ _ add))
  · simp only [bind_assoc, comparison, alt_bind]
    exact (opens_tok (by decide) (Begun.after hnone (opens_constant rfl _ _ add))).left

theorem blaming_finishWhere (stmt : SQLStatement) (add : WhereClause → SQLStatement) :
    Blaming (finishWhere stmt add) (whereTail true stmt add) := by
  refine Prompt.bind ?_ (reads_optionalWhere stmt add).follows
    (fun _ stmt _ _ => blaming_finish stmt) fun _ stmt _ _ => opens_semicolon stmt
  exact blaming_onToken (by decide)
    (fun _ _ _ => blaming_whereClause (exits_where stmt) add) (prompt_pure stmt)

/-! ## The lists -/

theorem blaming_commaList {α : Type} {item : ParserM α} {L : Lang Token α} (msg : String)
    (hi : Blaming item L) (hiL : Follows item L) :
    Blaming (commaList item msg) (.items L isComma isRparen) := by
  have he : commaList item msg
      = fun n ts => itemsLoop item (·.kind == .comma) (·.kind == .rparen) (fail msg) n n ts := by
    funext n ts
    rw [commaList, commaLoop_eq]
  rw [he]
  exact prompt_itemsLoop hi hiL (exits_fail msg) ⟨filler .rparen, rfl, filler_fill (by decide)⟩

theorem opens_columnDef {name : Token} (hname : name.lexeme.isEmpty = false) (type : Token)
    (isPrimary : Bool) : Opens (given (¬ name.lexeme.isEmpty)
      ({ name := name.lexeme, type := type.lexeme, isPrimary } : ColumnDef)) [] := by
  rw [given_true (by simp [hname])]
  exact begun_pure _

theorem blaming_columnItem : Blaming columnItem columnDef := by
  rw [columnItem, parseColumnDef, onToken_bind (by decide)]
  refine blaming_onToken_last (by decide) (by decide) (fun name hname hk => ?_) (exits_fail _) ?_
  · simp only [parseColumnType, onToken_bind (show TokenKind.kwInt ≠ .endOfFile by decide),
      onToken_bind (show TokenKind.kwString ≠ .endOfFile by decide),
      onToken_bind (show TokenKind.kwPrimary ≠ .endOfFile by decide), columnType, primary, alt_bind,
      bind_assoc, pure_bind]
    have hgo (col : ColumnDef) {L : Lang Token ColumnDef} :
        Blaming (if name.lexeme.isEmpty then fail "Expected column name in CREATE TABLE"
          else pure col) L := by
      rw [if_neg (by simp [hname hk])]
      exact prompt_pure col
    refine blaming_onToken (by decide) (fun type _ _ => ?_) <|
      blaming_onToken_last (by decide) (by decide) (fun type _ _ => ?_) (exits_fail _)
        (opens_columnDef (hname hk) _ false).right
    all_goals exact blaming_onToken (by decide) (fun _ _ _ => hgo _) (hgo _)
  · simp only [columnType, primary, alt_bind, bind_assoc, pure_bind]
    exact (opens_tok (by decide) (opens_columnDef rfl _ false).right).left

/-- One for a PRIMARY. -/
def primaries (t : Token) : List Unit := if t.kind == .kwPrimary then [()] else []

theorem columnDef_carries :
    columnDef.Carries primaries [] fun col => if col.isPrimary then [()] else [] := by
  have hplain {kind : TokenKind} (hk : kind ≠ .kwPrimary) :
      (tok kind).Carries primaries [] fun _ => [] :=
    carries_one fun t ht => by simp [primaries, eq_of_beq ht, hk]
  refine Carries.bind (hplain (by decide)) fun name => Carries.bind
    ((hplain (by decide)).alt (hplain (by decide))) fun type => Carries.bind
    (ψ := fun b => if b then [()] else []) (Carries.alt ?_ (carries_pure rfl)) fun b =>
      carries_given rfl
  refine Carries.bind (ψ := fun _ => [()]) (carries_one fun t ht => ?_) fun _ => carries_pure rfl
  simp [primaries, eq_of_beq ht]

/-- The primary columns of a list are its PRIMARYs. -/
theorem countP_columns {w : List Token} {columns : List ColumnDef}
    (h : Lang.items columnDef isComma isRparen w columns) :
    columns.countP ColumnDef.isPrimary = w.countP (·.kind == .kwPrimary) := by
  have hsep (t : Token) (ht : isComma t) : primaries t = [] := by
    simp [primaries, eq_of_beq ht]
  have hclose (t : Token) (ht : isRparen t) : primaries t = [] := by
    simp [primaries, eq_of_beq ht]
  have hcarries := columnDef_carries.items hsep hclose h
  have hlength {α : Type} (q : α → Bool) (xs : List α) :
      (xs.flatMap fun x => if q x then [()] else []).length = xs.countP q := by
    induction xs with
    | nil => rfl
    | cons x xs ih => cases hx : q x <;> simp [hx, ih]
  rw [← hlength, ← hlength]
  exact congrArg List.length hcarries

/-- Whether a list of columns has too many PRIMARYs is asked at its end. -/
theorem blaming_columns (add : List ColumnDef → SQLStatement) : Blaming
    (do let columns ← commaList columnItem "Expected ',' or ')' in column list"
        if 1 < columns.countP ColumnDef.isPrimary then
          fail "Only one primary key column is allowed per table"
        else finish (add columns))
    (.items columnDef isComma isRparen >>= fun columns =>
      under (¬ 1 < columns.countP ColumnDef.isPrimary) (semicolon (add columns))) := by
  refine (blaming_commaList _ blaming_columnItem reads_columnItem.follows).bind_late
    (commits_commaList _ reads_columnItem (columnDef_avoids (Or.inl rfl))
      (columnDef_avoids (Or.inr (Or.inl rfl)))).follows ?_ ?_
  · intro w columns hw _
    by_cases hc : 1 < columns.countP ColumnDef.isPrimary
    · rw [if_pos hc]
      rw [countP_columns hw] at hc
      exact Or.inr ⟨hc, exits_fail _, fun _ _ => nofun⟩
    · rw [if_neg hc]
      exact Or.inl (prompt_of_noError (finish_ne_error _))
  · intro w v columns hv _ hfill
    by_cases hc : 1 < columns.countP ColumnDef.isPrimary
    · have hplain : v.countP (·.kind == .kwPrimary) = 0 :=
        List.countP_eq_zero.mpr fun t ht => by simpa using (hfill t ht).2
      rw [countP_columns hv, List.countP_append, hplain] at hc
      exact Or.inr hc
    · exact Or.inl ((opens_semicolon (add columns)).mono fun _ _ h => ⟨hc, h⟩)

theorem blaming_refuse (msg : String) {go : ParserM SQLStatement} {L : Lang Token SQLStatement}
    (hgo : Blaming go L) (hL : Opens (notFrom isRparen L) []) :
    Blaming (refuse .rparen msg go) (notFrom isRparen L) := by
  rw [refuse_eq (by decide)]
  exact prompt_guardNext (exits_fail msg) hgo hL

/-- A list of one column, behind the opening parenthesis. -/
theorem opens_columns (add : List ColumnDef → SQLStatement) :
    Opens (.items columnDef isComma isRparen >>= fun columns =>
      under (¬ 1 < columns.countP ColumnDef.isPrimary) (semicolon (add columns))) [] := by
  have hcol : columnDef [filler .identifier, filler .kwInt] { name := ['a'], type := ['a'] } :=
    ⟨[filler .identifier], _, _, rfl, ⟨rfl, rfl⟩, [filler .kwInt], [], _, rfl, Or.inl ⟨rfl, rfl⟩,
      [], [], _, rfl, Or.inr ⟨rfl, rfl⟩, by decide, rfl, rfl⟩
  have hcols : Lang.items columnDef isComma isRparen
      ([filler .identifier, filler .kwInt] ++ [filler .rparen]) [_] := .last hcol rfl
  refine Begun.complete ((opens_semicolon (add _)).mono fun _ _ h => ⟨by decide, h⟩) hcols ?_
  simp [filler_fill]

theorem opens_columnList (add : List ColumnDef → SQLStatement) :
    Opens (columnList >>= fun columns => semicolon (add columns)) [] := by
  simp only [columnList, bind_assoc, given_bind]
  exact opens_columns add

/-! ## The statements -/

theorem blaming_createTable (table : Token) : Blaming
    (refuse .rparen "Expected at least one column definition in CREATE TABLE" do
      let columns ← commaList columnItem "Expected ',' or ')' in column list"
      if 1 < columns.countP ColumnDef.isPrimary then
        fail "Only one primary key column is allowed per table"
      else
        finish { kind := .createTable, createTable := { tableName := table.lexeme, columns } })
    (columnList >>= fun columns => semicolon
      { kind := .createTable, createTable := { tableName := table.lexeme, columns } }) := by
  have hb : (Lang.items columnDef isComma isRparen).Begins fun t => ¬ isRparen t := by
    refine Begins.items (begins_tok fun t ht hr => ?_)
    rw [eq_of_beq hr] at ht
    cases ht
  simp only [columnList, bind_assoc, given_bind]
  have h := blaming_refuse "Expected at least one column definition in CREATE TABLE"
    (blaming_columns fun columns =>
      { kind := .createTable, createTable := { tableName := table.lexeme, columns } }) ?_
  · rwa [hb.bind.notFrom_eq] at h
  · rw [hb.bind.notFrom_eq]
    exact opens_columns _

theorem blaming_create : Blaming parseCreate createStmt := by
  refine blaming_onToken (by decide) (fun _ _ _ => ?_)
    (blaming_onToken_last (by decide) (by decide) (fun _ _ _ => ?_) (exits_fail _) ?_)
  · exact blaming_need (by decide) (by decide) _ (fun _ _ _ => blaming_finish _)
      fun _ _ _ => opens_semicolon _
  · refine blaming_need (by decide) (by decide) _ (fun table _ _ => ?_) fun table _ _ =>
      opens_tok (by decide) (opens_columnList _)
    exact blaming_need (by decide) (by decide) _ (fun _ _ _ => blaming_createTable table)
      fun _ _ _ => opens_columnList _
  · exact opens_tok (by decide) (opens_tok (by decide) (opens_columnList _))

theorem blaming_drop : Blaming parseDrop dropStmt := by
  refine blaming_onToken (by decide) (fun _ _ _ => ?_)
    (blaming_onToken_last (by decide) (by decide) (fun _ _ _ => ?_) (exits_fail _) ?_)
  · exact blaming_need (by decide) (by decide) _ (fun _ _ _ => blaming_finish _)
      fun _ _ _ => opens_semicolon _
  · exact blaming_need (by decide) (by decide) _ (fun _ _ _ => blaming_finish _)
      fun _ _ _ => opens_semicolon _
  · exact opens_tok (by decide) (opens_semicolon _)

theorem blaming_use : Blaming parseUse useGrammar :=
  blaming_need (by decide) (by decide) _ (fun _ _ _ => blaming_finish _)
    fun _ _ _ => opens_semicolon _

theorem blaming_selectColumn : Blaming selectColumn (.alt (tok .identifier) (tok .opStar)) := by
  have h : Blaming selectColumn (.alt (tok .identifier >>= pure) (tok .opStar)) :=
    blaming_onToken (by decide) (fun t _ _ => prompt_pure t)
      (blaming_one (by decide) (by decide) (exits_fail _))
  rwa [bind_pure] at h

theorem blaming_select : Blaming parseSelect (selectGrammar true) := by
  refine blaming_selectColumn.bind commits_selectColumn.follows (fun _ col _ _ => ?_)
    fun _ col _ _ => opens_tok (by decide) (opens_tok (by decide) (opens_whereTail _ _))
  refine blaming_need (by decide) (by decide) _ (fun _ _ _ => ?_) fun _ _ _ =>
    opens_tok (by decide) (opens_whereTail _ _)
  exact blaming_need (by decide) (by decide) _ (fun _ _ _ => blaming_finishWhere _ _)
    fun _ _ _ => opens_whereTail _ _

theorem blaming_delete : Blaming parseDelete (deleteGrammar true) := by
  refine blaming_need (by decide) (by decide) _ (fun _ _ _ => ?_) fun _ _ _ =>
    opens_tok (by decide) (opens_whereTail _ _)
  exact blaming_need (by decide) (by decide) _ (fun _ _ _ => blaming_finishWhere _ _)
    fun _ _ _ => opens_whereTail _ _

/-- A list of one literal, behind the opening parenthesis. -/
theorem opens_valueList (add : List (Text × Bool) → SQLStatement) :
    Opens (valueList true >>= fun vals => semicolon (add vals)) [] := by
  have hvalue : value true [filler .intLiteral] (['a'], true) :=
    Or.inl ⟨[filler .intLiteral], [], _, rfl, ⟨rfl, rfl⟩, rfl, rfl⟩
  have hvals : valueList true ([filler .intLiteral] ++ [filler .rparen]) [(['a'], true)] := by
    refine ⟨.last hvalue rfl, ?_⟩
    rintro t v ht hr
    obtain ⟨rfl, -⟩ := List.cons.inj ht
    cases hr
  refine Begun.complete (u := [filler .intLiteral, filler .rparen]) (opens_semicolon _) hvals ?_
  simp [filler_fill]

theorem blaming_insert : Blaming parseInsert (insertGrammar true) := by
  refine blaming_need (by decide) (by decide) _ (fun _ _ _ => ?_) fun _ _ _ =>
    opens_tok (by decide) (opens_tok (by decide) (opens_tok (by decide) (opens_valueList _)))
  refine blaming_need (by decide) (by decide) _ (fun table _ _ => ?_) fun _ _ _ =>
    opens_tok (by decide) (opens_tok (by decide) (opens_valueList _))
  refine blaming_need (by decide) (by decide) _ (fun _ _ _ => ?_) fun _ _ _ =>
    opens_tok (by decide) (opens_valueList _)
  refine blaming_need (by decide) (by decide) _ (fun _ _ _ => ?_) fun _ _ _ => opens_valueList _
  have hopens := opens_valueList fun vals => { kind := .insert, insertStmt :=
    { tableName := table.lexeme, values := vals.map Prod.fst, isInt := vals.map Prod.snd } }
  rw [valueList, notFrom_bind (items_not_nil ·)] at hopens ⊢
  refine blaming_refuse _ ?_ hopens
  have hlist {kind : TokenKind} (hi : TokenKind.intLiteral ≠ kind)
      (hs : TokenKind.stringLiteral ≠ kind) := value_avoids true hi hs
  exact (blaming_commaList _ (prompt_of_noError parseValueString_ne_error)
    reads_value.follows).bind (commits_commaList _ reads_value (hlist (by decide) (by decide))
      (hlist (by decide) (by decide))).follows
    (fun _ _ _ _ => blaming_finish _) fun _ _ _ _ => opens_semicolon _

/-- The value of an UPDATE may be missing. -/
theorem opens_setValue (table col : Token) : Opens (value true >>= fun v => whereTail true
    { kind := .update, updateStmt := updateOf table col v } fun wc =>
      { kind := .update,
        updateStmt := { updateOf table col v with hasWhere := true, cond := wc } }) [] := by
  have hnone : value true [] ([], false) := Or.inr (Or.inr ⟨rfl, rfl, rfl⟩)
  exact Begun.after hnone (opens_whereTail _ _)

theorem blaming_update : Blaming parseUpdate (updateGrammar true) := by
  refine blaming_need (by decide) (by decide) _ (fun table _ _ => ?_) fun _ _ _ =>
    opens_tok (by decide) (opens_tok (by decide) (opens_tok (by decide) (opens_setValue _ _)))
  refine blaming_need (by decide) (by decide) _ (fun _ _ _ => ?_) fun _ _ _ =>
    opens_tok (by decide) (opens_tok (by decide) (opens_setValue _ _))
  refine blaming_need (by decide) (by decide) _ (fun col _ _ => ?_) fun _ _ _ =>
    opens_tok (by decide) (opens_setValue _ _)
  refine blaming_need (by decide) (by decide) _ (fun _ _ _ => ?_) fun _ _ _ => opens_setValue _ _
  exact (prompt_of_noError parseValueString_ne_error).bind reads_value.follows
    (fun _ _ _ _ => blaming_finishWhere _ _) fun _ _ _ _ => opens_whereTail _ _

theorem blaming_keyword : Blaming parseKeyword (sentence true) := by
  refine blaming_onToken (by decide) (fun _ _ _ => blaming_create) <|
    blaming_onToken (by decide) (fun _ _ _ => blaming_drop) <|
    blaming_onToken (by decide) (fun _ _ _ => blaming_use) <|
    blaming_onToken (by decide) (fun _ _ _ => blaming_select) <|
    blaming_onToken (by decide) (fun _ _ _ => blaming_delete) <|
    blaming_onToken (by decide) (fun _ _ _ => blaming_insert) <|
    blaming_onToken_last (by decide) (by decide) (fun _ _ _ => blaming_update) (exits_fail _) ?_
  exact opens_tok (by decide) (opens_tok (by decide) (opens_tok (by decide)
    (opens_tok (by decide) (opens_setValue _ _))))

theorem opens_sentence : Opens (sentence true) [] := by
  refine Begun.right (Begun.right (Begun.left ?_))
  exact opens_tok (by decide) (opens_tok (by decide) (opens_semicolon _))

/-- **The parser blames the first token that does not fit.** -/
theorem blaming_statement : Blaming parseStatement (sentence true) := by
  have hb := (sentence_begins true).mono fun t ht (e : (t.kind == .endOfFile) = true) =>
    ht (eq_of_beq e)
  have h := prompt_guardNext (q := (·.kind == .endOfFile)) (L := sentence true)
    (exits_fail "Empty input, expected an SQL statement") blaming_keyword ?_
  · rwa [hb.notFrom_eq, ← isAtEnd_eq] at h
  · rw [hb.notFrom_eq]
    exact opens_sentence

/-! ## On a token vector -/

/-- Rounds to spare make no difference. -/
theorem parseStatement_eq {tokens : List Token} (h : ∃ t ∈ tokens, t.isEnd = true) {n : Nat}
    (hn : tokens.length ≤ n) : parseStatement n tokens = parseTokens tokens :=
  (within_parseStatement.rounds h le_rfl hn).2

/-- **The parser blames the first token that does not fit** — the tokens in front of it begin a
statement, unless they have two PRIMARYs; with it they begin none; and every text that starts with
the same tokens fails with the same message. -/
theorem parse_blames_first {sql : Text} {stmt : SQLStatement}
    (herr : (Lexer.tokenize sql).2.hasError = false) (h : parse sql = some stmt)
    (hk : stmt.kind = .invalid) : ∃ w t, w ++ [t] <+: (Lexer.tokenize sql).1 ∧ Names t stmt ∧
      (Overloaded w ∨ ∃ v s, sentence true (w ++ v) s) ∧ ¬ (sentence true).Viable w t ∧
      ∀ tokens, w ++ [t] <+: tokens → (∃ eof ∈ tokens, eof.kind = .endOfFile) →
        statementOf (parseTokens tokens) = some stmt := by
  obtain ⟨toks, eof, htok, hlex, heof⟩ := Lexer.tokenize_lexed herr
  rw [parse_of_noError herr, htok] at h
  have hnamed : ∀ t ∈ toks ++ [eof], t.Named := by
    refine List.forall_mem_append.mpr ⟨fun t ht hid => ?_, fun t ht hid => ?_⟩
    · exact List.isEmpty_eq_false_iff.mpr ((hlex t ht).name hid).1
    · rw [List.mem_singleton.mp ht, heof] at hid
      cases hid
  cases hp : parseTokens (toks ++ [eof]) with
  | ok s rest =>
    rw [hp] at h
    obtain rfl := Option.some.inj h
    obtain ⟨w, -, hs⟩ := reads_statement.follows.sound hp
    exact absurd hk (sentence_kind hs)
  | error e =>
    rw [hp] at h
    obtain rfl := Option.some.inj h
    obtain ⟨w, t, u, hw, hnames, hbegun, hexit⟩ := blaming_statement hnamed hp
    refine ⟨w, t, ⟨u, ?_⟩, hnames, ?_, ?_, ?_⟩
    · rw [htok, hw, List.append_assoc, List.singleton_append]
    · rcases hbegun with ⟨v, s, hs, -⟩ | hlate
      · exact Or.inr ⟨v, s, hs⟩
      · exact Or.inl hlate
    · exact reads_statement.not_viable
        (fun w => (sentence_avoids true).not_viable (t := { kind := .endOfFile }) rfl w) hexit
    · rintro _ ⟨u', rfl⟩ ⟨x, hx, hxend⟩
      have hend : ∃ x ∈ w ++ [t] ++ u', x.isEnd = true := ⟨x, hx, beq_iff_eq.mpr hxend⟩
      rw [← parseStatement_eq hend (Nat.le_add_left _ (toks ++ [eof]).length), List.append_assoc,
        List.singleton_append, hexit _ (Nat.le_add_right _ _)]
      rfl
  | outOfRange =>
    rw [hp] at h
    cases h

theorem parse_blames_first_set : ∃ stmt w t, parse "update t a = 1;".toList = some stmt ∧
    w ++ [t] <+: (Lexer.tokenize "update t a = 1;".toList).1 ∧ Names t stmt ∧
    (Overloaded w ∨ ∃ v s, sentence true (w ++ v) s) ∧ ¬ (sentence true).Viable w t ∧
    ∀ tokens, w ++ [t] <+: tokens → (∃ eof ∈ tokens, eof.kind = .endOfFile) →
      statementOf (parseTokens tokens) = some stmt := by
  have hfails : (parse "update t a = 1;".toList).any (·.kind == .invalid) = true := by
    decide +kernel
  obtain ⟨stmt, hparse, hk⟩ := (Option.any_eq_true _ _).mp hfails
  obtain ⟨w, t, hblame⟩ := parse_blames_first (by decide +kernel) hparse (eq_of_beq hk)
  exact ⟨stmt, w, t, hparse, hblame⟩

end MiniDB.Parser

import MiniDB.Parser.WellFormed

/-!
# Parser/Acceptance — what the parser leaves unread, and what it reads that is not documented

The parser stops after the first sentence of the lax grammar that the next token does not continue.
It never looks whether that token is END_OF_FILE, and never whether a value slot was empty.  Both
are read off its stopping points:

* `parse_reads_all_iff` — a text is read to its end unless the parser stops short in it;
* `sentence_false_iff` — an empty slot is all that keeps a lax sentence from being documented;
* `parse_documented_iff` — what is taken is a documented sentence unless it has an empty slot.
-/

namespace MiniDB.Parser

open MiniDB.Core Reader Lang

/-! ## Stopping points -/

/-- The parser stops in front of `t`, with a statement: the tokens before it are a sentence, and `t`
does not continue it. -/
def StopsAt (w : List Token) (t : Token) (stmt : SQLStatement) : Prop :=
  sentence true w stmt ∧ ¬ (sentence true).Viable w t

/-- The tokens before a stopping point are what the parser takes. -/
theorem parseTokens_eq_ok {w : List Token} {t : Token} {u : List Token} {stmt : SQLStatement} :
    parseTokens (w ++ t :: u) = .ok stmt (t :: u) ↔ StopsAt w t stmt :=
  parseStatement_accepts (by simp)

/-- What the parser takes in front of an END_OF_FILE is up to a stopping point. -/
theorem stopsAt_of_ok {init rest : List Token} {eof : Token} {stmt : SQLStatement}
    (heof : eof.kind = .endOfFile) (h : parseTokens (init ++ [eof]) = .ok stmt rest) :
    ∃ w t u, init ++ [eof] = w ++ t :: u ∧ rest = t :: u ∧ StopsAt w t stmt := by
  obtain ⟨w, hw, hs⟩ := reads_statement.follows.sound h
  cases rest with
  | nil =>
    -- the sentence would run over the end of the input
    have hmem : eof ∈ w := by
      rw [← List.append_nil w, ← hw]
      simp
    exact absurd heof (sentence_avoids true hs eof hmem)
  | cons t u =>
    rw [hw] at h
    exact ⟨w, t, u, hw, rfl, parseTokens_eq_ok.mp h⟩

/-- A statement that is not INVALID comes from a stopping point. -/
theorem stopsAt_of_statementOf {init : List Token} {eof : Token} {stmt : SQLStatement}
    (heof : eof.kind = .endOfFile) (h : statementOf (parseTokens (init ++ [eof])) = some stmt)
    (hk : stmt.kind ≠ .invalid) : ∃ w t u, init ++ [eof] = w ++ t :: u ∧ StopsAt w t stmt := by
  cases hp : parseTokens (init ++ [eof]) with
  | ok s rest =>
    rw [hp] at h
    obtain rfl := Option.some.inj h
    obtain ⟨w, t, u, hw, -, hstop⟩ := stopsAt_of_ok heof hp
    exact ⟨w, t, u, hw, hstop⟩
  | error e =>
    rw [hp] at h
    obtain rfl := Option.some.inj h
    exact absurd (honest_parseStatement hp).1.1 hk
  | outOfRange =>
    rw [hp] at h
    cases h

/-! ## The end of the input -/

/-- Every token but END_OF_FILE is taken by the statement that is returned, one optional semicolon
included. -/
def ReadsAll (sql : Text) : Prop := ∀ stmt, parse sql = some stmt → stmt.kind ≠ .invalid →
  ∃ w eof, (Lexer.tokenize sql).1 = w ++ [eof] ∧ eof.kind = .endOfFile ∧ sentence true w stmt ∧
    parseTokens (w ++ [eof]) = .ok stmt [eof]

/-- The parser stops in front of a token that is not the end of the input. -/
def StopsShort (tokens : List Token) : Prop :=
  ∃ w t u stmt, tokens = w ++ t :: u ∧ t.kind ≠ .endOfFile ∧ StopsAt w t stmt

/-- **An error-free text is read to its end unless the parser stops short in it**, that is, unless
some of its tokens are a whole statement which the next token, not END_OF_FILE, cannot continue. -/
theorem parse_reads_all_iff (sql : Text) (herr : (Lexer.tokenize sql).2.hasError = false) :
    ReadsAll sql ↔ ¬ StopsShort (Lexer.tokenize sql).1 := by
  obtain ⟨toks, eof, htok, hlex, heof⟩ := Lexer.tokenize_lexed herr
  constructor
  · rintro h ⟨w, t, u, stmt, hw, ht, hstop⟩
    have hp := parseTokens_eq_ok (u := u).mpr hstop
    rw [← hw] at hp
    have hparse : parse sql = some stmt := by rw [parse_of_noError herr, hp]; rfl
    obtain ⟨v, e, hv, he, -, hpe⟩ := h stmt hparse (sentence_kind hstop.1)
    rw [← hv, hp] at hpe
    obtain ⟨rfl, -⟩ := List.cons.inj (Outcome.ok.inj hpe).2
    exact ht he
  · intro hshort stmt hparse hk
    rw [parse_of_noError herr, htok] at hparse
    obtain ⟨w, t, u, hw, hstop⟩ := stopsAt_of_statementOf heof hparse hk
    have ht : t.kind = .endOfFile := by
      by_contra ht
      exact hshort ⟨w, t, u, stmt, htok.trans hw, ht, hstop⟩
    -- only the last token is END_OF_FILE
    have hu : u = [] := by
      by_contra hne
      obtain ⟨u, x, rfl⟩ := List.eq_nil_or_concat u |>.resolve_left hne
      rw [List.concat_eq_append, ← List.cons_append, ← List.append_assoc] at hw
      have hmem : t ∈ toks := by
        rw [(List.append_inj' hw rfl).1]
        simp
      exact (hlex t hmem).notSpecial.1 ht
    subst hu
    exact ⟨w, t, htok.trans hw, ht, hstop.1, parseTokens_eq_ok.mpr hstop⟩

theorem parse_reads_all_use :
    ReadsAll "use d;".toList ↔ ¬ StopsShort (Lexer.tokenize "use d;".toList).1 :=
  parse_reads_all_iff _ (by decide +kernel)

/-- A misspelt WHERE is ignored: the statement deletes every row. -/
theorem delete_wher_not_reads_all :
    (Lexer.tokenize "delete from t wher id = 1".toList).2.hasError = false ∧
      ¬ ReadsAll "delete from t wher id = 1".toList := by
  refine ⟨by decide +kernel, fun h => ?_⟩
  obtain ⟨w, eof, htok, -, -, hp⟩ := h
    { kind := .delete, deleteStmt := { tableName := ['t'] } } (by decide +kernel) nofun
  have hleft : (match parseTokens (Lexer.tokenize "delete from t wher id = 1".toList).1 with
      | .ok _ rest => rest.length
      | _ => 0) = 5 := by decide +kernel
  rw [htok, hp] at hleft
  cases hleft

/-! ## Empty slots -/

/-- A value stands behind `=`, `<` and `>`, and in INSERT behind `(` and `,`. -/
def opensValue (insert : Bool) (t : Token) : Prop :=
  t.kind.isComparison = true ∨ insert = true ∧ (t.kind = .lparen ∨ t.kind = .comma)

def isLiteral (t : Token) : Prop := t.kind.isLiteral = true

instance (insert : Bool) : DecidablePred (opensValue insert) := fun _ =>
  inferInstanceAs (Decidable (_ ∨ _))

instance : DecidablePred isLiteral := fun _ => inferInstanceAs (Decidable (_ = _))

/-- Whether the tokens are an INSERT. -/
def isInsert (w : List Token) : Bool := w.head?.any (·.kind == .kwInsert)

/-- Some value slot is empty: no literal stands where a value should. -/
def HasEmptySlot (w : List Token) : Prop :=
  ∃ x c y, w = x ++ c :: y ∧ opensValue (isInsert w) c ∧ ∀ t ∈ y.head?, ¬ isLiteral t

section Slots

variable {insert : Bool} {w : List Token} {stmt : SQLStatement} {kind : TokenKind}

theorem not_hasEmptySlot_iff :
    ¬ HasEmptySlot w ↔ Filled (opensValue (isInsert w)) isLiteral w := by
  simp [HasEmptySlot, Filled]

instance (w : List Token) : Decidable (HasEmptySlot w) :=
  decidable_of_iff (¬ Filled (opensValue (isInsert w)) isLiteral w)
    (not_congr not_hasEmptySlot_iff.symm |>.trans not_not)

theorem not_opensValue {t : Token} (ht : (t.kind == kind) = true)
    (hk : kind.isComparison = false ∧ kind ≠ .lparen ∧ kind ≠ .comma) :
    ¬ opensValue insert t := by
  simp [opensValue, eq_of_beq ht, hk]

theorem avoids_tok_opens (hk : kind.isComparison = false)
    (hi : insert = false ∨ kind ≠ .lparen ∧ kind ≠ .comma) :
    (tok kind).Avoids (opensValue insert) := avoids_one fun t ht => by
  rcases hi with hi | hi <;> simp [opensValue, eq_of_beq ht, hk, hi]

theorem semicolon_avoids_opens (stmt : SQLStatement) :
    (semicolon stmt).Avoids (opensValue insert) :=
  Avoids.alt (Avoids.bind (avoids_tok_opens rfl (.inr (by decide))) fun _ => avoids_pure _)
    (avoids_pure _)

theorem semicolon_beginsNot (stmt : SQLStatement) : (semicolon stmt).BeginsNot isLiteral := by
  intro w a hw t ht hlit
  cases w with
  | nil => cases ht
  | cons c w =>
    cases ht
    rw [isLiteral, semicolon_begins hw] at hlit
    cases hlit

/-- **A value is a literal, and fills its slot**; in the lax grammar it may be missing. -/
theorem value_slot (insert : Bool) :
    Slot (opensValue insert) isLiteral (value true) (value false) where
  sub := value_lax
  fills := by
    have hliteral {t : Token} (hk : t.kind = .intLiteral ∨ t.kind = .stringLiteral) :
        isLiteral t ∧ ¬ opensValue insert t := by
      rcases hk with hk | hk <;> simp [isLiteral, opensValue, hk, TokenKind.isLiteral,
        TokenKind.isComparison]
    rintro w a (h | h | ⟨h, -⟩)
    · obtain ⟨t, _, rfl, ht, rfl, -⟩ := one_bind_iff.mp h
      exact ⟨t, rfl, hliteral (.inl (eq_of_beq ht))⟩
    · obtain ⟨t, _, rfl, ht, rfl, -⟩ := one_bind_iff.mp h
      exact ⟨t, rfl, hliteral (.inr (eq_of_beq ht))⟩
    · cases h
  missing := by
    rintro w a (h | h | ⟨-, h, -⟩)
    · exact .inl (.inl h)
    · exact .inl (.inr (.inl h))
    · exact .inr h

/-- The tail of a statement, behind its slots so far. -/
theorem whereTail_selects (stmt : SQLStatement) (add : WhereClause → SQLStatement) :
    Selects (Filled (opensValue insert) isLiteral) (whereTail true stmt add)
      (whereTail false stmt add) := by
  have hvalue {op : TokenKind} (hop : op.isComparison = true) (col : Token) :
      Selects (Filled (opensValue insert) isLiteral)
        (tok op >>= fun t => value true >>= fun v => under (¬ col.lexeme.isEmpty) (semicolon (add
          { column := col.lexeme, op := t.lexeme, constValue := v.1, isIntLiteral := v.2 })))
        (tok op >>= fun t => value false >>= fun v => under (¬ col.lexeme.isEmpty) (semicolon (add
          { column := col.lexeme, op := t.lexeme, constValue := v.1, isIntLiteral := v.2 }))) :=
    (value_slot insert).selects (fun t ht => .inl (by rwa [eq_of_beq ht]))
      (fun _ _ _ _ hw => semicolon_beginsNot _ hw.2)
      fun _ _ => (semicolon_avoids_opens _).selects.under
  simp only [whereTail, whereOpt, condition, comparison, alt_bind, bind_assoc, pure_bind,
    given_bind, under_bind]
  refine Selects.alt ?_ (semicolon_avoids_opens _).selects
  refine .one_bind (fun t ht => not_opensValue ht (by decide)) fun _ => ?_
  refine .one_bind (fun t ht => not_opensValue ht (by decide)) fun col => ?_
  exact .alt (hvalue rfl col) (.alt (hvalue rfl col) (hvalue rfl col))

theorem whereTail_beginsNot (lax : Bool) (stmt : SQLStatement) (add : WhereClause → SQLStatement) :
    (whereTail lax stmt add).BeginsNot isLiteral := by
  intro w a hw t ht hlit
  cases w with
  | nil => cases ht
  | cons c w =>
    cases ht
    rcases whereTail_begins hw with h | h
    all_goals
      rw [isLiteral, h] at hlit
      cases hlit

/-! ### Statements without values -/

theorem name_avoids_opens (F : Token → SQLStatement) :
    (tok .identifier >>= fun name => semicolon (F name)).Avoids (opensValue false) :=
  Avoids.bind (avoids_tok_opens rfl (.inl rfl)) fun _ => semicolon_avoids_opens _

theorem columnDef_avoids_opens : columnDef.Avoids (opensValue false) := by
  refine Avoids.bind (avoids_tok_opens rfl (.inl rfl)) fun _ => Avoids.bind ?_ fun _ =>
    Avoids.bind ?_ fun _ => avoids_given _ _
  · exact Avoids.alt (avoids_tok_opens rfl (.inl rfl)) (avoids_tok_opens rfl (.inl rfl))
  · exact Avoids.alt (Avoids.bind (avoids_tok_opens rfl (.inl rfl)) fun _ => avoids_pure _)
      (avoids_pure _)

/-- The parentheses and commas of CREATE TABLE are in front of columns. -/
theorem createStmt_avoids_opens : createStmt.Avoids (opensValue false) := by
  refine Avoids.alt (Avoids.bind (avoids_tok_opens rfl (.inl rfl)) fun _ => name_avoids_opens _) ?_
  refine Avoids.bind (avoids_tok_opens rfl (.inl rfl)) fun _ => Avoids.bind
    (avoids_tok_opens rfl (.inl rfl)) fun _ => Avoids.bind (avoids_tok_opens rfl (.inl rfl))
    fun _ => Avoids.bind ?_ fun _ => semicolon_avoids_opens _
  refine Avoids.bind (columnDef_avoids_opens.items (fun t ht => ?_) fun t ht => ?_)
    fun _ => avoids_given _ _
  all_goals
    simp [opensValue, eq_of_beq ht, TokenKind.isComparison]

theorem dropStmt_avoids_opens : dropStmt.Avoids (opensValue false) :=
  Avoids.alt
    (Avoids.bind (avoids_tok_opens rfl (.inl rfl)) fun _ => name_avoids_opens _)
    (Avoids.bind (avoids_tok_opens rfl (.inl rfl)) fun _ => name_avoids_opens _)

/-! ### Statements with values -/

/-- A keyword, a name or a bracket in front. -/
theorem selects_tok {F G : Token → Lang Token SQLStatement}
    (hk : kind.isComparison = false ∧ kind ≠ .lparen ∧ kind ≠ .comma)
    (h : ∀ t, Selects (Filled (opensValue insert) isLiteral) (F t) (G t)) :
    Selects (Filled (opensValue insert) isLiteral) (tok kind >>= F) (tok kind >>= G) :=
  .one_bind (fun _ ht => not_opensValue ht hk) h

theorem selectGrammar_selects :
    Selects (Filled (opensValue insert) isLiteral) (selectGrammar true) (selectGrammar false) := by
  simp only [selectGrammar, alt_bind]
  refine .alt (selects_tok (by decide) fun col => ?_) (selects_tok (by decide) fun col => ?_)
  all_goals
    exact selects_tok (by decide) fun _ => selects_tok (by decide) fun _ => whereTail_selects _ _

theorem deleteGrammar_selects :
    Selects (Filled (opensValue insert) isLiteral) (deleteGrammar true) (deleteGrammar false) :=
  selects_tok (by decide) fun _ => selects_tok (by decide) fun _ => whereTail_selects _ _

/-- `(` opens the first slot of VALUES, and each comma the next. -/
theorem insertGrammar_selects :
    Selects (Filled (opensValue true) isLiteral) (insertGrammar true) (insertGrammar false) := by
  refine selects_tok (by decide) fun _ => selects_tok (by decide) fun table =>
    selects_tok (by decide) fun _ => ?_
  simp only [valueList, ← bind_assoc]
  refine Selects.bind ((value_slot true).selects_items (fun t ht => ?_) (fun t ht => ?_)
    fun t ht => ?_) (fun _ => semicolon_beginsNot _) fun _ => (semicolon_avoids_opens _).selects
  all_goals
    simp [opensValue, isLiteral, eq_of_beq ht, TokenKind.isComparison, TokenKind.isLiteral]

theorem updateGrammar_selects :
    Selects (Filled (opensValue insert) isLiteral) (updateGrammar true) (updateGrammar false) := by
  refine selects_tok (by decide) fun table => selects_tok (by decide) fun _ =>
    selects_tok (by decide) fun col => ?_
  exact (value_slot insert).selects (fun t ht => .inl (by rw [eq_of_beq ht]; rfl))
    (fun _ _ => whereTail_beginsNot _ _ _) fun _ _ => whereTail_selects _ _

/-- The first token tells whether a statement is an INSERT. -/
theorem selects_keyword {F G : Token → Lang Token SQLStatement}
    (hk : kind.isComparison = false ∧ kind ≠ .lparen ∧ kind ≠ .comma)
    (h : ∀ t, Selects (Filled (opensValue (kind == .kwInsert)) isLiteral) (F t) (G t)) :
    Selects (¬ HasEmptySlot ·) (tok kind >>= F) (tok kind >>= G) := by
  refine (selects_tok hk h).congr fun w a hw => ?_
  obtain ⟨t, v, rfl, ht, -⟩ := one_bind_iff.mp hw
  have hinsert : isInsert (t :: v) = (kind == .kwInsert) := by
    rw [isInsert, List.head?_cons, Option.any_some, eq_of_beq ht]
  rw [not_hasEmptySlot_iff, hinsert]

end Slots

/-- **The documented sentences are the lax ones without an empty slot.** -/
theorem sentence_false_iff (w : List Token) (stmt : SQLStatement) :
    sentence false w stmt ↔ sentence true w stmt ∧ ¬ HasEmptySlot w := by
  suffices h : Selects (¬ HasEmptySlot ·) (sentence true) (sentence false) from h w stmt
  exact .alt (selects_keyword (by decide) fun _ => createStmt_avoids_opens.selects) <|
    .alt (selects_keyword (by decide) fun _ => dropStmt_avoids_opens.selects) <|
    .alt (selects_keyword (by decide) fun _ => (name_avoids_opens _).selects) <|
    .alt (selects_keyword (by decide) fun _ => selectGrammar_selects) <|
    .alt (selects_keyword (by decide) fun _ => deleteGrammar_selects) <|
    .alt (selects_keyword (by decide) fun _ => insertGrammar_selects)
      (selects_keyword (by decide) fun _ => updateGrammar_selects)

/-! ## The documented grammar -/

/-- What is taken is a sentence of the documented grammar, so that every value of the statement
comes from one literal. -/
def TakesDocumented (tokens : List Token) : Prop :=
  ∀ stmt, statementOf (parseTokens tokens) = some stmt → stmt.kind ≠ .invalid →
    ∃ w rest, tokens = w ++ rest ∧ parseTokens tokens = .ok stmt rest ∧ sentence false w stmt

/-- The parser stops after a sentence with an empty slot. -/
def TakesEmptySlot (tokens : List Token) : Prop :=
  ∃ w t u stmt, tokens = w ++ t :: u ∧ StopsAt w t stmt ∧ HasEmptySlot w

/-- **What is taken is documented unless it has an empty value slot.** -/
theorem parse_documented_iff (init : List Token) (eof : Token) (heof : eof.kind = .endOfFile) :
    TakesDocumented (init ++ [eof]) ↔ ¬ TakesEmptySlot (init ++ [eof]) := by
  constructor
  · rintro h ⟨w, t, u, stmt, hw, hstop, hslot⟩
    have hp := parseTokens_eq_ok (u := u).mpr hstop
    rw [hw] at h
    obtain ⟨v, rest, hv, hpv, hs⟩ := h stmt (by rw [hp]; rfl) (sentence_kind hstop.1)
    rw [hp] at hpv
    obtain rfl := (Outcome.ok.inj hpv).2
    obtain rfl := List.append_cancel_right hv
    exact ((sentence_false_iff w stmt).mp hs).2 hslot
  · intro hempty stmt hstmt hk
    obtain ⟨w, t, u, hw, hstop⟩ := stopsAt_of_statementOf heof hstmt hk
    rw [hw] at hempty ⊢
    refine ⟨w, t :: u, rfl, parseTokens_eq_ok.mpr hstop, ?_⟩
    refine (sentence_false_iff w stmt).mpr ⟨hstop.1, fun hslot => ?_⟩
    exact hempty ⟨w, t, u, stmt, rfl, hstop, hslot⟩

/-- The tokens of `delete from t where a < 5`, in front of END_OF_FILE. -/
def deleteWhereLess : List Token :=
  [{ kind := .kwDelete }, { kind := .kwFrom }, { kind := .identifier, lexeme := ['t'] },
   { kind := .kwWhere }, { kind := .identifier, lexeme := ['a'] },
   { kind := .opLt, lexeme := ['<'] }, { kind := .intLiteral, lexeme := ['5'] }]

/-- The tokens in front of END_OF_FILE are taken, and their one slot is filled. -/
theorem parse_documented_delete :
    TakesDocumented (deleteWhereLess ++ [{ kind := .endOfFile }]) := by
  refine (parse_documented_iff _ _ rfl).mpr ?_
  rintro ⟨w, t, u, stmt, hw, hstop, hslot⟩
  have hp := parseTokens_eq_ok (u := u).mpr hstop
  have hleft : (match parseTokens (deleteWhereLess ++ [{ kind := .endOfFile }]) with
      | .ok _ rest => rest
      | _ => []) = [{ kind := .endOfFile }] := by decide +kernel
  rw [hw, hp] at hleft
  rw [show t :: u = [{ kind := .endOfFile }] from hleft] at hw
  obtain rfl := List.append_cancel_right hw
  revert hslot
  decide

/-- The tokens of `update t set a =`, in front of END_OF_FILE. -/
def updateSetNothing : List Token :=
  [{ kind := .kwUpdate, lexeme := "update".toList, line := 1, column := 1 },
   { kind := .identifier, lexeme := "t".toList, line := 1, column := 8 },
   { kind := .kwSet, lexeme := "set".toList, line := 1, column := 10 },
   { kind := .identifier, lexeme := "a".toList, line := 1, column := 14 },
   { kind := .opEq, lexeme := "=".toList, line := 1, column := 16 }]

/-- A missing value after `=` is the empty string: the statement empties the column. -/
theorem update_set_nothing_not_documented :
    (Lexer.tokenize "update t set a =".toList).1
        = updateSetNothing ++ [{ kind := .endOfFile, line := 1, column := 17 }] ∧
      ¬ TakesDocumented (updateSetNothing ++ [{ kind := .endOfFile, line := 1, column := 17 }]) := by
  refine ⟨by decide +kernel, fun h => ?_⟩
  let stmt : SQLStatement :=
    { kind := .update, updateStmt := { tableName := ['t'], setColumn := ['a'] } }
  have hp : parseTokens (updateSetNothing ++ [{ kind := .endOfFile, line := 1, column := 17 }])
      = .ok stmt [{ kind := .endOfFile, line := 1, column := 17 }] := by decide +kernel
  obtain ⟨w, rest, hw, hpw, hs⟩ := h stmt (by rw [hp]; rfl) nofun
  rw [hp] at hpw
  obtain rfl := (Outcome.ok.inj hpw).2
  obtain rfl := List.append_cancel_right hw
  exact ((sentence_false_iff _ _).mp hs).2 (by decide)

end MiniDB.Parser

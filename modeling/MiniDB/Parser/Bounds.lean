import MiniDB.Machinery.Contained
import MiniDB.Parser.Grammar
import MiniDB.Parser.Lexemes

/-!
# Parser/Bounds — the parser stays inside its tokens

`peek` and `advance` are unchecked reads of the token vector.  Every parsing function is `Contained`
by END_OF_FILE: `check` answers no there, so no function ever advances over such a token, and the
loops advance over a comma in every round.

**`parseTokens_within`**: on a vector that ends with END_OF_FILE the parser terminates and reads
nothing behind the first END_OF_FILE in it.
-/

namespace MiniDB.Parser

open MiniDB.Core Reader

/-- The end marker. -/
def Token.isEnd (t : Token) : Bool := t.kind == .endOfFile

/-- The tokens up to the first END_OF_FILE, which is the last of them. -/
def upToEnd (tokens : List Token) : List Token := tokens.take (tokens.findIdx Token.isEnd + 1)

/-! ## The parsing functions are contained -/

section Within

/-- A parsing function that reads nothing behind the first END_OF_FILE. -/
abbrev Within {α : Type} (p : ParserM α) : Prop := Contained Token.isEnd p

variable {α : Type} {kind : TokenKind} {yes : Token → ParserM α} {no : ParserM α}

theorem within_isAtEnd : Within isAtEnd := contained_peek.bind fun _ => contained_pure _

/-- The message of an error names the position of the next token, which is there. -/
theorem within_fail (msg : String) : Within (fail msg : ParserM α) :=
  (contained_peek.bind fun _ => contained_pure _).bind fun _ => contained_throw _

/-- **Only a token in front of END_OF_FILE is advanced over.** -/
theorem within_onToken (hk : kind ≠ .endOfFile) (hy : ∀ t, Within (yes t)) (hn : Within no) :
    Within (onToken kind yes no) := by
  rw [onToken_eq hk]
  refine contained_branch (fun t ht => ?_) hy hn
  rw [eq_of_beq ht]
  exact beq_false_of_ne hk.symm

theorem within_need (hk : kind ≠ .endOfFile) (msg : String) : Within (need kind msg) :=
  within_onToken hk (fun _ => contained_pure _) (within_fail msg)

theorem within_refuse (hk : kind ≠ .endOfFile) (msg : String) (hn : Within no) :
    Within (refuse kind msg no) := by
  rw [refuse_eq hk]
  exact contained_guardNext (within_fail msg) hn

/-- The comma loops: the length of the vector is rounds enough. -/
theorem within_commaList {item : ParserM α} (hi : Within item) (msg : String) :
    Within (commaList item msg) := by
  intro ts e hts he n n' rest rest' hn hn'
  have hmark {kind : TokenKind} (hk : kind ≠ .endOfFile) (t : Token) (ht : t.isEnd = true) :
      (t.kind == kind) = false := by
    rw [eq_of_beq ht]
    exact beq_false_of_ne hk.symm
  rw [commaList, commaList, commaLoop_eq, commaLoop_eq]
  exact settle_itemsLoop hi (within_fail msg) (hmark (by decide)) (hmark (by decide)) he n n' hts hn
    hn' rest rest' hn hn'

theorem within_finish (stmt : SQLStatement) : Within (finish stmt) :=
  (within_onToken (by decide) (fun _ => contained_pure _) (contained_pure _)).bind
    fun _ => contained_pure _

theorem within_parseValueString : Within parseValueString :=
  within_onToken (by decide) (fun _ => contained_pure _) <|
    within_onToken (by decide) (fun _ => contained_pure _) (contained_pure _)

theorem within_parseWhereClause : Within parseWhereClause := by
  refine within_onToken (by decide) (fun col => ?_) (contained_pure _)
  have hconst (op : Token) : Within (parseValueString >>= fun v => (pure
      { column := col.lexeme, op := op.lexeme, constValue := v.1, isIntLiteral := v.2 }
      : ParserM WhereClause)) := within_parseValueString.bind fun _ => contained_pure _
  exact within_onToken (by decide) hconst <| within_onToken (by decide) hconst <|
    within_onToken (by decide) hconst (contained_pure _)

theorem within_columnItem : Within columnItem := by
  refine Contained.bind ?_ fun _ => .ite (within_fail _) (contained_pure _)
  refine within_onToken (by decide) (fun name => ?_) (contained_pure _)
  have hprimary (col col' : ColumnDef) :
      Within (onToken .kwPrimary (fun _ => pure col) (pure col') : ParserM ColumnDef) :=
    within_onToken (by decide) (fun _ => contained_pure _) (contained_pure _)
  exact within_onToken (by decide) (fun _ => hprimary _ _) <|
    within_onToken (by decide) (fun _ => hprimary _ _) (contained_pure _)

theorem within_finishWhere (stmt : SQLStatement) (add : WhereClause → SQLStatement) :
    Within (finishWhere stmt add) := by
  refine Contained.bind (within_onToken (by decide) (fun _ => ?_) (contained_pure _)) within_finish
  exact within_parseWhereClause.bind fun _ => .ite (contained_throw _) (contained_pure _)

/-- A statement that a name completes. -/
theorem within_named (msg : String) (f : Token → SQLStatement) :
    Within (do let nameTok ← need .identifier msg; finish (f nameTok)) :=
  (within_need (by decide) msg).bind fun _ => within_finish _

theorem within_parseCreate : Within parseCreate := by
  refine within_onToken (by decide) (fun _ => within_named _ _) <|
    within_onToken (by decide) (fun _ => ?_) (within_fail _)
  refine (within_need (by decide) _).bind fun _ => (within_need (by decide) _).bind fun _ => ?_
  refine within_refuse (by decide) _ ((within_commaList within_columnItem _).bind fun _ => ?_)
  exact .ite (within_fail _) (within_finish _)

theorem within_parseDrop : Within parseDrop :=
  within_onToken (by decide) (fun _ => within_named _ _) <|
    within_onToken (by decide) (fun _ => within_named _ _) (within_fail _)

theorem within_parseSelect : Within parseSelect := by
  have hcol : Within selectColumn :=
    within_onToken (by decide) (fun _ => contained_pure _) <|
      within_onToken (by decide) (fun _ => contained_pure _) (within_fail _)
  refine hcol.bind fun _ => (within_need (by decide) _).bind fun _ => ?_
  exact (within_need (by decide) _).bind fun _ => within_finishWhere _ _

theorem within_parseDelete : Within parseDelete :=
  (within_need (by decide) _).bind fun _ => (within_need (by decide) _).bind fun _ =>
    within_finishWhere _ _

theorem within_parseInsert : Within parseInsert := by
  refine (within_need (by decide) _).bind fun _ => (within_need (by decide) _).bind fun _ => ?_
  refine (within_need (by decide) _).bind fun _ => (within_need (by decide) _).bind fun _ => ?_
  exact within_refuse (by decide) _
    ((within_commaList within_parseValueString _).bind fun _ => within_finish _)

theorem within_parseUpdate : Within parseUpdate := by
  refine (within_need (by decide) _).bind fun _ => (within_need (by decide) _).bind fun _ => ?_
  refine (within_need (by decide) _).bind fun _ => (within_need (by decide) _).bind fun _ => ?_
  exact within_parseValueString.bind fun _ => within_finishWhere _ _

/-- **The parser reads nothing behind the first END_OF_FILE.** -/
theorem within_parseStatement : Within parseStatement := by
  refine within_isAtEnd.bind fun _ => .ite (within_fail _) ?_
  exact within_onToken (by decide) (fun _ => within_parseCreate) <|
    within_onToken (by decide) (fun _ => within_parseDrop) <|
    within_onToken (by decide) (fun _ => within_named _ _) <|
    within_onToken (by decide) (fun _ => within_parseSelect) <|
    within_onToken (by decide) (fun _ => within_parseDelete) <|
    within_onToken (by decide) (fun _ => within_parseInsert) <|
    within_onToken (by decide) (fun _ => within_parseUpdate) (within_fail _)

end Within

/-! ## On a token vector -/

/-- A vector with an END_OF_FILE in it: the tokens in front of the first one, it, and the rest. -/
theorem split_at_end {tokens : List Token} (h : ∃ t ∈ tokens, t.isEnd = true) :
    ∃ front eof, upToEnd tokens = front ++ [eof] ∧ (∀ t ∈ front, t.isEnd = false) ∧
      eof.isEnd = true ∧
      tokens.drop (tokens.findIdx Token.isEnd)
        = eof :: tokens.drop (tokens.findIdx Token.isEnd + 1) := by
  have hlt : tokens.findIdx Token.isEnd < tokens.length := List.findIdx_lt_length_of_exists h
  refine ⟨tokens.take (tokens.findIdx Token.isEnd), tokens[tokens.findIdx Token.isEnd], ?_, ?_,
    List.findIdx_getElem (w := hlt), List.drop_eq_getElem_cons hlt⟩
  · rw [upToEnd, List.take_succ_eq_append_getElem hlt]
  · intro t ht
    obtain ⟨i, hi, rfl⟩ := List.mem_iff_getElem.mp ht
    rw [List.length_take_of_le hlt.le] at hi
    rw [List.getElem_take]
    simpa using List.not_of_lt_findIdx hi

theorem parseTokens_ne_outOfRange {tokens : List Token} (h : ∃ t ∈ tokens, t.isEnd = true) :
    parseTokens tokens ≠ .outOfRange := (within_parseStatement.rounds h le_rfl le_rfl).1

/-- **Every text is parsed**, into a statement or a failure. -/
theorem parse_defined (sql : Text) : ∃ stmt, parse sql = some stmt := by
  cases herr : (Lexer.tokenize sql).2.hasError with
  | true => exact ⟨_, if_pos herr⟩
  | false =>
    obtain ⟨toks, eof, htok, -, heof⟩ := Lexer.tokenize_lexed herr
    have hne : parseTokens (Lexer.tokenize sql).1 ≠ .outOfRange :=
      parseTokens_ne_outOfRange ⟨eof, by simp [htok], beq_iff_eq.mpr heof⟩
    rw [parse_of_noError herr]
    cases hout : parseTokens (Lexer.tokenize sql).1 with
    | ok stmt rest => exact ⟨stmt, rfl⟩
    | error stmt => exact ⟨stmt, rfl⟩
    | outOfRange => exact absurd hout hne

/-- **The parser terminates and stays inside its tokens**, on every vector that ends with
END_OF_FILE: cut off behind its first END_OF_FILE it makes no read past the end, with anything else
behind it the outcome is the same, and the position it stops at is not behind that token. -/
theorem parseTokens_within {tokens : List Token}
    (h : ∃ eof, tokens.getLast? = some eof ∧ eof.kind = .endOfFile) :
    parseTokens (upToEnd tokens) ≠ .outOfRange ∧
    (∀ behind, parseTokens (upToEnd tokens ++ behind)
      = (parseTokens (upToEnd tokens)).followedBy behind) ∧
    parseTokens tokens = (parseTokens (upToEnd tokens)).followedBy
      (tokens.drop (tokens.findIdx Token.isEnd + 1)) ∧
    ∀ stmt rest, parseTokens tokens = .ok stmt rest →
      tokens.drop (tokens.findIdx Token.isEnd) <:+ rest := by
  obtain ⟨eof, hlast, heof⟩ := h
  have hend : ∃ t ∈ tokens, t.isEnd = true :=
    ⟨eof, List.mem_of_getLast? hlast, beq_iff_eq.mpr heof⟩
  obtain ⟨front, eof, hcut, hfront, heof, hdrop⟩ := split_at_end hend
  have key (behind : List Token) :=
    within_parseStatement.cut (n := (front ++ eof :: behind).length) hfront heof behind (by simp)
  have hparse : parseTokens (upToEnd tokens)
      = parseStatement (front.length + 1) (front ++ [eof]) := by
    rw [hcut, parseTokens, List.length_append, List.length_singleton]
  have hbehind (behind : List Token) : parseTokens (upToEnd tokens ++ behind)
      = parseStatement (front ++ eof :: behind).length (front ++ eof :: behind) := by
    rw [hcut, List.append_assoc, List.singleton_append, parseTokens]
  -- the vector is its part up to the first END_OF_FILE and what stands behind
  have hsplit : upToEnd tokens ++ tokens.drop (tokens.findIdx Token.isEnd + 1) = tokens :=
    List.take_append_drop ..
  refine ⟨?_, fun behind => ?_, ?_, fun stmt rest hok => ?_⟩
  · rw [hparse]
    exact (key []).1
  · rw [hbehind, hparse]
    exact (key behind).2.1
  · conv_lhs => rw [← hsplit, hbehind]
    rw [hparse]
    exact (key _).2.1
  · rw [← hsplit, hbehind] at hok
    rw [hdrop]
    exact (key _).2.2 stmt rest hok

/-- An unfinished list of values, with more tokens and another END_OF_FILE behind its end. -/
theorem parseTokens_within_insert :
    let tokens : List Token :=
      [{ kind := .kwInsert }, { kind := .kwInto }, { kind := .identifier, lexeme := ['t'] },
       { kind := .kwValues }, { kind := .lparen }, { kind := .comma }, { kind := .endOfFile },
       { kind := .rparen }, { kind := .endOfFile }]
    parseTokens tokens = (parseTokens (upToEnd tokens)).followedBy
      [{ kind := .rparen }, { kind := .endOfFile }] ∧ parseTokens (upToEnd tokens) ≠ .outOfRange :=
  let h := parseTokens_within ⟨_, rfl, rfl⟩
  ⟨h.2.2.1, h.1⟩

end MiniDB.Parser

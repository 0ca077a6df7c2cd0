import MiniDB.Machinery.Lockstep
import MiniDB.Parser.Acceptance
import MiniDB.Parser.Spelling

/-!
# Parser/Respelling — the letter case of keywords

`Respelt s s'`: the text `s'` is `s` with letters of keywords in another case.  The lexer and the
parser run in lockstep on both: the tokens are the same but for the lexemes of keywords, and so are
the statements but for one place where such a lexeme flows on, the type of a column.

**`parse_respelt_iff`**: both texts are parsed to one statement unless the parser takes, in `s`, a
type word that is spelt differently in `s'`.
-/

namespace MiniDB.Parser

open MiniDB.Core Reader Lang

/-! ## Letters up to case -/

theorem upper_of_lower {c : Char} (h : 'a' ≤ c ∧ c ≤ 'z') : 'A' ≤ upper c ∧ upper c ≤ 'Z' := by
  have hn : 97 ≤ c.toNat ∧ c.toNat ≤ 122 := by
    simpa [Char.le_def, UInt32.le_iff_toNat_le] using h
  have hu : (upper c).toNat = c.toNat - 32 := (toNat_upper c).trans (if_pos hn)
  have hle : 65 ≤ (upper c).toNat ∧ (upper c).toNat ≤ 90 := by omega
  simpa [Char.le_def, UInt32.le_iff_toNat_le] using hle

/-- A class of characters that holds all letters or none sees no letter case. -/
theorem class_of_upper {p : Char → Bool} {b : Bool} (hl : ∀ c : Char, 'a' ≤ c ∧ c ≤ 'z' → p c = b)
    (hu : ∀ c : Char, 'A' ≤ c ∧ c ≤ 'Z' → p c = b) {c c' : Char} (h : upper c = upper c') :
    p c = p c' := by
  have hletter {c d : Char} (hc : 'a' ≤ c ∧ c ≤ 'z') (hd : upper c = upper d) : p d = b := by
    by_cases hlow : 'a' ≤ d ∧ d ≤ 'z'
    · exact hl d hlow
    · have hud : upper d = d := if_neg hlow
      rw [hud] at hd
      exact hu d (hd ▸ upper_of_lower hc)
  by_cases hc : 'a' ≤ c ∧ c ≤ 'z'
  · rw [hl c hc, hletter hc h]
  · by_cases hc' : 'a' ≤ c' ∧ c' ≤ 'z'
    · rw [hl c' hc', hletter hc' h.symm]
    · have hu : upper c = c := if_neg hc
      have hu' : upper c' = c' := if_neg hc'
      rw [← hu, ← hu', h]

theorem isIdentStart_of_upper {c c' : Char} (h : upper c = upper c') :
    isIdentStart c = isIdentStart c' :=
  class_of_upper (b := true) (fun c hc => by simp [isIdentStart, hc])
    (fun c hc => by simp [isIdentStart, hc]) h

theorem isIdentChar_of_upper {c c' : Char} (h : upper c = upper c') :
    isIdentChar c = isIdentChar c' :=
  class_of_upper (b := true) (fun c hc => by simp [isIdentChar, hc])
    (fun c hc => by simp [isIdentChar, hc]) h

theorem isDigit_of_upper {c c' : Char} (h : upper c = upper c') : isDigit c = isDigit c' := by
  have hstart {c : Char} (hc : isIdentStart c = true) : isDigit c = false :=
    (punctuation_of_isIdentStart hc).2.2
  exact class_of_upper (p := isDigit) (b := false) (fun c hc => hstart (by simp [isIdentStart, hc]))
    (fun c hc => hstart (by simp [isIdentStart, hc])) h

theorem matchKeyword_of_upper {w w' : Text} (h : w.map upper = w'.map upper) :
    matchKeyword w = matchKeyword w' := by
  simp only [matchKeyword, strEqCi, h]

theorem isWord_of_upper {w w' : Text} (h : w.map upper = w'.map upper) : isWord w = isWord w' := by
  have hall {s s' : Text} (h : s.map upper = s'.map upper) :
      s.all isIdentChar = s'.all isIdentChar := by
    induction s generalizing s' with
    | nil => 
      obtain rfl := List.map_eq_nil_iff.mp h.symm
      rfl
    | cons c s ih =>
      obtain ⟨c', s', rfl, hc, hs⟩ := List.map_eq_cons_iff.mp h.symm
      rw [List.all_cons, List.all_cons, isIdentChar_of_upper hc.symm, ih hs.symm]
  cases w with
  | nil =>
    obtain rfl := List.map_eq_nil_iff.mp h.symm
    rfl
  | cons c w =>
    obtain ⟨c', w', rfl, hc, hs⟩ := List.map_eq_cons_iff.mp h.symm
    rw [isWord, isWord, isIdentStart_of_upper hc.symm, hall hs.symm]

theorem Ended.of_upper {p : Char → Bool} (hp : ∀ c c', upper c = upper c' → p c = p c')
    {s s' : Text} (h : s.map upper = s'.map upper) (hs : Ended p s) : Ended p s' := by
  intro c' hc'
  obtain ⟨s', rfl⟩ := List.head?_eq_some_iff.mp hc'
  obtain ⟨c, s, rfl, hc, -⟩ := List.map_eq_cons_iff.mp h
  rw [← hp c c' hc]
  exact hs c rfl

/-! ## Texts up to the letter case of keywords -/

/-- The second text is the first with letters of keyword tokens in another case.  Both are read from
the left, token by token; what follows the last change, an error included, is the same. -/
inductive Respelt : Text → Text → Prop
  | same (s : Text) : Respelt s s
  | blank {c : Char} {s s' : Text} (hc : isBlank c = true) (h : Respelt s s') :
      Respelt (c :: s) (c :: s')
  | token {w lexeme s s' : Text} {kind : TokenKind} (hw : Spells w kind lexeme s)
      (h : Respelt s s') : Respelt (w ++ s) (w ++ s')
  | keyword {w w' lexeme s s' : Text} {kind : TokenKind} (hw : Spells w kind lexeme s)
      (hk : kind.isKeyword = true) (hcase : w.map upper = w'.map upper) (h : Respelt s s') :
      Respelt (w ++ s) (w' ++ s')

theorem Respelt.upper_eq {s s' : Text} (h : Respelt s s') : s.map upper = s'.map upper := by
  induction h with
  | same s => rfl
  | blank _ _ ih => rw [List.map_cons, List.map_cons, ih]
  | token _ _ ih => rw [List.map_append, List.map_append, ih]
  | keyword _ _ hcase _ ih => rw [List.map_append, List.map_append, ih, hcase]

/-- A token is one in front of a respelt text. -/
theorem Spells.of_upper {w lexeme s s' : Text} {kind : TokenKind} (hw : Spells w kind lexeme s)
    (h : s.map upper = s'.map upper) : Spells w kind lexeme s' := by
  cases hw with
  | mark hc => exact .mark hc
  | string hq => exact .string hq
  | number hn hend => exact .number hn (hend.of_upper (fun _ _ => isDigit_of_upper) h)
  | word hw hend => exact .word hw (hend.of_upper (fun _ _ => isIdentChar_of_upper) h)

/-- A keyword in another case is the same keyword. -/
theorem Spells.keyword_of_upper {w w' lexeme s s' : Text} {kind : TokenKind}
    (hw : Spells w kind lexeme s) (hk : kind.isKeyword = true) (hcase : w.map upper = w'.map upper)
    (h : s.map upper = s'.map upper) : Spells w' kind w' s' := by
  cases hw with
  | mark hc =>
    rw [punctuation_isKeyword hc] at hk
    cases hk
  | string => cases hk
  | number => cases hk
  | word hw hend =>
    rw [matchKeyword_of_upper hcase]
    exact .word (isWord_of_upper hcase ▸ hw) (hend.of_upper (fun _ _ => isIdentChar_of_upper) h)

/-! ## The lexer on both texts -/

/-- The same token but for the spelling of a keyword. -/
structure Token.Respelt (t t' : Token) : Prop where
  eq : t' = { t with lexeme := t'.lexeme }
  lexeme : t.kind.isKeyword = false → t'.lexeme = t.lexeme

theorem Token.Respelt.refl (t : Token) : t.Respelt t := ⟨rfl, fun _ => rfl⟩

theorem Token.Respelt.kind_eq {t t' : Token} (h : t.Respelt t') : t'.kind = t.kind := by
  rw [h.eq]

theorem Token.Respelt.eq_of_not_keyword {t t' : Token} (h : t.Respelt t')
    (hk : t.kind.isKeyword = false) : t' = t := by
  rw [h.eq, h.lexeme hk]

/-- What the lexer says when it is done, apart from the text it left. -/
def Lexer.SameEnd (l l' : Lexer) : Prop := l' = { l with src := l'.src }

namespace Lexer

/-- The loop only appends to the tokens it is given. -/
theorem tokenizeLoop_append (n : Nat) (l : Lexer) (tokens : List Token) :
    tokenizeLoop n l tokens = (tokens ++ (tokenizeLoop n l []).1, (tokenizeLoop n l []).2) := by
  induction n generalizing l tokens with
  | zero => simp [tokenizeLoop]
  | succ n ih =>
    simp only [tokenizeLoop]
    split_ifs
    · simp
    · simp
    · simp
    · rw [ih, ih _ ([] ++ _)]
      simp

/-- **The lexer runs in lockstep on both texts.** -/
theorem tokenizeLoop_respelt {s s' : Text} (h : Parser.Respelt s s') (n line col : Nat)
    {tokens tokens' : List Token} (ht : List.Forall₂ Token.Respelt tokens tokens') :
    List.Forall₂ Token.Respelt (tokenizeLoop n { src := s, line, col } tokens).1
        (tokenizeLoop n { src := s', line, col } tokens').1 ∧
      SameEnd (tokenizeLoop n { src := s, line, col } tokens).2
        (tokenizeLoop n { src := s', line, col } tokens').2 := by
  -- the induction is on the text; a loop out of rounds has nothing left to do
  induction h generalizing n line col tokens tokens' with
  | same s =>
    rw [tokenizeLoop_append _ _ tokens, tokenizeLoop_append _ _ tokens']
    refine ⟨List.rel_append ht ?_, rfl⟩
    exact List.forall₂_same.mpr fun t _ => .refl t
  | blank hc _ ih =>
    cases n with
    | zero => exact ⟨ht, rfl⟩
    | succ n =>
      rw [tokenizeLoop_blank hc, tokenizeLoop_blank hc]
      exact ih _ _ _ ht
  | token hw h ih =>
    cases n with
    | zero => exact ⟨ht, rfl⟩
    | succ n =>
      rw [tokenizeLoop_spells hw, tokenizeLoop_spells (hw.of_upper h.upper_eq)]
      exact ih _ _ _ (List.rel_append ht (.cons (.refl _) .nil))
  | @keyword w w' lexeme s s' kind hw hk hcase h ih =>
    cases n with
    | zero => exact ⟨ht, rfl⟩
    | succ n =>
      have hlen : w.length = w'.length := by
        rw [← List.length_map (f := upper), hcase, List.length_map]
      have htok : Token.Respelt (tokenOf kind lexeme line col) (tokenOf kind w' line col) := by
        refine ⟨?_, fun hk' => absurd hk (by simpa [tokenOf] using hk')⟩
        have hnum : kind ≠ .intLiteral := by
          rintro rfl
          cases hk
        simp [tokenOf, hnum]
      rw [tokenizeLoop_spells hw,
        tokenizeLoop_spells (hw.keyword_of_upper hk hcase h.upper_eq), hlen]
      exact ih _ _ _ (List.rel_append ht (.cons htok .nil))

/-- **The tokens of a respelt text** are the same but for the spelling of keywords. -/
theorem tokenize_respelt {s s' : Text} (h : Parser.Respelt (cString s) (cString s')) :
    List.Forall₂ Token.Respelt (tokenize s).1 (tokenize s').1 ∧
      SameEnd (tokenize s).2 (tokenize s').2 := by
  have hlen : (cString s).length = (cString s').length := by
    rw [← List.length_map (f := upper), h.upper_eq, List.length_map]
  obtain ⟨htoks, hend⟩ := tokenizeLoop_respelt h (cString s).length 1 1 .nil
  rw [tokenize, tokenize, ← hlen]
  refine ⟨List.rel_append htoks (.cons ?_ .nil), hend⟩
  rw [hend]
  exact .refl _

end Lexer

/-! ## The parser on both token lists -/

def ColumnDef.untyped (col : ColumnDef) : ColumnDef := { col with type := [] }

/-- The statement without the spelling of its column types. -/
def SQLStatement.untyped (stmt : SQLStatement) : SQLStatement :=
  { stmt with createTable :=
      { stmt.createTable with columns := stmt.createTable.columns.map ColumnDef.untyped } }

/-- Two parsing functions that do the same on respelt tokens. -/
abbrev Same {α : Type} (p : ParserM α) : Prop := Lockstep Token.Respelt (· = ·) p p

/-- The same statement, up to the spelling of column types in CREATE TABLE. -/
def SQLStatement.SameButTypes (stmt stmt' : SQLStatement) : Prop :=
  stmt = stmt' ∨ stmt.kind = .createTable ∧ stmt.untyped = stmt'.untyped

/-- Two parsing functions whose statements are the same up to the spelling of column types. -/
abbrev SameStatement (p p' : ParserM SQLStatement) : Prop :=
  Lockstep Token.Respelt SQLStatement.SameButTypes p p'

section Lockstep

variable {α β : Type} {Q : α → α → Prop}

theorem lockstep_fail (msg : String) : Lockstep Token.Respelt Q (fail msg) (fail msg) := by
  intro n ts ts' hts
  cases hts with
  | nil => exact .outOfRange
  | @cons t t' ts ts' ht hts =>
    have hfail : ∀ (u : Token) (us : List Token), (fail msg : ParserM α) n (u :: us)
        = .error { errorMsg := snprintf 512 ("Line ".toList ++ natText u.line ++ ":".toList
          ++ natText u.column ++ ": ".toList ++ msg.toList) } := fun _ _ => rfl
    rw [hfail, hfail, ht.eq]
    exact .error _

theorem lockstep_onToken {kind : TokenKind} (hk : kind ≠ .endOfFile) {yes yes' : Token → ParserM α}
    {no no' : ParserM α}
    (hy : ∀ t t', Token.Respelt t t' → t.kind = kind → Lockstep Token.Respelt Q (yes t) (yes' t'))
    (hn : Lockstep Token.Respelt Q no no') :
    Lockstep Token.Respelt Q (onToken kind yes no) (onToken kind yes' no') := by
  rw [onToken_eq hk, onToken_eq hk]
  refine lockstep_branch (fun t t' ht => ?_) (fun t t' ht h => hy t t' ht (eq_of_beq h)) hn
  rw [ht.kind_eq]

/-- A token that is no keyword is the same token. -/
theorem lockstep_onToken_same {kind : TokenKind} (hk : kind ≠ .endOfFile)
    (hkey : kind.isKeyword = false) {yes yes' : Token → ParserM α} {no no' : ParserM α}
    (hy : ∀ t, Lockstep Token.Respelt Q (yes t) (yes' t)) (hn : Lockstep Token.Respelt Q no no') :
    Lockstep Token.Respelt Q (onToken kind yes no) (onToken kind yes' no') := by
  refine lockstep_onToken hk (fun t t' ht hkind => ?_) hn
  rw [ht.eq_of_not_keyword (hkind ▸ hkey)]
  exact hy t

theorem same_need {kind : TokenKind} (hk : kind ≠ .endOfFile) (hkey : kind.isKeyword = false)
    (msg : String) : Same (need kind msg) :=
  lockstep_onToken_same hk hkey (fun _ => lockstep_pure rfl) (lockstep_fail msg)

/-- A keyword that has to be there, and is not looked at any more. -/
theorem lockstep_need_keyword {kind : TokenKind} (hk : kind ≠ .endOfFile) (msg : String)
    {go go' : ParserM β} {S : β → β → Prop} (h : Lockstep Token.Respelt S go go') :
    Lockstep Token.Respelt S (need kind msg >>= fun _ => go) (need kind msg >>= fun _ => go') := by
  refine Lockstep.bind (Q := fun _ _ => True) ?_ fun _ _ _ => h
  exact lockstep_onToken hk (fun _ _ _ _ => lockstep_pure trivial) (lockstep_fail msg)

theorem same_optionalSemicolon : Same optionalSemicolon :=
  lockstep_onToken_same (by decide) (by decide) (fun _ => lockstep_pure rfl) (lockstep_pure rfl)

theorem lockstep_finish {S : SQLStatement → SQLStatement → Prop} {stmt stmt' : SQLStatement}
    (h : S stmt stmt') : Lockstep Token.Respelt S (finish stmt) (finish stmt') :=
  same_optionalSemicolon.bind_same fun _ => lockstep_pure h

theorem same_parseValueString : Same parseValueString :=
  lockstep_onToken_same (by decide) (by decide) (fun _ => lockstep_pure rfl) <|
  lockstep_onToken_same (by decide) (by decide) (fun _ => lockstep_pure rfl) (lockstep_pure rfl)

theorem same_parseWhereClause : Same parseWhereClause := by
  refine lockstep_onToken_same (by decide) (by decide) (fun colTok => ?_) (lockstep_pure rfl)
  have hconst (opTok : Token) : Same (do
      let value ← parseValueString
      return { column := colTok.lexeme, op := opTok.lexeme, constValue := value.1,
               isIntLiteral := value.2 } : ParserM WhereClause) :=
    same_parseValueString.bind_same fun _ => lockstep_pure rfl
  exact lockstep_onToken_same (by decide) (by decide) hconst <|
    lockstep_onToken_same (by decide) (by decide) hconst <|
    lockstep_onToken_same (by decide) (by decide) hconst (lockstep_pure rfl)

theorem same_finishWhere (stmt : SQLStatement) (add : WhereClause → SQLStatement) :
    Same (finishWhere stmt add) := by
  refine Lockstep.bind_same ?_ fun _ => lockstep_finish rfl
  refine lockstep_onToken (by decide) (fun _ _ _ _ => ?_) (lockstep_pure rfl)
  refine same_parseWhereClause.bind_same fun wc => .ite Iff.rfl ?_ (lockstep_pure rfl)
  exact lockstep_throw _

/-- Column definitions that differ in the spelling of their types only. -/
def ColumnDef.SameButType (col col' : ColumnDef) : Prop := col.untyped = col'.untyped

theorem lockstep_columnItem :
    Lockstep Token.Respelt ColumnDef.SameButType columnItem columnItem := by
  refine Lockstep.bind (Q := ColumnDef.SameButType) ?_ fun col col' h => ?_
  · refine lockstep_onToken_same (by decide) (by decide) (fun nameTok => ?_) (lockstep_pure rfl)
    have hprimary : ∀ t t' : Token, t.Respelt t' → Lockstep Token.Respelt ColumnDef.SameButType
        (onToken .kwPrimary
          (fun _ => return { name := nameTok.lexeme, type := t.lexeme, isPrimary := true })
          (return { name := nameTok.lexeme, type := t.lexeme, isPrimary := false }))
        (onToken .kwPrimary
          (fun _ => return { name := nameTok.lexeme, type := t'.lexeme, isPrimary := true })
          (return { name := nameTok.lexeme, type := t'.lexeme, isPrimary := false })) :=
      fun _ _ _ => lockstep_onToken (by decide) (fun _ _ _ _ => lockstep_pure rfl)
        (lockstep_pure rfl)
    exact lockstep_onToken (by decide) (fun t t' ht _ => hprimary t t' ht) <|
      lockstep_onToken (by decide) (fun t t' ht _ => hprimary t t' ht) (lockstep_pure rfl)
  · have hname : col.untyped.name = col'.untyped.name := congrArg ColumnDef.name h
    change col.name = col'.name at hname
    exact .ite (by rw [hname]) (lockstep_fail _) (lockstep_pure h)

theorem lockstep_commaList {α : Type} {Q : α → α → Prop} {item : ParserM α}
    (h : Lockstep Token.Respelt Q item item) (msg : String) :
    Lockstep Token.Respelt (List.Forall₂ Q) (commaList item msg) (commaList item msg) := by
  intro n ts ts' hts
  rw [commaList, commaList, commaLoop_eq]
  have hkind (kind : TokenKind) (t t' : Token) (ht : t.Respelt t') :
      (t.kind == kind) = (t'.kind == kind) := by rw [ht.kind_eq]
  exact lockstep_itemsLoop (hkind .comma) (hkind .rparen) h (lockstep_fail _) n hts

theorem sameStatement_parseCreateTable : SameStatement parseCreateTable parseCreateTable := by
  refine (same_need (by decide) (by decide) _).bind_same fun tableTok => ?_
  refine (same_need (by decide) (by decide) _).bind_same fun _ => ?_
  rw [refuse_eq (by decide)]
  refine lockstep_guardNext (fun t t' ht => by rw [ht.kind_eq]) (lockstep_fail _) ?_
  refine (lockstep_commaList lockstep_columnItem _).bind fun cols cols' h => ?_
  have hcols : cols.map ColumnDef.untyped = cols'.map ColumnDef.untyped := by
    induction h with
    | nil => rfl
    | cons h _ ih => rw [List.map_cons, List.map_cons, h, ih]
  have hcount : cols.countP ColumnDef.isPrimary = cols'.countP ColumnDef.isPrimary := by
    have := congrArg (List.countP ColumnDef.isPrimary) hcols
    rwa [List.countP_map, List.countP_map] at this
  refine .ite (by rw [hcount]) (lockstep_fail _) (lockstep_finish (Or.inr ⟨rfl, ?_⟩))
  simp only [SQLStatement.untyped, hcols]

theorem sameStatement_of_same {p : ParserM SQLStatement} (h : Same p) : SameStatement p p :=
  h.imp fun _ _ => Or.inl

/-- A statement that a name completes. -/
theorem same_named (msg : String) (f : Token → SQLStatement) :
    Same (do let nameTok ← need .identifier msg; finish (f nameTok)) :=
  (same_need (by decide) (by decide) msg).bind_same fun _ => lockstep_finish rfl

theorem same_parseSelect : Same parseSelect := by
  have hcol : Same selectColumn :=
    lockstep_onToken_same (by decide) (by decide) (fun _ => lockstep_pure rfl) <|
    lockstep_onToken_same (by decide) (by decide) (fun _ => lockstep_pure rfl) (lockstep_fail _)
  refine hcol.bind_same fun colTok => lockstep_need_keyword (by decide) _ ?_
  exact (same_need (by decide) (by decide) _).bind_same fun _ => same_finishWhere _ _

theorem same_parseDelete : Same parseDelete :=
  lockstep_need_keyword (by decide) _ <|
  (same_need (by decide) (by decide) _).bind_same fun _ => same_finishWhere _ _

theorem same_parseInsert : Same parseInsert := by
  refine lockstep_need_keyword (by decide) _ ?_
  refine (same_need (by decide) (by decide) _).bind_same fun tableTok => ?_
  refine lockstep_need_keyword (by decide) _ ?_
  refine (same_need (by decide) (by decide) _).bind_same fun _ => ?_
  rw [refuse_eq (by decide)]
  refine lockstep_guardNext (fun t t' ht => by rw [ht.kind_eq]) (lockstep_fail _) ?_
  have hvals := (lockstep_commaList same_parseValueString "Expected ',' or ')' in VALUES list").imp
    fun _ _ h => List.forall₂_eq_eq_eq ▸ h
  exact hvals.bind_same fun vals => lockstep_finish rfl

theorem same_parseUpdate : Same parseUpdate := by
  refine (same_need (by decide) (by decide) _).bind_same fun tableTok => ?_
  refine lockstep_need_keyword (by decide) _ ?_
  refine (same_need (by decide) (by decide) _).bind_same fun colTok => ?_
  refine (same_need (by decide) (by decide) _).bind_same fun _ => ?_
  exact same_parseValueString.bind_same fun value => same_finishWhere _ _

/-- **The parser runs in lockstep on respelt tokens**, up to the spelling of column types. -/
theorem sameStatement_parseStatement : SameStatement parseStatement parseStatement := by
  have hkind (t t' : Token) (ht : t.Respelt t') :
      (t.kind == .endOfFile) = (t'.kind == .endOfFile) := by rw [ht.kind_eq]
  have hcreate : SameStatement parseCreate parseCreate :=
    lockstep_onToken (by decide) (fun _ _ _ _ => sameStatement_of_same (same_named _ _)) <|
    lockstep_onToken (by decide) (fun _ _ _ _ => sameStatement_parseCreateTable) (lockstep_fail _)
  have hdrop : Same parseDrop :=
    lockstep_onToken (by decide) (fun _ _ _ _ => same_named _ _) <|
    lockstep_onToken (by decide) (fun _ _ _ _ => same_named _ _) (lockstep_fail _)
  rw [parseStatement, isAtEnd_eq]
  refine lockstep_guardNext hkind (lockstep_fail _) ?_
  refine lockstep_onToken (by decide) (fun _ _ _ _ => hcreate) <|
    lockstep_onToken (by decide) (fun _ _ _ _ => sameStatement_of_same ?_) <|
    lockstep_onToken (by decide) (fun _ _ _ _ => sameStatement_of_same ?_) <|
    lockstep_onToken (by decide) (fun _ _ _ _ => sameStatement_of_same ?_) <|
    lockstep_onToken (by decide) (fun _ _ _ _ => sameStatement_of_same ?_) <|
    lockstep_onToken (by decide) (fun _ _ _ _ => sameStatement_of_same ?_) <|
    lockstep_onToken (by decide) (fun _ _ _ _ => sameStatement_of_same ?_) (lockstep_fail _)
  · exact hdrop
  · exact same_named _ _
  · exact same_parseSelect
  · exact same_parseDelete
  · exact same_parseInsert
  · exact same_parseUpdate

end Lockstep

/-! ## Where the spelling of a keyword flows on -/

/-- The kinds of the type words. -/
def TokenKind.isTypeWord : TokenKind → Bool
  | .kwInt | .kwString => true
  | _ => false

/-- A type word, as it is spelt. -/
def typeWord (t : Token) : List Text := if t.kind.isTypeWord then [t.lexeme] else []

/-- The type words among some tokens, as they are spelt. -/
def typeWords (ts : List Token) : List Text := ts.flatMap typeWord

/-- The types of the columns of a statement. -/
def columnTypes (stmt : SQLStatement) : List Text := stmt.createTable.columns.map ColumnDef.type

section Carries

variable {α : Type} {before : List Text} {ψ : α → List Text}

theorem typeWord_of_kind {kind : TokenKind} {t : Token} (ht : (t.kind == kind) = true)
    (hk : kind.isTypeWord = false) : typeWord t = [] := by
  rw [typeWord, eq_of_beq ht, hk]
  rfl

theorem typeWord_of_isComma (t : Token) (ht : isComma t) : typeWord t = [] :=
  typeWord_of_kind ht rfl

theorem typeWord_of_isRparen (t : Token) (ht : isRparen t) : typeWord t = [] :=
  typeWord_of_kind ht rfl

theorem carries_tok {kind : TokenKind} (hk : kind.isTypeWord = false) {F : Token → Lang Token α}
    (h : ∀ t, (F t).Carries typeWord before ψ) : (tok kind >>= F).Carries typeWord before ψ :=
  (carries_one (ψ := fun _ => before) fun _ ht => by simp [typeWord_of_kind ht hk]).bind h

theorem value_carries (lax : Bool) : (value lax).Carries typeWord before fun _ => before :=
  Carries.alt (carries_tok rfl fun _ => carries_pure rfl) <|
  Carries.alt (carries_tok rfl fun _ => carries_pure rfl) (carries_given rfl)

theorem semicolon_carries (stmt : SQLStatement) :
    (semicolon stmt).Carries typeWord (columnTypes stmt) columnTypes :=
  Carries.alt (carries_tok rfl fun _ => carries_pure rfl) (carries_pure rfl)

theorem whereTail_carries (lax : Bool) {stmt : SQLStatement} {add : WhereClause → SQLStatement}
    (h : columnTypes stmt = []) (hadd : ∀ wc, columnTypes (add wc) = []) :
    (whereTail lax stmt add).Carries typeWord [] columnTypes := by
  have hop : comparison.Carries typeWord [] fun _ => [] :=
    Carries.alt (carries_one fun _ ht => (typeWord_of_kind ht rfl).symm) <|
    Carries.alt (carries_one fun _ ht => (typeWord_of_kind ht rfl).symm)
      (carries_one fun _ ht => (typeWord_of_kind ht rfl).symm)
  have hcond : (condition lax).Carries typeWord [] fun _ => [] :=
    carries_tok rfl fun _ => hop.bind fun _ => (value_carries lax).bind fun _ => carries_given rfl
  refine Carries.bind (Carries.alt ?_ (carries_pure h)) semicolon_carries
  exact carries_tok rfl fun _ => hcond.bind fun wc => carries_pure (hadd wc)

theorem columnList_carries :
    columnList.Carries typeWord [] fun columns => columns.map ColumnDef.type := by
  have htype : columnType.Carries typeWord [] fun t => [t.lexeme] := by
    refine Carries.alt (carries_one fun t ht => ?_) (carries_one fun t ht => ?_) <;>
      simp [typeWord, eq_of_beq ht, TokenKind.isTypeWord]
  have hdef : columnDef.Carries typeWord [] fun col => [col.type] :=
    carries_tok rfl fun _ => htype.bind fun type =>
      Carries.bind (ψ := fun _ => [type.lexeme])
        (Carries.alt (carries_tok rfl fun _ => carries_pure rfl) (carries_pure rfl))
        fun _ => carries_given rfl
  have hitems := hdef.items typeWord_of_isComma typeWord_of_isRparen
  refine Carries.bind (ψ := fun columns => columns.map ColumnDef.type) (fun w columns hw => ?_)
    fun _ => carries_given rfl
  rw [← hitems hw]
  exact List.map_eq_flatMap

/-- **The type words of a sentence are the types of its columns**, as they are spelt. -/
theorem sentence_carries (lax : Bool) : (sentence lax).Carries typeWord [] columnTypes := by
  refine Carries.alt (carries_tok rfl fun _ => Carries.alt ?_ ?_) <|
    Carries.alt (carries_tok rfl fun _ => Carries.alt ?_ ?_) <|
    Carries.alt (carries_tok rfl fun _ => carries_tok rfl fun _ => semicolon_carries _) <|
    Carries.alt (carries_tok rfl fun _ => ?_) <| Carries.alt (carries_tok rfl fun _ => ?_) <|
    Carries.alt (carries_tok rfl fun _ => ?_) (carries_tok rfl fun _ => ?_)
  · exact carries_tok rfl fun _ => carries_tok rfl fun _ => semicolon_carries _
  · exact carries_tok rfl fun _ => carries_tok rfl fun _ => carries_tok rfl fun _ =>
      columnList_carries.bind fun _ => semicolon_carries _
  · exact carries_tok rfl fun _ => carries_tok rfl fun _ => semicolon_carries _
  · exact carries_tok rfl fun _ => carries_tok rfl fun _ => semicolon_carries _
  · refine Carries.bind (ψ := fun _ => []) (Carries.alt ?_ ?_) fun _ => carries_tok rfl fun _ =>
      carries_tok rfl fun _ => whereTail_carries lax rfl fun _ => rfl
    · exact carries_one fun _ ht => (typeWord_of_kind ht rfl).symm
    · exact carries_one fun _ ht => (typeWord_of_kind ht rfl).symm
  · exact carries_tok rfl fun _ => carries_tok rfl fun _ => whereTail_carries lax rfl fun _ => rfl
  · refine carries_tok rfl fun _ => carries_tok rfl fun _ => carries_tok rfl fun _ =>
      carries_tok rfl fun _ => ?_
    have hitems := (value_carries lax).items typeWord_of_isComma typeWord_of_isRparen
    refine Carries.bind (ψ := fun _ => []) (Carries.notFrom fun w vals hw => ?_)
      fun _ => semicolon_carries _
    rw [← hitems hw]
    simp
  · exact carries_tok rfl fun _ => carries_tok rfl fun _ => carries_tok rfl fun _ =>
      carries_tok rfl fun _ => (value_carries lax).bind fun _ =>
      whereTail_carries lax rfl fun _ => rfl

end Carries

/-! ## Both texts parsed -/

theorem ColumnDef.eq_of_untyped {col col' : ColumnDef} (h : col.untyped = col'.untyped)
    (ht : col.type = col'.type) : col = col' := by
  obtain ⟨name, type, isPrimary⟩ := col
  obtain ⟨name', type', isPrimary'⟩ := col'
  simp only [untyped, ColumnDef.mk.injEq] at h ht ⊢
  exact ⟨h.1, ht, h.2.2⟩

theorem SQLStatement.SameButTypes.eq {stmt stmt' : SQLStatement} (h : stmt.SameButTypes stmt')
    (ht : columnTypes stmt = columnTypes stmt') : stmt = stmt' := by
  obtain rfl | ⟨-, h⟩ := h
  · rfl
  have hcols {cols cols' : List ColumnDef}
      (hu : cols.map ColumnDef.untyped = cols'.map ColumnDef.untyped)
      (ht : cols.map ColumnDef.type = cols'.map ColumnDef.type) : cols = cols' := by
    induction cols generalizing cols' with
    | nil => exact (List.map_eq_nil_iff.mp hu.symm).symm
    | cons col cols ih =>
      obtain ⟨col', cols', rfl, hc, hu⟩ := List.map_eq_cons_iff.mp hu.symm
      obtain ⟨hct, ht⟩ := List.cons.inj ht
      rw [ColumnDef.eq_of_untyped hc.symm hct, ih hu.symm ht]
  have hc := hcols (congrArg (fun s => s.createTable.columns) h) ht
  have hname : stmt.createTable.tableName = stmt'.createTable.tableName :=
    congrArg (fun s => s.createTable.tableName) h
  have htable : stmt.createTable = stmt'.createTable := by
    cases hs : stmt.createTable
    cases hs' : stmt'.createTable
    simp only [hs, hs'] at hc hname
    rw [hc, hname]
  calc stmt = { stmt.untyped with createTable := stmt.createTable } := rfl
    _ = { stmt'.untyped with createTable := stmt'.createTable } := by rw [h, htable]
    _ = stmt' := rfl

/-- The parser takes a statement of the first text, which has the type words `ts`; the tokens in
the same places of the second text have `ts'`. -/
def TakesTypes (s s' : Text) (ts ts' : List Text) : Prop :=
  (Lexer.tokenize s).2.hasError = false ∧ ∃ w t u stmt, (Lexer.tokenize s).1 = w ++ t :: u ∧
    StopsAt w t stmt ∧ ts = typeWords w ∧ ts' = typeWords ((Lexer.tokenize s').1.take w.length)

/-- A stopping point in the tokens of a text is where the parser stops. -/
theorem TakesTypes.exists_ok {s s' : Text} {ts ts' : List Text} (h : TakesTypes s s' ts ts') :
    ∃ w t u stmt, (Lexer.tokenize s).1 = w ++ t :: u ∧
      parseTokens (Lexer.tokenize s).1 = .ok stmt (t :: u) ∧ ts = typeWords w ∧
      ts' = typeWords ((Lexer.tokenize s').1.take w.length) := by
  obtain ⟨-, w, t, u, stmt, hw, hstop, hts, hts'⟩ := h
  exact ⟨w, t, u, stmt, hw, by rw [hw]; exact parseTokens_eq_ok.mpr hstop, hts, hts'⟩

/-- Of two texts whose tokens correspond, the type words taken are the column types. -/
theorem takesTypes_iff {s s' : Text} {stmt stmt' : SQLStatement} {rest rest' : List Token}
    (herr : (Lexer.tokenize s).2.hasError = false)
    (htoks : List.Forall₂ Token.Respelt (Lexer.tokenize s).1 (Lexer.tokenize s').1)
    (hrest : List.Forall₂ Token.Respelt rest rest')
    (hp : parseTokens (Lexer.tokenize s).1 = .ok stmt rest)
    (hp' : parseTokens (Lexer.tokenize s').1 = .ok stmt' rest') (ts ts' : List Text) :
    TakesTypes s s' ts ts' ↔ ts = columnTypes stmt ∧ ts' = columnTypes stmt' := by
  obtain ⟨init, eof, htok, -, heof⟩ := Lexer.tokenize_lexed herr
  have hpe : parseTokens (init ++ [eof]) = .ok stmt rest := htok ▸ hp
  obtain ⟨w, t, u, hw, rfl, hstop⟩ := stopsAt_of_ok heof hpe
  rw [← htok] at hw
  obtain ⟨w', hw', hsent'⟩ := reads_statement.follows.sound hp'
  -- the words taken are of one length, as the rests are
  have hlen : w.length = w'.length := by
    have h₁ := htoks.length_eq
    have h₂ := hrest.length_eq
    rw [hw, hw', List.length_append, List.length_append] at h₁
    omega
  have htake : (Lexer.tokenize s').1.take w.length = w' := by rw [hw', hlen, List.take_left]
  have htypes : columnTypes stmt = typeWords w := sentence_carries true hstop.1
  have htypes' : columnTypes stmt' = typeWords w' := sentence_carries true hsent'
  constructor
  · intro h
    obtain ⟨v, x, y, stmt₁, hv, hp₁, rfl, rfl⟩ := h.exists_ok
    obtain ⟨-, hrest₁⟩ := Outcome.ok.inj (hp.symm.trans hp₁)
    obtain rfl : w = v := List.append_cancel_right (hw.symm.trans (hrest₁ ▸ hv))
    rw [htake]
    exact ⟨htypes.symm, htypes'.symm⟩
  · rintro ⟨rfl, rfl⟩
    exact ⟨herr, w, t, u, stmt, hw, hstop, htypes, by rw [htake, htypes']⟩

/-- **A text and a respelt one** are parsed to one statement, without a type word taken, or to
statements whose column types are the type words taken. -/
theorem parse_respelt {s s' : Text} (h : Respelt (cString s) (cString s')) :
    (parse s = parse s' ∧ ∀ ts ts', ¬ TakesTypes s s' ts ts') ∨
      ∃ stmt stmt', parse s = some stmt ∧ parse s' = some stmt' ∧ stmt.SameButTypes stmt' ∧
        ∀ ts ts', TakesTypes s s' ts ts' ↔ ts = columnTypes stmt ∧ ts' = columnTypes stmt' := by
  obtain ⟨htoks, hend⟩ := Lexer.tokenize_respelt h
  have herr' : (Lexer.tokenize s').2.hasError = (Lexer.tokenize s).2.hasError := by rw [hend]
  cases herr : (Lexer.tokenize s).2.hasError with
  | true =>
    -- both texts end in the same lexical error
    refine Or.inl ⟨?_, fun _ _ hr => by simp [hr.1] at herr⟩
    rw [herr] at herr'
    simp only [parse, herr, herr', if_true]
    rw [hend]
  | false =>
    rw [parse_of_noError herr, parse_of_noError (herr'.trans herr)]
    have hpair : Outcome.Alike Token.Respelt SQLStatement.SameButTypes
        (parseTokens (Lexer.tokenize s).1) (parseTokens (Lexer.tokenize s').1) := by
      rw [parseTokens, parseTokens, ← htoks.length_eq]
      exact sameStatement_parseStatement htoks
    generalize hp : parseTokens (Lexer.tokenize s).1 = o at hpair
    generalize hp' : parseTokens (Lexer.tokenize s').1 = o' at hpair
    cases hpair with
    | ok hstmt hrest =>
      exact Or.inr ⟨_, _, rfl, rfl, hstmt, takesTypes_iff herr htoks hrest hp hp'⟩
    | error e =>
      refine Or.inl ⟨rfl, fun _ _ htakes => ?_⟩
      obtain ⟨_, _, _, _, -, hok, -⟩ := htakes.exists_ok
      cases hp.symm.trans hok
    | outOfRange =>
      refine Or.inl ⟨rfl, fun _ _ htakes => ?_⟩
      obtain ⟨_, _, _, _, -, hok, -⟩ := htakes.exists_ok
      cases hp.symm.trans hok

/-- The parser takes, in the first text, a type word that is spelt differently in the second. -/
def RespellsType (s s' : Text) : Prop := ∃ ts ts', TakesTypes s s' ts ts' ∧ ts ≠ ts'

/-- **A text and a respelt one are parsed to one statement** unless the parser takes a type word
that is spelt differently. -/
theorem parse_respelt_iff {s s' : Text} (h : Respelt (cString s) (cString s')) :
    parse s = parse s' ↔ ¬ RespellsType s s' := by
  obtain ⟨hparse, hnone⟩ | ⟨stmt, stmt', hparse, hparse', hsame, htypes⟩ := parse_respelt h
  · exact iff_of_true hparse fun ⟨ts, ts', htakes, _⟩ => hnone ts ts' htakes
  · rw [hparse, hparse']
    constructor
    · rintro heq ⟨ts, ts', htakes, hne⟩
      obtain ⟨rfl, rfl⟩ := (htypes ts ts').mp htakes
      exact hne (by rw [Option.some.inj heq])
    · intro hnot
      refine congrArg some (hsame.eq ?_)
      by_contra hne
      exact hnot ⟨_, _, (htypes _ _).mpr ⟨rfl, rfl⟩, hne⟩

end MiniDB.Parser

import MiniDB.Parser.Lossless

/-!
# Parser/Pieces — a text is tokenized piece by piece

White space behind a text without error ends its last token, so the lexer goes on behind it as on a
text of its own, but for the positions (`Lexes.behind`); and in front of a character that is in no
token it has come to the end of one (`Lexes.front`).

* `tokenize_pieces` — cut at white space into pieces without error, with whatever behind the last
  cut, a text has the tokens of the pieces one after the other, and the error of what is behind, if
  there is one;
* `tokenize_lines` — the lines of a program are such pieces exactly when the program has no error
  and none of its literals goes over a line break; then its tokens are those of its lines.
-/

namespace MiniDB.Parser

open MiniDB.Core

/-- A token less its position. -/
def Token.content (t : Token) : TokenKind × Text := (t.kind, t.lexeme)

/-- The tokens of a text laid out. -/
def contents (ps : List (Text × Token)) : List (TokenKind × Text) := ps.map (·.2.content)

section Pieces

variable {s t last mid w lexeme rest : Text} {c : Char} {kind : TokenKind} {p p' q q' : Nat × Nat}
  {ps qs : List (Text × Token)}

/-! ## White space behind a text -/

/-- White space goes on no token. -/
theorem not_of_isBlank (hc : isBlank c = true) : isDigit c = false ∧ isIdentChar c = false := by
  simp only [isBlank, Bool.or_eq_true, beq_iff_eq] at hc
  rcases hc with ((rfl | rfl) | rfl) | rfl <;> decide

theorem Ended.behind {f : Char → Bool} (h : Ended f rest) (hc : f c = false) (t : Text) :
    Ended f (rest ++ c :: t) := by
  cases rest with
  | nil =>
    rintro d hd
    cases hd
    exact hc
  | cons x rest => exact h

theorem Spells.behind (h : Spells w kind lexeme rest) (hc : isBlank c = true) (t : Text) :
    Spells w kind lexeme (rest ++ c :: t) := by
  cases h with
  | mark h => exact .mark h
  | string h => exact .string h
  | number h hrest => exact .number h (hrest.behind (not_of_isBlank hc).1 t)
  | word h hrest => exact .word h (hrest.behind (not_of_isBlank hc).2 t)

/-- **The tokens in front of white space stay as they are.** -/
theorem Lexes.behind (h : Lexes s p ps last p') (hc : isBlank c = true) (t : Text) :
    Lexes (s ++ c :: t) p ps (last ++ c :: t) p' := by
  induction h with
  | nil s p => exact .nil _ p
  | cons hgap hspell hrest ih =>
    rw [List.append_assoc, List.append_assoc]
    exact .cons hgap (hspell.behind hc t) ih

/-! ## Going on -/

/-- The tokens of a text do not depend on where it stands. -/
theorem Lexes.anywhere (h : Lexes s p ps last p') (q : Nat × Nat) :
    ∃ qs q', Lexes s q qs last q' ∧ contents qs = contents ps := by
  induction h generalizing q with
  | nil s p => exact ⟨[], q, .nil s q, rfl⟩
  | @cons gap w lexeme rest s kind p p' ps hgap hspell hrest ih =>
    obtain ⟨qs, q', hlex, hsame⟩ := ih ((moved q gap).1, (moved q gap).2 + w.length)
    exact ⟨_, q', .cons hgap hspell hlex, congrArg ((kind, lexeme) :: ·) hsame⟩

/-- Nor on white space in front of it; it may be all the text has. -/
theorem Lexes.gap {gap first : Text} (h : Lexes s p ps (first ++ last) p') (hgap : Blank gap)
    (hfirst : Blank first) (q : Nat × Nat) : ∃ qs first' q',
      Lexes (gap ++ s) q qs (first' ++ last) q' ∧ Blank first' ∧ contents qs = contents ps := by
  have hboth {u : Text} (hu : Blank u) : Blank (gap ++ u) := List.forall_mem_append.mpr ⟨hgap, hu⟩
  generalize hend : first ++ last = behind at h
  cases h with
  | nil =>
    refine ⟨[], gap ++ first, q, ?_, hboth hfirst, rfl⟩
    rw [← hend, List.append_assoc]
    exact .nil _ q
  | @cons gap' w lexeme rest _ kind _ _ ps hgap' hspell hrest =>
    obtain ⟨qs, q', hlex, hsame⟩ :=
      hrest.anywhere ((moved q (gap ++ gap')).1, (moved q (gap ++ gap')).2 + w.length)
    have hall := Lexes.cons (hboth hgap') hspell hlex
    rw [List.append_assoc, ← hend] at hall
    exact ⟨_, first, q', hall, hfirst, congrArg ((kind, lexeme) :: ·) hsame⟩

theorem Lexes.trans (h : Lexes s p ps mid p') (h' : Lexes mid p' qs last q') :
    Lexes s p (ps ++ qs) last q' := by
  induction h with
  | nil => exact h'
  | cons hgap hspell _ ih => exact .cons hgap hspell (ih h')

/-- **Behind a text that is read to its end the lexer goes on as on a text of its own.** -/
theorem Lexes.together {first : Text} (h : Lexes s p ps mid p') (hmid : Blank mid)
    (hc : isBlank c = true) (h' : Lexes t q qs (first ++ last) q') (hfirst : Blank first) :
    ∃ rs first' r, Lexes (s ++ c :: t) p rs (first' ++ last) r ∧ Blank first' ∧
      contents rs = contents ps ++ contents qs := by
  have hgap : Blank (mid ++ [c]) := List.forall_mem_append.mpr
    ⟨hmid, fun d hd => List.mem_singleton.mp hd ▸ hc⟩
  obtain ⟨rs, first', r, hlex, hfirst', hsame⟩ := h'.gap hgap hfirst p'
  rw [List.append_assoc, List.singleton_append] at hlex
  refine ⟨ps ++ rs, first', r, (h.behind hc t).trans hlex, hfirst', ?_⟩
  rw [contents, List.map_append, ← contents, ← contents, hsame]

/-! ## In front of a cut -/

theorem Ended.front {f : Char → Bool} (h : Ended f (rest ++ t)) : Ended f rest := by
  cases rest with
  | nil => exact fun d hd => by cases hd
  | cons x rest => exact h

theorem Spells.front (h : Spells w kind lexeme (rest ++ t)) : Spells w kind lexeme rest := by
  cases h with
  | mark h => exact .mark h
  | string h => exact .string h
  | number h hrest => exact .number h hrest.front
  | word h hrest => exact .word h hrest.front

/-- **A character that is in no token cuts a text that is read to its end**: what is in front of it
is read to its end. -/
theorem Lexes.front {all : Text} (h : Lexes all p ps last p') (hlast : Blank last)
    (hcut : ∀ q ∈ ps, c ∉ q.2.raw) (hall : all = s ++ c :: t) :
    ∃ qs last' q', Lexes s p qs last' q' ∧ Blank last' := by
  induction h generalizing s with
  | nil all p => exact ⟨[], s, p, .nil s p, fun d hd => hlast d (hall ▸ List.mem_append_left _ hd)⟩
  | @cons gap w lexeme rest last kind p p' ps hgap hspell hrest ih =>
    obtain ⟨hraw, hcut⟩ := List.forall_mem_cons.mp hcut
    rw [tokenOf_raw hspell] at hraw
    rcases List.append_eq_append_iff.mp hall with ⟨s', rfl, htail⟩ | ⟨gap', rfl, -⟩
    · rcases List.append_eq_append_iff.mp htail with ⟨s'', rfl, hrest'⟩ | ⟨w', rfl, hw'⟩
      · -- the cut is behind the token
        rw [hrest'] at hspell
        obtain ⟨qs, last', q', hlex, hlast'⟩ := ih hlast hcut hrest'
        exact ⟨_, last', q', .cons hgap hspell.front hlex, hlast'⟩
      · cases w' with
        | nil =>
          -- the cut is right behind the token
          rw [List.append_nil] at hspell
          rw [List.nil_append] at hw'
          rw [← hw', ← List.nil_append (c :: t)] at hspell
          have hlex := Lexes.cons (p := p) hgap hspell.front (.nil [] _)
          rw [List.append_nil] at hlex
          exact ⟨_, [], _, hlex, nofun⟩
        | cons d w' =>
          obtain ⟨rfl, -⟩ := List.cons.inj hw'
          simp at hraw
    · -- the cut is in the white space in front of the token
      exact ⟨[], s, p, .nil s p, fun d hd => hgap d (List.mem_append_left _ hd)⟩

end Pieces

/-! ## Whole texts -/

namespace Lexer

/-- The tokens of a text less their positions, and the error. -/
def summary (sql : Text) : List (TokenKind × Text) × Bool × Text :=
  ((tokenize sql).1.map Token.content, (tokenize sql).2.hasError, (tokenize sql).2.errorMsg)

/-- The tokens of a text less END_OF_FILE. -/
def pieceTokens (sql : Text) : List (TokenKind × Text) :=
  ((tokenize sql).1.map Token.content).dropLast

/-- A piece of a text and what is behind it: no NUL and no error, then white space. -/
structure IsPiece (piece : Text × Char) : Prop where
  noNul : '\x00' ∉ piece.1
  noError : (tokenize piece.1).2.hasError = false
  blank : isBlank piece.2 = true

/-- The text of some pieces. -/
def joined (pieces : List (Text × Char)) : Text := pieces.flatMap fun piece => piece.1 ++ [piece.2]

theorem summary_of_lexes {sql last : Text} {p : Nat × Nat} {ps : List (Text × Token)}
    (h : Lexes (cString sql) (1, 1) ps last p) (hlast : Blank last) :
    summary sql = (contents ps ++ [(.endOfFile, [])], false, []) := by
  have hloop := tokenizeLoop_of_lexes h hlast le_rfl
  simp [summary, tokenize, hloop, contents, Token.content]

theorem pieceTokens_of_lexes {sql last : Text} {p : Nat × Nat} {ps : List (Text × Token)}
    (h : Lexes (cString sql) (1, 1) ps last p) (hlast : Blank last) :
    pieceTokens sql = contents ps := by
  have hfirst := congrArg Prod.fst (summary_of_lexes h hlast)
  rw [pieceTokens]
  exact (congrArg List.dropLast hfirst).trans List.dropLast_concat

theorem summary_of_stuck {sql gap rest : Text} {c : Char} {p : Nat × Nat}
    {ps : List (Text × Token)} (h : Lexes (cString sql) (1, 1) ps (gap ++ c :: rest) p)
    (hgap : Blank gap) (hstuck : Stuck c rest) :
    summary sql = (contents ps ++ [(.invalid, []), (.endOfFile, [])], true, stuckMessage c) := by
  obtain ⟨bad, eof, htokens, hbad, hkind, hlexeme, herr, hmsg⟩ := tokenize_of_stuck h hgap hstuck
  simp [summary, htokens, herr, hmsg, contents, Token.content, hbad.1, hbad.2, hkind, hlexeme]

/-- What is behind a piece is tokenized as a text of its own. -/
theorem summary_piece {piece : Text} {c : Char} (h : IsPiece (piece, c)) (t : Text) :
    summary (piece ++ c :: t) = (pieceTokens piece ++ (summary t).1, (summary t).2) := by
  have hblank : c ≠ '\x00' := fun h0 => by
    have hb := h.blank
    rw [h0] at hb
    cases hb
  have hsrc : cString (piece ++ c :: t) = piece ++ c :: cString t := by
    have hclean (d : Char) (hd : d ∈ piece) : (d != '\x00') = true :=
      bne_iff_ne.mpr (ne_of_mem_of_not_mem hd h.noNul)
    rw [cString, List.takeWhile_append_of_pos hclean,
      List.takeWhile_cons_of_pos (by simpa using hblank)]
    rfl
  rcases lexes_or_stuck (cString piece) (1, 1) with
    ⟨ps, last, p, hlex, hlast⟩ | ⟨ps, gap, c, rest, p, hlex, hgap, hstuck⟩
  · rw [pieceTokens_of_lexes hlex hlast]
    rw [cString_of_notMem h.noNul] at hlex
    rcases lexes_or_stuck (cString t) (1, 1) with
      ⟨qs, last', q, hlex', hlast'⟩ | ⟨qs, gap, c, rest, q, hlex', hgap, hstuck⟩
    · rw [← List.append_nil last'] at hlex'
      obtain ⟨rs, first, r, hall, hfirst, hsame⟩ := hlex.together hlast h.blank hlex' hlast'
      rw [← hsrc, List.append_nil] at hall
      rw [List.append_nil] at hlex'
      rw [summary_of_lexes hall hfirst, summary_of_lexes hlex' hlast', hsame, List.append_assoc]
    · obtain ⟨rs, first, r, hall, hfirst, hsame⟩ := hlex.together hlast h.blank hlex' hgap
      rw [← hsrc] at hall
      rw [summary_of_stuck hall hfirst hstuck, summary_of_stuck hlex' hgap hstuck, hsame,
        List.append_assoc]
  · obtain ⟨_, _, -, -, -, -, herr, -⟩ := tokenize_of_stuck hlex hgap hstuck
    exact absurd (h.noError.symm.trans herr) (by decide)

/-- **A text is tokenized piece by piece**: the tokens of the pieces, then those of what is behind
them, with its error. -/
theorem tokenize_pieces (pieces : List (Text × Char)) (h : ∀ piece ∈ pieces, IsPiece piece)
    (t : Text) : summary (joined pieces ++ t)
      = (pieces.flatMap (pieceTokens ·.1) ++ (summary t).1, (summary t).2) := by
  induction pieces with
  | nil => rfl
  | cons piece pieces ih =>
    obtain ⟨hpiece, h⟩ := List.forall_mem_cons.mp h
    have hcons : joined (piece :: pieces) ++ t = piece.1 ++ piece.2 :: (joined pieces ++ t) := by
      simp [joined]
    rw [hcons, List.flatMap_cons, summary_piece hpiece, ih h, List.append_assoc]

/-- Two statements behind white space, and one that is not finished. -/
theorem tokenize_pieces_two :
    summary "use d;\nselect * from t\t\"x".toList
      = ([(.kwUse, "use".toList), (.identifier, ['d']), (.semicolon, [';']),
          (.kwSelect, "select".toList), (.opStar, ['*']), (.kwFrom, "from".toList),
          (.identifier, ['t']), (.invalid, []), (.endOfFile, [])],
        true, "Unterminated string literal".toList) := by
  have hpieces : ∀ piece ∈ [("use d;".toList, '\n'), ("select * from t".toList, '\t')],
      IsPiece piece := by
    rw [List.forall_mem_cons, List.forall_mem_singleton]
    exact ⟨⟨by decide, by decide +kernel, rfl⟩, ⟨by decide, by decide +kernel, rfl⟩⟩
  refine (tokenize_pieces _ hpieces "\"x".toList).trans ?_
  decide +kernel

/-! ## The lines of a program -/

/-- No error, and no literal that goes over a line break. -/
def Flat (sql : Text) : Prop :=
  (tokenize sql).2.hasError = false ∧ ∀ tok ∈ (tokenize sql).1, '\n' ∉ tok.lexeme

instance (sql : Text) : Decidable (Flat sql) := inferInstanceAs (Decidable (_ ∧ _))

section Lines

variable {sql s t : Text}

theorem flat_iff :
    Flat sql ↔ (summary sql).2.1 = false ∧ ∀ x ∈ (summary sql).1, '\n' ∉ x.2 := by
  simp [Flat, summary, Token.content]

theorem summary_of_noError (herr : (tokenize sql).2.hasError = false) :
    summary sql = (pieceTokens sql ++ [(.endOfFile, [])], false, []) ∧
      ∀ x ∈ pieceTokens sql, x.2 ⊆ cString sql := by
  rcases lexes_or_stuck (cString sql) (1, 1) with
    ⟨ps, last, p, hlex, hlast⟩ | ⟨ps, gap, c, rest, p, hlex, hgap, hstuck⟩
  · rw [pieceTokens_of_lexes hlex hlast]
    refine ⟨summary_of_lexes hlex hlast, fun x hx => ?_⟩
    obtain ⟨q, hq, rfl⟩ := List.mem_map.mp hx
    obtain ⟨-, rest, hspell⟩ := hlex.munched.2.mem q hq
    exact fun d hd => hlex.subset q hq (hspell.subset hd)
  · obtain ⟨_, _, -, -, -, -, herr', -⟩ := tokenize_of_stuck hlex hgap hstuck
    exact absurd (herr.symm.trans herr') (by decide)

/-- A line is a piece, with its line break. -/
theorem isPiece_line (hnul : '\x00' ∉ s) (herr : (tokenize s).2.hasError = false) :
    IsPiece (s, '\n') := ⟨hnul, herr, rfl⟩

/-- **The first line of a flat program has no error.** -/
theorem Flat.first (h : Flat (s ++ '\n' :: t)) (hnul : '\x00' ∉ s ++ '\n' :: t) :
    (tokenize s).2.hasError = false := by
  obtain ⟨herr, hflat⟩ := h
  have hs : '\x00' ∉ s := fun h0 => hnul (List.mem_append_left _ h0)
  rcases lexes_or_stuck (cString (s ++ '\n' :: t)) (1, 1) with
    ⟨ps, last, p, hlex, hlast⟩ | ⟨ps, gap, c, rest, p, hlex, hgap, hstuck⟩
  · have hcut : ∀ q ∈ ps, '\n' ∉ q.2.raw := by
      intro q hq
      have hlexeme : '\n' ∉ q.2.lexeme := by
        refine hflat q.2 ?_
        rw [(tokenize_of_lexes hlex hlast).1]
        exact List.mem_append_left _ (List.mem_map_of_mem hq)
      rw [Token.raw]
      split
      · simpa using hlexeme
      · exact hlexeme
    rw [cString_of_notMem hnul] at hlex
    obtain ⟨qs, last', q', hfirst, hlast'⟩ := hlex.front hlast hcut rfl
    rw [← cString_of_notMem hs] at hfirst
    exact (tokenize_of_lexes hfirst hlast').2
  · obtain ⟨_, _, -, -, -, -, herr', -⟩ := tokenize_of_stuck hlex hgap hstuck
    exact absurd (herr.symm.trans herr') (by decide)

/-- Behind a line without error a program is flat when the rest is. -/
theorem flat_line (hpiece : IsPiece (s, '\n')) (hs : '\n' ∉ s) :
    Flat (s ++ '\n' :: t) ↔ Flat t := by
  have hline : ∀ x ∈ pieceTokens s, '\n' ∉ x.2 := fun x hx hnl =>
    hs ((List.takeWhile_prefix _).subset ((summary_of_noError hpiece.noError).2 x hx hnl))
  rw [flat_iff, flat_iff, summary_piece hpiece, List.forall_mem_append, and_iff_right hline]

/-- **The lines of a program have no error exactly when it has none and none of its literals goes
over a line break.**  Then its tokens are those of its lines. -/
theorem tokenize_lines (sql : Text) (hnul : '\x00' ∉ sql) :
    ((∀ line ∈ sql.splitOn '\n', (tokenize line).2.hasError = false) ↔ Flat sql) ∧
      (Flat sql → (tokenize sql).1.map Token.content
        = (sql.splitOn '\n').flatMap pieceTokens ++ [(.endOfFile, [])]) := by
  induction hn : sql.length using Nat.strong_induction_on generalizing sql with
  | _ n ih =>
    by_cases hnl : '\n' ∈ sql
    · obtain ⟨s, t, rfl, hs⟩ := List.eq_append_cons_of_mem hnl
      have hnul' := not_or.mp (mt List.mem_append.mpr hnul)
      have ht : '\x00' ∉ t := fun h0 => hnul'.2 (List.mem_cons_of_mem _ h0)
      obtain ⟨hiff, htokens⟩ := ih t.length (by simp at hn; omega) t ht rfl
      rw [List.splitOn_append_cons_self_of_not_mem hs, List.forall_mem_cons, hiff,
        List.flatMap_cons]
      constructor
      · constructor
        · rintro ⟨herr, hflat⟩
          exact (flat_line (isPiece_line hnul'.1 herr) hs).mpr hflat
        · intro hflat
          have herr := hflat.first hnul
          exact ⟨herr, (flat_line (isPiece_line hnul'.1 herr) hs).mp hflat⟩
      · intro hflat
        have hpiece := isPiece_line hnul'.1 (hflat.first hnul)
        have hsummary := congrArg Prod.fst (summary_piece hpiece t)
        refine hsummary.trans ?_
        rw [List.append_assoc, ← htokens ((flat_line hpiece hs).mp hflat)]
        rfl
    · rw [List.splitOn_eq_singleton hnl, List.forall_mem_singleton, List.flatMap_singleton]
      refine ⟨⟨fun herr => flat_iff.mpr ?_, And.left⟩, fun hflat => ?_⟩
      · obtain ⟨hsummary, hlexeme⟩ := summary_of_noError herr
        rw [hsummary, List.forall_mem_append, List.forall_mem_singleton]
        exact ⟨rfl, fun x hx hmem => hnl ((List.takeWhile_prefix _).subset (hlexeme x hx hmem)),
          nofun⟩
      · exact congrArg Prod.fst (summary_of_noError hflat.1).1

/-- A statement over two lines, behind another. -/
theorem tokenize_lines_three : (tokenize "use d;\nselect a\nfrom t".toList).1.map Token.content
    = ["use d;".toList, "select a".toList, "from t".toList].flatMap pieceTokens
      ++ [(.endOfFile, [])] := by
  have hlines := (tokenize_lines "use d;\nselect a\nfrom t".toList (by decide)).2
    (by decide +kernel)
  have hsplit : "use d;\nselect a\nfrom t".toList.splitOn '\n'
      = ["use d;".toList, "select a".toList, "from t".toList] := by decide +kernel
  rwa [hsplit] at hlines

end Lines

end Lexer

end MiniDB.Parser

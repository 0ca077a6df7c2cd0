import MiniDB.Parser.Lossless
import Mathlib.Data.List.Induction

/-!
# Parser/Positions — the line and the column of a token

The lexer counts lines in the white space between tokens; inside a string literal it counts columns
only.  So a token has its true position as long as no string literal in front of it contains a line
break, and a wrong line from there on.

**`position_iff`**: the exact tokens that have their true position.
-/

namespace MiniDB.Parser

open MiniDB.Core

/-! ## Positions in a text -/

/-- The line and the column of the character behind `before`: line breaks, and characters since the
last one, counted from one. -/
def truePosition (before : Text) : Nat × Nat :=
  (1 + before.count '\n', 1 + (before.reverse.takeWhile (· != '\n')).length)

/-- There is a line break inside quotes; the flag says whether a quote is open. -/
def quotedBreak : Bool → Text → Bool
  | _, [] => false
  | q, c :: s => q && c == '\n' || quotedBreak (if c = '"' then !q else q) s

/-- The tokens of a text, END_OF_FILE included, with the white space in front of each: together they
are the text. -/
structure IsLayout (sql : Text) (ps : List (Text × Token)) : Prop where
  tokens : (Lexer.tokenize sql).1 = ps.map Prod.snd
  text : cString sql = layout ps []
  gaps : ∀ q ∈ ps, Blank q.1

theorem moved_append (p : Nat × Nat) (s t : Text) : moved p (s ++ t) = moved (moved p s) t := by
  induction s generalizing p with
  | nil => rfl
  | cons c s ih => exact ih _

theorem moved_fst (p : Nat × Nat) (s : Text) : (moved p s).1 = p.1 + s.count '\n' := by
  induction s generalizing p with
  | nil => rfl
  | cons c s ih =>
    rw [moved, ih, List.count_cons]
    by_cases hc : c = '\n'
    · simp [hc]
      omega
    · simp [hc]

/-- Within a line only the column moves. -/
theorem moved_of_notMem {s : Text} (h : '\n' ∉ s) (p : Nat × Nat) :
    moved p s = (p.1, p.2 + s.length) := by
  induction s generalizing p with
  | nil => rfl
  | cons c s ih =>
    rw [List.mem_cons, not_or] at h
    rw [moved, if_neg (Ne.symm h.1), ih h.2, List.length_cons]
    simp only [Prod.mk.injEq, true_and]
    omega

/-- Moving from the start leads to the true position. -/
theorem truePosition_eq (s : Text) : truePosition s = moved (1, 1) s := by
  induction s using List.reverseRecOn with
  | nil => rfl
  | append_singleton s c ih =>
    rw [moved_append, ← ih]
    by_cases hc : c = '\n'
    · subst hc
      simp [truePosition, moved]
      omega
    · simp [truePosition, moved, hc, List.count_append]
      omega

/-! ## Line breaks inside quotes -/

theorem quotedBreak_of_notMem {s : Text} (h : '"' ∉ s) (rest : Text) :
    quotedBreak false (s ++ rest) = quotedBreak false rest := by
  induction s with
  | nil => rfl
  | cons c s ih =>
    rw [List.mem_cons, not_or] at h
    rw [List.cons_append, quotedBreak, if_neg (Ne.symm h.1), Bool.false_and, Bool.false_or, ih h.2]

/-- Inside a literal every line break counts, up to the closing quote. -/
theorem quotedBreak_content {content : Text} (h : '"' ∉ content) (rest : Text) :
    quotedBreak true (content ++ '"' :: rest)
      = (decide ('\n' ∈ content) || quotedBreak false rest) := by
  induction content with
  | nil => simp [quotedBreak]
  | cons c s ih =>
    rw [List.mem_cons, not_or] at h
    rw [List.cons_append, quotedBreak, if_neg (Ne.symm h.1), ih h.2]
    simp [Bool.or_assoc, List.mem_cons, eq_comm, Bool.beq_eq_decide_eq]

/-! ## What the lexer counts -/

theorem Blank.notMem_quote {gap : Text} (h : Blank gap) : '"' ∉ gap := fun hq => by
  have := h _ hq
  revert this
  decide

/-- A token with a line break in it is a string literal. -/
theorem Spells.quotedBreak_eq {w lexeme rest : Text} {kind : TokenKind}
    (h : Spells w kind lexeme rest) (behind : Text) :
    quotedBreak false (w ++ behind) = (decide ('\n' ∈ w) || quotedBreak false behind) := by
  have hplain {p : Char → Bool} (hp : p '"' = false) (hn : p '\n' = false)
      (hw : ∀ c ∈ w, p c = true) :
      quotedBreak false (w ++ behind) = (decide ('\n' ∈ w) || quotedBreak false behind) := by
    have hmem {c : Char} (hc : p c = false) : c ∉ w := fun h => by
      rw [hw c h] at hc
      cases hc
    rw [quotedBreak_of_notMem (hmem hp), decide_eq_false (hmem hn), Bool.false_or]
  cases h with
  | @mark c _ _ h =>
    refine hplain (p := fun x => (punctuation x).isSome) rfl rfl ?_
    rw [List.forall_mem_singleton, h]
    rfl
  | @string _ _ h =>
    rw [List.cons_append, List.append_assoc, List.singleton_append, quotedBreak, if_pos rfl,
      Bool.not_false, quotedBreak_content h]
    simp
  | number h => exact hplain (p := isDigit) rfl rfl h.2
  | word h =>
    refine hplain (p := isIdentChar) rfl rfl ?_
    cases w with
    | nil => cases h
    | cons c v => exact (isWord_cons.mp h).2

/-- Line breaks that are not counted stay uncounted. -/
theorem Lexes.line_lt {s rest : Text} {p p' : Nat × Nat} {ps : List (Text × Token)}
    (h : Lexes s p ps rest p') {q : Nat × Nat} (hq : p.1 < q.1) :
    p'.1 < (moved q (layout ps [])).1 := by
  induction h generalizing q with
  | nil => simpa [layout, moved] using hq
  | @cons gap w lexeme rest s kind p p' ps _ hspell _ ih =>
    rw [layout, tokenOf_raw hspell, moved_append, moved_append]
    refine ih ?_
    simp only [moved_fst]
    omega

/-- **The lexer's position behind some tokens is the true one, or its line is too small**: that
there is a line break inside quotes tells which. -/
theorem Lexes.position {s rest : Text} {p p' : Nat × Nat} {ps : List (Text × Token)}
    (h : Lexes s p ps rest p') (behind : Text) :
    (p' = moved p (layout ps []) ∧
      quotedBreak false (layout ps behind) = quotedBreak false behind) ∨
    (p'.1 < (moved p (layout ps [])).1 ∧ quotedBreak false (layout ps behind) = true) := by
  induction h with
  | nil p => exact Or.inl ⟨rfl, rfl⟩
  | @cons gap w lexeme rest s kind p p' ps hgap hspell hlex ih =>
    rw [layout, layout, tokenOf_raw hspell, moved_append, moved_append,
      quotedBreak_of_notMem hgap.notMem_quote, hspell.quotedBreak_eq]
    by_cases hbreak : '\n' ∈ w
    · -- the token spans lines, which the lexer does not see
      refine Or.inr ⟨hlex.line_lt ?_, by simp [hbreak]⟩
      have hcount := List.count_pos_iff.mpr hbreak
      simp only [moved_fst]
      omega
    · rw [moved_of_notMem hbreak, decide_eq_false hbreak, Bool.false_or]
      exact ih

theorem layout_concat (ps qs : List (Text × Token)) (rest : Text) :
    layout (ps ++ qs) rest = layout ps (layout qs rest) := by
  induction ps with
  | nil => rfl
  | cons q ps ih => simp only [List.cons_append, layout, ih]

theorem layout_append (ps : List (Text × Token)) (rest behind : Text) :
    layout ps (rest ++ behind) = layout ps rest ++ behind := by
  induction ps with
  | nil => rfl
  | cons q ps ih => simp only [layout, ih, List.append_assoc]

/-- **Behind some tokens and white space the lexer has the true position exactly when no line break
is inside quotes.** -/
theorem Lexes.truePosition_iff {s rest gap : Text} {p : Nat × Nat} {ps : List (Text × Token)}
    (h : Lexes s (1, 1) ps rest p) (hgap : Blank gap) :
    moved p gap = truePosition (layout ps gap) ↔ quotedBreak false (layout ps gap) = false := by
  have hbehind : truePosition (layout ps gap) = moved (moved (1, 1) (layout ps [])) gap := by
    rw [truePosition_eq, ← moved_append, ← layout_append, List.nil_append]
  rw [hbehind]
  rcases h.position gap with ⟨hp, hbreak⟩ | ⟨hlt, hbreak⟩
  · have hclean := quotedBreak_of_notMem hgap.notMem_quote []
    rw [List.append_nil] at hclean
    simp [hp, hbreak, hclean, quotedBreak]
  · rw [hbreak]
    refine iff_of_false (fun heq => ?_) nofun
    have hline := congrArg Prod.fst heq
    rw [moved_fst, moved_fst] at hline
    omega

/-- The token behind some of the tokens stands at the position the lexer has reached there. -/
theorem Lexes.at_token {s last gap : Text} {p p' : Nat × Nat} {front back : List (Text × Token)}
    {t : Token} (h : Lexes s p (front ++ (gap, t) :: back) last p') :
    ∃ mid pm, Lexes s p front mid pm ∧ Blank gap ∧ (t.line, t.column) = moved pm gap := by
  induction front generalizing s p with
  | nil =>
    cases h with
    | cons hgap hspell hrest => exact ⟨_, p, .nil _ p, hgap, rfl⟩
  | cons q front ih =>
    cases h with
    | cons hgap hspell hrest =>
      obtain ⟨mid, pm, hfront, hgap', hpos⟩ := ih hrest
      exact ⟨mid, pm, .cons hgap hspell hfront, hgap', hpos⟩

/-! ## The tokens lie in the text in one way -/

/-- White space up to the first other character can be split off in one way. -/
theorem gap_unique {gap gap' s s' : Text} (hgap : Blank gap) (hgap' : Blank gap')
    (hs : Ended isBlank s) (hs' : Ended isBlank s') (h : gap ++ s = gap' ++ s') :
    gap = gap' ∧ s = s' := by
  have htake := congrArg (List.takeWhile isBlank) h
  have hdrop := congrArg (List.dropWhile isBlank) h
  rw [takeWhile_run hgap hs, takeWhile_run hgap' hs'] at htake
  rw [dropWhile_run hgap hs, dropWhile_run hgap' hs'] at hdrop
  exact ⟨htake, hdrop⟩

/-- **Two layouts of a text with the same tokens are the same.** -/
theorem Lexes.layout_unique {s last : Text} {p p' : Nat × Nat} {ps : List (Text × Token)}
    (h : Lexes s p ps last p') (hlast : Blank last) {eof : Token} (heof : eof.raw = [])
    {qs : List (Text × Token)} (htok : qs.map Prod.snd = ps.map Prod.snd ++ [eof])
    (hgaps : ∀ q ∈ qs, Blank q.1) (hs : s = layout qs []) : qs = ps ++ [(last, eof)] := by
  induction h generalizing qs with
  | nil last p =>
    obtain ⟨⟨gap, t⟩, rfl, rfl⟩ := List.map_eq_singleton_iff.mp htok
    rw [layout, heof, layout, List.append_nil, List.append_nil] at hs
    rw [hs, List.nil_append]
  | @cons gap w lexeme rest s kind p p' ps hgap hspell _ ih =>
    obtain ⟨⟨gap', t⟩, qs, rfl, rfl, htok'⟩ := List.map_eq_cons_iff.mp htok
    rw [List.forall_mem_cons] at hgaps
    rw [layout, tokenOf_raw hspell] at hs
    obtain ⟨rfl, hrest⟩ := gap_unique hgap hgaps.1 (hspell.ended _) (hspell.ended _) hs
    rw [ih hlast htok' hgaps.2 (List.append_cancel_left hrest), List.cons_append]

/-! ## The tokens of a text -/

/-- Every token of the text, END_OF_FILE included, has its true position. -/
def TruePositions (sql : Text) : Prop :=
  ∀ ps, IsLayout sql ps → ∀ front gap t back, ps = front ++ (gap, t) :: back →
    (t.line, t.column) = truePosition (layout front gap)

/-- A quote that is opened stays in the text. -/
theorem quotedBreak_isPrefix {q : Bool} {s t : Text} (h : quotedBreak q (s ++ t) = false) :
    quotedBreak q s = false := by
  induction s generalizing q with
  | nil => rfl
  | cons c s ih =>
    rw [List.cons_append, quotedBreak, Bool.or_eq_false_iff] at h
    rw [quotedBreak, h.1, ih h.2]
    rfl

section Tokenized

variable {sql last : Text} {p : Nat × Nat} {ps : List (Text × Token)} {eof : Token}
  (h : Lexes (cString sql) (1, 1) ps last p) (hlast : Blank last)

include h hlast

/-- The tokens with the gaps that the lexer skips, END_OF_FILE behind the last of them. -/
theorem Lexes.isLayout (heof : eof.raw = [])
    (htok : (Lexer.tokenize sql).1 = ps.map Prod.snd ++ [eof]) :
    IsLayout sql (ps ++ [(last, eof)]) := by
  obtain ⟨htext, hmunched⟩ := h.munched
  refine ⟨by rw [htok, List.map_append, List.map_singleton], ?_, ?_⟩
  · rw [htext, layout_concat, layout, layout, heof, List.append_nil, List.append_nil]
  · rw [List.forall_mem_append, List.forall_mem_singleton]
    exact ⟨fun q hq => (hmunched.mem q hq).1, hlast⟩

/-- The exact tokens with their true position, END_OF_FILE included. -/
theorem Lexes.position_at (heof : (eof.line, eof.column) = moved p last)
    {front back : List (Text × Token)} {gap : Text} {t : Token}
    (hsplit : ps ++ [(last, eof)] = front ++ (gap, t) :: back) :
    (t.line, t.column) = truePosition (layout front gap) ↔
      quotedBreak false (layout front gap) = false := by
  rcases List.eq_nil_or_concat back with rfl | ⟨back, q, rfl⟩
  · obtain ⟨rfl, hq⟩ := List.append_inj' hsplit rfl
    obtain ⟨rfl, rfl⟩ := Prod.mk.inj (List.singleton_inj.mp hq)
    rw [heof]
    exact h.truePosition_iff hlast
  · rw [List.concat_eq_append, ← List.cons_append, ← List.append_assoc] at hsplit
    obtain ⟨rfl, -⟩ := List.append_inj' hsplit rfl
    obtain ⟨mid, pm, hfront, hgap, hat⟩ := h.at_token
    rw [hat]
    exact hfront.truePosition_iff hgap

end Tokenized

/-- **A token of an error-free text has its true position exactly when no string literal in front of
it contains a line break**; so all tokens have, END_OF_FILE included, exactly when no string literal
of the text does. -/
theorem position_iff {sql : Text} (herr : (Lexer.tokenize sql).2.hasError = false) :
    ∃ ps, IsLayout sql ps ∧ (∀ qs, IsLayout sql qs → qs = ps) ∧
      (∀ front gap t back, ps = front ++ (gap, t) :: back →
        ((t.line, t.column) = truePosition (layout front gap) ↔
          quotedBreak false (layout front gap) = false)) ∧
      (TruePositions sql ↔ quotedBreak false (cString sql) = false) := by
  rcases lexes_or_stuck (cString sql) (1, 1) with
    ⟨ps, last, p, h, hlast⟩ | ⟨ps, gap, c, rest, p, h, hgap, hstuck⟩
  · obtain ⟨htok, -⟩ := Lexer.tokenize_of_lexes h hlast
    have htext := h.munched.1
    let eof : Token := { kind := .endOfFile, line := (moved p last).1, column := (moved p last).2 }
    have hlayout : IsLayout sql (ps ++ [(last, eof)]) := h.isLayout hlast rfl htok
    have hunique (qs : List (Text × Token)) (hqs : IsLayout sql qs) : qs = ps ++ [(last, eof)] :=
      h.layout_unique hlast rfl (hqs.tokens.symm.trans htok) hqs.gaps hqs.text
    have hpos (front : List (Text × Token)) (gap : Text) (t : Token) (back : List (Text × Token))
        (hsplit : ps ++ [(last, eof)] = front ++ (gap, t) :: back) :
        (t.line, t.column) = truePosition (layout front gap) ↔
          quotedBreak false (layout front gap) = false := h.position_at hlast rfl hsplit
    refine ⟨_, hlayout, hunique, hpos, fun htrue => ?_,
      fun hclean qs hqs front gap t back hqsplit => ?_⟩
    · -- END_OF_FILE stands behind the whole text
      rw [htext]
      exact (hpos ps last eof [] rfl).mp (htrue _ hlayout ps last eof [] rfl)
    · have hsplit : cString sql = layout front gap ++ (t.raw ++ layout back []) := by
        rw [hqs.text, hqsplit, layout_concat, layout, layout_append]
      rw [hunique qs hqs] at hqsplit
      rw [hsplit] at hclean
      exact (hpos front gap t back hqsplit).mpr (quotedBreak_isPrefix hclean)
  · obtain ⟨_, _, -, -, -, -, herr', -⟩ := Lexer.tokenize_of_stuck h hgap hstuck
    rw [herr] at herr'
    cases herr'

/-- A statement over two lines. -/
theorem position_two_lines : TruePositions "use\n a;".toList := by
  have hclean : (Lexer.tokenize "use\n a;".toList).2.hasError = false := by decide
  obtain ⟨_, -, -, -, h⟩ := position_iff hclean
  exact h.mpr (by decide)

/-- A literal over two lines, and a token behind it: that is reported in line 1. -/
theorem position_after_literal : ¬ ∀ sql : Text,
    (Lexer.tokenize sql).2.hasError = false → TruePositions sql := by
  intro h
  let literal : Token := { kind := .stringLiteral, lexeme := ['a', '\n'], line := 1, column := 1 }
  let name : Token := { kind := .identifier, lexeme := ['x'], line := 1, column := 5 }
  let eof : Token := { kind := .endOfFile, line := 1, column := 6 }
  have hlayout : IsLayout ['"', 'a', '\n', '"', 'x'] [([], literal), ([], name), ([], eof)] :=
    { tokens := by decide
      text := by decide
      gaps := by simp [Blank] }
  have hname := h _ (by decide) _ hlayout [([], literal)] [] name [([], eof)] rfl
  exact absurd hname (by decide)

end MiniDB.Parser

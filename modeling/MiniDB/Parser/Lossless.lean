import MiniDB.Parser.Spelling

/-!
# Parser/Lossless — the tokens and the gaps between them are the text

The text is laid out as `gap raw gap raw … rest`: raw texts of tokens, white space in front of each.
`Lexes` says so of a text together with the positions the lexer counts.

* `tokenizeLoop_cases` — the main loop ends behind the last token, or it is stuck at a character
  that begins no token or at a quote that is never closed;
* `tokenize_lossless` — the characterization of `Lexer::tokenize`.
-/

namespace MiniDB.Parser

open MiniDB.Core

/-! ## Texts laid out as tokens -/

/-- The token as it stands in the text: a string literal with its quotes. -/
def Token.raw (t : Token) : Text :=
  if t.kind = .stringLiteral then '"' :: (t.lexeme ++ ['"']) else t.lexeme

/-- White space only. -/
def Blank (w : Text) : Prop := ∀ c ∈ w, isBlank c = true

/-- The text of some tokens, each with the text in front of it, and of what stands behind. -/
def layout : List (Text × Token) → Text → Text
  | [], rest => rest
  | (gap, t) :: ps, rest => gap ++ (t.raw ++ layout ps rest)

/-- White space in front of each token; and each token is spelt in front of all that follows it, so
that a word or a numeral goes on no further. -/
def Munched : List (Text × Token) → Text → Prop
  | [], _ => True
  | (gap, t) :: ps, rest =>
    Blank gap ∧ Spells t.raw t.kind t.lexeme (layout ps rest) ∧ Munched ps rest

/-- The characters that begin a token. -/
def beginsToken (c : Char) : Bool :=
  (punctuation c).isSome || c == '"' || isDigit c || isIdentStart c

/-- No token starts with `c` in front of `rest`: a character that begins none, or a quote with no
closing quote. -/
def Stuck (c : Char) (rest : Text) : Prop :=
  isBlank c = false ∧ (beginsToken c = false ∨ c = '"' ∧ '"' ∉ rest)

/-- What the lexer says of the place where it is stuck. -/
def stuckMessage (c : Char) : Text :=
  if c = '"' then "Unterminated string literal".toList
  else "Unexpected character: '".toList ++ [c, '\'']

/-- The position (line and column) behind a text. -/
def moved : Nat × Nat → Text → Nat × Nat
  | p, [] => p
  | p, c :: s => moved (if c = '\n' then (p.1 + 1, 1) else (p.1, p.2 + 1)) s

/-- From a position the lexer takes tokens off a text: it counts lines in the gaps only. -/
inductive Lexes : Text → Nat × Nat → List (Text × Token) → Text → Nat × Nat → Prop
  | nil (s : Text) (p : Nat × Nat) : Lexes s p [] s p
  | cons {gap w lexeme rest s : Text} {kind : TokenKind} {p p' : Nat × Nat}
      {ps : List (Text × Token)} (hgap : Blank gap) (hspell : Spells w kind lexeme rest)
      (hrest : Lexes rest ((moved p gap).1, (moved p gap).2 + w.length) ps s p') :
      Lexes (gap ++ (w ++ rest)) p
        ((gap, tokenOf kind lexeme (moved p gap).1 (moved p gap).2) :: ps) s p'

/-! ## Keywords, up to letter case -/

theorem toNat_toLower (c : Char) :
    c.toLower.toNat = if 65 ≤ c.toNat ∧ c.toNat ≤ 90 then c.toNat + 32 else c.toNat := by
  have hcap : (c.val ≥ 'A'.val ∧ c.val ≤ 'Z'.val) ↔ 65 ≤ c.toNat ∧ c.toNat ≤ 90 := by
    simp [UInt32.le_iff_toNat_le]
  by_cases h : c.val ≥ 'A'.val ∧ c.val ≤ 'Z'.val
  · have hlow : c.toLower.val = c.val + 32 := congrArg Char.val (dif_pos h)
    have hrange := hcap.mp h
    rw [if_pos hrange, Char.toNat, hlow, UInt32.toNat_add]
    change (c.toNat + 32) % 2 ^ 32 = c.toNat + 32
    omega
  · have hlow : c.toLower = c := dif_neg h
    rw [if_neg (mt hcap.mpr h), hlow]

/-- Two ways to ignore the case of a letter. -/
theorem upper_eq_iff {k : Char} (hk : 97 ≤ k.toNat ∧ k.toNat ≤ 122) (c : Char) :
    upper c = upper k ↔ c.toLower = k := by
  have hinj {a b : Char} : a = b ↔ a.toNat = b.toNat := Char.toNat_inj.symm
  rw [hinj, hinj, toNat_upper, toNat_upper, toNat_toLower, if_pos hk]
  split_ifs <;> omega

theorem strEqCi_iff {kw : Text} (hkw : ∀ k ∈ kw, 97 ≤ k.toNat ∧ k.toNat ≤ 122) (s : Text) :
    strEqCi s kw = true ↔ s.map Char.toLower = kw := by
  rw [strEqCi, beq_iff_eq]
  induction kw generalizing s with
  | nil => simp
  | cons k kw ih =>
    rw [List.forall_mem_cons] at hkw
    cases s with
    | nil => simp
    | cons c s => simp [upper_eq_iff hkw.1, ih hkw.2]

/-- **A word is the keyword that it is up to letter case**, and a name if it is none. -/
theorem matchKeyword_cases (s : Text) :
    (s.map Char.toLower, matchKeyword s) ∈ keywords ∨
      matchKeyword s = .identifier ∧ s.map Char.toLower ∉ keywords.map Prod.fst := by
  have hlower :
      keywords.all (fun kw => kw.1.all fun k => 97 ≤ k.toNat && k.toNat ≤ 122) = true := by
    decide
  simp only [List.all_eq_true, Bool.and_eq_true, decide_eq_true_eq] at hlower
  rw [matchKeyword]
  split
  · next kw hf =>
    have hmem := List.mem_of_find?_eq_some hf
    have hci : strEqCi s kw.1 = true :=
      List.find?_some (p := fun kw : Text × TokenKind => strEqCi s kw.1) hf
    rw [(strEqCi_iff (hlower kw hmem) s).mp hci]
    exact Or.inl hmem
  · next hf =>
    refine Or.inr ⟨rfl, fun h => ?_⟩
    obtain ⟨kw, hmem, heq⟩ := List.mem_map.mp h
    have hci : strEqCi s kw.1 = true := (strEqCi_iff (hlower kw hmem) s).mpr heq.symm
    exact absurd hci (List.find?_eq_none.mp hf kw hmem)

theorem matchKeyword_ne_stringLiteral (s : Text) : matchKeyword s ≠ .stringLiteral := by
  have hkw : ∀ kw ∈ keywords, kw.2 ≠ .stringLiteral := by decide
  rcases matchKeyword_cases s with h | ⟨h, -⟩
  · exact hkw _ h
  · rw [h]
    decide

theorem Spells.kind_ne_endOfFile {w lexeme rest : Text} {kind : TokenKind}
    (h : Spells w kind lexeme rest) : kind ≠ .endOfFile := by
  cases h with
  | mark h => exact (punctuation_kind h).1
  | string => nofun
  | number => nofun
  | word => exact (matchKeyword_kind w).1

/-- A word among the tokens is the keyword that it spells, or a name. -/
theorem kind_of_word {w lexeme rest : Text} {kind : TokenKind} (h : Spells w kind lexeme rest)
    (hword : isWord w = true) :
    (w.map Char.toLower, kind) ∈ keywords ∨
      kind = .identifier ∧ w.map Char.toLower ∉ keywords.map Prod.fst := by
  have hstart {c : Char} {v : Text} (hv : isWord (c :: v) = true) : isIdentStart c = true :=
    (isWord_cons.mp hv).1
  cases h with
  | mark h =>
    rw [(punctuation_of_isIdentStart (hstart hword)).1] at h
    cases h
  | string => exact absurd rfl (punctuation_of_isIdentStart (hstart hword)).2.1
  | number h =>
    obtain ⟨c, v, rfl⟩ := List.exists_cons_of_ne_nil h.1
    have hd := h.2 c (List.mem_cons_self ..)
    rw [(punctuation_of_isIdentStart (hstart hword)).2.2] at hd
    cases hd
  | word => exact matchKeyword_cases w

theorem tokenOf_raw {w lexeme rest : Text} {kind : TokenKind} (h : Spells w kind lexeme rest)
    (line column : Nat) : (tokenOf kind lexeme line column).raw = w := by
  cases h with
  | @mark c kind _ h =>
    have hk : kind ≠ .stringLiteral := by
      rintro rfl
      unfold punctuation at h
      split at h <;> cases h
    exact if_neg hk
  | string => rfl
  | number => rfl
  | word => exact if_neg (matchKeyword_ne_stringLiteral w)

/-! ## One token -/

theorem ended_dropWhile (p : Char → Bool) (s : Text) : Ended p (s.dropWhile p) := by
  intro c hc
  have h := List.head?_dropWhile_not p s
  rw [Option.mem_def.mp hc] at h
  simpa using h

/-- **At a character that is not white space there is a token, or the lexer is stuck.** -/
theorem spells_or_stuck {c : Char} (hc : isBlank c = false) (s : Text) :
    (∃ w kind lexeme rest, c :: s = w ++ rest ∧ Spells w kind lexeme rest) ∨ Stuck c s := by
  by_cases hp : (punctuation c).isSome = true
  · obtain ⟨kind, hkind⟩ := Option.isSome_iff_exists.mp hp
    exact Or.inl ⟨[c], kind, [c], s, rfl, .mark hkind⟩
  by_cases hq : c = '"'
  · subst hq
    by_cases hclose : '"' ∈ s
    · obtain ⟨content, rest, rfl, hcontent⟩ := List.eq_append_cons_of_mem hclose
      exact Or.inl ⟨_, _, content, rest, by simp, .string hcontent⟩
    · exact Or.inr ⟨hc, Or.inr ⟨rfl, hclose⟩⟩
  by_cases hd : isDigit c = true
  · refine Or.inl ⟨(c :: s).takeWhile isDigit, .intLiteral, (c :: s).takeWhile isDigit,
      (c :: s).dropWhile isDigit, List.takeWhile_append_dropWhile.symm, .number ⟨?_, ?_⟩ ?_⟩
    · simp [hd]
    · exact fun x hx => List.mem_takeWhile_imp hx
    · exact ended_dropWhile _ _
  by_cases hi : isIdentStart c = true
  · refine Or.inl ⟨(c :: s).takeWhile isIdentChar, _, _, (c :: s).dropWhile isIdentChar,
      List.takeWhile_append_dropWhile.symm, .word ?_ (ended_dropWhile _ _)⟩
    rw [List.takeWhile_cons_of_pos (isIdentChar_of_isIdentStart hi), isWord, hi, Bool.true_and]
    exact List.all_eq_true.mpr fun x hx => List.mem_takeWhile_imp hx
  · refine Or.inr ⟨hc, Or.inl ?_⟩
    simp [beginsToken, hp, hq, hd, hi]

theorem Spells.ended {w lexeme rest : Text} {kind : TokenKind} (h : Spells w kind lexeme rest)
    (behind : Text) : Ended isBlank (w ++ behind) := by
  obtain ⟨c, v, rfl, hc, -⟩ := h.head
  rintro _ ⟨⟩
  exact hc

namespace Lexer

/-- The white space in front of a text is skipped, and the position moves over it. -/
theorem skipSpaces_gap {gap : Text} (hgap : Blank gap) {s : Text} (hs : Ended isBlank s)
    (p : Nat × Nat) :
    skipSpaces (gap ++ s) p.1 p.2 = (s, (moved p gap).1, (moved p gap).2) := by
  induction gap generalizing p with
  | nil =>
    cases s with
    | nil => rfl
    | cons c s => exact skipSpaces_of_not_isBlank (hs c rfl) s p.1 p.2
  | cons c gap ih =>
    have hc := hgap c (List.mem_cons_self ..)
    have hrest := ih (fun x hx => hgap x (List.mem_cons_of_mem c hx))
    simp only [isBlank, Bool.or_eq_true, beq_iff_eq] at hc
    rcases hc with ((rfl | rfl) | rfl) | rfl
    · exact hrest (p.1, p.2 + 1)
    · exact hrest (p.1, p.2 + 1)
    · exact hrest (p.1, p.2 + 1)
    · exact hrest (p.1 + 1, 1)

/-- At a character that begins no token, and at an open quote, the scanner fails. -/
theorem scanToken_stuck {c : Char} {s : Text} (h : Stuck c s) (line col : Nat) :
    (scanToken { src := c :: s, line, col }).1 = { kind := .invalid, line, column := col } ∧
    (scanToken { src := c :: s, line, col }).2.hasError = true ∧
    (scanToken { src := c :: s, line, col }).2.errorMsg = stuckMessage c := by
  obtain ⟨-, h | ⟨rfl, h⟩⟩ := h
  · simp only [beginsToken, Bool.or_eq_false_iff, Option.isSome_eq_false_iff] at h
    obtain ⟨⟨⟨hp, hq⟩, hd⟩, hi⟩ := h
    rw [Option.isNone_iff_eq_none] at hp
    simp [scanToken, cur, hp, hq, hd, hi, stuckMessage, ne_of_beq_false hq]
  · have hdrop : s.dropWhile (· != '"') = [] :=
      List.dropWhile_eq_nil_iff.mpr fun x hx => by simpa using fun e : x = '"' => h (e ▸ hx)
    simp [scanToken, cur, punctuation, scanString, hdrop, stuckMessage]

/-! ## The main loop -/

/-- A round behind white space. -/
theorem tokenizeLoop_gap {gap : Text} (hgap : Blank gap) {s : Text} (hs : Ended isBlank s) (n : Nat)
    (p : Nat × Nat) (tokens : List Token) :
    tokenizeLoop (n + 1) { src := gap ++ s, line := p.1, col := p.2 } tokens
      = tokenizeLoop (n + 1) { src := s, line := (moved p gap).1, col := (moved p gap).2 }
          tokens := by
  rw [tokenizeLoop_skip n rfl, skipWhitespace]
  simp only [skipSpaces_gap hgap hs]

/-- **The main loop takes the tokens off the text**, one a round. -/
theorem tokenizeLoop_lexes {s rest : Text} {p p' : Nat × Nat} {ps : List (Text × Token)}
    (h : Lexes s p ps rest p') (n : Nat) (tokens : List Token) :
    tokenizeLoop (n + ps.length) { src := s, line := p.1, col := p.2 } tokens
      = tokenizeLoop n { src := rest, line := p'.1, col := p'.2 } (tokens ++ ps.map Prod.snd) := by
  induction h generalizing tokens with
  | nil => simp
  | @cons gap w lexeme rest s kind p p' ps hgap hspell _ ih =>
    rw [List.length_cons, ← Nat.add_assoc, tokenizeLoop_gap hgap (hspell.ended _),
      tokenizeLoop_spells hspell, ih, List.map_cons, List.append_assoc, List.singleton_append]

/-- Behind the last token only white space is left. -/
theorem tokenizeLoop_last {last : Text} (h : Blank last) {n : Nat} (hn : last.length ≤ n)
    (p : Nat × Nat) (tokens : List Token) :
    tokenizeLoop n { src := last, line := p.1, col := p.2 } tokens
      = (tokens, { src := [], line := (moved p last).1, col := (moved p last).2 }) := by
  cases n with
  | zero =>
    obtain rfl := List.eq_nil_of_length_eq_zero (Nat.le_zero.mp hn)
    rfl
  | succ n =>
    have hgap := tokenizeLoop_gap h (s := []) nofun n p tokens
    rw [List.append_nil] at hgap
    rw [hgap]
    rfl

/-- Where the lexer is stuck, the loop ends with what the scanner returns. -/
theorem tokenizeLoop_stuck {gap rest : Text} {c : Char} (hgap : Blank gap) (h : Stuck c rest)
    (h0 : c ≠ '\x00') (n : Nat) (p : Nat × Nat) (tokens : List Token) :
    tokenizeLoop (n + 1) { src := gap ++ c :: rest, line := p.1, col := p.2 } tokens
      = (tokens ++ [(scanToken { src := c :: rest, line := (moved p gap).1
                                 col := (moved p gap).2 }).1],
         (scanToken { src := c :: rest, line := (moved p gap).1, col := (moved p gap).2 }).2) := by
  have hended : Ended isBlank (c :: rest) := by
    rintro _ ⟨⟩
    exact h.1
  have herr := (scanToken_stuck h (moved p gap).1 (moved p gap).2).2.1
  rw [tokenizeLoop_gap hgap hended]
  simp [tokenizeLoop, cur, h0, skipWhitespace, skipSpaces_of_not_isBlank h.1, herr]

end Lexer

/-! ## Every text is laid out -/

/-- **A text is tokens and white space to its end, or up to where the lexer is stuck.** -/
theorem lexes_or_stuck (s : Text) (p : Nat × Nat) :
    (∃ ps last p', Lexes s p ps last p' ∧ Blank last) ∨
    ∃ ps gap c rest p', Lexes s p ps (gap ++ c :: rest) p' ∧ Blank gap ∧ Stuck c rest := by
  induction hn : s.length using Nat.strong_induction_on generalizing s p with
  | _ n ih =>
    obtain ⟨gap, s, rfl, hgap, hs⟩ : ∃ gap s', s = gap ++ s' ∧ Blank gap ∧ Ended isBlank s' :=
      ⟨_, _, List.takeWhile_append_dropWhile.symm, fun c hc => List.mem_takeWhile_imp hc,
        ended_dropWhile isBlank s⟩
    cases s with
    | nil =>
      rw [List.append_nil]
      exact Or.inl ⟨[], gap, p, .nil gap p, hgap⟩
    | cons c v =>
      rcases spells_or_stuck (hs c rfl) v with ⟨w, kind, lexeme, rest, hw, hspell⟩ | hstuck
      · have hlen : rest.length < n := by
          obtain ⟨x, y, rfl, -, -⟩ := hspell.head
          rw [← hn, hw]
          simp only [List.length_append, List.length_cons]
          omega
        rw [hw]
        rcases ih _ hlen rest ((moved p gap).1, (moved p gap).2 + w.length) rfl with
          ⟨ps, last, p', hlex, hlast⟩ | ⟨ps, gap', c', rest', p', hlex, hgap', hstuck⟩
        · exact Or.inl ⟨_, last, p', .cons hgap hspell hlex, hlast⟩
        · exact Or.inr ⟨_, gap', c', rest', p', .cons hgap hspell hlex, hgap', hstuck⟩
      · exact Or.inr ⟨[], gap, c, v, p, .nil _ p, hgap, hstuck⟩

theorem Lexes.munched {s rest : Text} {p p' : Nat × Nat} {ps : List (Text × Token)}
    (h : Lexes s p ps rest p') : s = layout ps rest ∧ Munched ps rest := by
  induction h with
  | nil => exact ⟨rfl, trivial⟩
  | cons hgap hspell _ ih =>
    rw [layout, Munched, tokenOf_raw hspell, ← ih.1]
    exact ⟨rfl, hgap, hspell, ih.2⟩

theorem Lexes.suffix {s rest : Text} {p p' : Nat × Nat} {ps : List (Text × Token)}
    (h : Lexes s p ps rest p') : rest <:+ s := by
  induction h with
  | nil => exact List.suffix_rfl
  | cons _ _ _ ih => exact (ih.trans (List.suffix_append _ _)).trans (List.suffix_append _ _)

/-- The characters of a token's text stand in the source. -/
theorem Spells.subset {w lexeme rest : Text} {kind : TokenKind} (h : Spells w kind lexeme rest) :
    lexeme ⊆ w := by
  cases h with
  | mark => exact List.Subset.refl _
  | string => exact fun c hc => List.mem_cons_of_mem _ (List.mem_append_left _ hc)
  | number => exact List.Subset.refl _
  | word => exact List.Subset.refl _

theorem Lexes.subset {s rest : Text} {p p' : Nat × Nat} {ps : List (Text × Token)}
    (h : Lexes s p ps rest p') : ∀ q ∈ ps, q.2.raw ⊆ s := by
  induction h with
  | nil => simp
  | cons _ hspell _ ih =>
    rw [List.forall_mem_cons]
    refine ⟨fun c hc => ?_, fun q hq c hc => ?_⟩
    · rw [tokenOf_raw hspell] at hc
      exact List.mem_append_right _ (List.mem_append_left _ hc)
    · exact List.mem_append_right _ (List.mem_append_right _ (ih q hq hc))

/-- The tokens of a text laid out can be counted from any position. -/
theorem Munched.lexes {ps : List (Text × Token)} {rest : Text} (h : Munched ps rest)
    (p : Nat × Nat) :
    ∃ ps' p', Lexes (layout ps rest) p ps' rest p' ∧ ps'.length = ps.length := by
  induction ps generalizing p with
  | nil => exact ⟨[], p, .nil rest p, rfl⟩
  | cons q ps ih =>
    obtain ⟨gap, t⟩ := q
    obtain ⟨hgap, hspell, h⟩ := h
    obtain ⟨ps', p', hlex, hlen⟩ := ih h ((moved p gap).1, (moved p gap).2 + t.raw.length)
    exact ⟨_, p', .cons hgap hspell hlex, by rw [List.length_cons, List.length_cons, hlen]⟩

theorem Munched.mem {ps : List (Text × Token)} {last : Text} (h : Munched ps last) :
    ∀ q ∈ ps, Blank q.1 ∧ ∃ rest, Spells q.2.raw q.2.kind q.2.lexeme rest := by
  induction ps with
  | nil => nofun
  | cons q ps ih =>
    rw [List.forall_mem_cons]
    exact ⟨⟨h.1, _, h.2.1⟩, ih h.2.2⟩

theorem Lexes.length_le {s rest : Text} {p p' : Nat × Nat} {ps : List (Text × Token)}
    (h : Lexes s p ps rest p') : ps.length + rest.length ≤ s.length := by
  induction h with
  | nil => simp
  | cons _ hspell _ ih =>
    obtain ⟨x, y, rfl, -, -⟩ := hspell.head
    simp only [List.length_append, List.length_cons]
    omega

theorem Munched.kind_ne_endOfFile {ps : List (Text × Token)} {rest : Text} (h : Munched ps rest) :
    ∀ t ∈ ps.map Prod.snd, t.kind ≠ .endOfFile := by
  rw [List.forall_mem_map]
  intro q hq
  obtain ⟨-, _, hspell⟩ := h.mem q hq
  exact hspell.kind_ne_endOfFile

/-- Words are keywords up to letter case, or names. -/
theorem Munched.words {ps : List (Text × Token)} {rest : Text} (h : Munched ps rest) :
    ∀ t ∈ ps.map Prod.snd, isWord t.raw = true →
      (t.raw.map Char.toLower, t.kind) ∈ keywords ∨
        t.kind = .identifier ∧ t.raw.map Char.toLower ∉ keywords.map Prod.fst := by
  rw [List.forall_mem_map]
  intro q hq hword
  obtain ⟨-, _, hspell⟩ := h.mem q hq
  exact kind_of_word hspell hword

namespace Lexer

/-- A text laid out as tokens to its end is tokenized without error, in any number of rounds that
is large enough. -/
theorem tokenizeLoop_of_lexes {s last : Text} {p p' : Nat × Nat} {ps : List (Text × Token)}
    (h : Lexes s p ps last p') (hlast : Blank last) {n : Nat} (hn : s.length ≤ n) :
    tokenizeLoop n { src := s, line := p.1, col := p.2 } []
      = (ps.map Prod.snd,
         { src := [], line := (moved p' last).1, col := (moved p' last).2 }) := by
  have hlen := h.length_le
  obtain ⟨m, rfl⟩ := Nat.exists_eq_add_of_le' (show ps.length ≤ n by omega)
  rw [tokenizeLoop_lexes h, tokenizeLoop_last hlast (by omega), List.nil_append]

/-- A text in which the lexer gets stuck is not, in any number of rounds that is large enough. -/
theorem tokenizeLoop_of_stuck {s gap rest : Text} {c : Char} {p p' : Nat × Nat}
    {ps : List (Text × Token)} (h : Lexes s p ps (gap ++ c :: rest) p') (hgap : Blank gap)
    (hstuck : Stuck c rest) (h0 : '\x00' ∉ s) :
    ∃ bad l, (bad.kind = .invalid ∧ bad.lexeme = []) ∧
      (l.hasError = true ∧ l.errorMsg = stuckMessage c) ∧
      ∀ n, s.length ≤ n → tokenizeLoop n { src := s, line := p.1, col := p.2 } []
        = (ps.map Prod.snd ++ [bad], l) := by
  obtain ⟨hbad, herr⟩ := scanToken_stuck hstuck (moved p' gap).1 (moved p' gap).2
  refine ⟨_, _, ⟨congrArg Token.kind hbad, congrArg Token.lexeme hbad⟩, herr, fun n hn => ?_⟩
  have hlen := h.length_le
  rw [List.length_append, List.length_cons] at hlen
  have hc : c ≠ '\x00' := fun hc => h0 (h.suffix.subset (by simp [hc]))
  obtain ⟨m, rfl⟩ := Nat.exists_eq_add_of_le' (show ps.length + 1 ≤ n by omega)
  rw [Nat.add_comm ps.length, ← Nat.add_assoc, tokenizeLoop_lexes h,
    tokenizeLoop_stuck hgap hstuck hc, List.nil_append]

/-! ## What `tokenize` returns -/

/-- **The tokens of a text that is laid out to its end**, and END_OF_FILE at its end. -/
theorem tokenize_of_lexes {sql last : Text} {p : Nat × Nat} {ps : List (Text × Token)}
    (h : Lexes (cString sql) (1, 1) ps last p) (hlast : Blank last) :
    (tokenize sql).1 = ps.map Prod.snd
        ++ [{ kind := .endOfFile, line := (moved p last).1, column := (moved p last).2 }] ∧
      (tokenize sql).2.hasError = false := by
  have hloop := tokenizeLoop_of_lexes h hlast le_rfl
  simp [tokenize, hloop]

theorem tokenize_of_stuck {sql gap rest : Text} {c : Char} {p : Nat × Nat}
    {ps : List (Text × Token)} (h : Lexes (cString sql) (1, 1) ps (gap ++ c :: rest) p)
    (hgap : Blank gap) (hstuck : Stuck c rest) :
    ∃ bad eof, (tokenize sql).1 = ps.map Prod.snd ++ [bad] ++ [eof] ∧
      (bad.kind = .invalid ∧ bad.lexeme = []) ∧ eof.kind = .endOfFile ∧ eof.lexeme = [] ∧
      (tokenize sql).2.hasError = true ∧ (tokenize sql).2.errorMsg = stuckMessage c := by
  obtain ⟨bad, l, hbad, herr, hloop⟩ := tokenizeLoop_of_stuck h hgap hstuck (notMem_cString sql)
  simp only [tokenize, hloop _ le_rfl]
  exact ⟨bad, _, rfl, hbad, rfl, rfl, herr⟩

/-- With an error the lexer is stuck behind some tokens. -/
theorem stuck_of_hasError {sql : Text} (herr : (tokenize sql).2.hasError = true) :
    ∃ ps gap c rest p, Lexes (cString sql) (1, 1) ps (gap ++ c :: rest) p ∧ Blank gap ∧
      Stuck c rest := by
  refine (lexes_or_stuck (cString sql) (1, 1)).resolve_left ?_
  rintro ⟨ps, last, p, h, hlast⟩
  rw [(tokenize_of_lexes h hlast).2] at herr
  cases herr

/-- **There is an error exactly where the lexer is stuck behind some tokens.** -/
theorem tokenize_hasError (sql : Text) :
    (tokenize sql).2.hasError = true ↔ ∃ ps gap c rest,
      cString sql = layout ps (gap ++ c :: rest) ∧ Munched ps (gap ++ c :: rest) ∧ Blank gap ∧
      Stuck c rest := by
  constructor
  · intro herr
    obtain ⟨ps, gap, c, rest, p, h, hgap, hstuck⟩ := stuck_of_hasError herr
    exact ⟨ps, gap, c, rest, h.munched.1, h.munched.2, hgap, hstuck⟩
  · rintro ⟨ps, gap, c, rest, hsrc, hmunched, hgap, hstuck⟩
    obtain ⟨ps', p, h, -⟩ := hmunched.lexes (1, 1)
    rw [← hsrc] at h
    obtain ⟨bad, eof, -, -, -, -, herr, -⟩ := tokenize_of_stuck h hgap hstuck
    exact herr

/-- The message says what the lexer is stuck at. -/
theorem tokenize_errorMsg {sql : Text} (herr : (tokenize sql).2.hasError = true) :
    ∃ c rest, Stuck c rest ∧ c ≠ '\x00' ∧ (tokenize sql).2.errorMsg = stuckMessage c := by
  obtain ⟨ps, gap, c, rest, p, h, hgap, hstuck⟩ := stuck_of_hasError herr
  obtain ⟨_, _, -, -, -, -, -, hmsg⟩ := tokenize_of_stuck h hgap hstuck
  have hc : c ≠ '\x00' := fun hc => notMem_cString sql (h.suffix.subset (by simp [hc]))
  exact ⟨c, rest, hstuck, hc, hmsg⟩

/-- **Tokenizing is lossless and maximal.**  The main loop ends by itself, and the tokens end with
the only END_OF_FILE.  Without an error the text is the raw texts of the tokens with white space
between them, each reaching as far as its class of characters does; a word is a keyword exactly when
it is one up to letter case.  And there is an error exactly when, behind some tokens, there is a
character that begins none or a quote that is never closed. -/
theorem tokenize_lossless (sql : Text) :
    (∀ n, (cString sql).length ≤ n → tokenizeLoop n { src := cString sql } []
      = tokenizeLoop (cString sql).length { src := cString sql } []) ∧
    (∃ toks eof, (tokenize sql).1 = toks ++ [eof] ∧ eof.kind = .endOfFile ∧
      ∀ t ∈ toks, t.kind ≠ .endOfFile) ∧
    ((tokenize sql).2.hasError = false → ∃ ps last eof,
      (tokenize sql).1 = ps.map Prod.snd ++ [eof] ∧ cString sql = layout ps last ∧
      Munched ps last ∧ Blank last) ∧
    (∀ t ∈ (tokenize sql).1, isWord t.raw = true →
      (t.raw.map Char.toLower, t.kind) ∈ keywords ∨
        t.kind = .identifier ∧ t.raw.map Char.toLower ∉ keywords.map Prod.fst) ∧
    ((tokenize sql).2.hasError = true ↔ ∃ ps gap c rest,
      cString sql = layout ps (gap ++ c :: rest) ∧ Munched ps (gap ++ c :: rest) ∧ Blank gap ∧
      Stuck c rest) := by
  rcases lexes_or_stuck (cString sql) (1, 1) with
    ⟨ps, last, p, h, hlast⟩ | ⟨ps, gap, c, rest, p, h, hgap, hstuck⟩
  · obtain ⟨hsrc, hmunched⟩ := h.munched
    have htok := (tokenize_of_lexes h hlast).1
    refine ⟨fun n hn => ?_, ⟨_, _, htok, rfl, hmunched.kind_ne_endOfFile⟩,
      fun _ => ⟨ps, last, _, htok, hsrc, hmunched, hlast⟩, ?_, tokenize_hasError sql⟩
    · rw [tokenizeLoop_of_lexes h hlast hn, tokenizeLoop_of_lexes h hlast le_rfl]
    · rw [htok, List.forall_mem_append, List.forall_mem_singleton]
      exact ⟨hmunched.words, nofun⟩
  · obtain ⟨-, hmunched⟩ := h.munched
    obtain ⟨bad, eof, htok, ⟨hbad, hlex⟩, heof, heoflex, herr, -⟩ :=
      tokenize_of_stuck h hgap hstuck
    have hraw {t : Token} (hkind : t.kind ≠ .stringLiteral) (hlexeme : t.lexeme = []) :
        ¬ isWord t.raw = true := by
      rw [Token.raw, if_neg hkind, hlexeme]
      nofun
    refine ⟨fun n hn => ?_, ⟨_, eof, htok, heof, ?_⟩, ?_, ?_, tokenize_hasError sql⟩
    · obtain ⟨_, _, -, -, hloop⟩ := tokenizeLoop_of_stuck h hgap hstuck (notMem_cString sql)
      rw [hloop n hn, hloop _ le_rfl]
    · rw [List.forall_mem_append, List.forall_mem_singleton, hbad]
      exact ⟨hmunched.kind_ne_endOfFile, nofun⟩
    · rw [herr]
      nofun
    · rw [htok, List.forall_mem_append, List.forall_mem_append, List.forall_mem_singleton,
        List.forall_mem_singleton]
      exact ⟨⟨hmunched.words, fun hw => absurd hw (hraw (by rw [hbad]; decide) hlex)⟩,
        fun hw => absurd hw (hraw (by rw [heof]; decide) heoflex)⟩

end Lexer

/-- The tokens of an error-free text stand in it, but for the last. -/
theorem tokenize_stands {sql : Text} (herr : (Lexer.tokenize sql).2.hasError = false) :
    ∀ t ∈ (Lexer.tokenize sql).1, t.kind ≠ .endOfFile →
      t.lexeme ⊆ cString sql ∧ ∃ rest, Spells t.raw t.kind t.lexeme rest ∧ t.raw ⊆ cString sql := by
  rcases lexes_or_stuck (cString sql) (1, 1) with
    ⟨ps, last, p, h, hlast⟩ | ⟨ps, gap, c, rest, p, h, hgap, hstuck⟩
  · rw [(Lexer.tokenize_of_lexes h hlast).1, List.forall_mem_append, List.forall_mem_singleton,
      List.forall_mem_map]
    refine ⟨fun q hq _ => ?_, fun hkind => absurd rfl hkind⟩
    obtain ⟨-, rest, hspell⟩ := h.munched.2.mem q hq
    have hraw := h.subset q hq
    exact ⟨fun c hc => hraw (hspell.subset hc), rest, hspell, hraw⟩
  · obtain ⟨_, _, -, -, -, -, herr', -⟩ := Lexer.tokenize_of_stuck h hgap hstuck
    rw [herr] at herr'
    cases herr'

end MiniDB.Parser

import MiniDB.Parser.Lexemes

/-!
# Parser/Spelling — what a token looks like in the text

`Spells w kind lexeme rest`: the text `w`, in front of `rest`, is one token.  A word and a numeral
run to the last character of their class, so what follows them counts; a mark and a string literal
end by themselves.

* `tokenizeLoop_spells` — the main loop takes such a token off the text;
* `tokenizeLoop_blank` — and skips white space.
-/

namespace MiniDB.Parser

open MiniDB.Core

/-! ## Tokens in a text -/

/-- White space: what the lexer skips between two tokens. -/
def isBlank (c : Char) : Bool := c == ' ' || c == '\t' || c == '\r' || c == '\n'

/-- The text does not go on with a character of the class. -/
def Ended (p : Char → Bool) (rest : Text) : Prop := ∀ c ∈ rest.head?, p c = false

/-- A run of identifier characters that starts like an identifier: a name or a keyword. -/
def isWord : Text → Bool
  | [] => false
  | c :: s => isIdentStart c && s.all isIdentChar

/-- The kinds of the keywords. -/
def TokenKind.isKeyword (kind : TokenKind) : Bool := keywords.any fun kw => kw.2 == kind

/-- In front of `rest`, the text `w` is a token of a kind and a lexeme. -/
inductive Spells : Text → TokenKind → Text → Text → Prop
  | mark {c : Char} {kind : TokenKind} {rest : Text} (h : punctuation c = some kind) :
      Spells [c] kind [c] rest
  | string {content rest : Text} (h : '"' ∉ content) :
      Spells ('"' :: (content ++ ['"'])) .stringLiteral content rest
  | number {w rest : Text} (h : IsNumeral w) (hrest : Ended isDigit rest) :
      Spells w .intLiteral w rest
  | word {w rest : Text} (h : isWord w = true) (hrest : Ended isIdentChar rest) :
      Spells w (matchKeyword w) w rest

/-- The token at a position; a numeral has its value. -/
def tokenOf (kind : TokenKind) (lexeme : Text) (line column : Nat) : Token :=
  { kind, lexeme, line, column
    intValue := if kind = .intLiteral then Lexer.numberValue lexeme else 0 }

theorem toNat_upper (c : Char) :
    (upper c).toNat = if 97 ≤ c.toNat ∧ c.toNat ≤ 122 then c.toNat - 32 else c.toNat := by
  have hlow : ('a' ≤ c ∧ c ≤ 'z') ↔ 97 ≤ c.toNat ∧ c.toNat ≤ 122 := by
    simp [Char.le_def, UInt32.le_iff_toNat_le]
  rw [upper]
  simp only [hlow]
  split
  · next h =>
    have hv : (c.toNat - 'a'.toNat + 'A'.toNat).isValidChar :=
      Or.inl (show c.toNat - 97 + 65 < _ by omega)
    rw [Char.ofNat, dif_pos hv]
    change c.toNat - 97 + 65 = _
    omega
  · rfl

theorem isWord_cons {c : Char} {s : Text} :
    isWord (c :: s) = true ↔ isIdentStart c = true ∧ ∀ x ∈ c :: s, isIdentChar x = true := by
  simp only [isWord, Bool.and_eq_true, List.all_eq_true, List.forall_mem_cons]
  constructor
  · rintro ⟨hc, hs⟩
    exact ⟨hc, isIdentChar_of_isIdentStart hc, hs⟩
  · rintro ⟨hc, -, hs⟩
    exact ⟨hc, hs⟩

theorem takeWhile_run {p : Char → Bool} {w rest : Text} (hw : ∀ c ∈ w, p c = true)
    (hrest : Ended p rest) : (w ++ rest).takeWhile p = w := by
  rw [List.takeWhile_append_of_pos hw]
  cases rest with
  | nil => simp
  | cons c rest => simp [hrest c rfl]

theorem dropWhile_run {p : Char → Bool} {w rest : Text} (hw : ∀ c ∈ w, p c = true)
    (hrest : Ended p rest) : (w ++ rest).dropWhile p = rest := by
  rw [List.dropWhile_append_of_pos hw]
  cases rest with
  | nil => rfl
  | cons c rest => simp [hrest c rfl]

/-! ## The classes of first characters exclude each other -/

theorem punctuation_isKeyword {c : Char} {kind : TokenKind} (h : punctuation c = some kind) :
    kind.isKeyword = false := by
  unfold punctuation at h
  split at h <;> cases h <;> decide

theorem punctuation_of_isDigit {c : Char} (h : isDigit c = true) :
    punctuation c = none ∧ c ≠ '"' := by
  constructor
  · unfold punctuation
    split <;> first | rfl | (revert h; decide)
  · rintro rfl
    revert h
    decide

theorem punctuation_of_isIdentStart {c : Char} (h : isIdentStart c = true) :
    punctuation c = none ∧ c ≠ '"' ∧ isDigit c = false := by
  refine ⟨?_, ?_, ?_⟩
  · unfold punctuation
    split <;> first | rfl | (revert h; decide)
  · rintro rfl
    revert h
    decide
  · rw [← Bool.not_eq_true]
    intro hd
    simp only [isIdentStart, isDigit, Bool.or_eq_true, Bool.and_eq_true, decide_eq_true_eq,
      beq_iff_eq, Char.le_def, UInt32.le_iff_toNat_le] at h hd
    rcases h with (⟨h, -⟩ | ⟨h, -⟩) | rfl
    · exact absurd (h.trans hd.2) (by decide)
    · exact absurd (h.trans hd.2) (by decide)
    · exact absurd hd.2 (by decide)

/-- A token starts with a character that is neither white space nor NUL. -/
theorem Spells.head {w lexeme rest : Text} {kind : TokenKind} (h : Spells w kind lexeme rest) :
    ∃ c v, w = c :: v ∧ isBlank c = false ∧ c ≠ '\x00' := by
  have hblank {c : Char} {p : Char → Bool} (hc : p c = true)
      (hp : [' ', '\t', '\r', '\n', '\x00'].all (fun x => !p x) = true) :
      isBlank c = false ∧ c ≠ '\x00' := by
    have hne : ∀ x ∈ [' ', '\t', '\r', '\n', '\x00'], c ≠ x := by
      rintro x hx rfl
      simpa [hc] using List.all_eq_true.mp hp c hx
    simp only [List.forall_mem_cons] at hne
    simp [isBlank, hne]
  cases h with
  | @mark c _ _ h =>
    have hc : (punctuation c).isSome = true := by rw [h]; rfl
    exact ⟨c, [], rfl, hblank (p := fun x => (punctuation x).isSome) hc (by decide)⟩
  | string => exact ⟨'"', _, rfl, by decide, by decide⟩
  | number h =>
    obtain ⟨c, v, rfl⟩ := List.exists_cons_of_ne_nil h.1
    exact ⟨c, v, rfl, hblank (h.2 c (by simp)) (by decide)⟩
  | word h =>
    cases w with
    | nil => cases h
    | cons c v => exact ⟨c, v, rfl, hblank (isWord_cons.mp h).1 (by decide)⟩

/-! ## The lexer at a token -/

namespace Lexer

/-- **The scanner takes the token off the text.** -/
theorem scanToken_spells {w lexeme rest : Text} {kind : TokenKind} (h : Spells w kind lexeme rest)
    (line col : Nat) :
    scanToken { src := w ++ rest, line, col }
      = (tokenOf kind lexeme line col, { src := rest, line, col := col + w.length }) := by
  cases h with
  | @mark c kind _ h =>
    simp only [scanToken, cur, List.singleton_append, List.headD_cons, h, tokenOf]
    have hk := (punctuation_kind h).2.2.1
    simp [hk]
  | @string _ _ h =>
    have hstop : Ended (· != '"') ('"' :: rest) := by
      rintro _ ⟨⟩
      decide
    have hall : ∀ c ∈ lexeme, (c != '"') = true := fun c hc => by
      simpa using fun e : c = '"' => h (e ▸ hc)
    simp only [scanToken, scanString, cur, List.cons_append, List.append_assoc, List.headD_cons,
      List.tail_cons, List.nil_append, takeWhile_run hall hstop, dropWhile_run hall hstop]
    simp [tokenOf, punctuation]
    omega
  | number h hrest =>
    obtain ⟨c, v, rfl⟩ := List.exists_cons_of_ne_nil h.1
    have hc := h.2 c (by simp)
    obtain ⟨hp, hq⟩ := punctuation_of_isDigit hc
    have hscan : scanToken { src := c :: v ++ rest, line, col }
        = scanNumber { src := c :: v ++ rest, line, col } := by
      simp [scanToken, cur, hp, hq, hc]
    rw [hscan, scanNumber, takeWhile_run h.2 hrest, dropWhile_run h.2 hrest]
    rfl
  | word h hrest =>
    obtain ⟨c, v, rfl⟩ : ∃ c v, w = c :: v :=
      List.exists_cons_of_ne_nil (by rintro rfl; cases h)
    obtain ⟨hstart, hchars⟩ := isWord_cons.mp h
    obtain ⟨hp, hq, hd⟩ := punctuation_of_isIdentStart hstart
    have hscan : scanToken { src := c :: v ++ rest, line, col }
        = scanIdentifierOrKeyword { src := c :: v ++ rest, line, col } := by
      simp [scanToken, cur, hp, hq, hd, hstart]
    rw [hscan, scanIdentifierOrKeyword, takeWhile_run hchars hrest, dropWhile_run hchars hrest]
    simp [tokenOf, (matchKeyword_kind (c :: v)).2.2.1]

theorem skipSpaces_of_not_isBlank {c : Char} (h : isBlank c = false) (s : Text) (line col : Nat) :
    skipSpaces (c :: s) line col = (c :: s, line, col) := by
  simp only [isBlank, Bool.or_eq_false_iff] at h
  simp [skipSpaces, h]

/-- **A round at a token**: the token is appended, and the loop goes on behind it. -/
theorem tokenizeLoop_spells {w lexeme rest : Text} {kind : TokenKind}
    (h : Spells w kind lexeme rest) (n line col : Nat) (tokens : List Token) :
    tokenizeLoop (n + 1) { src := w ++ rest, line, col } tokens
      = tokenizeLoop n { src := rest, line, col := col + w.length }
          (tokens ++ [tokenOf kind lexeme line col]) := by
  obtain ⟨c, v, hw, hblank, hnul⟩ := h.head
  have hcur : cur { src := w ++ rest, line, col } = c := by
    rw [hw]
    rfl
  have hskip : skipWhitespace { src := w ++ rest, line, col }
      = { src := w ++ rest, line, col } := by
    rw [skipWhitespace, hw, List.cons_append, skipSpaces_of_not_isBlank hblank]
  simp [tokenizeLoop, hcur, hnul, hskip, scanToken_spells h]

theorem skipSpaces_idem (s : Text) (line col : Nat) :
    skipSpaces (skipSpaces s line col).1 (skipSpaces s line col).2.1 (skipSpaces s line col).2.2
      = skipSpaces s line col := by
  induction s generalizing line col with
  | nil => rfl
  | cons c s ih =>
    simp only [skipSpaces]
    split_ifs with h₁ h₂
    · exact ih _ _
    · exact ih _ _
    · simp [skipSpaces, h₁, h₂]

/-- A round skips white space first. -/
theorem tokenizeLoop_skip (n : Nat) {l : Lexer} (hl : l.hasError = false) (tokens : List Token) :
    tokenizeLoop (n + 1) l tokens = tokenizeLoop (n + 1) l.skipWhitespace tokens := by
  have hidem : l.skipWhitespace.skipWhitespace = l.skipWhitespace := by
    simp only [skipWhitespace, skipSpaces_idem]
  by_cases hcur : l.cur = '\x00'
  · -- there is no white space in front
    have hskip : l.skipWhitespace = l := by
      obtain ⟨src, line, col, e, msg⟩ := l
      cases src with
      | nil => rfl
      | cons c s =>
        obtain rfl : c = '\x00' := hcur
        simp [skipWhitespace, skipSpaces]
    rw [hskip]
  · have hl' : l.skipWhitespace.hasError = false := hl
    simp only [tokenizeLoop, hidem, hl, hl']
    by_cases hend : l.skipWhitespace.cur = '\x00' <;> simp [hcur, hend]

/-- **White space in front of a round is skipped**, and moves the position. -/
theorem tokenizeLoop_blank {c : Char} (hc : isBlank c = true) (n : Nat) (s : Text) (line col : Nat)
    (tokens : List Token) :
    tokenizeLoop (n + 1) { src := c :: s, line, col } tokens
      = tokenizeLoop (n + 1)
          { src := s
            line := if c = '\n' then line + 1 else line
            col := if c = '\n' then 1 else col + 1 } tokens := by
  refine (tokenizeLoop_skip n rfl tokens).trans (Eq.trans ?_ (tokenizeLoop_skip n rfl tokens).symm)
  have hskip : skipSpaces (c :: s) line col
      = skipSpaces s (if c = '\n' then line + 1 else line) (if c = '\n' then 1 else col + 1) := by
    simp only [isBlank, Bool.or_eq_true, beq_iff_eq] at hc
    rcases hc with ((rfl | rfl) | rfl) | rfl <;> simp [skipSpaces]
  simp only [skipWhitespace, hskip]

end Lexer

end MiniDB.Parser

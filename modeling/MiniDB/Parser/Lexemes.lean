import MiniDB.Parser.Lexer

/-!
# Parser/Lexemes — what the lexer promises of its tokens

A token of an error-free lexing is `Lexed`: it is no special token, a name is a nonempty run of
identifier characters, an integer literal a nonempty run of digits, and no lexeme holds a NUL.

**`tokenize_lexed`**: an error-free tokenization is a list of such tokens, then END_OF_FILE.
-/

namespace MiniDB.Parser

open MiniDB.Core

/-- An identifier as the lexer reads it: a nonempty run of letters, digits and underscores. -/
def IsName (s : Text) : Prop := s ≠ [] ∧ ∀ c ∈ s, isIdentChar c = true

/-- An integer literal as the lexer reads it. -/
def IsNumeral (s : Text) : Prop := s ≠ [] ∧ ∀ c ∈ s, isDigit c = true

/-- What the lexer promises of a token. -/
structure Token.Lexed (t : Token) : Prop where
  notSpecial : t.kind ≠ .endOfFile ∧ t.kind ≠ .invalid
  noNul : '\x00' ∉ t.lexeme
  name : t.kind = .identifier → IsName t.lexeme
  numeral : t.kind = .intLiteral → IsNumeral t.lexeme
  star : t.kind = .opStar → t.lexeme = ['*']

theorem IsName.noNul {s : Text} (h : IsName s) : '\x00' ∉ s := fun h0 => by
  have := h.2 _ h0
  revert this
  decide

theorem isIdentChar_of_isIdentStart {c : Char} (h : isIdentStart c = true) :
    isIdentChar c = true := by
  simp only [isIdentStart, isIdentChar, Bool.or_eq_true] at h ⊢
  tauto

/-- A scanned word is a keyword or a name, never a literal or a special token. -/
theorem matchKeyword_kind (s : Text) : matchKeyword s ≠ .endOfFile ∧ matchKeyword s ≠ .invalid ∧
    matchKeyword s ≠ .intLiteral ∧ matchKeyword s ≠ .opStar := by
  have hkw : ∀ kw ∈ keywords, kw.2 ≠ .endOfFile ∧ kw.2 ≠ .invalid ∧ kw.2 ≠ .intLiteral ∧
      kw.2 ≠ .opStar := by
    decide
  rw [matchKeyword]
  split
  · next kw hf => exact hkw kw (List.mem_of_find?_eq_some hf)
  · decide

theorem punctuation_kind {c : Char} {kind : TokenKind} (h : punctuation c = some kind) :
    kind ≠ .endOfFile ∧ kind ≠ .invalid ∧ kind ≠ .intLiteral ∧ kind ≠ .identifier ∧
      (kind = .opStar → c = '*') := by
  unfold punctuation at h
  split at h <;> cases h <;> decide

namespace Lexer

/-- One scan at a character: an error, or a `Lexed` token, and the rest of the source. -/
structure Scanned (src : Text) (r : Token × Lexer) : Prop where
  lexed : r.2.hasError = false → r.1.Lexed
  rest : r.2.src <:+ src

theorem scanIdentifierOrKeyword_spec {l : Lexer} {c : Char} {s : Text} (hs : l.src = c :: s)
    (hc : isIdentStart c = true) (h0 : '\x00' ∉ l.src) :
    Scanned l.src l.scanIdentifierOrKeyword where
  lexed _ :=
    { notSpecial := ⟨(matchKeyword_kind _).1, (matchKeyword_kind _).2.1⟩
      noNul := fun h => h0 (List.takeWhile_subset _ h)
      name := fun _ => by
        refine ⟨?_, fun c hc => List.mem_takeWhile_imp hc⟩
        simp [scanIdentifierOrKeyword, hs, isIdentChar_of_isIdentStart hc]
      numeral := fun h => absurd h (matchKeyword_kind _).2.2.1
      star := fun h => absurd h (matchKeyword_kind _).2.2.2 }
  rest := List.dropWhile_suffix _

theorem scanNumber_spec {l : Lexer} {c : Char} {s : Text} (hs : l.src = c :: s)
    (hc : isDigit c = true) (h0 : '\x00' ∉ l.src) : Scanned l.src l.scanNumber where
  lexed _ :=
    { notSpecial := ⟨nofun, nofun⟩
      noNul := fun h => h0 (List.takeWhile_subset _ h)
      name := nofun
      numeral := fun _ => by
        refine ⟨?_, fun c hc => List.mem_takeWhile_imp hc⟩
        simp [scanNumber, hs, hc]
      star := nofun }
  rest := List.dropWhile_suffix _

theorem scanString_spec {l : Lexer} (h0 : '\x00' ∉ l.src) : Scanned l.src l.scanString := by
  rw [scanString]
  split
  · exact ⟨nofun, (List.dropWhile_suffix _).trans (List.tail_suffix _)⟩
  · refine ⟨fun _ => ⟨⟨nofun, nofun⟩, fun h => h0 ?_, nofun, nofun, nofun⟩, ?_⟩
    · exact List.mem_of_mem_tail (List.takeWhile_subset _ h)
    · exact (List.tail_suffix _).trans ((List.dropWhile_suffix _).trans (List.tail_suffix _))

theorem scanToken_spec {l : Lexer} {c : Char} {s : Text} (hs : l.src = c :: s)
    (h0 : '\x00' ∉ l.src) : Scanned l.src l.scanToken := by
  have hcur : l.cur = c := by rw [cur, hs]; rfl
  have hc : c ≠ '\x00' := fun h => h0 (by simp [hs, h])
  simp only [scanToken, hcur]
  split
  · next kind hk =>
    obtain ⟨h₁, h₂, h₃, h₄, h₅⟩ := punctuation_kind hk
    exact ⟨fun _ => ⟨⟨h₁, h₂⟩, by simpa using hc.symm, fun h => absurd h h₄, fun h => absurd h h₃,
      fun h => by rw [h₅ h]⟩, List.tail_suffix _⟩
  · split_ifs with hq hd hi
    · exact scanString_spec h0
    · exact scanNumber_spec hs hd h0
    · exact scanIdentifierOrKeyword_spec hs hi h0
    · exact ⟨nofun, List.suffix_rfl⟩

theorem skipSpaces_suffix (s : Text) (line col : Nat) : (skipSpaces s line col).1 <:+ s := by
  induction s generalizing line col with
  | nil => exact List.suffix_rfl
  | cons c s ih =>
    rw [skipSpaces]
    split_ifs
    · exact (ih _ _).trans (List.suffix_cons _ _)
    · exact (ih _ _).trans (List.suffix_cons _ _)
    · exact List.suffix_rfl

/-- The main loop keeps its tokens `Lexed`, as long as it meets no error. -/
theorem tokenizeLoop_lexed (n : Nat) {l : Lexer} {tokens : List Token} (h0 : '\x00' ∉ l.src)
    (ht : ∀ t ∈ tokens, t.Lexed) (herr : (tokenizeLoop n l tokens).2.hasError = false) :
    ∀ t ∈ (tokenizeLoop n l tokens).1, t.Lexed := by
  induction n generalizing l tokens with
  | zero => exact ht
  | succ n ih =>
    simp only [tokenizeLoop] at herr ⊢
    split_ifs at herr ⊢ with h₁ h₂ h₃
    · exact ht
    · exact ht
    · rw [h₃] at herr
      cases herr
    · -- a token was scanned without error
      have h0' : '\x00' ∉ l.skipWhitespace.src := fun h => h0 ((skipSpaces_suffix ..).subset h)
      obtain ⟨c, s, hs⟩ : ∃ c s, l.skipWhitespace.src = c :: s := by
        cases hsrc : l.skipWhitespace.src with
        | nil => simp [cur, hsrc] at h₂
        | cons c s => exact ⟨c, s, rfl⟩
      have hscan := scanToken_spec hs h0'
      refine ih (fun h => h0' (hscan.rest.subset h)) (fun t h => ?_) herr
      rcases List.mem_append.mp h with h | h
      · exact ht t h
      · rw [List.mem_singleton.mp h]
        exact hscan.lexed (by simpa using h₃)

/-- **The tokens of an error-free text**: `Lexed` ones, then END_OF_FILE. -/
theorem tokenize_lexed {sql : Text} (herr : (tokenize sql).2.hasError = false) :
    ∃ toks eof, (tokenize sql).1 = toks ++ [eof] ∧ (∀ t ∈ toks, t.Lexed) ∧
      eof.kind = .endOfFile :=
  ⟨_, _, rfl, tokenizeLoop_lexed _ (notMem_cString sql) (fun t h => by cases h) herr, rfl⟩

end Lexer

end MiniDB.Parser

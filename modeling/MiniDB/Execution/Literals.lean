import MiniDB.Core.Numerals
import MiniDB.Execution.Executor
import MiniDB.Parser.Lossless

/-!
# Execution/Literals — what an integer literal denotes

The value of an integer literal is computed twice: by the scanner, digit by digit in an `int`, and
by `atoi` where INSERT, UPDATE and WHERE turn the lexeme into a cell.  Both have the value of the
decimal numeral up to the largest `int`; above it the scanner's arithmetic overflows and both values
are wrong.

**`literals_keep_value_iff`**: the exact texts whose literals keep their value.
-/

namespace MiniDB.Execution

open MiniDB.Core MiniDB.Parser MiniDB.Storage Executor

/-- The value of a decimal numeral. -/
def decimal (s : Text) : Nat := Nat.ofDigitChars 10 s 0

/-- The exact results of the scanner's loop, from a value on: the product and the sum of each
round. -/
def scanSteps : Nat → Text → List Nat
  | _, [] => []
  | value, c :: s =>
    value * 10 :: (value * 10 + (c.toNat - '0'.toNat))
      :: scanSteps (value * 10 + (c.toNat - '0'.toNat)) s

/-- The literal denotes one integer wherever it is used: its scan stays within `int`, and the
scanner and the conversion behind INSERT, UPDATE and WHERE agree with the numeral. -/
structure KeepsValue (t : Token) : Prop where
  noOverflow : ∀ n ∈ scanSteps 0 t.lexeme, IsInt32 n
  scanned : t.intValue = decimal t.lexeme
  converted : literal t.lexeme true = .int (decimal t.lexeme)

/-- The integer literals of a text. -/
def intLiterals (sql : Text) : List Token :=
  (Lexer.tokenize sql).1.filter (·.kind == .intLiteral)

/-- The text is a statement. -/
def Accepted (sql : Text) : Prop := ∃ stmt, parse sql = some stmt ∧ stmt.kind ≠ .invalid

/-- Integer literals keep their value, unless the statement is rejected; and a comparison of two of
them compares the integers. -/
def LiteralsKeepValue (sql : Text) : Prop :=
  Accepted sql → (∀ t ∈ intLiterals sql, KeepsValue t) ∧
    ∀ t ∈ intLiterals sql, ∀ u ∈ intLiterals sql,
      Value.compare (literal t.lexeme true) (literal u.lexeme true) = 0 ↔
        decimal t.lexeme = decimal u.lexeme

/-! ## Numerals -/

theorem decimal_step (value : Nat) (c : Char) (s : Text) :
    Nat.ofDigitChars 10 (c :: s) value
      = Nat.ofDigitChars 10 s (value * 10 + (c.toNat - '0'.toNat)) := by
  rw [Nat.ofDigitChars_cons, Nat.mul_comm]

/-- The value grows with every digit. -/
theorem le_ofDigitChars (s : Text) (value : Nat) : value ≤ Nat.ofDigitChars 10 s value := by
  induction s generalizing value with
  | nil => exact le_rfl
  | cons c s ih =>
    rw [decimal_step]
    exact le_trans (by omega) (ih _)

/-- **The scan stays within `int` exactly when its result does.** -/
theorem scanSteps_iff (s : Text) {value : Nat} (hvalue : value < 2 ^ 31) :
    (∀ n ∈ scanSteps value s, IsInt32 n) ↔ Nat.ofDigitChars 10 s value < 2 ^ 31 := by
  induction s generalizing value with
  | nil => exact iff_of_true nofun hvalue
  | cons c s ih =>
    have hle := le_ofDigitChars s (value * 10 + (c.toNat - '0'.toNat))
    rw [scanSteps, List.forall_mem_cons, List.forall_mem_cons, decimal_step]
    unfold IsInt32 at ih ⊢
    by_cases hsum : value * 10 + (c.toNat - '0'.toNat) < 2 ^ 31
    · rw [ih hsum]
      exact ⟨fun h => h.2.2, fun h => ⟨by omega, by omega, h⟩⟩
    · exact iff_of_false (fun h => hsum (by have := h.2.1.2; omega)) (by omega)

/-- The scanner's value is an `int`. -/
theorem isInt32_scan (s : Text) {value : Int} (hvalue : IsInt32 value) :
    IsInt32
      (s.foldl (fun value c => toInt32 (value * 10 + (c.toNat - '0'.toNat : Nat))) value) := by
  induction s generalizing value with
  | nil => exact hvalue
  | cons c s ih => exact ih (isInt32_toInt32 _)

/-- Within `int` the scanner computes the value of the numeral. -/
theorem scan_eq (s : Text) (value : Nat) (h : Nat.ofDigitChars 10 s value < 2 ^ 31) :
    s.foldl (fun value c => toInt32 (value * 10 + (c.toNat - '0'.toNat : Nat))) (value : Int)
      = Nat.ofDigitChars 10 s value := by
  induction s generalizing value with
  | nil => rfl
  | cons c s ih =>
    rw [decimal_step] at h ⊢
    have hle := le_ofDigitChars s (value * 10 + (c.toNat - '0'.toNat))
    have hstep : toInt32 ((value : Int) * 10 + (c.toNat - '0'.toNat : Nat))
        = ((value * 10 + (c.toNat - '0'.toNat) : Nat) : Int) := by
      rw [Nat.cast_add, Nat.cast_mul]
      exact toInt32_of_isInt32 ⟨by omega, by omega⟩
    rw [List.foldl_cons, hstep]
    exact ih _ h

theorem numberValue_eq_iff (s : Text) :
    Lexer.numberValue s = decimal s ↔ decimal s < 2 ^ 31 := by
  refine ⟨fun h => ?_, scan_eq s 0⟩
  have hint : IsInt32 (Lexer.numberValue s) := isInt32_scan s (by decide)
  rw [h] at hint
  unfold IsInt32 at hint
  omega

theorem literal_eq_iff {s : Text} (h : IsNumeral s) :
    literal s true = .int (decimal s) ↔ decimal s < 2 ^ 31 := by
  have hnul : '\x00' ∉ s := fun h0 => absurd (h.2 _ h0) (by decide)
  rw [literal, if_pos rfl, cString_of_notMem hnul, Value.int.injEq]
  constructor
  · intro heq
    have hint := isInt32_atoi s
    rw [heq] at hint
    unfold IsInt32 at hint
    omega
  · intro hlt
    have hread := atoi_digits h.1 h.2 (show EndsDigits [] from rfl) hlt
    rwa [List.append_nil] at hread

/-! ## The literals of a text -/

/-- A numeral among the tokens has the value the scanner gave it. -/
theorem scanned_of_lexes {s rest : Text} {p p' : Nat × Nat} {ps : List (Text × Token)}
    (h : Lexes s p ps rest p') : ∀ t ∈ ps.map Prod.snd, t.kind = .intLiteral →
      IsNumeral t.lexeme ∧ t.intValue = Lexer.numberValue t.lexeme := by
  induction h with
  | nil => nofun
  | @cons gap w lexeme rest s kind p p' ps _ hspell _ ih =>
    rw [List.map_cons, List.forall_mem_cons]
    refine ⟨fun hkind => ?_, ih⟩
    change kind = .intLiteral at hkind
    have hnum : IsNumeral lexeme := by
      cases hspell with
      | mark h => exact absurd hkind (punctuation_kind h).2.2.1
      | string => cases hkind
      | number h => exact h
      | word => exact absurd hkind (matchKeyword_kind w).2.2.1
    exact ⟨hnum, if_pos hkind⟩

theorem scanned_of_mem {sql : Text} {t : Token} (h : t ∈ intLiterals sql) :
    IsNumeral t.lexeme ∧ t.intValue = Lexer.numberValue t.lexeme := by
  obtain ⟨hmem, hkind⟩ := List.mem_filter.mp h
  have hkind : t.kind = .intLiteral := eq_of_beq hkind
  have hspecial {u : Token} (hu : u.kind ≠ .intLiteral) : t ≠ u := fun h => hu (h ▸ hkind)
  rcases lexes_or_stuck (cString sql) (1, 1) with
    ⟨ps, last, p, hlex, hlast⟩ | ⟨ps, gap, c, rest, p, hlex, hgap, hstuck⟩
  · rw [(Lexer.tokenize_of_lexes hlex hlast).1, List.mem_append, List.mem_singleton] at hmem
    exact scanned_of_lexes hlex t (hmem.resolve_right (hspecial nofun)) hkind
  · obtain ⟨bad, eof, htok, ⟨hbad, -⟩, heof, -⟩ := Lexer.tokenize_of_stuck hlex hgap hstuck
    rw [htok, List.mem_append, List.mem_append, List.mem_singleton, List.mem_singleton] at hmem
    have hmem := hmem.resolve_right (hspecial (by rw [heof]; decide))
    have hmem := hmem.resolve_right (hspecial (by rw [hbad]; decide))
    exact scanned_of_lexes hlex t hmem hkind

/-- **A literal keeps its value exactly when that is an `int`.** -/
theorem keepsValue_iff {sql : Text} {t : Token} (h : t ∈ intLiterals sql) :
    KeepsValue t ↔ decimal t.lexeme < 2 ^ 31 := by
  obtain ⟨hnum, hscan⟩ := scanned_of_mem h
  constructor
  · intro hkeeps
    exact (literal_eq_iff hnum).mp hkeeps.converted
  · intro hlt
    exact
      { noOverflow := (scanSteps_iff t.lexeme (by decide)).mpr hlt
        scanned := hscan.trans ((numberValue_eq_iff t.lexeme).mpr hlt)
        converted := (literal_eq_iff hnum).mpr hlt }

/-- **The literals of a text keep their value exactly when it is no statement or they all are at
most 2147483647**; and so does each by itself. -/
theorem literals_keep_value_iff (sql : Text) :
    (∀ t ∈ intLiterals sql, KeepsValue t ↔ decimal t.lexeme ≤ 2147483647) ∧
    (LiteralsKeepValue sql ↔
      (Accepted sql → ∀ t ∈ intLiterals sql, decimal t.lexeme ≤ 2147483647)) := by
  have hone (t : Token) (ht : t ∈ intLiterals sql) :
      KeepsValue t ↔ decimal t.lexeme ≤ 2147483647 :=
    (keepsValue_iff ht).trans ⟨fun h => by omega, fun h => by omega⟩
  refine ⟨hone, fun h hacc t ht => (hone t ht).mp ((h hacc).1 t ht), fun h hacc => ?_⟩
  have hkeeps : ∀ t ∈ intLiterals sql, KeepsValue t := fun t ht => (hone t ht).mpr (h hacc t ht)
  refine ⟨hkeeps, fun t ht u hu => ?_⟩
  rw [(hkeeps t ht).converted, (hkeeps u hu).converted,
    Value.compare_eq_zero_iff (a := .int _) (b := .int _) trivial trivial, Value.int.injEq,
    Nat.cast_inj]

/-- 2³² + 1 is taken for 1. -/
theorem literal_above_int : ¬ ∀ sql : Text, LiteralsKeepValue sql := by
  intro h
  let sql : Text := "select * from t where id = 4294967297".toList
  have hacc : Accepted sql := by
    refine ⟨(parse sql).getD {}, ?_, ?_⟩
    · decide +kernel
    · decide +kernel
  let t : Token :=
    { kind := .intLiteral, lexeme := "4294967297".toList, line := 1, column := 28, intValue := 1 }
  have ht : t ∈ intLiterals sql := by decide +kernel
  have hconv := ((h sql hacc).1 t ht).converted
  exact absurd hconv (by decide +kernel)

end MiniDB.Execution

import MiniDB.Core.Text

/-!
# Core/Numerals — printed numbers, read back

`atoi` inverts `%zu` and `%d` on what fits an `int`, whatever follows the digits
(`atoi_natText_append`, `atoi_intText`).  A number that was cut is another number
(`atoi_prefix_ne`): it has fewer digits, so it is smaller.
-/

namespace MiniDB.Core

/-! ## Digits -/

/-- What ends a run of digits. -/
def EndsDigits (rest : Text) : Prop := rest.takeWhile isDigit = []

theorem digitsValue_append {p rest : Text} (hp : ∀ c ∈ p, isDigit c = true)
    (hrest : EndsDigits rest) : digitsValue (p ++ rest) = Nat.ofDigitChars 10 p 0 := by
  rw [digitsValue, List.takeWhile_append_of_pos hp, hrest, List.append_nil]

theorem digit_lt_ten {c : Char} (h : isDigit c = true) : c.toNat - '0'.toNat < 10 := by
  simp only [isDigit, Bool.and_eq_true, decide_eq_true_eq, Char.le_def, UInt32.le_iff_toNat_le] at h
  have hnine : '9'.val.toNat = '0'.toNat + 9 := rfl
  have hc : c.val.toNat = c.toNat := rfl
  omega

/-- A run of digits is worth less than the power of ten of its length. -/
theorem ofDigitChars_lt {p : Text} (hp : ∀ c ∈ p, isDigit c = true) :
    Nat.ofDigitChars 10 p 0 < 10 ^ p.length := by
  induction p with
  | nil => decide
  | cons c p ih =>
    obtain ⟨hc, hp⟩ := List.forall_mem_cons.mp hp
    have hlt := digit_lt_ten hc
    have hle : 10 ^ p.length * (c.toNat - '0'.toNat) ≤ 10 ^ p.length * 9 :=
      Nat.mul_le_mul_left _ (by omega)
    have hrest := ih hp
    rw [Nat.ofDigitChars_cons, Nat.mul_zero, Nat.zero_add, Nat.ofDigitChars_eq_ofDigitChars_zero,
      List.length_cons, Nat.pow_succ]
    omega

theorem ofDigitChars_natText (n : Nat) : Nat.ofDigitChars 10 (natText n) 0 = n :=
  Nat.ofDigitChars_ten_toDigits

/-! ## Reading numbers -/

theorem isSpace_of_isDigit {c : Char} (h : isDigit c = true) :
    isSpace c = false ∧ c ≠ '-' ∧ c ≠ '+' := by
  refine ⟨?_, ?_, ?_⟩
  · by_contra hs
    simp only [isSpace, Bool.not_eq_false, Bool.or_eq_true, beq_iff_eq] at hs
    rcases hs with ((((rfl | rfl) | rfl) | rfl) | rfl) | rfl <;> revert h <;> decide
  · rintro rfl
    revert h
    decide
  · rintro rfl
    revert h
    decide

/-- Digits are read up to the first other character. -/
theorem atoi_digits {p rest : Text} (hne : p ≠ []) (hp : ∀ c ∈ p, isDigit c = true)
    (hrest : EndsDigits rest) (hsmall : Nat.ofDigitChars 10 p 0 < 2 ^ 31) :
    atoi (p ++ rest) = Nat.ofDigitChars 10 p 0 := by
  have hvalue := digitsValue_append hp hrest
  obtain ⟨c, p, rfl⟩ := List.exists_cons_of_ne_nil hne
  obtain ⟨hspace, hminus, hplus⟩ := isSpace_of_isDigit (hp c List.mem_cons_self)
  have hstrtol : strtol (c :: p ++ rest) = Nat.ofDigitChars 10 (c :: p) 0 := by
    rw [strtol, List.cons_append, List.dropWhile_cons_of_neg (by simp [hspace])]
    split
    · next h => exact absurd (List.cons.inj h).1 hminus
    · next h => exact absurd (List.cons.inj h).1 hplus
    · rw [← List.cons_append, hvalue]
      omega
  rw [atoi, hstrtol, toInt32_of_isInt32 ⟨by omega, by omega⟩]

/-- A minus sign negates the digits behind it. -/
theorem atoi_minus {p : Text} (hp : ∀ c ∈ p, isDigit c = true)
    (hsmall : Nat.ofDigitChars 10 p 0 ≤ 2 ^ 31) :
    atoi ('-' :: p) = -(Nat.ofDigitChars 10 p 0 : Int) := by
  have hvalue := digitsValue_append hp (show EndsDigits [] from rfl)
  rw [List.append_nil] at hvalue
  have hstrtol : strtol ('-' :: p) = -(Nat.ofDigitChars 10 p 0 : Int) := by
    rw [strtol, List.dropWhile_cons_of_neg (by decide)]
    change max (-(digitsValue p : Int)) (-2 ^ 63) = _
    rw [hvalue]
    omega
  rw [atoi, hstrtol, toInt32_of_isInt32 ⟨by omega, by omega⟩]

theorem atoi_natText_append {n : Nat} (hn : n < 2 ^ 31) {rest : Text} (hrest : EndsDigits rest) :
    atoi (natText n ++ rest) = n := by
  rw [atoi_digits (natText_ne_nil n) (fun _ => isDigit_natText) hrest
    (by rwa [ofDigitChars_natText]), ofDigitChars_natText]

/-- **`atoi` inverts `%d`.** -/
theorem atoi_intText {n : Int} (h : IsInt32 n) : atoi (intText n) = n := by
  unfold IsInt32 at h
  rw [intText]
  split
  · rw [atoi_minus (fun _ => isDigit_natText) (by rw [ofDigitChars_natText]; omega),
      ofDigitChars_natText]
    omega
  · have hread := atoi_natText_append (n := n.natAbs) (by omega) (show EndsDigits [] from rfl)
    rw [List.append_nil] at hread
    rw [hread]
    omega

/-- A proper prefix of a printed number is worth less. -/
theorem ofDigitChars_prefix_lt {n : Nat} {p : Text} (hp : p <+: natText n)
    (hlt : p.length < (natText n).length) (hpos : p ≠ [] ∨ 0 < n) :
    Nat.ofDigitChars 10 p 0 < n := by
  have hdigits : ∀ c ∈ p, isDigit c = true := fun c hc => isDigit_natText (hp.subset hc)
  by_cases hnil : p = []
  · rw [hnil]
    exact hpos.resolve_left (absurd hnil)
  · have hlong : ¬ (natText n).length ≤ p.length := by omega
    rw [natText, Nat.length_toDigits_le_iff (by decide) (List.length_pos_iff.mpr hnil)] at hlong
    exact lt_of_lt_of_le (ofDigitChars_lt hdigits) (by omega)

/-- **A number that was cut is another one.** -/
theorem atoi_prefix_ne {n : Int} (h : IsInt32 n) {p : Text} (hp : p <+: intText n) (hne : p ≠ [])
    (hlt : p.length < (intText n).length) : atoi p ≠ n := by
  unfold IsInt32 at h
  rw [intText] at hp hlt
  split at hp
  · next hneg =>
    rw [if_pos hneg] at hlt
    obtain ⟨c, p, rfl⟩ := List.exists_cons_of_ne_nil hne
    obtain ⟨rfl, hdigits⟩ := List.cons_prefix_cons.mp hp
    have hsmaller := ofDigitChars_prefix_lt hdigits (by simpa using hlt) (Or.inr (by omega))
    rw [atoi_minus (fun c hc => isDigit_natText (hdigits.subset hc)) (by omega)]
    omega
  · next hneg =>
    rw [if_neg hneg] at hlt
    have hsmaller := ofDigitChars_prefix_lt hp hlt (Or.inl hne)
    have hread := atoi_digits hne (fun c hc => isDigit_natText (hp.subset hc))
      (show EndsDigits [] from rfl) (by omega)
    rw [List.append_nil] at hread
    rw [hread]
    omega

/-- A printed number is a nonempty run of digits and signs. -/
theorem mem_intText {n : Int} {c : Char} (h : c ∈ intText n) : c = '-' ∨ isDigit c = true := by
  rw [intText] at h
  split at h
  · exact (List.mem_cons.mp h).imp id isDigit_natText
  · exact Or.inr (isDigit_natText h)

theorem intText_ne_nil (n : Int) : intText n ≠ [] := by
  rw [intText]
  split
  · exact List.cons_ne_nil _ _
  · exact natText_ne_nil _

end MiniDB.Core

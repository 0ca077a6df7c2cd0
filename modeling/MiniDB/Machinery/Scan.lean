import Mathlib.Data.List.TakeWhile

/-!
# Machinery/Scan — cutting a stream into lines and fields

A line reader with a fixed buffer (`chunk`) takes what fits, up to and including the end-of-line
symbol (`chunk_line`); a line longer than the buffer is cut (`chunk_long`).  A field reader
(`token`) skips separators and takes the longest run without one, so it never reads an empty field.
-/

namespace Scan

variable {α : Type*}

/-! ## Lines -/

/-- At most `n` symbols of the stream, ending with the first `eol` if one comes in time; and what is
left. -/
def chunk [DecidableEq α] (eol : α) : Nat → List α → List α × List α
  | 0, s => ([], s)
  | _ + 1, [] => ([], [])
  | n + 1, c :: s =>
    if c = eol then ([c], s) else (c :: (chunk eol n s).1, (chunk eol n s).2)

/-- **A line that fits is read whole**, its end-of-line symbol included. -/
theorem chunk_line [DecidableEq α] {eol : α} {n : Nat} {l : List α} (rest : List α)
    (hl : eol ∉ l) (hn : l.length < n) :
    chunk eol n (l ++ eol :: rest) = (l ++ [eol], rest) := by
  induction l generalizing n with
  | nil =>
    obtain ⟨n, rfl⟩ : ∃ m, n = m + 1 := ⟨n - 1, by simp at hn; omega⟩
    simp [chunk]
  | cons c l ih =>
    obtain ⟨n, rfl⟩ : ∃ m, n = m + 1 := ⟨n - 1, by simp at hn; omega⟩
    obtain ⟨hc, hl⟩ := not_or.mp (mt List.mem_cons.mpr hl)
    rw [List.cons_append, chunk, if_neg (Ne.symm hc),
      ih hl (by simpa using hn)]
    rfl

/-- **A line that does not fit is cut at the buffer's end**, and its rest is the next line. -/
theorem chunk_long [DecidableEq α] {eol : α} {n : Nat} {l : List α} (rest : List α)
    (hl : eol ∉ l) (hn : n ≤ l.length) :
    chunk eol n (l ++ rest) = (l.take n, l.drop n ++ rest) := by
  induction n generalizing l with
  | zero => simp [chunk]
  | succ n ih =>
    obtain ⟨c, l, rfl⟩ : ∃ c t, l = c :: t :=
      List.exists_cons_of_length_pos (by omega)
    obtain ⟨hc, hl⟩ := not_or.mp (mt List.mem_cons.mpr hl)
    rw [List.cons_append, chunk, if_neg (Ne.symm hc), ih hl (by simpa using hn)]
    rfl

/-- What is read holds the end-of-line symbol at its end only. -/
theorem chunk_spec [DecidableEq α] (eol : α) (n : Nat) (s : List α) :
    ∃ l, eol ∉ l ∧ (chunk eol n s).1 <+: l ++ [eol] := by
  induction n generalizing s with
  | zero => exact ⟨[], by simp, List.nil_prefix⟩
  | succ n ih =>
    cases s with
    | nil => exact ⟨[], by simp, List.nil_prefix⟩
    | cons c s =>
      rw [chunk]
      split
      · next h => exact ⟨[], by simp, by rw [h]; exact List.prefix_rfl⟩
      · next h =>
        obtain ⟨l, hl, hpre⟩ := ih s
        refine ⟨c :: l, ?_, List.cons_prefix_cons.mpr ⟨rfl, hpre⟩⟩
        rw [List.mem_cons, not_or]
        exact ⟨Ne.symm h, hl⟩

/-- Lines that a reader of `n` symbols at a time reads back: each is read whole, and all but the
last with their end-of-line symbol. -/
def Fit (n : ℕ) (lines : List (List α)) : Prop :=
  (∀ l ∈ lines.dropLast, l.length < n) ∧ ∀ l ∈ lines, l.length ≤ n

theorem fit_of_lt {n : ℕ} {lines : List (List α)} (h : ∀ l ∈ lines, l.length < n) : Fit n lines :=
  ⟨fun l hl => h l (List.dropLast_subset _ hl), fun l hl => (h l hl).le⟩

theorem fit_cons_of_lt {n : ℕ} {l : List α} {lines : List (List α)} (hl : l.length < n) :
    Fit n (l :: lines) ↔ Fit n lines := by
  cases lines with
  | nil => simp [Fit, hl.le]
  | cons m lines =>
    simp only [Fit, List.dropLast_cons_cons, List.forall_mem_cons]
    constructor
    · rintro ⟨⟨-, hlt⟩, -, hle⟩
      exact ⟨hlt, hle⟩
    · rintro ⟨hlt, hle⟩
      exact ⟨⟨hl, hlt⟩, hl.le, hle⟩

/-- **The first line that does not fit with its end** must be the last, and fit without it. -/
theorem fit_iff_of_first {n : ℕ} {pre post : List (List α)} {l : List α}
    (hpre : ∀ x ∈ pre, x.length < n) (hl : ¬ l.length < n) :
    Fit n (pre ++ l :: post) ↔ l.length = n ∧ post = [] := by
  constructor
  · rintro ⟨hlt, hle⟩
    refine ⟨le_antisymm (hle l (by simp)) (Nat.le_of_not_lt hl), ?_⟩
    by_contra hpost
    refine hl (hlt l ?_)
    rw [List.dropLast_append_of_ne_nil (List.cons_ne_nil _ _),
      List.dropLast_cons_of_ne_nil hpost]
    simp
  · rintro ⟨rfl, rfl⟩
    refine ⟨fun x hx => ?_, fun x hx => ?_⟩
    · rw [List.dropLast_append_of_ne_nil (List.cons_ne_nil _ _)] at hx
      exact hpre x (by simpa using hx)
    · rcases List.mem_append.mp hx with hx | hx
      · exact (hpre x hx).le
      · exact List.mem_singleton.mp hx ▸ le_rfl

theorem fit_cons_of_eq {n : ℕ} {l : List α} {lines : List (List α)} (hl : l.length = n) :
    Fit n (l :: lines) ↔ lines = [] := by
  have hfirst : Fit n ([] ++ l :: lines) ↔ l.length = n ∧ lines = [] :=
    fit_iff_of_first nofun hl.not_lt
  exact hfirst.trans (and_iff_right hl)

/-! ## Fields -/

/-- Separators skipped, the longest run free of them, and what follows the separator that ended
it. -/
def token (sep : α → Bool) (s : List α) : Option (List α × List α) :=
  match s.dropWhile sep with
  | [] => none
  | c :: s => some (c :: s.takeWhile (fun x => !sep x), (s.dropWhile fun x => !sep x).tail)

@[simp] theorem token_nil (sep : α → Bool) : token sep [] = none := rfl

/-- **A nonempty clean field is read off, its separator with it.** -/
theorem token_field {sep : α → Bool} {f : List α} {d : α} (hf : f ≠ [])
    (hclean : ∀ c ∈ f, sep c = false) (hd : sep d) (rest : List α) :
    token sep (f ++ d :: rest) = some (f, rest) := by
  obtain ⟨c, f, rfl⟩ := List.exists_cons_of_ne_nil hf
  have hc : sep c = false := hclean c List.mem_cons_self
  have hrun : ∀ x ∈ f, (!sep x) = true := fun x hx => by
    simp [hclean x (List.mem_cons_of_mem c hx)]
  simp [token, hc, List.takeWhile_append_of_pos hrun, List.dropWhile_append_of_pos hrun, hd]

/-- A clean field at the end of the stream is read off whole. -/
theorem token_last {sep : α → Bool} {f : List α} (hf : f ≠ [])
    (hclean : ∀ c ∈ f, sep c = false) : token sep f = some (f, []) := by
  obtain ⟨c, f, rfl⟩ := List.exists_cons_of_ne_nil hf
  have hc : sep c = false := hclean c List.mem_cons_self
  have hrun : ∀ x ∈ f, (!sep x) = true := fun x hx => by
    simp [hclean x (List.mem_cons_of_mem c hx)]
  simp [token, hc, List.takeWhile_eq_self_iff.mpr hrun, List.dropWhile_eq_nil_iff.mpr hrun]

/-- **What is read as a field is nonempty and clean.** -/
theorem token_clean {sep : α → Bool} {s f rest : List α} (h : token sep s = some (f, rest)) :
    f ≠ [] ∧ ∀ c ∈ f, sep c = false := by
  unfold token at h
  split at h
  · cases h
  · next c s' hs =>
    obtain ⟨rfl, -⟩ := Prod.mk.injEq .. ▸ Option.some.inj h
    refine ⟨List.cons_ne_nil _ _, fun x hx => ?_⟩
    rcases List.mem_cons.mp hx with rfl | hx
    · have hne : s.dropWhile sep ≠ [] := by rw [hs]; exact List.cons_ne_nil _ _
      simpa [hs] using List.head_dropWhile_not sep hne
    · simpa using List.mem_takeWhile_imp hx

end Scan

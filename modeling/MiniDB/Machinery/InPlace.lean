import Mathlib.Data.List.Induction

/-!
# Machinery/InPlace — the loops that shift an array in place

An array is a list; a read or a write outside it has no value.  The two loops a sorted or compacted
array needs, written as the machine runs them, are the list operations they are meant to be:
`shiftLeft` closes a gap (`shiftLeft_gap`), `shiftRight` opens one (`shiftRight_gap`).
-/

namespace InPlace

variable {α : Type*}

/-- `xs[i] = x`, undefined outside the array. -/
def put (xs : List α) (i : Nat) (x : α) : Option (List α) :=
  if i < xs.length then some (xs.set i x) else none

/-- `k` rounds of `xs[j] = xs[j + 1]; ++j`. -/
def shiftLeft : Nat → Nat → List α → Option (List α)
  | 0, _, xs => some xs
  | k + 1, j, xs => do
    let x ← xs[j + 1]?
    let xs ← put xs j x
    shiftLeft k (j + 1) xs

/-- `k` rounds of `xs[i] = xs[i - 1]; --i`. -/
def shiftRight : Nat → Nat → List α → Option (List α)
  | 0, _, xs => some xs
  | k + 1, i, xs => do
    let x ← xs[i - 1]?
    let xs ← put xs i x
    shiftRight k (i - 1) xs

/-- A write at the end of a prefix replaces the slot that follows it. -/
theorem put_append (pre post : List α) (y x : α) :
    put (pre ++ y :: post) pre.length x = some (pre ++ x :: post) := by
  simp [put]

/-- A read at the end of a prefix is the slot that follows it. -/
theorem getElem?_append_cons (pre post : List α) (y : α) :
    (pre ++ y :: post)[pre.length]? = some y := by simp

/-- An array split at a position inside it. -/
theorem exists_split {xs : List α} {i : Nat} (h : i < xs.length) :
    ∃ pre y post, xs = pre ++ y :: post ∧ pre.length = i :=
  ⟨xs.take i, xs[i], xs.drop (i + 1),
    by rw [← List.drop_eq_getElem_cons h, List.take_append_drop],
    List.length_take_of_le (Nat.le_of_lt h)⟩

/-! ## Closing a gap -/

/-- The loop at the end of `pre` moves `rest` down by one; the last slot is left over. -/
theorem shiftLeft_append (pre rest : List α) (y : α) :
    ∃ z, shiftLeft rest.length pre.length (pre ++ y :: rest) = some (pre ++ rest ++ [z]) := by
  induction rest generalizing pre y with
  | nil => exact ⟨y, by simp [shiftLeft]⟩
  | cons x rest ih =>
    obtain ⟨z, hz⟩ := ih (pre ++ [x]) x
    have hget : (pre ++ y :: x :: rest)[pre.length + 1]? = some x := by
      simp
    refine ⟨z, ?_⟩
    rw [List.length_cons, shiftLeft, hget]
    simp only [Option.bind_eq_bind, Option.bind_some, put_append]
    simpa using hz

/-- **Shifting down over a slot and popping the last one removes it.** -/
theorem shiftLeft_gap (pre rest : List α) (y : α) :
    (shiftLeft ((pre ++ y :: rest).length - (pre.length + 1)) pre.length (pre ++ y :: rest)).map
      List.dropLast = some (pre ++ rest) := by
  obtain ⟨z, hz⟩ := shiftLeft_append pre rest y
  rw [show (pre ++ y :: rest).length - (pre.length + 1) = rest.length by simp; omega, hz]
  simp

/-! ## Opening a gap -/

/-- The loop stays inside the slots it starts from: a slot behind them is left alone. -/
theorem shiftRight_concat (k i : Nat) (xs : List α) (y : α) (hi : i < xs.length) :
    shiftRight k i (xs ++ [y]) = (shiftRight k i xs).map (· ++ [y]) := by
  induction k generalizing i xs with
  | zero => rfl
  | succ k ih =>
    have hget : (xs ++ [y])[i - 1]? = some xs[i - 1] := by
      rw [List.getElem?_append_left (by omega), List.getElem?_eq_getElem (by omega)]
    have hput : put (xs ++ [y]) i xs[i - 1] = some (xs.set i xs[i - 1] ++ [y]) := by
      rw [put, if_pos (by rw [List.length_append]; omega), List.set_append_left _ _ hi]
    have hset : put xs i xs[i - 1] = some (xs.set i xs[i - 1]) := if_pos hi
    rw [shiftRight, shiftRight, hget, List.getElem?_eq_getElem (show i - 1 < xs.length by omega)]
    simp only [Option.bind_eq_bind, Option.bind_some, hput, hset]
    exact ih (i - 1) _ (by rw [List.length_set]; omega)

/-- The loop from the free last slot moves `rest` up by one; the slot at its start is left over. -/
theorem shiftRight_append (pre rest : List α) (d : α) :
    ∃ z, shiftRight rest.length (pre.length + rest.length) (pre ++ rest ++ [d])
      = some (pre ++ z :: rest) := by
  induction rest using List.reverseRecOn generalizing d with
  | nil => exact ⟨d, by simp [shiftRight]⟩
  | append_singleton rest x ih =>
    obtain ⟨z, hz⟩ := ih x
    have hget : (pre ++ (rest ++ [x]) ++ [d])[pre.length + rest.length]? = some x := by
      simp
    have hput : put (pre ++ (rest ++ [x]) ++ [d]) (pre.length + rest.length + 1) x
        = some (pre ++ rest ++ [x] ++ [x]) := by
      simpa [Nat.add_assoc] using put_append (pre ++ rest ++ [x]) [] d x
    refine ⟨z, ?_⟩
    rw [List.length_append, List.length_singleton, ← Nat.add_assoc, shiftRight,
      Nat.add_sub_cancel, hget]
    simp only [Option.bind_eq_bind, Option.bind_some, hput]
    -- what is left is the loop for `rest`, with the copy of `x` behind it
    rw [shiftRight_concat _ _ _ _ (by simp), hz]
    simp

/-- **Appending a free slot, shifting up to the end of `pre` and writing there inserts.** -/
theorem shiftRight_gap (pre rest : List α) (d x : α) :
    (shiftRight rest.length (pre.length + rest.length) (pre ++ rest ++ [d])).bind
      (fun ys => put ys pre.length x) = some (pre ++ x :: rest) := by
  obtain ⟨z, hz⟩ := shiftRight_append pre rest d
  rw [hz, Option.bind_some, put_append]

end InPlace

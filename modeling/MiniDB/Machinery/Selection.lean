import Mathlib.Data.List.Basic
import Mathlib.Data.List.Nodup

/-!
# Machinery/Selection — a list with some of its entries selected

Where the survivors of a selection come from, and what a selection of one entry looks like.  Every
statement is about a split `pre ++ a :: post`, which is the form in which positions are compared.
-/

namespace Selection

variable {α β : Type*} {p : α → Bool} {xs : List α}

/-- **Where a survivor stood**: behind as many survivors as its new position says. -/
theorem getElem?_filter_split {i : Nat} {a : α} (h : (xs.filter p)[i]? = some a) :
    ∃ pre post, xs = pre ++ a :: post ∧ (pre.filter p).length = i ∧ p a = true := by
  induction xs generalizing i with
  | nil => simp at h
  | cons x xs ih =>
    by_cases hx : p x = true
    · rw [List.filter_cons_of_pos hx] at h
      cases i with
      | zero =>
        obtain rfl : x = a := by simpa using h
        exact ⟨[], xs, rfl, rfl, hx⟩
      | succ i =>
        obtain ⟨pre, post, rfl, hi, ha⟩ := ih (by simpa using h)
        exact ⟨x :: pre, post, rfl, by simp [hx, hi], ha⟩
    · rw [List.filter_cons_of_neg hx] at h
      obtain ⟨pre, post, rfl, hi, ha⟩ := ih h
      exact ⟨x :: pre, post, rfl, by simp [hx, hi], ha⟩

/-- **All entries have a property, or there is a first one without it.** -/
theorem all_or_first (P : α → Prop) [DecidablePred P] (xs : List α) : (∀ x ∈ xs, P x) ∨
    ∃ pre a post, xs = pre ++ a :: post ∧ (∀ x ∈ pre, P x) ∧ ¬ P a := by
  induction xs with
  | nil => exact Or.inl nofun
  | cons x xs ih =>
    by_cases hx : P x
    · rcases ih with h | ⟨pre, a, post, rfl, hpre, ha⟩
      · exact Or.inl (List.forall_mem_cons.mpr ⟨hx, h⟩)
      · exact Or.inr ⟨x :: pre, a, post, rfl, List.forall_mem_cons.mpr ⟨hx, hpre⟩, ha⟩
    · exact Or.inr ⟨[], x, xs, rfl, nofun, hx⟩

/-- **One selected entry**, and none on either side of it. -/
theorem split_of_countP_eq_one (h : xs.countP p = 1) :
    ∃ pre a post, xs = pre ++ a :: post ∧ p a = true ∧ (∀ x ∈ pre, p x = false) ∧
      ∀ x ∈ post, p x = false := by
  induction xs with
  | nil => simp at h
  | cons x xs ih =>
    by_cases hx : p x = true
    · rw [List.countP_cons_of_pos hx] at h
      have hzero : xs.countP p = 0 := by omega
      exact ⟨[], x, xs, rfl, hx, nofun, fun y hy => by
        simpa using List.countP_eq_zero.mp hzero y hy⟩
    · rw [List.countP_cons_of_neg hx] at h
      obtain ⟨pre, a, post, rfl, ha, hpre, hpost⟩ := ih h
      exact ⟨x :: pre, a, post, rfl, ha, List.forall_mem_cons.mpr ⟨by simpa using hx, hpre⟩, hpost⟩

/-- **A search by key finds every entry where it is** exactly when no key occurs twice. -/
theorem findIdx?_key_iff {κ : Type*} [BEq κ] [LawfulBEq κ] {key : α → κ} {xs : List α} :
    (∀ (i : Nat) (x : α), xs[i]? = some x → xs.findIdx? (fun y => key y == key x) = some i) ↔
      (xs.map key).Nodup := by
  rw [List.Nodup, List.pairwise_map, List.pairwise_iff_getElem]
  constructor
  · intro h i j hi hj hij heq
    have hfirst := h i _ (List.getElem?_eq_getElem hi)
    have hsecond := h j _ (List.getElem?_eq_getElem hj)
    rw [← heq, hfirst] at hsecond
    exact Nat.ne_of_lt hij (Option.some.inj hsecond)
  · intro h i x hx
    obtain ⟨hi, rfl⟩ := List.getElem?_eq_some_iff.mp hx
    refine List.findIdx?_eq_some_iff_getElem.mpr ⟨hi, beq_self_eq_true _, fun j hj => ?_⟩
    simpa using h j i (Nat.lt_trans hj hi) hi hj

/-! ## One entry in another's place -/

/-- The entries at the other positions stay, -/
theorem getElem?_replace_ne {pre : List α} {i : Nat} (hi : i ≠ pre.length) (a b : α)
    (post : List α) : (pre ++ b :: post)[i]? = (pre ++ a :: post)[i]? := by
  have hset : (pre ++ a :: post).set pre.length b = pre ++ b :: post := by simp
  rw [← hset, List.getElem?_set_ne hi.symm]

/-- and they are the entries of the rest. -/
theorem mem_rest_of_getElem? {pre post : List α} {a x : α} {i : Nat} (hi : i ≠ pre.length)
    (h : (pre ++ a :: post)[i]? = some x) : x ∈ pre ++ post := by
  rcases Nat.lt_or_gt_of_ne hi with hi | hi
  · rw [List.getElem?_append_left hi] at h
    exact List.mem_append_left _ (List.mem_of_getElem? h)
  · obtain ⟨d, rfl⟩ : ∃ d, i = pre.length + (d + 1) := ⟨i - pre.length - 1, by omega⟩
    rw [List.getElem?_append_right (Nat.le_add_right _ _), Nat.add_sub_cancel_left,
      List.getElem?_cons_succ] at h
    exact List.mem_append_right _ (List.mem_of_getElem? h)

/-- An entry that is put in another's place keeps a list of distinct values distinct if no other
entry has its value. -/
theorem nodup_map_replace {f : α → β} {pre post : List α} {a b : α}
    (h : ((pre ++ a :: post).map f).Nodup) (hb : ∀ x ∈ pre ++ post, f x ≠ f b) :
    ((pre ++ b :: post).map f).Nodup := by
  rw [List.map_append, List.map_cons] at h ⊢
  have hrest : (pre.map f ++ post.map f).Nodup :=
    h.sublist ((List.Sublist.refl _).append (List.sublist_cons_self _ _))
  refine (List.nodup_middle.mpr (List.nodup_cons.mpr ⟨?_, hrest⟩))
  rw [← List.map_append]
  rintro hmem
  obtain ⟨x, hx, he⟩ := List.mem_map.mp hmem
  exact hb x hx he

end Selection

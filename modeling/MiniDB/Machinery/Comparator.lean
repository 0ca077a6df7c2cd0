import Mathlib.Data.Int.Order.Basic
import Mathlib.Data.Set.Lattice
import Mathlib.Order.CompletePartialOrder

/-!
# Machinery/Comparator — comparison functions that order by a key

A comparison function answers with an integer whose sign counts.  It `OrdersBy` a key into a linear
order when the sign says how the keys stand; then it is a total order up to equal keys
(`sign_swap`, `le_trans`).  What compares below, level with and above a pivot always are three
disjoint ranges with nothing outside, and they grow and shrink with the pivot
(`below_subset`, `above_subset`).
-/

namespace Comparator

variable {α β : Type*} [LinearOrder β] {cmp : α → α → ℤ} {key : α → β}

structure OrdersBy (cmp : α → α → ℤ) (key : α → β) : Prop where
  lt_iff : ∀ a b, cmp a b < 0 ↔ key a < key b
  gt_iff : ∀ a b, 0 < cmp a b ↔ key b < key a

/-! ## A total order -/

namespace OrdersBy

variable (h : OrdersBy cmp key)

include h

theorem eq_iff (a b : α) : cmp a b = 0 ↔ key a = key b := by
  rw [eq_iff_le_not_lt, ← not_lt, h.gt_iff, h.lt_iff, not_lt, not_lt]
  exact antisymm_iff

theorem le_iff (a b : α) : cmp a b ≤ 0 ↔ key a ≤ key b := by
  rw [← not_lt, h.gt_iff, not_lt]

/-- **The other way round the sign is the other.** -/
theorem sign_swap (a b : α) : (cmp b a).sign = -(cmp a b).sign := by
  rcases lt_trichotomy (cmp a b) 0 with hlt | heq | hgt
  · rw [Int.sign_eq_neg_one_of_neg hlt,
      Int.sign_eq_one_of_pos ((h.gt_iff b a).mpr ((h.lt_iff a b).mp hlt)), Int.neg_neg]
  · rw [heq, (h.eq_iff b a).mpr ((h.eq_iff a b).mp heq).symm, Int.sign_zero, Int.neg_zero]
  · rw [Int.sign_eq_one_of_pos hgt,
      Int.sign_eq_neg_one_of_neg ((h.lt_iff b a).mpr ((h.gt_iff a b).mp hgt))]

theorem le_trans {a b c : α} (hab : cmp a b ≤ 0) (hbc : cmp b c ≤ 0) : cmp a c ≤ 0 :=
  (h.le_iff a c).mpr (((h.le_iff a b).mp hab).trans ((h.le_iff b c).mp hbc))

end OrdersBy

/-! ## Ranges -/

/-- What compares below a pivot. -/
def below (cmp : α → α → ℤ) (p : α) : Set α := {a | cmp a p < 0}

def level (cmp : α → α → ℤ) (p : α) : Set α := {a | cmp a p = 0}

def above (cmp : α → α → ℤ) (p : α) : Set α := {a | 0 < cmp a p}

theorem disjoint_below_level (p : α) : Disjoint (below cmp p) (level cmp p) :=
  Set.disjoint_left.mpr fun _ hlt heq => hlt.ne heq

theorem disjoint_below_above (p : α) : Disjoint (below cmp p) (above cmp p) :=
  Set.disjoint_left.mpr fun a (hlt : cmp a p < 0) (hgt : 0 < cmp a p) => lt_asymm hlt hgt

theorem disjoint_level_above (p : α) : Disjoint (level cmp p) (above cmp p) :=
  Set.disjoint_left.mpr fun _ heq hgt => hgt.ne' heq

/-- **The ranges leave nothing out.** -/
theorem ranges_univ (p : α) : below cmp p ∪ level cmp p ∪ above cmp p = Set.univ :=
  Set.eq_univ_of_forall fun a => (lt_trichotomy (cmp a p) 0).elim (fun h => .inl (.inl h))
    fun h => h.elim (fun h => .inl (.inr h)) .inr

/-- **A higher pivot has more below it.** -/
theorem OrdersBy.below_subset (h : OrdersBy cmp key) {p q : α} (hpq : cmp p q < 0) :
    below cmp p ⊆ below cmp q := fun a ha =>
  (h.lt_iff a q).mpr (((h.lt_iff a p).mp ha).trans ((h.lt_iff p q).mp hpq))

theorem OrdersBy.above_subset (h : OrdersBy cmp key) {p q : α} (hpq : cmp p q < 0) :
    above cmp q ⊆ above cmp p := fun a ha =>
  (h.gt_iff a p).mpr (((h.lt_iff p q).mp hpq).trans ((h.gt_iff a q).mp ha))

end Comparator

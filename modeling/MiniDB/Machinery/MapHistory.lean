import MiniDB.Machinery.Run
import Mathlib.Data.List.Induction

/-!
# Machinery/MapHistory — the map a history of updates leaves

Each update says of every key whether it binds it, unbinds it, or does not touch it.  A history then
leaves a map, and the map binds a key to a value exactly when the last update that touches the key
binds it to that value (`after_eq_some_iff`).  A machine whose states show a map that changes as the
updates say shows the map of its history (`exec_view`).
-/

namespace MapHistory

open Machine

variable {κ ν α ρ σ : Type*}

/-- What is bound to `k` after some more updates: `effect a k` is the new binding of `k`, or none if
`a` does not touch it. -/
def afterFrom (effect : α → κ → Option (Option ν)) (k : κ) (cur : Option ν) (as : List α) :
    Option ν := as.foldl (fun cur a => (effect a k).getD cur) cur

/-- What is bound to `k` after a history that starts from the empty map. -/
def after (effect : α → κ → Option (Option ν)) (as : List α) (k : κ) : Option ν :=
  afterFrom effect k none as

/-- **A key is bound to what the last update that touches it binds it to.** -/
theorem after_eq_some_iff {effect : α → κ → Option (Option ν)} {as : List α} {k : κ} {v : ν} :
    after effect as k = some v ↔ ∃ before a rest, as = before ++ a :: rest ∧
      effect a k = some (some v) ∧ ∀ b ∈ rest, effect b k = none := by
  have untouched (cur : Option ν) (rest : List α) (h : ∀ b ∈ rest, effect b k = none) :
      afterFrom effect k cur rest = cur := by
    induction rest with
    | nil => rfl
    | cons b rest ih =>
      rw [List.forall_mem_cons] at h
      rw [afterFrom, List.foldl_cons, h.1]
      exact ih h.2
  constructor
  · intro h
    -- from the last update back to the first
    induction as using List.reverseRecOn with
    | nil => cases h
    | append_singleton as a ih =>
      rw [after, afterFrom, List.foldl_append] at h
      cases ha : effect a k with
      | none =>
        rw [List.foldl_cons, ha] at h
        obtain ⟨before, b, rest, rfl, hb, hrest⟩ := ih h
        refine ⟨before, b, rest ++ [a], by simp, hb, ?_⟩
        rw [List.forall_mem_append, List.forall_mem_singleton]
        exact ⟨hrest, ha⟩
      | some cur =>
        rw [List.foldl_cons, ha] at h
        obtain rfl : cur = some v := h
        exact ⟨as, a, [], rfl, ha, nofun⟩
  · rintro ⟨before, a, rest, rfl, ha, hrest⟩
    rw [after, afterFrom, List.foldl_append, List.foldl_cons, ha]
    exact untouched _ rest hrest

/-- **A machine that shows a map shows the map of its history**, if every step is defined and
changes what is shown as the update says. -/
theorem exec_view {step : σ → α → Option (ρ × σ)} {effect : α → κ → Option (Option ν)}
    {view : σ → κ → Option ν} {I : σ → Prop}
    (hstep : ∀ {s} a, I s → ∃ r s', step s a = some (r, s') ∧ I s' ∧
      ∀ k, view s' k = (effect a k).getD (view s k))
    {s : σ} (hs : I s) (as : List α) :
    ∃ rs t, exec step s as = some (rs, t) ∧ I t ∧
      ∀ k, view t k = afterFrom effect k (view s k) as := by
  induction as generalizing s with
  | nil => exact ⟨[], s, rfl, hs, fun _ => rfl⟩
  | cons a as ih =>
    obtain ⟨r, s₁, hfirst, hs₁, hview⟩ := hstep a hs
    obtain ⟨rs, t, hrest, ht, hview'⟩ := ih hs₁
    refine ⟨r :: rs, t, by simp [exec, hfirst, hrest], ht, fun k => ?_⟩
    rw [hview', hview]
    rfl

end MapHistory

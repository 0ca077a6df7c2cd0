import Mathlib.Data.Option.Basic

/-!
# Machinery/Tracks — a computation with faults against a partial one

An implementation stops with a fault where its specification is undefined, and nowhere else: it
`Tracks` the specification.  The rules follow the monad — a sequence tracks a sequence, and a loop
over one list tracks the other (`Tracks.foldlM`) — so that a program written after its
specification is compared with it step by step.
-/

/-- Both return, related values; or the one faults and the other is undefined. -/
inductive Tracks {ε σ τ : Type*} (R : σ → τ → Prop) : Except ε σ → Option τ → Prop
  | ok {s : σ} {t : τ} (h : R s t) : Tracks R (.ok s) (some t)
  | error (e : ε) : Tracks R (.error e) none

namespace Tracks

variable {ε α σ σ' τ τ' : Type} {R : σ → τ → Prop} {S : σ' → τ' → Prop} {c : Except ε σ}
  {a : Option τ}

theorem bind {f : σ → Except ε σ'} {g : τ → Option τ'} (h : Tracks R c a)
    (hf : ∀ s t, R s t → Tracks S (f s) (g t)) : Tracks S (c >>= f) (a >>= g) := by
  cases h with
  | ok hR => exact hf _ _ hR
  | error e => exact .error e

/-- **The loop rule** — what each round relates is related at the end. -/
theorem foldlM {f : σ → α → Except ε σ} {g : τ → α → Option τ}
    (hstep : ∀ s t x, R s t → Tracks R (f s x) (g t x)) (xs : List α) {s : σ} {t : τ} (h : R s t) :
    Tracks R (xs.foldlM f s) (xs.foldlM g t) := by
  induction xs generalizing s t with
  | nil => exact .ok h
  | cons x xs ih =>
    rw [List.foldlM_cons, List.foldlM_cons]
    exact (hstep s t x h).bind fun s t => ih

theorem exists_ok {t : τ} (h : Tracks R c (some t)) : ∃ s, c = .ok s ∧ R s t := by
  cases h with
  | ok hR => exact ⟨_, rfl, hR⟩

theorem exists_error (h : Tracks R c none) : ∃ e, c = .error e := by
  cases h with
  | error e => exact ⟨e, rfl⟩

end Tracks

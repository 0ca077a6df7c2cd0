import Mathlib.Data.List.Forall2

/-!
# Machinery/Run — runs of a partial step function, and what holds along them

A machine is a step `σ → α → Option (ρ × σ)`: an input is answered and moves the state, or the step
is undefined.  `Reaches` collects the states of runs all of whose steps meet a guard; `Run` keeps
the inputs and the answers.  Four rules carry every argument about a run:

* `Reaches.invariant` — what a guarded step preserves holds in every state reached;
* `Run.invariant` — the same along a run whose inputs are listed;
* `exec_simulate` — a step-by-step simulation simulates whole runs, answers included;
* `exec_refine` — so does one by a machine that is defined more often.
-/

namespace Machine

variable {σ α ρ τ κ : Type*}

/-- The states reached from `s₀` by steps that each meet the guard `ok`. -/
inductive Reaches (step : σ → α → Option (ρ × σ)) (ok : σ → α → Prop) (s₀ : σ) : σ → Prop
  | refl : Reaches step ok s₀ s₀
  | step {s s' : σ} {a : α} {r : ρ} :
      Reaches step ok s₀ s → ok s a → step s a = some (r, s') → Reaches step ok s₀ s'

/-- **The invariant rule** — initially true and preserved by each guarded step. -/
theorem Reaches.invariant {step : σ → α → Option (ρ × σ)} {ok : σ → α → Prop} {s₀ s : σ}
    {I : σ → Prop} (h₀ : I s₀)
    (hstep : ∀ {s a r s'}, I s → ok s a → step s a = some (r, s') → I s')
    (h : Reaches step ok s₀ s) : I s := by
  induction h with
  | refl => exact h₀
  | step _ hok hs ih => exact hstep ih hok hs

/-- A run under a stronger guard is a run under a weaker one. -/
theorem Reaches.mono {step : σ → α → Option (ρ × σ)} {ok ok' : σ → α → Prop} {s₀ s : σ}
    (himp : ∀ s a, ok s a → ok' s a) (h : Reaches step ok s₀ s) : Reaches step ok' s₀ s := by
  induction h with
  | refl => exact .refl
  | step _ hok hs ih => exact ih.step (himp _ _ hok) hs

/-- Runs compose. -/
theorem Reaches.trans {step : σ → α → Option (ρ × σ)} {ok : σ → α → Prop} {s₀ s₁ s₂ : σ}
    (h : Reaches step ok s₀ s₁) (h' : Reaches step ok s₁ s₂) : Reaches step ok s₀ s₂ := by
  induction h' with
  | refl => exact h
  | step _ hok hs ih => exact ih.step hok hs

/-- A run with its inputs and its answers, in order. -/
inductive Run (step : σ → α → Option (ρ × σ)) : σ → List α → List ρ → σ → Prop
  | nil (s : σ) : Run step s [] [] s
  | cons {s s' t : σ} {a : α} {r : ρ} {as : List α} {rs : List ρ} :
      step s a = some (r, s') → Run step s' as rs t → Run step s (a :: as) (r :: rs) t

/-- What each step on an admitted input preserves holds at the end of the run. -/
theorem Run.invariant {step : σ → α → Option (ρ × σ)} {I : σ → Prop} {ok : α → Prop}
    {s t : σ} {as : List α} {rs : List ρ}
    (hstep : ∀ {s a r s'}, I s → ok a → step s a = some (r, s') → I s')
    (h : Run step s as rs t) (has : ∀ a ∈ as, ok a) (hs : I s) : I t := by
  induction h with
  | nil => exact hs
  | cons hst _ ih =>
    exact ih (fun a ha => has a (List.mem_cons_of_mem _ ha))
      (hstep hs (has _ List.mem_cons_self) hst)

/-- The states a run passes through are reached. -/
theorem Run.reaches {step : σ → α → Option (ρ × σ)} {ok : σ → α → Prop} {s t : σ} {as : List α}
    {rs : List ρ} (h : Run step s as rs t) (has : ∀ s, ∀ a ∈ as, ok s a) :
    Reaches step ok s t := by
  induction h with
  | nil => exact .refl
  | cons hst _ ih =>
    have hone : Reaches step ok _ _ := Reaches.refl.step (has _ _ List.mem_cons_self) hst
    exact hone.trans (ih fun s a ha => has s a (List.mem_cons_of_mem _ ha))

/-- The run on a list of inputs, computed. -/
def exec (step : σ → α → Option (ρ × σ)) : σ → List α → Option (List ρ × σ)
  | s, [] => some ([], s)
  | s, a :: as => do
    let (r, s) ← step s a
    let (rs, s) ← exec step s as
    return (r :: rs, s)

theorem run_of_exec {step : σ → α → Option (ρ × σ)} {s t : σ} {as : List α} {rs : List ρ}
    (h : exec step s as = some (rs, t)) : Run step s as rs t := by
  induction as generalizing s rs with
  | nil =>
    cases h
    exact .nil _
  | cons a as ih =>
    obtain ⟨⟨r, s'⟩, hstep, h⟩ := Option.bind_eq_some_iff.mp h
    obtain ⟨⟨rs', t'⟩, hrun, h⟩ := Option.bind_eq_some_iff.mp h
    cases h
    exact .cons hstep (ih hrun)

/-- A run of a relational machine: a step may have several outcomes. -/
inductive RelRun (step : τ → α → κ → τ → Prop) : τ → List α → List κ → τ → Prop
  | nil (t : τ) : RelRun step t [] [] t
  | cons {t t' u : τ} {a : α} {q : κ} {as : List α} {qs : List κ} :
      step t a q t' → RelRun step t' as qs u → RelRun step t (a :: as) (q :: qs) u

/-- **The simulation rule** — if each concrete step is defined, and matched by an abstract one that
restores `R` and whose answer agrees, then so is each run, answers pairwise. -/
theorem exec_simulate {step : σ → α → Option (ρ × σ)} {astep : τ → α → κ → τ → Prop}
    {R : σ → τ → Prop} {agree : ρ → κ → Prop} {ok : α → Prop} {s : σ} {u : τ} {as : List α}
    (hstep : ∀ {s u a}, R s u → ok a →
      ∃ r s' q u', step s a = some (r, s') ∧ astep u a q u' ∧ agree r q ∧ R s' u')
    (has : ∀ a ∈ as, ok a) (hR : R s u) :
    ∃ rs t qs u', exec step s as = some (rs, t) ∧ RelRun astep u as qs u' ∧
      List.Forall₂ agree rs qs ∧ R t u' := by
  induction as generalizing s u with
  | nil => exact ⟨[], s, [], u, rfl, .nil u, .nil, hR⟩
  | cons a as ih =>
    obtain ⟨ha, has⟩ := List.forall_mem_cons.mp has
    obtain ⟨r, s₁, q, u₁, hs, hq, hag, hR₁⟩ := hstep hR ha
    obtain ⟨rs, t, qs, u', hexec, hrun, hall, hR'⟩ := ih has hR₁
    refine ⟨r :: rs, t, q :: qs, u', ?_, .cons hq hrun, .cons hag hall, hR'⟩
    simp [exec, hs, hexec]

/-- **The refinement rule** — a run that is defined above is matched below, with the same answers,
if each step is. -/
theorem exec_refine {step : σ → α → Option (ρ × σ)} {astep : τ → α → Option (ρ × τ)}
    {R : σ → τ → Prop} {s : σ} {u u' : τ} {as : List α} {rs : List ρ}
    (hstep : ∀ {s u a r u'}, R s u → astep u a = some (r, u') →
      ∃ s', step s a = some (r, s') ∧ R s' u')
    (hR : R s u) (h : exec astep u as = some (rs, u')) :
    ∃ s', exec step s as = some (rs, s') ∧ R s' u' := by
  induction as generalizing s u rs with
  | nil =>
    cases h
    exact ⟨s, rfl, hR⟩
  | cons a as ih =>
    obtain ⟨⟨r, u₁⟩, hu, h⟩ := Option.bind_eq_some_iff.mp h
    obtain ⟨⟨rs₁, u₂⟩, hrun, h⟩ := Option.bind_eq_some_iff.mp h
    cases h
    obtain ⟨s₁, hs, hR₁⟩ := hstep hR hu
    obtain ⟨s', hexec, hR'⟩ := ih hR₁ hrun
    exact ⟨s', by simp [exec, hs, hexec], hR'⟩

end Machine

import MiniDB.Machinery.Run

/-!
# Machinery/Removal — runs with some of their inputs left out

`Together step R keep s u as` says that the run on `as` from `s` and the run from `u` on the kept
inputs of `as` are both defined, and end in related states.  Runs that go together compose
(`Together.append`), and **`together_of_steps`** is the rule for a whole run with a guard along it:
a kept input is taken on both sides, an input that is left out on one.  Two machines that do the
same under the guard agree along a guarded run (`exec_agree`); with one machine this is the rule of
a guarded run, which is also defined (`exec_along`).  When the answers say which inputs to keep, the
kept ones are a log, and **`exec_log`** is the rule for running it.
-/

namespace Machine

variable {σ α ρ : Type*} {step : σ → α → Option (ρ × σ)} {R R' : σ → σ → Prop}
  {keep : α → Bool} {s t u : σ} {as bs : List α} {rs qs : List ρ}

/-- The run on all the inputs and the run on the kept ones end in related states. -/
def Together (step : σ → α → Option (ρ × σ)) (R : σ → σ → Prop) (keep : α → Bool) (s u : σ)
    (as : List α) : Prop :=
  ∃ rs s' qs u', exec step s as = some (rs, s') ∧ exec step u (as.filter keep) = some (qs, u') ∧
    R s' u'

/-- A run goes on where another has stopped. -/
theorem exec_append (h : exec step s as = some (rs, t)) (h' : exec step t bs = some (qs, u)) :
    exec step s (as ++ bs) = some (rs ++ qs, u) := by
  induction as generalizing s rs with
  | nil =>
    cases h
    exact h'
  | cons a as ih =>
    obtain ⟨⟨r, s₁⟩, hstep, h⟩ := Option.bind_eq_some_iff.mp h
    obtain ⟨⟨rs₁, t₁⟩, hrun, h⟩ := Option.bind_eq_some_iff.mp h
    cases h
    simp [exec, hstep, ih hrun]

theorem together_nil (h : R s u) : Together step R keep s u [] := ⟨[], s, [], u, rfl, rfl, h⟩

theorem Together.append (h : Together step R keep s u as)
    (h' : ∀ {rs t v}, exec step s as = some (rs, t) → R t v → Together step R' keep t v bs) :
    Together step R' keep s u (as ++ bs) := by
  obtain ⟨rs, s₁, qs, u₁, hs, hu, hR⟩ := h
  obtain ⟨rs', s₂, qs', u₂, hs', hu', hR'⟩ := h' hs hR
  refine ⟨rs ++ rs', s₂, qs ++ qs', u₂, exec_append hs hs', ?_, hR'⟩
  rw [List.filter_append]
  exact exec_append hu hu'

/-- One kept input, taken on both sides. -/
theorem together_kept {a : α} {r q : ρ} (hkeep : keep a = true) (hs : step s a = some (r, t))
    {u' : σ} (hu : step u a = some (q, u')) (hR : R t u') : Together step R keep s u [a] :=
  ⟨[r], t, [q], u', by simp [exec, hs], by simp [exec, hkeep, hu], hR⟩

/-- One input that is left out, taken on one side. -/
theorem together_removed {a : α} {r : ρ} (hkeep : keep a = false) (hs : step s a = some (r, t))
    (hR : R t u) : Together step R keep s u [a] :=
  ⟨[r], t, [], u, by simp [exec, hs], by simp [exec, hkeep], hR⟩

/-- Each input, at the state it meets in the run, passes the guard. -/
def Along (step : σ → α → Option (ρ × σ)) (ok : σ → α → Prop) (s : σ) (as : List α) : Prop :=
  ∀ ⦃pre a post rs t⦄, as = pre ++ a :: post → exec step s pre = some (rs, t) → ok t a

theorem Along.tail {ok : σ → α → Prop} {a : α} {rs : List ρ} (h : Along step ok s (a :: as))
    (hs : exec step s [a] = some (rs, t)) : Along step ok t as := by
  rintro pre b post qs u rfl hrun
  exact @h (a :: pre) b post _ u rfl (exec_append hs hrun)

/-- **The removal rule** — when kept inputs restore the relation on both sides, and inputs that are
left out restore it on one, the runs go together. -/
theorem together_of_steps {ok : σ → α → Prop}
    (hstep : ∀ {s u a}, R s u → ok s a → Together step R keep s u [a])
    (has : Along step ok s as) (h : R s u) : Together step R keep s u as := by
  induction as generalizing s u with
  | nil => exact together_nil h
  | cons a as ih =>
    have hone : Together step R keep s u [a] := hstep h (@has [] a as [] s rfl rfl)
    exact hone.append fun hs hR => ih (has.tail hs) hR

/-- Along a run, computed. -/
def alongAll (step : σ → α → Option (ρ × σ)) (ok : σ → α → Bool) : σ → List α → Bool
  | _, [] => true
  | s, a :: as => ok s a && (step s a).all fun next => alongAll step ok next.2 as

theorem alongAll_iff {ok : σ → α → Prop} [∀ s a, Decidable (ok s a)] :
    alongAll step (fun s a => decide (ok s a)) s as = true ↔ Along step ok s as := by
  induction as generalizing s with
  | nil => simp [alongAll, Along]
  | cons a as ih =>
    simp only [alongAll, Bool.and_eq_true, decide_eq_true_eq, Option.all_eq_true, ih]
    constructor
    · rintro ⟨hok, hrest⟩ pre b post rs t heq hexec
      rcases List.cons_eq_append_iff.mp heq with ⟨rfl, hcons⟩ | ⟨pre, rfl, rfl⟩
      · cases hexec
        cases hcons
        exact hok
      · obtain ⟨next, hstep, hexec⟩ := Option.bind_eq_some_iff.mp hexec
        obtain ⟨last, hlast, hexec⟩ := Option.bind_eq_some_iff.mp hexec
        cases hexec
        exact hrest next hstep rfl hlast
    · intro h
      refine ⟨@h [] a as [] s rfl rfl, fun next hstep => ?_⟩
      have hone : exec step s [a] = some ([next.1], next.2) := by simp [exec, hstep]
      exact h.tail hone

instance {ok : σ → α → Prop} [∀ s a, Decidable (ok s a)] : Decidable (Along step ok s as) :=
  decidable_of_iff _ alongAll_iff

/-- **The agreement rule** — when two machines do the same on each input that passes the guard, they
do the same along a guarded run. -/
theorem exec_agree {step' : σ → α → Option (ρ × σ)} {I : σ → Prop} {ok : σ → α → Prop}
    (hstep : ∀ {s a}, I s → ok s a →
      ∃ r s', step s a = some (r, s') ∧ step' s a = some (r, s') ∧ I s')
    (has : Along step ok s as) (h : I s) :
    ∃ rs t, exec step s as = some (rs, t) ∧ exec step' s as = some (rs, t) ∧ I t := by
  induction as generalizing s with
  | nil => exact ⟨[], s, rfl, rfl, h⟩
  | cons a as ih =>
    obtain ⟨r, s₁, hs, hs', h₁⟩ := hstep h (@has [] a as [] s rfl rfl)
    have hone : exec step s [a] = some ([r], s₁) := by simp [exec, hs]
    obtain ⟨rs, t, hexec, hexec', ht⟩ := ih (has.tail hone) h₁
    exact ⟨r :: rs, t, by simp [exec, hs, hexec], by simp [exec, hs', hexec'], ht⟩

/-- **The rule of a guarded run** — when a state meets the invariant, a guarded step from it is
defined and restores it. -/
theorem exec_along {I : σ → Prop} {ok : σ → α → Prop}
    (hstep : ∀ {s a}, I s → ok s a → ∃ r s', step s a = some (r, s') ∧ I s')
    (has : Along step ok s as) (h : I s) : ∃ rs t, exec step s as = some (rs, t) ∧ I t := by
  have hboth : ∃ rs t, exec step s as = some (rs, t) ∧ exec step s as = some (rs, t) ∧ I t := by
    refine exec_agree (fun hs hok => ?_) has h
    obtain ⟨r, s', hone, h'⟩ := hstep hs hok
    exact ⟨r, s', hone, hone, h'⟩
  obtain ⟨rs, t, hexec, -, ht⟩ := hboth
  exact ⟨rs, t, hexec, ht⟩

/-! ## Logs -/

/-- What is kept of a run: inputs with their answers. -/
def logOf (keep : α → ρ → Bool) (as : List α) (rs : List ρ) : List (α × ρ) :=
  (as.zip rs).filter fun p => keep p.1 p.2

@[simp] theorem logOf_cons (keep : α → ρ → Bool) (a : α) (as : List α) (r : ρ) (rs : List ρ) :
    logOf keep (a :: as) (r :: rs)
      = if keep a r then (a, r) :: logOf keep as rs else logOf keep as rs :=
  List.filter_cons

/-- **The log rule** — when an input that is kept is taken by related states with one answer, and
one that is not kept leaves the states related, the log of a run is run with the answers in it. -/
theorem exec_log {keep : α → ρ → Bool} {ok : α → Prop}
    (hkept : ∀ {s u a r s'}, R s u → ok a → step s a = some (r, s') → keep a r = true →
      ∃ u', step u a = some (r, u') ∧ R s' u')
    (hleft : ∀ {s u a r s'}, R s u → ok a → step s a = some (r, s') → keep a r = false → R s' u)
    (has : ∀ a ∈ as, ok a) (h : R s u) (hexec : exec step s as = some (rs, t)) :
    ∃ v, exec step u ((logOf keep as rs).map Prod.fst)
      = some ((logOf keep as rs).map Prod.snd, v) ∧ R t v := by
  induction as generalizing s u rs with
  | nil =>
    cases hexec
    exact ⟨u, rfl, h⟩
  | cons a as ih =>
    obtain ⟨⟨r, s₁⟩, hs, hexec⟩ := Option.bind_eq_some_iff.mp hexec
    obtain ⟨⟨rs, t₁⟩, hrun, hexec⟩ := Option.bind_eq_some_iff.mp hexec
    cases hexec
    obtain ⟨ha, has⟩ := List.forall_mem_cons.mp has
    cases hkeep : keep a r with
    | true =>
      obtain ⟨u₁, hu, h₁⟩ := hkept h ha hs hkeep
      obtain ⟨v, hv, ht⟩ := ih has h₁ hrun
      refine ⟨v, ?_, ht⟩
      simp [exec, hkeep, hu, hv]
    | false =>
      obtain ⟨v, hv, ht⟩ := ih has (hleft h ha hs hkeep) hrun
      exact ⟨v, by simpa [hkeep] using hv, ht⟩

/-- The answers to a run, one after the other. -/
theorem exec_cons_answers (s : σ) (a : α) (as : List α) :
    (exec step s (a :: as)).map Prod.fst
      = (step s a).bind fun p => ((exec step p.2 as).map Prod.fst).map (p.1 :: ·) := by
  rw [exec]
  cases step s a with
  | none => rfl
  | some p =>
    simp only [Option.bind_eq_bind, Option.bind_some]
    cases exec step p.2 as <;> rfl

/-- Related states answer every run alike, if they answer each input alike and stay related. -/
theorem exec_answers
    (hstep : ∀ {s u a}, R s u →
      Option.Rel (fun p q => p.1 = q.1 ∧ R p.2 q.2) (step s a) (step u a))
    (h : R s u) (as : List α) :
    (exec step s as).map Prod.fst = (exec step u as).map Prod.fst := by
  induction as generalizing s u with
  | nil => rfl
  | cons a as ih =>
    have hone := hstep (a := a) h
    rw [exec_cons_answers, exec_cons_answers]
    generalize step s a = out at hone
    generalize step u a = out' at hone
    cases hone with
    | none => rfl
    | some hpq => rw [Option.bind_some, Option.bind_some, hpq.1, ih hpq.2]

end Machine

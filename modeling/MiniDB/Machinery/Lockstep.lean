import MiniDB.Machinery.Reader
import Mathlib.Data.List.Forall2

/-!
# Machinery/Lockstep — two runs of a reader on alike streams

Two streams are alike when their tokens are, one by one.  Two readers run in lockstep when on alike
streams they do the same: both stop, with values as related and alike streams left, or both exit,
with one error.  The rules follow the readers: a sequence, one token of lookahead, a loop over
separated items.
-/

namespace Reader

variable {τ ε α β : Type}

/-- What two runs in lockstep return. -/
inductive Outcome.Alike (R : τ → τ → Prop) (Q : α → α → Prop) :
    Outcome τ ε α → Outcome τ ε α → Prop
  | ok {a a' : α} {rest rest' : List τ} (ha : Q a a') (hrest : List.Forall₂ R rest rest') :
      Outcome.Alike R Q (.ok a rest) (.ok a' rest')
  | error (e : ε) : Outcome.Alike R Q (.error e) (.error e)
  | outOfRange : Outcome.Alike R Q .outOfRange .outOfRange

/-- On alike streams the readers do the same, with values as related. -/
def Lockstep (R : τ → τ → Prop) (Q : α → α → Prop) (p p' : Reader τ ε α) : Prop :=
  ∀ ⦃n ts ts'⦄, List.Forall₂ R ts ts' → Outcome.Alike R Q (p n ts) (p' n ts')

section Rules

variable {R : τ → τ → Prop} {Q : α → α → Prop} {S : β → β → Prop} {p p' : Reader τ ε α}
  {f f' : α → Reader τ ε β} {q : τ → Bool} {yes yes' : τ → Reader τ ε α}
  {no no' : Reader τ ε α}

theorem lockstep_pure {a a' : α} (h : Q a a') :
    Lockstep R Q (pure a : Reader τ ε α) (pure a') := fun _ _ _ hts => .ok h hts

theorem lockstep_throw (e : ε) : Lockstep R Q (throw e : Reader τ ε α) (throw e) :=
  fun _ _ _ _ => .error e

theorem Lockstep.bind (hp : Lockstep R Q p p') (hf : ∀ a a', Q a a' → Lockstep R S (f a) (f' a')) :
    Lockstep R S (p >>= f) (p' >>= f') := by
  intro n ts ts' hts
  have h := hp hts (n := n)
  rw [bind_apply, bind_apply]
  generalize p n ts = o at h
  generalize p' n ts' = o' at h
  cases h with
  | ok ha hrest => exact hf _ _ ha hrest
  | error e => exact .error e
  | outOfRange => exact .outOfRange

theorem Lockstep.imp {Q' : α → α → Prop} (h : Lockstep R Q p p') (hQ : ∀ a a', Q a a' → Q' a a') :
    Lockstep R Q' p p' := by
  intro n ts ts' hts
  have ho := h hts (n := n)
  generalize p n ts = o at ho ⊢
  generalize p' n ts' = o' at ho ⊢
  cases ho with
  | ok ha hrest => exact .ok (hQ _ _ ha) hrest
  | error e => exact .error e
  | outOfRange => exact .outOfRange

/-- A first part that reads the same value. -/
theorem Lockstep.bind_same (hp : Lockstep R (· = ·) p p')
    (hf : ∀ a, Lockstep R S (f a) (f' a)) : Lockstep R S (p >>= f) (p' >>= f') :=
  hp.bind fun a _ ha => ha ▸ hf a

/-- One token of lookahead, which the readers judge alike. -/
theorem lockstep_branch (hq : ∀ t t', R t t' → q t = q t')
    (hy : ∀ t t', R t t' → q t = true → Lockstep R Q (yes t) (yes' t'))
    (hn : Lockstep R Q no no') : Lockstep R Q (branch q yes no) (branch q yes' no') := by
  intro n ts ts' hts
  cases hts with
  | nil => exact .outOfRange
  | @cons t t' ts ts' ht hts =>
    rw [branch, branch, ← hq t t' ht]
    split
    · next h => exact hy t t' ht h hts
    · exact hn (.cons ht hts)

theorem lockstep_guardNext (hq : ∀ t t', R t t' → q t = q t') (hbad : Lockstep R Q no no')
    (hgo : Lockstep R Q p p') : Lockstep R Q (guardNext q no p) (guardNext q no' p') := by
  intro n ts ts' hts
  cases hts with
  | nil => exact .outOfRange
  | @cons t t' ts ts' ht hts =>
    rw [guardNext, guardNext, ← hq t t' ht]
    split
    · exact hbad (.cons ht hts)
    · exact hgo (.cons ht hts)

theorem Lockstep.ite {c c' : Prop} [Decidable c] [Decidable c'] (hc : c ↔ c')
    (hy : Lockstep R Q p p') (hn : Lockstep R Q no no') :
    Lockstep R Q (if c then p else no) (if c' then p' else no') := by
  by_cases h : c
  · rwa [if_pos h, if_pos (hc.mp h)]
  · rwa [if_neg h, if_neg (mt hc.mpr h)]

/-- Every round of a loop over separated items is run in lockstep. -/
theorem lockstep_itemsLoop {sep close : τ → Bool} {bad bad' : Reader τ ε (List α)}
    (hs : ∀ t t', R t t' → sep t = sep t') (hc : ∀ t t', R t t' → close t = close t')
    (hp : Lockstep R Q p p') (hbad : Lockstep R (List.Forall₂ Q) bad bad') (k : Nat) :
    Lockstep R (List.Forall₂ Q) (itemsLoop p sep close bad k) (itemsLoop p' sep close bad' k) := by
  induction k with
  | zero => exact fun _ _ _ _ => .outOfRange
  | succ k ih =>
    refine hp.bind fun a a' ha => lockstep_branch hc (fun _ _ _ _ => ?_) ?_
    · exact lockstep_pure (.cons ha .nil)
    · refine lockstep_branch hs (fun _ _ _ _ => ih.bind fun as as' has => ?_) hbad
      exact lockstep_pure (.cons ha has)

end Rules

end Reader

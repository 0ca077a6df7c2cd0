import MiniDB.Machinery.Lang

/-!
# Machinery/Reader — deterministic readers, and where they stop

A `Reader` is a recursive-descent parser: it takes tokens off the front of a stream, one token of
lookahead, with an early exit and a bound on the rounds of its loops.  A reader `Follows` a language
when it takes only words of it and its answer depends on nothing behind the next token; it is
`Rigid` when it takes every word whatever follows, and `Exact` when it takes every word that the
next token does not continue.

`Commits` and `Reads` put the first with the second and with the third; both compose along `bind`,
along one token of lookahead and along a loop over separated items.

**`Reads.accepts_iff`**: a reader of a language stops after a word precisely when the next token
cannot continue that word.
-/

/-! ## Readers -/

namespace Reader

/-- What a reader returns: a value and the rest of the stream, an early exit, or a read past the
end. -/
inductive Outcome (τ ε α : Type) where
  | ok (value : α) (rest : List τ)
  | error (e : ε)
  | outOfRange
  deriving DecidableEq

end Reader

/-- A reader of a token stream; the number bounds the rounds of any one loop. -/
def Reader (τ ε α : Type) : Type := Nat → List τ → Reader.Outcome τ ε α

namespace Reader

variable {τ ε α β : Type}

instance : Monad (Reader τ ε) where
  pure a := fun _ ts => .ok a ts
  bind p f := fun n ts =>
    match p n ts with
    | .ok a rest => f a n rest
    | .error e => .error e
    | .outOfRange => .outOfRange

/-- The next token, left in place. -/
def peek : Reader τ ε τ
  | _, [] => .outOfRange
  | _, t :: ts => .ok t (t :: ts)

/-- The next token, taken. -/
def advance : Reader τ ε τ
  | _, [] => .outOfRange
  | _, t :: ts => .ok t ts

/-- An early exit. -/
def throw (e : ε) : Reader τ ε α := fun _ _ => .error e

/-- One token of lookahead: a token of the kind is taken, any other is left to `no`. -/
def branch (p : τ → Bool) (yes : τ → Reader τ ε α) (no : Reader τ ε α) : Reader τ ε α
  | _, [] => .outOfRange
  | n, t :: ts => if p t then yes t n ts else no n (t :: ts)

/-- One token of lookahead that is left in place: a token of the kind leads to `bad`. -/
def guardNext (p : τ → Bool) (bad go : Reader τ ε α) : Reader τ ε α
  | _, [] => .outOfRange
  | n, t :: ts => if p t then bad n (t :: ts) else go n (t :: ts)

@[simp] theorem pure_apply (a : α) (n : Nat) (ts : List τ) :
    (pure a : Reader τ ε α) n ts = .ok a ts := rfl

theorem bind_apply (p : Reader τ ε α) (f : α → Reader τ ε β) (n : Nat) (ts : List τ) :
    (p >>= f) n ts = match p n ts with
      | .ok a rest => f a n rest
      | .error e => .error e
      | .outOfRange => .outOfRange := rfl

@[simp] theorem peek_cons (n : Nat) (t : τ) (ts : List τ) :
    (peek : Reader τ ε τ) n (t :: ts) = .ok t (t :: ts) := rfl

@[simp] theorem advance_cons (n : Nat) (t : τ) (ts : List τ) :
    (advance : Reader τ ε τ) n (t :: ts) = .ok t ts := rfl

@[simp] theorem throw_apply (e : ε) (n : Nat) (ts : List τ) :
    (throw e : Reader τ ε α) n ts = .error e := rfl

/-- **A sequence succeeds when both parts do.** -/
theorem bind_eq_ok {p : Reader τ ε α} {f : α → Reader τ ε β} {n : Nat} {ts rest : List τ} {b : β} :
    (p >>= f) n ts = .ok b rest ↔ ∃ a mid, p n ts = .ok a mid ∧ f a n mid = .ok b rest := by
  rw [bind_apply]
  constructor
  · intro h
    split at h
    · next a mid hp => exact ⟨a, mid, hp, h⟩
    · cases h
    · cases h
  · rintro ⟨a, mid, hp, hf⟩
    rw [hp]
    exact hf

theorem bind_of_ok {p : Reader τ ε α} (f : α → Reader τ ε β) {n : Nat} {ts mid : List τ} {a : α}
    (h : p n ts = .ok a mid) : (p >>= f) n ts = f a n mid := by
  rw [bind_apply, h]

instance : LawfulMonad (Reader τ ε) := LawfulMonad.mk' _
  (fun p => by
    funext n ts
    change (p >>= fun a => pure a) n ts = p n ts
    rw [bind_apply]
    cases p n ts <;> rfl)
  (fun _ _ => rfl)
  (fun p f g => by
    funext n ts
    simp only [bind_apply]
    cases p n ts <;> rfl)

@[simp] theorem throw_bind (e : ε) (f : α → Reader τ ε β) : (throw e >>= f) = throw e := rfl

theorem branch_bind (p : τ → Bool) (yes : τ → Reader τ ε α) (no : Reader τ ε α)
    (f : α → Reader τ ε β) :
    (branch p yes no >>= f) = branch p (fun t => yes t >>= f) (no >>= f) := by
  funext n ts
  rw [bind_apply]
  cases ts with
  | nil => rfl
  | cons t ts =>
    by_cases h : p t = true
    · simp only [branch, h, if_true, bind_apply]
    · simp only [branch, h, bind_apply]
      rfl

/-! ## Following a language -/

/-- A reader takes words of `L` only, and what it does depends on the stream up to the token after
the word — a larger loop bound included. -/
structure Follows (p : Reader τ ε α) (L : Lang τ α) : Prop where
  sound : ∀ {n ts a rest}, p n ts = .ok a rest → ∃ w, ts = w ++ rest ∧ L w a
  stable : ∀ {n w a t u}, p n (w ++ t :: u) = .ok a (t :: u) →
    ∀ m, n ≤ m → ∀ u', p m (w ++ t :: u') = .ok a (t :: u')

/-- Every word is taken, whatever follows it. -/
def Rigid (p : Reader τ ε α) (L : Lang τ α) : Prop :=
  ∀ ⦃w a⦄, L w a → ∀ ⦃n⦄, w.length ≤ n → ∀ t u, p n (w ++ t :: u) = .ok a (t :: u)

/-- Every word is taken unless the token after it continues it. -/
def Exact (p : Reader τ ε α) (L : Lang τ α) : Prop :=
  ∀ ⦃w a⦄, L w a → ∀ ⦃n⦄, w.length ≤ n → ∀ t u,
    p n (w ++ t :: u) = .ok a (t :: u) ∨ L.Viable w t

theorem Rigid.exact {p : Reader τ ε α} {L : Lang τ α} (h : Rigid p L) : Exact p L :=
  fun _ _ hw _ hn t u => Or.inl (h hw hn t u)

theorem Follows.of_imp {p : Reader τ ε α} {L L' : Lang τ α} (h : Follows p L)
    (himp : ∀ {w a}, L w a → L' w a) : Follows p L' where
  sound hp := by
    obtain ⟨w, rfl, hw⟩ := h.sound hp
    exact ⟨w, rfl, himp hw⟩
  stable := h.stable

theorem follows_pure (a : α) : Follows (pure a : Reader τ ε α) (pure a) where
  sound h := by
    cases h
    exact ⟨[], rfl, rfl, rfl⟩
  stable h m _ u' := by
    rw [pure_apply] at h ⊢
    obtain ⟨rfl, hw⟩ := Outcome.ok.injEq .. ▸ h
    obtain rfl : _ = [] := List.self_eq_append_left.mp hw.symm
    rfl

theorem rigid_pure (a : α) : Rigid (pure a : Reader τ ε α) (pure a) := by
  rintro w b ⟨rfl, rfl⟩ n _ t u
  rfl

/-- **Sequencing readers follows the sequenced language.** -/
theorem Follows.bind {p : Reader τ ε α} {L : Lang τ α} {f : α → Reader τ ε β}
    {M : α → Lang τ β} (hp : Follows p L) (hf : ∀ a, Follows (f a) (M a)) :
    Follows (p >>= f) (L >>= M) where
  sound h := by
    obtain ⟨a, mid, h₁, h₂⟩ := bind_eq_ok.mp h
    obtain ⟨w₁, rfl, hw₁⟩ := hp.sound h₁
    obtain ⟨w₂, rfl, hw₂⟩ := (hf a).sound h₂
    exact ⟨w₁ ++ w₂, (List.append_assoc ..).symm, w₁, w₂, a, rfl, hw₁, hw₂⟩
  stable {n w b t u} h m hm u' := by
    obtain ⟨a, mid, h₁, h₂⟩ := bind_eq_ok.mp h
    obtain ⟨w₁, hw₁, -⟩ := hp.sound h₁
    obtain ⟨w₂, rfl, -⟩ := (hf a).sound h₂
    obtain rfl : w = w₁ ++ w₂ := by
      rw [← List.append_assoc] at hw₁
      exact List.append_cancel_right hw₁
    have h₂' := (hf a).stable h₂ m hm u'
    -- the token after the first word is the head of the second, or `t` itself
    cases w₂ with
    | nil =>
      rw [List.append_nil, List.nil_append] at *
      exact bind_eq_ok.mpr ⟨a, t :: u', hp.stable h₁ m hm u', h₂'⟩
    | cons c w₂ =>
      rw [List.append_assoc, List.cons_append] at *
      exact bind_eq_ok.mpr ⟨a, c :: (w₂ ++ t :: u'), hp.stable h₁ m hm _, h₂'⟩

/-- **A rigid reader in front hands every word on.** -/
theorem Rigid.bind {p : Reader τ ε α} {L : Lang τ α} {f : α → Reader τ ε β} {M : α → Lang τ β}
    (hp : Rigid p L) (hf : ∀ a, Rigid (f a) (M a)) : Rigid (p >>= f) (L >>= M) := by
  rintro w b ⟨w₁, w₂, a, rfl, hw₁, hw₂⟩ n hn t u
  rw [List.length_append] at hn
  have h₂ := hf a hw₂ (n := n) (by omega) t u
  rw [List.append_assoc]
  cases w₂ with
  | nil => exact bind_eq_ok.mpr ⟨a, t :: u, hp hw₁ (by omega) t u, h₂⟩
  | cons c w₂ => exact bind_eq_ok.mpr ⟨a, _, hp hw₁ (by omega) c (w₂ ++ t :: u), h₂⟩

/-- …and leaves the question of what continues it to the rest. -/
theorem Rigid.bind_exact {p : Reader τ ε α} {L : Lang τ α} {f : α → Reader τ ε β}
    {M : α → Lang τ β} (hp : Rigid p L) (hf : ∀ a, Exact (f a) (M a)) :
    Exact (p >>= f) (L >>= M) := by
  rintro w b ⟨w₁, w₂, a, rfl, hw₁, hw₂⟩ n hn t u
  rw [List.length_append] at hn
  rw [List.append_assoc]
  rcases hf a hw₂ (n := n) (by omega) t u with h₂ | ⟨v, b', hv⟩
  · refine Or.inl ?_
    cases w₂ with
    | nil => exact bind_eq_ok.mpr ⟨a, t :: u, hp hw₁ (by omega) t u, h₂⟩
    | cons c w₂ => exact bind_eq_ok.mpr ⟨a, _, hp hw₁ (by omega) c (w₂ ++ t :: u), h₂⟩
  · exact Or.inr ⟨v, b', w₁, w₂ ++ t :: v, a, by simp, hw₁, hv⟩

/-- **An optional part in front**: exact, if no word of the rest starts by continuing it, and every
word of it can be completed. -/
theorem Exact.bind {p : Reader τ ε α} {L : Lang τ α} {f : α → Reader τ ε β} {M : α → Lang τ β}
    (hp : Exact p L) (hf : ∀ a, Exact (f a) (M a))
    (hsep : ∀ {w a c v b}, L w a → M a (c :: v) b → ¬ L.Viable w c)
    (htot : ∀ {a b a'}, M a [] b → ∃ v b', M a' v b') : Exact (p >>= f) (L >>= M) := by
  rintro w b ⟨w₁, w₂, a, rfl, hw₁, hw₂⟩ n hn t u
  rw [List.length_append] at hn
  rw [List.append_assoc]
  cases w₂ with
  | nil =>
    rcases hp hw₁ (n := n) (by omega) t u with h₁ | ⟨v, a', hv⟩
    · rcases hf a hw₂ (n := n) (by omega) t u with h₂ | ⟨v, b', hv⟩
      · exact Or.inl (bind_eq_ok.mpr ⟨a, t :: u, h₁, h₂⟩)
      · exact Or.inr ⟨v, b', w₁, t :: v, a, by simp, hw₁, hv⟩
    · obtain ⟨v', b', hv'⟩ := htot hw₂
      exact Or.inr ⟨v ++ v', b', w₁ ++ t :: v, v', a', by simp, hv, hv'⟩
  | cons c w₂ =>
    have h₁ := (hp hw₁ (n := n) (by omega) c (w₂ ++ t :: u)).resolve_right (hsep hw₁ hw₂)
    rcases hf a hw₂ (n := n) (by simp at hn ⊢; omega) t u with h₂ | ⟨v, b', hv⟩
    · exact Or.inl (bind_eq_ok.mpr ⟨a, _, h₁, h₂⟩)
    · exact Or.inr ⟨v, b', w₁, c :: w₂ ++ t :: v, a, by simp, hw₁, hv⟩

/-! ## One token of lookahead -/

section Branch

variable {p : τ → Bool} {yes : τ → Reader τ ε α} {no : Reader τ ε α} {Y : τ → Lang τ α}
  {N : Lang τ α}

/-- A branch follows the alternative of its two sides. -/
theorem Follows.branch (hy : ∀ t, Follows (yes t) (Y t)) (hn : Follows no N) :
    Follows (Reader.branch p yes no) (.alt (Lang.one (p · = true) >>= Y) N) where
  sound {n ts a rest} h := by
    cases ts with
    | nil => cases h
    | cons t ts =>
      rw [Reader.branch] at h
      split at h
      · next ht =>
        obtain ⟨w, rfl, hw⟩ := (hy t).sound h
        exact ⟨t :: w, rfl, Or.inl ⟨[t], w, t, rfl, ⟨rfl, ht⟩, hw⟩⟩
      · obtain ⟨w, hw, hN⟩ := hn.sound h
        exact ⟨w, hw, Or.inr hN⟩
  stable {n w a t u} h m hm u' := by
    cases w with
    | nil =>
      rw [List.nil_append, Reader.branch] at *
      by_cases ht : p t = true
      · -- `yes` would have to give the token back
        rw [if_pos ht] at h
        obtain ⟨w, hw, -⟩ := (hy t).sound h
        have hlen := congrArg List.length hw
        simp at hlen
        omega
      · rw [if_neg ht] at h ⊢
        exact hn.stable (w := []) h m hm u'
    | cons c w =>
      rw [List.cons_append, Reader.branch] at *
      by_cases hc : p c = true
      · rw [if_pos hc] at h ⊢
        exact (hy c).stable h m hm u'
      · rw [if_neg hc] at h ⊢
        exact hn.stable (w := c :: w) h m hm u'

/-- A branch is exact when its second side never starts with the token, and a first side it could
still take completes some word. -/
theorem Exact.branch (hy : ∀ t, Exact (yes t) (Y t)) (hn : Exact no N)
    (hstart : ∀ {t v a}, N (t :: v) a → p t = false)
    (hopen : ∀ {a t}, N [] a → p t = true → ∃ v b, Y t v b) :
    Exact (Reader.branch p yes no) (.alt (Lang.one (p · = true) >>= Y) N) := by
  rintro w a hw n hlen t u
  rcases hw with ⟨w₁, w₂, c, rfl, ⟨rfl, hc⟩, hw₂⟩ | hN
  · simp only [List.cons_append, List.nil_append, List.length_cons] at hlen ⊢
    rcases hy c hw₂ (n := n) (by omega) t u with h | ⟨v, b, hv⟩
    · exact Or.inl (by rw [Reader.branch, if_pos hc, h])
    · exact Or.inr ⟨v, b, Or.inl ⟨[c], w₂ ++ t :: v, c, rfl, ⟨rfl, hc⟩, hv⟩⟩
  · cases w with
    | nil =>
      by_cases ht : p t = true
      · obtain ⟨v, b, hv⟩ := hopen hN ht
        exact Or.inr ⟨v, b, Or.inl ⟨[t], v, t, rfl, ⟨rfl, ht⟩, hv⟩⟩
      · rcases hn hN hlen t u with h | ⟨v, b, hv⟩
        · exact Or.inl (by rw [List.nil_append, Reader.branch, if_neg ht]; exact h)
        · exact Or.inr ⟨v, b, Or.inr hv⟩
    | cons c w =>
      rcases hn hN hlen t u with h | ⟨v, b, hv⟩
      · exact Or.inl (by
          rw [List.cons_append, Reader.branch, if_neg (by rw [hstart hN]; exact Bool.noConfusion)]
          exact h)
      · exact Or.inr ⟨v, b, Or.inr hv⟩

/-- A branch whose second side has no empty word, and never starts with the token, is rigid. -/
theorem Rigid.branch (hy : ∀ t, Rigid (yes t) (Y t)) (hn : Rigid no N)
    (hstart : N.Begins fun t => p t = false) :
    Rigid (Reader.branch p yes no) (.alt (Lang.one (p · = true) >>= Y) N) := by
  rintro w a hw n hlen t u
  rcases hw with ⟨w₁, w₂, c, rfl, ⟨rfl, hc⟩, hw₂⟩ | hN
  · simp only [List.cons_append, List.nil_append, List.length_cons] at hlen ⊢
    rw [Reader.branch, if_pos hc, hy c hw₂ (by omega)]
  · obtain ⟨c, v, rfl, hc⟩ := hstart hN
    rw [List.cons_append, Reader.branch, if_neg (by rw [hc]; exact Bool.noConfusion)]
    exact hn hN hlen t u

end Branch

/-! ## Reading a language -/

/-- A reader of a language: it takes its words, each unless the next token continues it. -/
structure Reads (p : Reader τ ε α) (L : Lang τ α) : Prop where
  follows : Follows p L
  complete : Exact p L

/-- A reader of a language that takes its words whatever follows them. -/
structure Commits (p : Reader τ ε α) (L : Lang τ α) : Prop where
  follows : Follows p L
  rigid : Rigid p L

theorem Commits.reads {p : Reader τ ε α} {L : Lang τ α} (h : Commits p L) : Reads p L :=
  ⟨h.follows, Rigid.exact h.rigid⟩

theorem commits_pure (a : α) : Commits (pure a : Reader τ ε α) (pure a) :=
  ⟨follows_pure a, rigid_pure a⟩

/-- A reader that takes nothing reads the empty language. -/
theorem commits_empty {r : Reader τ ε α} (h : ∀ n ts a rest, r n ts ≠ .ok a rest) :
    Commits r Lang.empty where
  follows := { sound := fun hr => (h _ _ _ _ hr).elim, stable := fun hr => (h _ _ _ _ hr).elim }
  rigid := fun _ _ hw => hw.elim

theorem commits_throw (e : ε) : Commits (throw e : Reader τ ε α) Lang.empty :=
  commits_empty fun _ _ _ _ h => by cases h

section Rules

variable {p : Reader τ ε α} {f : α → Reader τ ε β} {L : Lang τ α} {M : α → Lang τ β}
  {q : τ → Bool} {yes : τ → Reader τ ε α} {no : Reader τ ε α} {Y : τ → Lang τ α} {N : Lang τ α}

theorem Commits.bind (hp : Commits p L) (hf : ∀ a, Commits (f a) (M a)) :
    Commits (p >>= f) (L >>= M) :=
  ⟨hp.follows.bind fun a => (hf a).follows, Rigid.bind hp.rigid fun a => (hf a).rigid⟩

theorem Commits.bind_reads (hp : Commits p L) (hf : ∀ a, Reads (f a) (M a)) :
    Reads (p >>= f) (L >>= M) :=
  ⟨hp.follows.bind fun a => (hf a).follows, Rigid.bind_exact hp.rigid fun a => (hf a).complete⟩

/-- **A part that may go on, followed by another.**  No word of the second starts by continuing the
first, and a longer first word can be completed where a shorter one can. -/
theorem Reads.bind (hp : Reads p L) (hf : ∀ a, Reads (f a) (M a))
    (hsep : ∀ {w a c v b}, L w a → M a (c :: v) b → ¬ L.Viable w c)
    (htot : ∀ {a b a'}, M a [] b → ∃ v b', M a' v b') : Reads (p >>= f) (L >>= M) :=
  ⟨hp.follows.bind fun a => (hf a).follows,
    Exact.bind hp.complete (fun a => (hf a).complete) hsep htot⟩

theorem Commits.branch (hy : ∀ t, Commits (yes t) (Y t)) (hn : Commits no N)
    (hN : N.Begins fun t => q t = false) :
    Commits (Reader.branch q yes no) (.alt (Lang.one (q · = true) >>= Y) N) :=
  ⟨.branch (fun t => (hy t).follows) hn.follows,
    Rigid.branch (fun t => (hy t).rigid) hn.rigid hN⟩

/-- A branch whose second side may be empty: no word of it starts with the token, and a first side
that could still be taken completes some word. -/
theorem Reads.branch_open (hy : ∀ t, Reads (yes t) (Y t)) (hn : Reads no N)
    (hstart : ∀ {t v a}, N (t :: v) a → q t = false)
    (hopen : ∀ {a t}, N [] a → q t = true → ∃ v b, Y t v b) :
    Reads (Reader.branch q yes no) (.alt (Lang.one (q · = true) >>= Y) N) :=
  ⟨.branch (fun t => (hy t).follows) hn.follows,
    Exact.branch (fun t => (hy t).complete) hn.complete hstart hopen⟩

theorem Reads.branch (hy : ∀ t, Reads (yes t) (Y t)) (hn : Reads no N)
    (hN : N.Begins fun t => q t = false) :
    Reads (Reader.branch q yes no) (.alt (Lang.one (q · = true) >>= Y) N) := by
  refine .branch_open hy hn (fun h => ?_) fun h => (hN.not_nil _ h).elim
  obtain ⟨_, _, e, ht⟩ := hN h
  obtain ⟨rfl, -⟩ := List.cons.inj e
  exact ht

/-- One token that has to be there. -/
theorem commits_one {bad : Reader τ ε τ} (hbad : Commits bad Lang.empty) :
    Commits (Reader.branch q (fun t => pure t) bad) (Lang.one (q · = true)) := by
  have h := Commits.branch (q := q) (fun t => commits_pure t) hbad Lang.begins_empty
  rwa [Lang.alt_empty, Lang.bind_pure] at h

/-- One token that must not be there. -/
theorem Reads.guardNext {bad : Reader τ ε α} (hbad : Commits bad Lang.empty) (hp : Reads p L)
    (hL : ∀ a, ¬ L [] a) : Reads (Reader.guardNext q bad p) (.notFrom (q · = true) L) where
  follows :=
    { sound := fun {n ts a rest} h => by
        cases ts with
        | nil => cases h
        | cons t ts =>
          rw [Reader.guardNext] at h
          split at h
          · obtain ⟨_, -, hw⟩ := hbad.follows.sound h
            exact hw.elim
          · next ht =>
            obtain ⟨w, hw, hL'⟩ := hp.follows.sound h
            refine ⟨w, hw, hL', ?_⟩
            rintro s v rfl
            obtain ⟨rfl, -⟩ := List.cons.inj hw
            exact ht
      stable := fun {n w a t u} h m hm u' => by
        cases w with
        | nil =>
          rw [List.nil_append, Reader.guardNext] at *
          split at h
          · obtain ⟨_, -, hw⟩ := hbad.follows.sound h
            exact hw.elim
          · next ht =>
            rw [if_neg ht]
            exact hp.follows.stable (w := []) h m hm u'
        | cons c w =>
          rw [List.cons_append, Reader.guardNext] at *
          split at h
          · obtain ⟨_, -, hw⟩ := hbad.follows.sound h
            exact hw.elim
          · next hc =>
            rw [if_neg hc]
            exact hp.follows.stable (w := c :: w) h m hm u' }
  complete := by
    rintro w a ⟨hw, hq⟩ n hn t u
    cases w with
    | nil => exact (hL a hw).elim
    | cons c w =>
      rw [List.cons_append, Reader.guardNext, if_neg (hq c w rfl)]
      rcases hp.complete hw hn t u with h | ⟨v, b, hv⟩
      · exact Or.inl h
      · exact Or.inr ⟨v, b, hv, fun s x e => (List.cons.inj e).1 ▸ hq c w rfl⟩

end Rules

/-! ## Separated items -/

/-- The rounds of a loop over separated items: an item, then a token that closes the list, or one
that leads to the next round. -/
def itemsLoop (item : Reader τ ε α) (sep close : τ → Bool) (bad : Reader τ ε (List α)) :
    Nat → Reader τ ε (List α)
  | 0 => fun _ _ => .outOfRange
  | k + 1 => item >>= fun a =>
      branch close (fun _ => pure [a]) <|
      branch sep (fun _ => itemsLoop item sep close bad k >>= fun as => pure (a :: as)) bad

section Items

variable {item : Reader τ ε α} {sep close : τ → Bool} {bad : Reader τ ε (List α)} {L : Lang τ α}

theorem follows_itemsLoop (hi : Follows item L) (hbad : Commits bad Lang.empty) (k : Nat) :
    Follows (itemsLoop item sep close bad k) (Lang.items L (sep · = true) (close · = true)) := by
  induction k with
  | zero => exact ⟨(nomatch ·), (nomatch ·)⟩
  | succ k ih =>
    refine (hi.bind fun a => Follows.branch (fun _ => follows_pure [a]) <|
      Follows.branch (fun _ => ih.bind fun as => follows_pure (a :: as)) hbad.follows).of_imp ?_
    rintro _ _ ⟨w, v, a, rfl, hw, h⟩
    rcases h with h | h | h
    · obtain ⟨c, _, rfl, hc, rfl, rfl⟩ := Lang.one_bind_iff.mp h
      exact .last hw hc
    · obtain ⟨s, v, rfl, hs, h⟩ := Lang.one_bind_iff.mp h
      obtain ⟨v, _, as, rfl, hv, rfl, rfl⟩ := h
      rw [List.append_nil]
      exact .more hw hs hv
    · exact h.elim

/-- More rounds change nothing. -/
theorem itemsLoop_mono {k : Nat} {n : Nat} {ts rest : List τ} {as : List α}
    (h : itemsLoop item sep close bad k n ts = .ok as rest) {j : Nat} (hj : k ≤ j)
    (hbad : Commits bad Lang.empty) : itemsLoop item sep close bad j n ts = .ok as rest := by
  induction k generalizing ts rest as j with
  | zero => cases h
  | succ k ih =>
    obtain ⟨j, rfl⟩ : ∃ i, j = i + 1 := ⟨j - 1, by omega⟩
    obtain ⟨a, mid, hi, h⟩ := bind_eq_ok.mp h
    refine bind_eq_ok.mpr ⟨a, mid, hi, ?_⟩
    cases mid with
    | nil => cases h
    | cons t mid =>
      simp only [branch] at h ⊢
      split at h
      · next hc => rwa [if_pos hc]
      · next hc =>
        rw [if_neg hc]
        split at h
        · next hs =>
          rw [if_pos hs]
          obtain ⟨as, mid', h', hp⟩ := bind_eq_ok.mp h
          exact bind_eq_ok.mpr ⟨as, mid', ih h' (Nat.le_of_succ_le_succ hj), hp⟩
        · obtain ⟨_, -, hw⟩ := hbad.follows.sound h
          exact hw.elim

/-- A list of items is taken in as many rounds as it has tokens. -/
theorem itemsLoop_rigid (hi : Exact item L)
    (hsep : ∀ t, sep t = true → ∀ w, ¬ L.Viable w t)
    (hclose : ∀ t, close t = true → ∀ w, ¬ L.Viable w t)
    (hdisj : ∀ t, sep t = true → close t = false) {w : List τ} {as : List α}
    (hw : Lang.items L (sep · = true) (close · = true) w as) {k n : Nat} (hk : w.length ≤ k)
    (hn : w.length ≤ n) (t : τ) (u : List τ) :
    itemsLoop item sep close bad k n (w ++ t :: u) = .ok as (t :: u) := by
  induction hw generalizing k with
  | @last w a c hw hc =>
    obtain ⟨k, rfl⟩ : ∃ i, k = i + 1 := ⟨k - 1, by simp at hk; omega⟩
    rw [List.length_append] at hn
    have h := (hi hw (n := n) (by omega) c (t :: u)).resolve_right (hclose c hc w)
    rw [List.append_assoc]
    refine bind_eq_ok.mpr ⟨a, c :: t :: u, h, ?_⟩
    rw [branch, if_pos hc]
    rfl
  | @more w v a as s hw hs hv ih =>
    obtain ⟨k, rfl⟩ : ∃ i, k = i + 1 := ⟨k - 1, by simp at hk; omega⟩
    rw [List.length_append, List.length_cons] at hn hk
    have h := (hi hw (n := n) (by omega) s (v ++ t :: u)).resolve_right (hsep s hs w)
    rw [List.append_assoc]
    refine bind_eq_ok.mpr ⟨a, s :: (v ++ t :: u), h, ?_⟩
    rw [branch, if_neg (by rw [hdisj s hs]; exact Bool.noConfusion), branch, if_pos hs]
    exact bind_eq_ok.mpr ⟨as, t :: u, ih (by omega) (by omega), rfl⟩

/-- **A loop over separated items commits to its list**: the closing token says that it is over. -/
theorem commits_itemsLoop (hi : Reads item L) (hbad : Commits bad Lang.empty)
    (hsep : ∀ t, sep t = true → ∀ w, ¬ L.Viable w t)
    (hclose : ∀ t, close t = true → ∀ w, ¬ L.Viable w t)
    (hdisj : ∀ t, sep t = true → close t = false) :
    Commits (fun n ts => itemsLoop item sep close bad n n ts)
      (Lang.items L (sep · = true) (close · = true)) where
  follows :=
    { sound := fun h => (follows_itemsLoop hi.follows hbad _).sound h
      stable := fun h m hm u' =>
        itemsLoop_mono ((follows_itemsLoop hi.follows hbad _).stable h m hm u') hm hbad }
  rigid := fun _ _ hw _ hn t u => itemsLoop_rigid hi.complete hsep hclose hdisj hw hn hn t u

end Items

/-! ## What a reader throws -/

/-- Every early exit is with an error of the kind. -/
def Throws (E : ε → Prop) (p : Reader τ ε α) : Prop := ∀ ⦃n ts e⦄, p n ts = .error e → E e

section Throws

variable {E : ε → Prop} {p : Reader τ ε α} {f : α → Reader τ ε β}

theorem throws_pure (a : α) : Throws E (pure a : Reader τ ε α) := fun _ _ _ h => nomatch h

theorem throws_throw {e : ε} (h : E e) : Throws E (throw e : Reader τ ε α) := by
  rintro n ts _ ⟨⟩
  exact h

theorem throws_peek : Throws E (peek : Reader τ ε τ) := by
  rintro n (_ | _) e ⟨⟩

theorem throws_advance : Throws E (advance : Reader τ ε τ) := by
  rintro n (_ | _) e ⟨⟩

theorem Throws.bind (hp : Throws E p) (hf : ∀ a, Throws E (f a)) : Throws E (p >>= f) := by
  intro n ts e h
  rw [bind_apply] at h
  split at h
  · exact hf _ h
  · next he =>
    cases h
    exact hp he
  · cases h

theorem Throws.ite {c : Prop} [Decidable c] {p q : Reader τ ε α} (hp : Throws E p)
    (hq : Throws E q) : Throws E (if c then p else q) := by
  split
  exacts [hp, hq]

end Throws

/-! ## Where a reader stops -/

/-- **Where a reader stops.**  If some token continues no word at all, a reader of `L` stops after
`w` precisely when `w` is a word of `L` which the next token does not continue. -/
theorem Reads.accepts_iff {p : Reader τ ε α} {L : Lang τ α} (hp : Reads p L) {e : τ}
    (he : ∀ w, ¬ L.Viable w e) {n : Nat} {w : List τ} {a : α} {t : τ} {u : List τ}
    (hn : w.length ≤ n) :
    p n (w ++ t :: u) = .ok a (t :: u) ↔ L w a ∧ ¬ L.Viable w t := by
  constructor
  · intro h
    obtain ⟨w', hw', hL⟩ := hp.follows.sound h
    obtain rfl : w = w' := List.append_cancel_right hw'
    refine ⟨hL, ?_⟩
    rintro ⟨v, a', hv⟩
    -- on the longer word, followed by `e`, the reader would have to stop twice
    let m := n + (w ++ t :: v).length
    have hlong := (hp.complete hv (n := m) (by omega) e []).resolve_right (he _)
    have hshort := hp.follows.stable h m (by omega) (v ++ [e])
    rw [List.append_assoc, List.cons_append, hshort] at hlong
    have hlen := congrArg List.length (Outcome.ok.injEq .. ▸ hlong).2
    simp at hlen
  · rintro ⟨hL, hv⟩
    exact (hp.complete hL hn t u).resolve_right hv

end Reader

import MiniDB.Machinery.Reader

/-!
# Machinery/Prompt — readers that exit at the first token that does not fit

A reader is `Prompt` when it exits at a token: what stands in front of this token begins a word, and
what stands behind it, or how many rounds its loops have, makes no difference.  What an exit says of
its token, which tokens may complete a word, and where an exit may come late, is a `Policy`.

`Prompt` composes along `bind`, along one token of lookahead and along a loop over separated items.
**`Reads.not_viable`**: if the reader reads a language, the token continues no word that begins as
the stream does.
-/

namespace Reader

variable {τ ε α β : Type}

/-- What a prompt reader may rely on, and what it has to meet. -/
structure Policy (τ ε : Type) where
  /-- What is known of every token of the stream. -/
  ok : τ → Prop
  /-- A token that may complete a word. -/
  fill : τ → Prop
  /-- Behind these tokens an exit may come late. -/
  late : List τ → Prop
  /-- The exit names the token. -/
  made : τ → ε → Prop
  ok_of_fill : ∀ t, fill t → ok t
  late_append : ∀ u w, late w → late (u ++ w)

/-- Tokens that begin a word. -/
def Begun (fill : τ → Prop) (L : Lang τ α) (w : List τ) : Prop :=
  ∃ v a, L (w ++ v) a ∧ ∀ t ∈ v, fill t

/-- The exit is at a token of the stream: this makes it, what stands in front of it begins a word,
and what stands behind it makes no difference. -/
def Blames (P : Policy τ ε) (p : Reader τ ε α) (L : Lang τ α) (n : Nat) (ts : List τ) (e : ε) :
    Prop :=
  ∃ w t u, ts = w ++ t :: u ∧ P.made t e ∧ (Begun P.fill L w ∨ P.late w) ∧
    ∀ m, n ≤ m → ∀ u', p m (w ++ t :: u') = .error e

/-- Every exit is at a token. -/
def Prompt (P : Policy τ ε) (p : Reader τ ε α) (L : Lang τ α) : Prop :=
  ∀ ⦃n ts e⦄, (∀ t ∈ ts, P.ok t) → p n ts = .error e → Blames P p L n ts e

/-- An exit at the next token, if there is one. -/
def Exits (P : Policy τ ε) (p : Reader τ ε α) : Prop :=
  ∀ ⦃n t ts e⦄, p n (t :: ts) = .error e → P.made t e ∧ ∀ m u, p m (t :: u) = .error e

variable {P : Policy τ ε} {p : Reader τ ε α} {f : α → Reader τ ε β} {L M : Lang τ α}
  {F : α → Lang τ β} {fill : τ → Prop} {w : List τ}

/-! ## Beginnings -/

theorem begun_pure (a : α) : Begun fill (pure a) [] := ⟨[], a, ⟨rfl, rfl⟩, by simp⟩

theorem Begun.mono (h : Begun fill L w) (hsub : L.Sub M) : Begun fill M w := by
  obtain ⟨v, a, hv, hfill⟩ := h
  exact ⟨v, a, hsub hv, hfill⟩

theorem Begun.left (h : Begun fill L w) : Begun fill (.alt L M) w := h.mono fun _ _ => Or.inl

theorem Begun.right (h : Begun fill M w) : Begun fill (.alt L M) w := h.mono fun _ _ => Or.inr

/-- A word of the first part, with what begins the second, begins the sequence. -/
theorem Begun.after {u : List τ} {a : α} (hL : L u a) (h : Begun fill (F a) w) :
    Begun fill (L >>= F) (u ++ w) := by
  obtain ⟨v, b, hv, hfill⟩ := h
  exact ⟨v, b, ⟨u, w ++ v, a, List.append_assoc .., hL, hv⟩, hfill⟩

/-- A word may complete the first part. -/
theorem Begun.complete {u : List τ} {a : α} (h : Begun fill (F a) []) (hL : L (w ++ u) a)
    (hu : ∀ t ∈ u, fill t) : Begun fill (L >>= F) w := by
  obtain ⟨v, b, hv, hfill⟩ := h
  refine ⟨u ++ v, b, ⟨w ++ u, v, a, (List.append_assoc ..).symm, hL, hv⟩, fun t ht => ?_⟩
  exact (List.mem_append.mp ht).elim (hu t) (hfill t)

/-! ## Prompt readers -/

theorem prompt_of_noError (h : ∀ n ts e, p n ts ≠ .error e) : Prompt P p L :=
  fun n ts e _ he => absurd he (h n ts e)

theorem prompt_pure (a : α) : Prompt P (pure a) L := prompt_of_noError fun _ _ _ => nofun

theorem Prompt.mono (h : Prompt P p L) (hsub : L.Sub M) : Prompt P p M := by
  intro n ts e hok he
  obtain ⟨w, t, u, hts, hmade, hbegun, hexit⟩ := h hok he
  exact ⟨w, t, u, hts, hmade, hbegun.imp_left (Begun.mono · hsub), hexit⟩

theorem exits_throw {e : ε} (h : ∀ t, P.made t e) : Exits P (throw e : Reader τ ε α) := by
  rintro n t ts _ ⟨⟩
  exact ⟨h t, fun _ _ => rfl⟩

/-- **A sequence exits where one of its parts does** — or late, behind tokens where this may be. -/
theorem Prompt.bind_late (hp : Prompt P p L) (hpL : Follows p L)
    (hf : ∀ w a, L w a → (∀ t ∈ w, P.ok t) → Prompt P (f a) (F a) ∨
      P.late w ∧ Exits P (f a) ∧ ∀ n e, f a n [] ≠ .error e)
    (hF : ∀ w v a, L (w ++ v) a → (∀ t ∈ w, P.ok t) → (∀ t ∈ v, P.fill t) →
      Begun P.fill (F a) [] ∨ P.late w) :
    Prompt P (p >>= f) (L >>= F) := by
  intro n ts e hok he
  rw [bind_apply] at he
  cases hrun : p n ts with
  | ok a rest =>
    rw [hrun] at he
    obtain ⟨w₁, rfl, hw₁⟩ := hpL.sound hrun
    obtain ⟨hok₁, hok₂⟩ := List.forall_mem_append.mp hok
    obtain ⟨w₂, t, u, rfl, hmade, hbegun, hexit⟩ : ∃ w₂ t u, rest = w₂ ++ t :: u ∧ P.made t e ∧
        (Begun P.fill (L >>= F) (w₁ ++ w₂) ∨ P.late (w₁ ++ w₂)) ∧
        ∀ m, n ≤ m → ∀ u', f a m (w₂ ++ t :: u') = .error e := by
      rcases hf w₁ a hw₁ hok₁ with hprompt | ⟨hlate, hexits, hnil⟩
      · obtain ⟨w₂, t, u, hrest, hmade, hbegun, hexit⟩ := hprompt hok₂ he
        exact ⟨w₂, t, u, hrest, hmade, hbegun.imp (Begun.after hw₁) (P.late_append w₁ w₂), hexit⟩
      · cases rest with
        | nil => exact absurd he (hnil n e)
        | cons t u =>
          obtain ⟨hmade, hexit⟩ := hexits he
          refine ⟨[], t, u, rfl, hmade, Or.inr ?_, fun m _ => hexit m⟩
          rwa [List.append_nil]
    refine ⟨w₁ ++ w₂, t, u, by simp, hmade, hbegun, fun m hm u' => ?_⟩
    -- the token behind the first word is the head of the second, or `t` itself
    have hstay : p m (w₁ ++ (w₂ ++ t :: u')) = .ok a (w₂ ++ t :: u') := by
      cases w₂ with
      | nil => exact hpL.stable hrun m hm u'
      | cons c w₂ => exact hpL.stable hrun m hm (w₂ ++ t :: u')
    rw [List.append_assoc, bind_of_ok f hstay]
    exact hexit m hm u'
  | error e' =>
    rw [hrun] at he
    cases he
    obtain ⟨w, t, u, rfl, hmade, hbegun, hexit⟩ := hp hok hrun
    obtain ⟨hokw, -⟩ := List.forall_mem_append.mp hok
    refine ⟨w, t, u, rfl, hmade, ?_, fun m hm u' => by rw [bind_apply, hexit m hm u']⟩
    rcases hbegun with ⟨v, a, hv, hfill⟩ | hlate
    · exact (hF w v a hv hokw hfill).imp_left fun hnext => hnext.complete hv hfill
    · exact Or.inr hlate
  | outOfRange =>
    rw [hrun] at he
    cases he

/-- **A sequence exits where one of its parts does.** -/
theorem Prompt.bind (hp : Prompt P p L) (hpL : Follows p L)
    (hf : ∀ w a, L w a → (∀ t ∈ w, P.ok t) → Prompt P (f a) (F a))
    (hF : ∀ w a, L w a → (∀ t ∈ w, P.ok t) → Begun P.fill (F a) []) :
    Prompt P (p >>= f) (L >>= F) := by
  refine hp.bind_late hpL (fun w a hw hok => Or.inl (hf w a hw hok)) fun w v a hv hok hfill => ?_
  have hokv : ∀ t ∈ v, P.ok t := fun t ht => P.ok_of_fill t (hfill t ht)
  exact Or.inl (hF _ a hv (List.forall_mem_append.mpr ⟨hok, hokv⟩))

section Branch

variable {q : τ → Bool} {yes : τ → Reader τ ε α} {no bad : Reader τ ε α} {Y : τ → Lang τ α}

/-- The stream up to a token has its first token whatever follows. -/
theorem exists_cons {c t : τ} {ts u : List τ} (h : c :: ts = w ++ t :: u) (u' : List τ) :
    ∃ rest, w ++ t :: u' = c :: rest := by
  cases w with
  | nil => exact ⟨u', by rw [(List.cons.inj h).1, List.nil_append]⟩
  | cons d w => exact ⟨w ++ t :: u', by rw [(List.cons.inj h).1, List.cons_append]⟩

/-- A token that is taken, and what its alternative exits at. -/
theorem Blames.cons {n : Nat} {c : τ} {ts : List τ} {e : ε} (hc : q c = true)
    (h : Blames P (yes c) (Y c) n ts e) (hsub : (Lang.one (q · = true) >>= Y).Sub L) :
    Blames P (branch q yes no) L n (c :: ts) e := by
  obtain ⟨w, t, u, rfl, hmade, hbegun, hexit⟩ := h
  have hone : Lang.one (q · = true) [c] c := ⟨rfl, hc⟩
  refine ⟨c :: w, t, u, rfl, hmade, ?_, fun m hm u' => ?_⟩
  · exact hbegun.imp (fun h => (Begun.after hone h).mono hsub) (P.late_append [c] w)
  · rw [List.cons_append, branch, if_pos hc]
    exact hexit m hm u'

/-- One more alternative in front. -/
theorem prompt_branch (hy : ∀ t, P.ok t → q t = true → Prompt P (yes t) (Y t))
    (hn : Prompt P no L) (hsub : (Lang.one (q · = true) >>= Y).Sub L) :
    Prompt P (branch q yes no) L := by
  intro n ts e hok he
  cases ts with
  | nil => cases he
  | cons c ts =>
    obtain ⟨hokc, hokts⟩ := List.forall_mem_cons.mp hok
    rw [branch] at he
    by_cases hc : q c = true
    · rw [if_pos hc] at he
      exact (hy c hokc hc hokts he).cons hc hsub
    · rw [if_neg hc] at he
      obtain ⟨w, t, u, hts, hmade, hbegun, hexit⟩ := hn hok he
      refine ⟨w, t, u, hts, hmade, hbegun, fun m hm u' => ?_⟩
      obtain ⟨rest, hrest⟩ := exists_cons hts u'
      have hnext := hexit m hm u'
      rw [hrest] at hnext ⊢
      rw [branch, if_neg hc, hnext]

/-- The last alternative: any other token leads to an exit. -/
theorem prompt_branch_last (hy : ∀ t, P.ok t → q t = true → Prompt P (yes t) (Y t))
    (hbad : Exits P bad) (hfill : Begun P.fill (Lang.one (q · = true) >>= Y) []) :
    Prompt P (branch q yes bad) (Lang.one (q · = true) >>= Y) := by
  intro n ts e hok he
  cases ts with
  | nil => cases he
  | cons c ts =>
    obtain ⟨hokc, hokts⟩ := List.forall_mem_cons.mp hok
    rw [branch] at he
    by_cases hc : q c = true
    · rw [if_pos hc] at he
      exact (hy c hokc hc hokts he).cons hc (Lang.Sub.refl _)
    · rw [if_neg hc] at he
      obtain ⟨hmade, hexit⟩ := hbad he
      refine ⟨[], c, ts, rfl, hmade, Or.inl hfill, fun m _ u => ?_⟩
      rw [List.nil_append, branch, if_neg hc]
      exact hexit m u

/-- A token that must not be there. -/
theorem prompt_guardNext (hbad : Exits P bad) (hp : Prompt P p L)
    (hfill : Begun P.fill (Lang.notFrom (q · = true) L) []) :
    Prompt P (guardNext q bad p) (Lang.notFrom (q · = true) L) := by
  intro n ts e hok he
  cases ts with
  | nil => cases he
  | cons c ts =>
    rw [guardNext] at he
    by_cases hc : q c = true
    · rw [if_pos hc] at he
      obtain ⟨hmade, hexit⟩ := hbad he
      refine ⟨[], c, ts, rfl, hmade, Or.inl hfill, fun m _ u => ?_⟩
      rw [List.nil_append, guardNext, if_pos hc]
      exact hexit m u
    · rw [if_neg hc] at he
      obtain ⟨w, t, u, hts, hmade, hbegun, hexit⟩ := hp hok he
      refine ⟨w, t, u, hts, hmade, ?_, fun m hm u' => ?_⟩
      · cases w with
        | nil => exact Or.inl hfill
        | cons d w =>
          obtain ⟨rfl, -⟩ := List.cons.inj hts
          refine hbegun.imp_left ?_
          rintro ⟨v, a, hv, hv'⟩
          refine ⟨v, a, ⟨hv, ?_⟩, hv'⟩
          rintro s x hs
          rwa [← (List.cons.inj hs).1]
      · obtain ⟨rest, hrest⟩ := exists_cons hts u'
        have hnext := hexit m hm u'
        rw [hrest] at hnext ⊢
        rw [guardNext, if_neg hc, hnext]

end Branch

/-! ## Loops over separated items -/

section Items

variable {item : Reader τ ε α} {sep close : τ → Bool} {bad : Reader τ ε (List α)}

/-- What begins an item begins a list of one. -/
theorem Begun.inList (h : Begun fill L w) (hclose : ∃ c, close c = true ∧ fill c) :
    Begun fill (.items L (sep · = true) (close · = true)) w := by
  obtain ⟨v, a, hv, hfill⟩ := h
  obtain ⟨c, hc, hfillc⟩ := hclose
  refine ⟨v ++ [c], [a], ?_, fun t ht => ?_⟩
  · rw [← List.append_assoc]
    exact .last hv hc
  · exact (List.mem_append.mp ht).elim (hfill t) fun h => List.mem_singleton.mp h ▸ hfillc

/-- An exit of a loop, with rounds to spare. -/
theorem blames_itemsLoop (hi : Prompt P item L) (hiL : Follows item L) (hbad : Exits P bad)
    (hclose : ∃ c, close c = true ∧ P.fill c) {k n : Nat} {ts : List τ} {e : ε}
    (hok : ∀ t ∈ ts, P.ok t) (he : itemsLoop item sep close bad k n ts = .error e) :
    ∃ w t u, ts = w ++ t :: u ∧ P.made t e ∧
      (Begun P.fill (.items L (sep · = true) (close · = true)) w ∨ P.late w) ∧
      ∀ j m, k ≤ j → n ≤ m → ∀ u', itemsLoop item sep close bad j m (w ++ t :: u') = .error e := by
  induction k generalizing ts with
  | zero => cases he
  | succ k ih =>
    -- a loop with more rounds has this one
    have hround (j : Nat) (hj : k + 1 ≤ j) : ∃ i, k ≤ i ∧
        itemsLoop item sep close bad j = item >>= fun a => branch close (fun _ => pure [a]) <|
          branch sep (fun _ => itemsLoop item sep close bad i >>= fun as => pure (a :: as))
            bad := by
      obtain ⟨i, rfl⟩ : ∃ i, j = i + 1 := ⟨j - 1, by omega⟩
      exact ⟨i, by omega, rfl⟩
    rw [itemsLoop, bind_apply] at he
    cases hrun : item n ts with
    | ok a rest =>
      rw [hrun] at he
      obtain ⟨w₁, rfl, hw₁⟩ := hiL.sound hrun
      obtain ⟨-, hok₂⟩ := List.forall_mem_append.mp hok
      cases rest with
      | nil => cases he
      | cons c rest =>
        simp only [branch] at he
        by_cases hc : close c = true
        · rw [if_pos hc] at he
          cases he
        · rw [if_neg hc] at he
          by_cases hs : sep c = true
          · rw [if_pos hs, bind_apply] at he
            have hnext : itemsLoop item sep close bad k n rest = .error e := by
              cases hloop : itemsLoop item sep close bad k n rest <;> rw [hloop] at he <;> cases he
              rfl
            obtain ⟨-, hokrest⟩ := List.forall_mem_cons.mp hok₂
            obtain ⟨w₂, t, u, rfl, hmade, hbegun, hexit⟩ := ih hokrest hnext
            refine ⟨w₁ ++ c :: w₂, t, u, by simp, hmade, hbegun.imp ?_ ?_, fun j m hj hm u' => ?_⟩
            · rintro ⟨v, as, hv, hfill⟩
              refine ⟨v, a :: as, ?_, hfill⟩
              rw [List.append_assoc]
              exact .more hw₁ hs hv
            · exact fun h => P.late_append w₁ _ (P.late_append [c] w₂ h)
            · obtain ⟨i, hki, hloop⟩ := hround j hj
              rw [List.append_assoc, List.cons_append, hloop,
                bind_of_ok _ (hiL.stable hrun m hm _), branch, if_neg hc, branch, if_pos hs,
                bind_apply, hexit i m hki hm u']
          · rw [if_neg hs] at he
            obtain ⟨hmade, hexit⟩ := hbad he
            refine ⟨w₁, c, rest, rfl, hmade, Or.inl ?_, fun j m hj hm u' => ?_⟩
            · refine Begun.inList ⟨[], a, ?_, by simp⟩ hclose
              rwa [List.append_nil]
            · obtain ⟨i, -, hloop⟩ := hround j hj
              rw [hloop, bind_of_ok _ (hiL.stable hrun m hm u'), branch, if_neg hc, branch,
                if_neg hs]
              exact hexit m u'
    | error e' =>
      rw [hrun] at he
      cases he
      obtain ⟨w, t, u, rfl, hmade, hbegun, hexit⟩ := hi hok hrun
      refine ⟨w, t, u, rfl, hmade, hbegun.imp_left (Begun.inList · hclose), fun j m hj hm u' => ?_⟩
      obtain ⟨i, -, hloop⟩ := hround j hj
      rw [hloop, bind_apply, hexit m hm u']
    | outOfRange =>
      rw [hrun] at he
      cases he

theorem prompt_itemsLoop (hi : Prompt P item L) (hiL : Follows item L) (hbad : Exits P bad)
    (hclose : ∃ c, close c = true ∧ P.fill c) :
    Prompt P (fun n ts => itemsLoop item sep close bad n n ts)
      (.items L (sep · = true) (close · = true)) := by
  intro n ts e hok he
  obtain ⟨w, t, u, hts, hmade, hbegun, hexit⟩ := blames_itemsLoop hi hiL hbad hclose hok he
  exact ⟨w, t, u, hts, hmade, hbegun, fun m hm u' => hexit m m hm hm u'⟩

end Items

/-! ## Readers of a language -/

/-- **The token that is blamed is one that does not fit.** -/
theorem Reads.not_viable (hp : Reads p L) {stop : τ} (hstop : ∀ w, ¬ L.Viable w stop) {n : Nat}
    {t : τ} {e : ε} (hexit : ∀ m, n ≤ m → ∀ u, p m (w ++ t :: u) = .error e) :
    ¬ L.Viable w t := by
  rintro ⟨v, a, hv⟩
  have hlong := (hp.complete hv (n := n + (w ++ t :: v).length) (by omega) stop []).resolve_right
    (hstop _)
  rw [List.append_assoc, List.cons_append, hexit _ (Nat.le_add_right n _)] at hlong
  cases hlong

end Reader

import Mathlib.Data.List.Forall2

/-!
# Machinery/Lang — languages whose words have values

A `Lang τ α` is a grammar with values: the words of a language over the tokens `τ`, and what each
denotes.  Languages are a monad — a sequence concatenates words — so a grammar is written as a `do`
block.  Three notions say how a word may go on: a token is `Viable` after a word when some longer
word runs through it; a language `Avoids` a kind of token when no word holds one, and `Begins` with
a kind when every word does.

Three more say what a word denotes: the value has a property when the tokens have one (`Ensures`),
it keeps what is read off the tokens (`Carries`), and it is the value that was printed (`Derives`).
And where an item may be missing, `Filled` tells the words in which none is.
-/

/-- The words of a language, each with a value it denotes. -/
def Lang (τ α : Type) : Type := List τ → α → Prop

namespace Lang

variable {τ α β : Type}

instance : Monad (Lang τ) where
  pure a := fun w b => w = [] ∧ b = a
  bind L M := fun w b => ∃ u v a, w = u ++ v ∧ L u a ∧ M a v b

/-- One token with a property. -/
def one (p : τ → Prop) : Lang τ τ := fun w t => w = [t] ∧ p t

/-- Either language. -/
def alt (L M : Lang τ α) : Lang τ α := fun w a => L w a ∨ M w a

/-- No word at all. -/
def empty : Lang τ α := fun _ _ => False

/-- The empty word, under a condition on what was read before it. -/
def given (c : Prop) (a : α) : Lang τ α := fun w b => c ∧ w = [] ∧ b = a

/-- A language under a condition on what was read before it. -/
def under (c : Prop) (L : Lang τ α) : Lang τ α := fun w b => c ∧ L w b

/-- The words that do not begin with a token of a kind. -/
def notFrom (p : τ → Prop) (L : Lang τ α) : Lang τ α :=
  fun w a => L w a ∧ ∀ t v, w = t :: v → ¬ p t

@[simp] theorem alt_empty (L : Lang τ α) : alt L empty = L := by
  funext w a
  simp [alt, empty]

/-- The words of `items`. -/
inductive Items (item : Lang τ α) (sep close : τ → Prop) : List τ → List α → Prop
  | last {w : List τ} {a : α} {c : τ} : item w a → close c → Items item sep close (w ++ [c]) [a]
  | more {w v : List τ} {a : α} {as : List α} {s : τ} : item w a → sep s →
      Items item sep close v as → Items item sep close (w ++ s :: v) (a :: as)

/-- A nonempty list of items, separated, and closed by a token. -/
def items (item : Lang τ α) (sep close : τ → Prop) : Lang τ (List α) := Items item sep close

theorem bind_pure (L : Lang τ α) : (L >>= fun a => pure a) = L := by
  funext w b
  refine propext ⟨?_, fun h => ⟨w, [], b, by simp, h, rfl, rfl⟩⟩
  rintro ⟨u, v, a, rfl, h, rfl, rfl⟩
  rwa [List.append_nil]

theorem alt_bind (L M : Lang τ α) (F : α → Lang τ β) :
    (alt L M >>= F) = alt (L >>= F) (M >>= F) := by
  funext w b
  refine propext ⟨?_, ?_⟩
  · rintro ⟨u, v, a, rfl, h | h, hF⟩
    · exact Or.inl ⟨u, v, a, rfl, h, hF⟩
    · exact Or.inr ⟨u, v, a, rfl, h, hF⟩
  · rintro (⟨u, v, a, rfl, h, hF⟩ | ⟨u, v, a, rfl, h, hF⟩)
    · exact ⟨u, v, a, rfl, Or.inl h, hF⟩
    · exact ⟨u, v, a, rfl, Or.inr h, hF⟩

/-- A word that starts with one token of a kind. -/
theorem one_bind_iff {p : τ → Prop} {F : τ → Lang τ α} {w : List τ} {a : α} :
    (one p >>= F) w a ↔ ∃ t v, w = t :: v ∧ p t ∧ F t v a := by
  constructor
  · rintro ⟨_, v, t, rfl, ⟨rfl, ht⟩, hF⟩
    exact ⟨t, v, rfl, ht, hF⟩
  · rintro ⟨t, v, rfl, ht, hF⟩
    exact ⟨[t], v, t, rfl, ⟨rfl, ht⟩, hF⟩

/-- A token continues a word: some longer word goes through it. -/
def Viable (L : Lang τ α) (w : List τ) (t : τ) : Prop := ∃ v a, L (w ++ t :: v) a

theorem given_true {c : Prop} (h : c) (a : α) : (given c a : Lang τ α) = pure a := by
  funext w b
  exact propext ⟨And.right, fun hw => ⟨h, hw⟩⟩

theorem given_bind (c : Prop) (a : α) (F : α → Lang τ β) :
    (given c a >>= F) = under c (F a) := by
  funext w b
  refine propext ⟨?_, fun h => ⟨[], w, a, rfl, ⟨h.1, rfl, rfl⟩, h.2⟩⟩
  rintro ⟨u, v, x, rfl, ⟨hc, rfl, rfl⟩, hF⟩
  exact ⟨hc, hF⟩

theorem under_bind (c : Prop) (L : Lang τ α) (F : α → Lang τ β) :
    (under c L >>= F) = under c (L >>= F) := by
  funext w b
  refine propext ⟨?_, ?_⟩
  · rintro ⟨u, v, a, rfl, ⟨hc, hL⟩, hF⟩
    exact ⟨hc, u, v, a, rfl, hL, hF⟩
  · rintro ⟨hc, u, v, a, rfl, hL, hF⟩
    exact ⟨u, v, a, rfl, ⟨hc, hL⟩, hF⟩

instance : LawfulMonad (Lang τ) := LawfulMonad.mk' _
  (fun L => bind_pure L)
  (fun a F => by
    funext w b
    refine propext ⟨?_, fun h => ⟨[], w, a, rfl, ⟨rfl, rfl⟩, h⟩⟩
    rintro ⟨u, v, x, rfl, ⟨rfl, rfl⟩, hF⟩
    exact hF)
  (fun L F G => by
    funext w b
    refine propext ⟨?_, ?_⟩
    · rintro ⟨_, v, y, rfl, ⟨u₁, u₂, x, rfl, hL, hF⟩, hG⟩
      exact ⟨u₁, u₂ ++ v, x, List.append_assoc .., hL, u₂, v, y, rfl, hF, hG⟩
    · rintro ⟨u₁, _, x, rfl, hL, u₂, v, y, rfl, hF, hG⟩
      exact ⟨u₁ ++ u₂, v, y, (List.append_assoc ..).symm, ⟨u₁, u₂, x, rfl, hL, hF⟩, hG⟩)

/-! ## What a word holds, and what it begins with -/

/-- No word holds a token of the kind. -/
def Avoids (p : τ → Prop) (L : Lang τ α) : Prop := ∀ ⦃w a⦄, L w a → ∀ t ∈ w, ¬ p t

/-- Every word begins with a token of the kind; in particular none is empty. -/
def Begins (p : τ → Prop) (L : Lang τ α) : Prop := ∀ ⦃w a⦄, L w a → ∃ t v, w = t :: v ∧ p t

/-- An avoided token continues nothing. -/
theorem Avoids.not_viable {p : τ → Prop} {L : Lang τ α} (h : L.Avoids p) {t : τ} (ht : p t)
    (w : List τ) : ¬ L.Viable w t :=
  fun ⟨_, _, hv⟩ => h hv t (by simp) ht

section Avoids

variable {p q : τ → Prop} {L M : Lang τ α} {F : α → Lang τ β}

theorem avoids_one (h : ∀ t, q t → ¬ p t) : (one q).Avoids p := by
  rintro w t ⟨rfl, ht⟩ s hs
  obtain rfl := List.mem_singleton.mp hs
  exact h s ht

theorem avoids_pure (a : α) : (pure a : Lang τ α).Avoids p := by
  rintro w b ⟨rfl, -⟩ t ht
  cases ht

theorem avoids_given (c : Prop) (a : α) : (given c a : Lang τ α).Avoids p := by
  rintro w b ⟨-, rfl, -⟩ t ht
  cases ht

theorem Avoids.alt (hL : L.Avoids p) (hM : M.Avoids p) : (Lang.alt L M).Avoids p := by
  rintro w a (h | h)
  exacts [hL h, hM h]

theorem Avoids.bind (hL : L.Avoids p) (hF : ∀ a, (F a).Avoids p) : (L >>= F).Avoids p := by
  rintro w b ⟨u, v, a, rfl, hu, hv⟩ t ht
  exact (List.mem_append.mp ht).elim (hL hu t) (hF a hv t)

theorem Avoids.notFrom (hL : L.Avoids p) : (Lang.notFrom q L).Avoids p := fun _ _ h => hL h.1

theorem Avoids.items {sep close : τ → Prop} (hL : L.Avoids p) (hs : ∀ t, sep t → ¬ p t)
    (hc : ∀ t, close t → ¬ p t) : (Lang.items L sep close).Avoids p := by
  intro w as h
  induction h with
  | last hw hcl =>
    intro t ht
    rcases List.mem_append.mp ht with h | h
    · exact hL hw t h
    · exact hc t (List.mem_singleton.mp h ▸ hcl)
  | more hw hsep _ ih =>
    intro t ht
    rcases List.mem_append.mp ht with h | h
    · exact hL hw t h
    · exact (List.mem_cons.mp h).elim (fun e => hs t (e ▸ hsep)) (ih t)

theorem begins_alt : (Lang.alt L M).Begins p ↔ L.Begins p ∧ M.Begins p :=
  ⟨fun h => ⟨fun _ _ hw => h (Or.inl hw), fun _ _ hw => h (Or.inr hw)⟩,
    fun h _ _ hw => hw.elim (fun hw => h.1 hw) (fun hw => h.2 hw)⟩

theorem begins_one_bind {G : τ → Lang τ β} (h : ∀ t, q t → p t) : (one q >>= G).Begins p := by
  intro w b hw
  obtain ⟨t, v, rfl, ht, -⟩ := one_bind_iff.mp hw
  exact ⟨t, v, rfl, h t ht⟩

theorem begins_empty : (empty : Lang τ α).Begins p := fun _ _ h => h.elim

theorem Begins.mono (hL : L.Begins p) (h : ∀ t, p t → q t) : L.Begins q := by
  intro w a hw
  obtain ⟨t, v, rfl, ht⟩ := hL hw
  exact ⟨t, v, rfl, h t ht⟩

theorem Begins.bind (hL : L.Begins p) : (L >>= F).Begins p := by
  rintro w b ⟨u, v, a, rfl, hu, -⟩
  obtain ⟨t, u, rfl, ht⟩ := hL hu
  exact ⟨t, u ++ v, rfl, ht⟩

theorem Begins.not_nil (hL : L.Begins p) (a : α) : ¬ L [] a := fun h => by
  obtain ⟨_, _, h, -⟩ := hL h
  cases h

/-- A language that begins with other tokens loses nothing. -/
theorem Begins.notFrom_eq (hL : L.Begins fun t => ¬ p t) : Lang.notFrom p L = L := by
  funext w a
  refine propext ⟨And.left, fun h => ⟨h, ?_⟩⟩
  rintro t v rfl
  obtain ⟨_, _, e, ht⟩ := hL h
  obtain ⟨rfl, -⟩ := List.cons.inj e
  exact ht

/-- The exclusion of a first token bears on the first part of a sequence. -/
theorem notFrom_bind (hL : ∀ a, ¬ L [] a) :
    (Lang.notFrom p L >>= F) = Lang.notFrom p (L >>= F) := by
  funext w b
  refine propext ⟨?_, ?_⟩
  · rintro ⟨u, v, a, rfl, ⟨hu, hp⟩, hv⟩
    refine ⟨⟨u, v, a, rfl, hu, hv⟩, fun t x e => ?_⟩
    cases u with
    | nil => exact (hL a hu).elim
    | cons c u =>
      obtain ⟨rfl, -⟩ := List.cons.inj e
      exact hp c u rfl
  · rintro ⟨⟨u, v, a, rfl, hu, hv⟩, hp⟩
    exact ⟨u, v, a, rfl, ⟨hu, fun t x e => hp t (x ++ v) (by rw [e]; rfl)⟩, hv⟩

theorem items_not_nil {sep close : τ → Prop} (as : List α) : ¬ Lang.items L sep close [] as := by
  generalize h : ([] : List τ) = w
  rintro (_ | _) <;> simp at h

theorem Begins.items {sep close : τ → Prop} (hL : L.Begins p) :
    (Lang.items L sep close).Begins p := by
  rintro w as (⟨hw, -⟩ | ⟨hw, -, -⟩) <;> obtain ⟨t, v, rfl, ht⟩ := hL hw
  exacts [⟨t, _, rfl, ht⟩, ⟨t, _, rfl, ht⟩]

end Avoids

/-! ## Larger languages -/

/-- Every word of the first is one of the second, with the same value. -/
def Sub (L M : Lang τ α) : Prop := ∀ ⦃w a⦄, L w a → M w a

section Sub

variable {p : τ → Prop} {L M L' M' : Lang τ α} {F G : α → Lang τ β}

theorem Sub.refl (L : Lang τ α) : L.Sub L := fun _ _ h => h

theorem Sub.alt (hL : L.Sub L') (hM : M.Sub M') : (Lang.alt L M).Sub (Lang.alt L' M') :=
  fun _ _ h => h.imp (hL ·) (hM ·)

theorem Sub.bind (hL : L.Sub M) (hF : ∀ a, (F a).Sub (G a)) : (L >>= F).Sub (M >>= G) := by
  rintro _ b ⟨u, v, a, rfl, hu, hv⟩
  exact ⟨u, v, a, rfl, hL hu, hF a hv⟩

theorem Sub.notFrom (hL : L.Sub M) : (Lang.notFrom p L).Sub (Lang.notFrom p M) :=
  fun _ _ h => ⟨hL h.1, h.2⟩

theorem Sub.items {sep close : τ → Prop} (hL : L.Sub M) :
    (Lang.items L sep close).Sub (Lang.items M sep close) := by
  intro w as h
  induction h with
  | last hw hc => exact .last (hL hw) hc
  | more hw hs _ ih => exact .more (hL hw) hs ih

end Sub

/-! ## What a word denotes -/

/-- A word of tokens with a property denotes a value with one. -/
def Ensures (P : τ → Prop) (Q : α → Prop) (L : Lang τ α) : Prop :=
  ∀ ⦃w a⦄, L w a → (∀ t ∈ w, P t) → Q a

section Ensures

variable {P p : τ → Prop} {Q : α → Prop} {R : β → Prop} {L M : Lang τ α} {F : α → Lang τ β}

theorem ensures_one {Q : τ → Prop} (h : ∀ t, p t → P t → Q t) : (one p).Ensures P Q := by
  rintro w t ⟨rfl, ht⟩ hP
  exact h t ht (hP t (List.mem_singleton_self t))

theorem ensures_pure {a : α} (h : Q a) : (pure a : Lang τ α).Ensures P Q := by
  rintro w b ⟨-, rfl⟩ -
  exact h

theorem ensures_given {c : Prop} {a : α} (h : c → Q a) : (given c a : Lang τ α).Ensures P Q := by
  rintro w b ⟨hc, -, rfl⟩ -
  exact h hc

theorem Ensures.alt (hL : L.Ensures P Q) (hM : M.Ensures P Q) : (Lang.alt L M).Ensures P Q := by
  rintro w a (h | h)
  exacts [hL h, hM h]

theorem Ensures.bind (hL : L.Ensures P Q) (hF : ∀ a, Q a → (F a).Ensures P R) :
    (L >>= F).Ensures P R := by
  rintro w b ⟨u, v, a, rfl, hu, hv⟩ hP
  exact hF a (hL hu fun t ht => hP t (List.mem_append_left v ht)) hv
    fun t ht => hP t (List.mem_append_right u ht)

theorem Ensures.notFrom (hL : L.Ensures P Q) : (Lang.notFrom p L).Ensures P Q :=
  fun _ _ h => hL h.1

theorem Ensures.items {sep close : τ → Prop} (hL : L.Ensures P Q) :
    (Lang.items L sep close).Ensures P fun as => as ≠ [] ∧ ∀ a ∈ as, Q a := by
  intro w as h
  induction h with
  | last hw hc =>
    intro hP
    refine ⟨List.cons_ne_nil _ _, fun a ha => ?_⟩
    rw [List.mem_singleton.mp ha]
    exact hL hw fun t ht => hP t (List.mem_append_left _ ht)
  | more hw hs _ ih =>
    intro hP
    refine ⟨List.cons_ne_nil _ _, fun a ha => ?_⟩
    rcases List.mem_cons.mp ha with rfl | ha
    · exact hL hw fun t ht => hP t (List.mem_append_left _ ht)
    · exact (ih fun t ht => hP t (List.mem_append_right _ (List.mem_cons_of_mem _ ht))).2 a ha

end Ensures

/-! ## What a value keeps of its word -/

/-- What is read off the tokens of a word, behind what was read before, is what its value keeps. -/
def Carries {σ : Type} (φ : τ → List σ) (before : List σ) (ψ : α → List σ) (L : Lang τ α) : Prop :=
  ∀ ⦃w a⦄, L w a → ψ a = before ++ w.flatMap φ

section Carries

variable {σ : Type} {φ : τ → List σ} {before : List σ} {ψ : α → List σ} {χ : β → List σ}
  {p : τ → Prop} {L M : Lang τ α} {F : α → Lang τ β}

theorem carries_one {ψ : τ → List σ} (h : ∀ t, p t → ψ t = before ++ φ t) :
    (one p).Carries φ before ψ := by
  rintro w t ⟨rfl, ht⟩
  simpa using h t ht

theorem carries_pure {a : α} (h : ψ a = before) : (pure a : Lang τ α).Carries φ before ψ := by
  rintro w b ⟨rfl, rfl⟩
  simpa using h

theorem carries_given {c : Prop} {a : α} (h : ψ a = before) :
    (given c a : Lang τ α).Carries φ before ψ := fun _ _ hw => carries_pure h hw.2

theorem Carries.alt (hL : L.Carries φ before ψ) (hM : M.Carries φ before ψ) :
    (Lang.alt L M).Carries φ before ψ := by
  rintro w a (h | h)
  exacts [hL h, hM h]

theorem Carries.bind (hL : L.Carries φ before ψ) (hF : ∀ a, (F a).Carries φ (ψ a) χ) :
    (L >>= F).Carries φ before χ := by
  rintro w b ⟨u, v, a, rfl, hu, hv⟩
  rw [hF a hv, hL hu, List.flatMap_append, List.append_assoc]

theorem Carries.notFrom (hL : L.Carries φ before ψ) : (Lang.notFrom p L).Carries φ before ψ :=
  fun _ _ h => hL h.1

theorem Carries.items {sep close : τ → Prop} (hL : L.Carries φ [] ψ) (hs : ∀ t, sep t → φ t = [])
    (hc : ∀ t, close t → φ t = []) :
    (Lang.items L sep close).Carries φ [] fun as => as.flatMap ψ := by
  intro w as h
  induction h with
  | last hw hcl => simpa [hc _ hcl] using hL hw
  | more hw hsep _ ih =>
    rw [List.nil_append] at ih
    simp [ih, hs _ hsep, hL hw]

end Carries

/-! ## Slots

Some tokens open a slot, and some fill one.  Where an item may be missing in one language and not in
another, the words of the first with every slot filled are the words of the second. -/

/-- The second language has the words of the first that have a property. -/
def Selects (P : List τ → Prop) (L M : Lang τ α) : Prop := ∀ w a, M w a ↔ L w a ∧ P w

/-- Every token that opens a slot is followed by one that fills it. -/
def Filled (opens fills : τ → Prop) (w : List τ) : Prop :=
  ∀ x c y, w = x ++ c :: y → opens c → ∃ t ∈ y.head?, fills t

/-- No word begins with a token of the kind; it may be empty. -/
def BeginsNot (p : τ → Prop) (L : Lang τ α) : Prop := ∀ ⦃w a⦄, L w a → ∀ t ∈ w.head?, ¬ p t

/-- An item that fills a slot; in the first language it may be missing. -/
structure Slot (opens fills : τ → Prop) (L M : Lang τ α) : Prop where
  sub : M.Sub L
  fills : ∀ ⦃w a⦄, M w a → ∃ t, w = [t] ∧ fills t ∧ ¬ opens t
  missing : ∀ ⦃w a⦄, L w a → M w a ∨ w = []

section Slots

variable {opens fills p : τ → Prop} {P Q : List τ → Prop} {L M L' M' : Lang τ α} {c : τ}
  {u v w : List τ} {as : List α}

theorem filled_nil : Filled opens fills [] := by
  rintro x c y h
  cases x <;> cases h

theorem filled_cons : Filled opens fills (c :: w) ↔
    (opens c → ∃ t ∈ w.head?, fills t) ∧ Filled opens fills w := by
  constructor
  · exact fun h => ⟨h [] c w rfl, fun x d y e => h (c :: x) d y (congrArg (c :: ·) e)⟩
  · rintro ⟨hc, hw⟩ x d y e
    cases x with
    | nil =>
      obtain ⟨rfl, rfl⟩ := List.cons.inj e
      exact hc
    | cons b x => exact hw x d y (List.cons.inj e).2

instance Filled.decidable [DecidablePred opens] [DecidablePred fills] :
    ∀ w, Decidable (Filled opens fills w)
  | [] => .isTrue filled_nil
  | _ :: w =>
    have := Filled.decidable w
    decidable_of_iff _ filled_cons.symm

/-- Slots are filled side by side, when the second part does not fill the last of the first. -/
theorem filled_append (hv : ∀ t ∈ v.head?, ¬ fills t) :
    Filled opens fills (u ++ v) ↔ Filled opens fills u ∧ Filled opens fills v := by
  induction u with
  | nil => exact (and_iff_right filled_nil).symm
  | cons c u ih =>
    have hhead : (∃ t ∈ (u ++ v).head?, fills t) ↔ ∃ t ∈ u.head?, fills t := by
      cases u with
      | nil =>
        refine iff_of_false ?_ ?_
        · rintro ⟨t, ht, hfills⟩
          exact hv t ht hfills
        · rintro ⟨t, ht, -⟩
          cases ht
      | cons d u => exact Iff.rfl
    rw [List.cons_append, filled_cons, filled_cons, ih, hhead, and_assoc]

theorem filled_of_notMem (h : ∀ t ∈ w, ¬ opens t) : Filled opens fills w := by
  rintro x c y rfl hc
  exact absurd hc (h c (by simp))

/-- Words on which two properties agree. -/
theorem Selects.congr (h : Selects P L M) (hPQ : ∀ ⦃w a⦄, L w a → (P w ↔ Q w)) :
    Selects Q L M := fun w a => (h w a).trans (and_congr_right fun hw => hPQ hw)

theorem Selects.alt (h : Selects P L M) (h' : Selects P L' M') :
    Selects P (Lang.alt L L') (Lang.alt M M') := fun w a => by
  rw [Lang.alt, Lang.alt, h w a, h' w a, or_and_right]

theorem Selects.under {d : Prop} (h : Selects P L M) :
    Selects P (Lang.under d L) (Lang.under d M) := fun w a => by
  rw [Lang.under, Lang.under, h w a, and_assoc]

/-- Where nothing opens a slot, every slot is filled. -/
theorem Avoids.selects (h : L.Avoids opens) : Selects (Filled opens fills) L L := fun _ _ =>
  (and_iff_left_of_imp fun hw => filled_of_notMem (h hw)).symm

/-- A token that opens nothing. -/
theorem Selects.one_bind {F G : τ → Lang τ α} (hp : ∀ t, p t → ¬ opens t)
    (h : ∀ t, Selects (Filled opens fills) (F t) (G t)) :
    Selects (Filled opens fills) (one p >>= F) (one p >>= G) := by
  intro w a
  rw [one_bind_iff, one_bind_iff]
  constructor
  · rintro ⟨t, v, rfl, ht, hG⟩
    obtain ⟨hF, hv⟩ := (h t v a).mp hG
    exact ⟨⟨t, v, rfl, ht, hF⟩, filled_cons.mpr ⟨fun ho => absurd ho (hp t ht), hv⟩⟩
  · rintro ⟨⟨t, v, rfl, ht, hF⟩, hw⟩
    exact ⟨t, v, rfl, ht, (h t v a).mpr ⟨hF, (filled_cons.mp hw).2⟩⟩

/-- Two parts, when the second does not fill the last slot of the first. -/
theorem Selects.bind {F G : α → Lang τ β} (h : Selects (Filled opens fills) L M)
    (hF : ∀ a, (F a).BeginsNot fills) (hFG : ∀ a, Selects (Filled opens fills) (F a) (G a)) :
    Selects (Filled opens fills) (L >>= F) (M >>= G) := by
  intro w b
  constructor
  · rintro ⟨u, v, a, rfl, hu, hv⟩
    obtain ⟨hL, hu⟩ := (h u a).mp hu
    obtain ⟨hF', hv⟩ := (hFG a v b).mp hv
    exact ⟨⟨u, v, a, rfl, hL, hF'⟩, (filled_append (hF a hF')).mpr ⟨hu, hv⟩⟩
  · rintro ⟨⟨u, v, a, rfl, hL, hF'⟩, hw⟩
    obtain ⟨hu, hv⟩ := (filled_append (hF a hF')).mp hw
    exact ⟨u, v, a, rfl, (h u a).mpr ⟨hL, hu⟩, (hFG a v b).mpr ⟨hF', hv⟩⟩

/-- **A slot is filled when its item is not missing.** -/
theorem Slot.iff (hs : Slot opens fills L M) (hc : opens c) {a : α} :
    M w a ↔ L w a ∧ Filled opens fills (c :: w) := by
  constructor
  · intro hw
    obtain ⟨t, rfl, ht, hto⟩ := hs.fills hw
    refine ⟨hs.sub hw, filled_cons.mpr ⟨fun _ => ⟨t, rfl, ht⟩, ?_⟩⟩
    exact filled_cons.mpr ⟨fun ho => absurd ho hto, filled_nil⟩
  · rintro ⟨hw, hfilled⟩
    refine (hs.missing hw).resolve_right ?_
    rintro rfl
    obtain ⟨t, ht, -⟩ := (filled_cons.mp hfilled).1 hc
    cases ht

/-- A token that opens a slot, its item, and what is behind. -/
theorem Slot.selects {F G : τ → α → Lang τ β} (hs : Slot opens fills L M)
    (hp : ∀ t, p t → opens t) (hF : ∀ t a, (F t a).BeginsNot fills)
    (hFG : ∀ t a, Selects (Filled opens fills) (F t a) (G t a)) :
    Selects (Filled opens fills) (one p >>= fun t => L >>= F t) (one p >>= fun t => M >>= G t) := by
  intro w b
  rw [one_bind_iff, one_bind_iff]
  constructor
  · rintro ⟨t, _, rfl, ht, u, v, a, rfl, hu, hv⟩
    obtain ⟨hL, hu⟩ := (hs.iff (hp t ht)).mp hu
    obtain ⟨hF', hv⟩ := (hFG t a v b).mp hv
    exact ⟨⟨t, _, rfl, ht, u, v, a, rfl, hL, hF'⟩, (filled_append (hF t a hF')).mpr ⟨hu, hv⟩⟩
  · rintro ⟨⟨t, _, rfl, ht, u, v, a, rfl, hL, hF'⟩, hw⟩
    obtain ⟨hu, hv⟩ := (filled_append (u := t :: u) (hF t a hF')).mp hw
    exact ⟨t, _, rfl, ht, u, v, a, rfl, (hs.iff (hp t ht)).mpr ⟨hL, hu⟩,
      (hFG t a v b).mpr ⟨hF', hv⟩⟩

section Items

variable {sep close : τ → Prop}

/-- Where no item is missing, every slot is filled. -/
theorem Slot.filled_of_items (hs : Slot opens fills L M) (hclose : ∀ t, close t → ¬ opens t)
    (hw : Items M sep close w as) (c : τ) : Filled opens fills (c :: w) := by
  induction hw generalizing c with
  | last hw hcl =>
    obtain ⟨t, rfl, ht, hto⟩ := hs.fills hw
    refine filled_cons.mpr ⟨fun _ => ⟨t, rfl, ht⟩, filled_cons.mpr ⟨fun ho => absurd ho hto, ?_⟩⟩
    exact filled_cons.mpr ⟨fun ho => absurd ho (hclose _ hcl), filled_nil⟩
  | more hw _ _ ih =>
    obtain ⟨t, rfl, ht, hto⟩ := hs.fills hw
    exact filled_cons.mpr ⟨fun _ => ⟨t, rfl, ht⟩, filled_cons.mpr ⟨fun ho => absurd ho hto, ih _⟩⟩

/-- Where every slot is filled, no item is missing. -/
theorem Slot.items_of_filled (hs : Slot opens fills L M)
    (hsep : ∀ t, sep t → opens t ∧ ¬ fills t) (hclose : ∀ t, close t → ¬ fills t)
    (hw : Items L sep close w as) (hc : opens c) (hfilled : Filled opens fills (c :: w)) :
    Items M sep close w as := by
  -- a slot that is not filled is empty, and the token behind it does not fill it
  have hitem {u v : List τ} {a : α} {c d : τ} (hu : L u a) (hc : opens c) (hd : ¬ fills d)
      (h : Filled opens fills (c :: (u ++ d :: v))) : M u a ∧ Filled opens fills (d :: v) := by
    have happend := (filled_append (u := c :: u) (v := d :: v) fun t ht => by
      obtain rfl := Option.some.inj ht
      exact hd).mp h
    exact ⟨(hs.iff hc).mpr ⟨hu, happend.1⟩, happend.2⟩
  induction hw generalizing c with
  | last hw hcl => exact .last (hitem hw hc (hclose _ hcl) hfilled).1 hcl
  | more hw hse _ ih =>
    obtain ⟨hM, hrest⟩ := hitem hw hc (hsep _ hse).2 hfilled
    exact .more hM hse (ih (hsep _ hse).1 hrest)

/-- **A list of items behind a token that opens the first slot**: each separator opens the next. -/
theorem Slot.selects_items (hs : Slot opens fills L M) (hp : ∀ t, p t → opens t)
    (hsep : ∀ t, sep t → opens t ∧ ¬ fills t) (hclose : ∀ t, close t → ¬ opens t ∧ ¬ fills t)
    {q : τ → Prop} : Selects (Filled opens fills)
      (one p >>= fun _ => Lang.notFrom q (items L sep close))
      (one p >>= fun _ => Lang.notFrom q (items M sep close)) := by
  intro w as
  rw [one_bind_iff, one_bind_iff]
  constructor
  · rintro ⟨t, v, rfl, ht, hv, hq⟩
    exact ⟨⟨t, v, rfl, ht, hs.sub.items hv, hq⟩,
      hs.filled_of_items (fun t ht => (hclose t ht).1) hv t⟩
  · rintro ⟨⟨t, v, rfl, ht, hv, hq⟩, hw⟩
    exact ⟨t, v, rfl, ht,
      hs.items_of_filled hsep (fun t ht => (hclose t ht).2) hv (hp t ht) hw, hq⟩

end Items

end Slots

/-! ## Derivations from a print

A print is a list of symbols, of another type than the tokens; a token stands for a symbol as a
relation says.  A print derives from a language when every list of tokens that stands for it is a
word, denoting a value as wanted. -/

/-- What stands for the print `ws` is a word of the language, with a value as wanted. -/
def Derives {ω : Type} (R : τ → ω → Prop) (L : Lang τ α) (ws : List ω) (Q : α → Prop) : Prop :=
  ∀ ⦃ts⦄, List.Forall₂ R ts ws → ∃ a, L ts a ∧ Q a

/-- The print of a separated list of items, closed. -/
def listed {ω ι : Type} (f : ι → List ω) (sep close : ω) : List ι → List ω
  | [] => []
  | [i] => f i ++ [close]
  | i :: j :: is => f i ++ sep :: listed f sep close (j :: is)

section Derives

variable {ω ι : Type} {R : τ → ω → Prop} {p : τ → Prop} {L M : Lang τ α} {F : α → Lang τ β}
  {us vs ws : List ω} {w : ω} {Q : α → Prop} {P : β → Prop}

theorem derives_pure {a : α} (h : Q a) : Derives R (pure a) [] Q := by
  rintro _ ⟨⟩
  exact ⟨a, ⟨rfl, rfl⟩, h⟩

theorem derives_given {c : Prop} {a : α} (hc : c) (h : Q a) : Derives R (given c a) [] Q := by
  rw [given_true hc]
  exact derives_pure h

theorem derives_one (h : ∀ t, R t w → p t) : Derives R (one p) [w] fun t => R t w := by
  rintro _ (_ | ⟨ht, ⟨⟩⟩)
  exact ⟨_, ⟨rfl, h _ ht⟩, ht⟩

theorem Derives.bind (hL : Derives R L us Q) (hF : ∀ a, Q a → Derives R (F a) vs P) :
    Derives R (L >>= F) (us ++ vs) P := by
  intro ts h
  obtain ⟨a, hu, ha⟩ := hL (List.forall₂_take_append ts us vs h)
  obtain ⟨b, hv, hb⟩ := hF a ha (List.forall₂_drop_append ts us vs h)
  exact ⟨b, ⟨_, _, a, (List.take_append_drop us.length ts).symm, hu, hv⟩, hb⟩

/-- A last part that prints nothing. -/
theorem Derives.bind_nil (hL : Derives R L us Q) (hF : ∀ a, Q a → Derives R (F a) [] P) :
    Derives R (L >>= F) us P := by
  have h := hL.bind hF
  rwa [List.append_nil] at h

theorem Derives.left (h : Derives R L ws Q) : Derives R (alt L M) ws Q := fun _ hts =>
  (h hts).imp fun _ ha => ⟨Or.inl ha.1, ha.2⟩

theorem Derives.right (h : Derives R M ws Q) : Derives R (alt L M) ws Q := fun _ hts =>
  (h hts).imp fun _ ha => ⟨Or.inr ha.1, ha.2⟩

theorem Derives.imp {Q' : α → Prop} (h : Derives R L ws Q) (hQ : ∀ a, Q a → Q' a) :
    Derives R L ws Q' := fun _ hts => (h hts).imp fun a ha => ⟨ha.1, hQ a ha.2⟩

/-- The first symbol of a print decides that a kind of token is not the first. -/
theorem Derives.notFrom (h : Derives R L ws Q) (hfirst : ∀ w ∈ ws.head?, ∀ t, R t w → ¬ p t) :
    Derives R (notFrom p L) ws Q := by
  intro ts hts
  obtain ⟨a, ha, hQ⟩ := h hts
  refine ⟨a, ⟨ha, ?_⟩, hQ⟩
  rintro t v rfl
  obtain ⟨w, ws, ht, -, rfl⟩ := List.forall₂_cons_left_iff.mp hts
  exact hfirst w rfl t ht

/-- **A separated list derives from its items.** -/
theorem derives_items {sep close : τ → Prop} {s c : ω} {f : ι → List ω} {Q : ι → α → Prop}
    (hs : ∀ t, R t s → sep t) (hc : ∀ t, R t c → close t) {is : List ι} (hne : is ≠ [])
    (hf : ∀ i ∈ is, Derives R L (f i) (Q i)) :
    Derives R (items L sep close) (listed f s c is) fun as => List.Forall₂ Q is as := by
  induction is with
  | nil => exact (hne rfl).elim
  | cons i is ih =>
    have hi := hf i List.mem_cons_self
    have his : ∀ j ∈ is, Derives R L (f j) (Q j) := fun j hj => hf j (List.mem_cons_of_mem i hj)
    cases is with
    | nil =>
      intro ts hts
      obtain ⟨a, ha, hQ⟩ := hi (List.forall₂_take_append ts (f i) [c] hts)
      obtain ⟨t, ts', ht, hnil, hdrop⟩ :=
        List.forall₂_cons_right_iff.mp (List.forall₂_drop_append ts (f i) [c] hts)
      obtain rfl := List.forall₂_nil_right_iff.mp hnil
      refine ⟨[a], ?_, .cons hQ .nil⟩
      rw [← List.take_append_drop (f i).length ts, hdrop]
      exact .last ha (hc t ht)
    | cons j is =>
      intro ts hts
      obtain ⟨a, ha, hQ⟩ := hi (List.forall₂_take_append ts (f i) (s :: listed f s c (j :: is)) hts)
      obtain ⟨t, ts', ht, hts', hdrop⟩ := List.forall₂_cons_right_iff.mp
        (List.forall₂_drop_append ts (f i) (s :: listed f s c (j :: is)) hts)
      obtain ⟨as, has, hQs⟩ := ih (List.cons_ne_nil j is) his hts'
      refine ⟨a :: as, ?_, .cons hQ hQs⟩
      rw [← List.take_append_drop (f i).length ts, hdrop]
      exact .more ha (hs t ht) has

end Derives

end Lang

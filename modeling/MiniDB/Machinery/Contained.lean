import MiniDB.Machinery.Reader

/-!
# Machinery/Contained — readers that stay in front of a stop token

Two streams are alike up to their first stop token and go on differently behind it — one may end
there.  Two readers settle together on them when they do the same: both stop, with one value and
the same tokens left in front of the stop, or both exit, with one error.  A reader that settles with
itself on all such streams has read nothing behind the stop: a read there would be a read past the
end on the stream that ends.  The bounds on the rounds may differ too, as long as both are above the
number of tokens in front of the stop: the loops are done by then.
-/

namespace Reader

variable {τ ε α β : Type}

/-- An outcome, with more tokens behind the ones that are left. -/
def Outcome.followedBy (rest : List τ) : Outcome τ ε α → Outcome τ ε α
  | .ok a left => .ok a (left ++ rest)
  | .error x => .error x
  | .outOfRange => .outOfRange

/-- The same outcome in front of the stop `e`, with `rest` and `rest'` behind it. -/
inductive Outcome.Agree (ts : List τ) (e : τ) (rest rest' : List τ) :
    Outcome τ ε α → Outcome τ ε α → Prop
  | ok (a : α) {mid : List τ} (hmid : mid <:+ ts) :
      Outcome.Agree ts e rest rest' (.ok a (mid ++ e :: rest)) (.ok a (mid ++ e :: rest'))
  | error (x : ε) : Outcome.Agree ts e rest rest' (.error x) (.error x)

/-- The readers do the same on `ts` and the stop `e`, whatever stands behind it. -/
def Settle (p p' : Reader τ ε α) (ts : List τ) (e : τ) : Prop :=
  ∀ ⦃n n'⦄ (rest rest' : List τ), ts.length < n → ts.length < n' →
    Outcome.Agree ts e rest rest' (p n (ts ++ e :: rest)) (p' n' (ts ++ e :: rest'))

/-- The reader reads nothing behind the first stop token. -/
def Contained (stop : τ → Bool) (p : Reader τ ε α) : Prop :=
  ∀ ⦃ts e⦄, (∀ t ∈ ts, stop t = false) → stop e = true → Settle p p ts e

theorem Outcome.Agree.mono {ts ts' : List τ} {e : τ} {rest rest' : List τ} {o o' : Outcome τ ε α}
    (h : Outcome.Agree ts' e rest rest' o o') (hts : ts' <:+ ts) :
    Outcome.Agree ts e rest rest' o o' := by
  cases h with
  | ok a hmid => exact .ok a (hmid.trans hts)
  | error x => exact .error x

/-! ## On one stream -/

section Settle

variable {p p' : Reader τ ε α} {f f' : α → Reader τ ε β} {q : τ → Bool}
  {yes yes' : τ → Reader τ ε α} {no no' : Reader τ ε α} {ts : List τ} {e : τ}

theorem settle_pure (a : α) : Settle (pure a : Reader τ ε α) (pure a) ts e :=
  fun _ _ _ _ _ _ => .ok a List.suffix_rfl

theorem Settle.bind (hp : Settle p p' ts e)
    (hf : ∀ a mid, mid <:+ ts → Settle (f a) (f' a) mid e) :
    Settle (p >>= f) (p' >>= f') ts e := by
  intro n n' rest rest' hn hn'
  have h := hp rest rest' hn hn'
  rw [bind_apply, bind_apply]
  generalize p n (ts ++ e :: rest) = o at h
  generalize p' n' (ts ++ e :: rest') = o' at h
  cases h with
  | @ok a mid hmid =>
    have hlen := hmid.length_le
    exact (hf a mid hmid rest rest' (by omega) (by omega)).mono hmid
  | error x => exact .error x

/-- A token that is taken stands in front of the stop. -/
theorem settle_branch (he : q e = false)
    (hy : ∀ t us, ts = t :: us → Settle (yes t) (yes' t) us e) (hn : Settle no no' ts e) :
    Settle (branch q yes no) (branch q yes' no') ts e := by
  intro n n' rest rest' hlt hlt'
  cases ts with
  | nil => simpa [branch, he] using hn rest rest' hlt hlt'
  | cons t us =>
    simp only [List.cons_append, branch]
    split
    · have h := hy t us rfl rest rest' (Nat.lt_of_succ_lt hlt) (Nat.lt_of_succ_lt hlt')
      exact h.mono (List.suffix_cons t us)
    · exact hn rest rest' hlt hlt'

end Settle

/-! ## On all streams -/

section Rules

variable {stop : τ → Bool} {p : Reader τ ε α} {f : α → Reader τ ε β} {q : τ → Bool}
  {yes : τ → Reader τ ε α} {no : Reader τ ε α}

theorem contained_pure (a : α) : Contained stop (pure a : Reader τ ε α) :=
  fun _ _ _ _ => settle_pure a

theorem contained_throw (x : ε) : Contained stop (throw x : Reader τ ε α) :=
  fun _ _ _ _ _ _ _ _ _ _ => .error x

theorem contained_peek : Contained stop (peek : Reader τ ε τ) := by
  intro ts e _ _ n n' rest rest' _ _
  cases ts with
  | nil => exact .ok e (List.suffix_refl [])
  | cons t us => exact .ok t (List.suffix_refl (t :: us))

theorem Contained.bind (hp : Contained stop p) (hf : ∀ a, Contained stop (f a)) :
    Contained stop (p >>= f) :=
  fun _ _ hts he => (hp hts he).bind fun a _ hmid =>
    hf a (fun t ht => hts t (hmid.subset ht)) he

theorem Contained.ite {c : Prop} [Decidable c] (hp : Contained stop p) (hno : Contained stop no) :
    Contained stop (if c then p else no) := by
  split
  · exact hp
  · exact hno

theorem contained_branch (hq : ∀ t, stop t = true → q t = false)
    (hy : ∀ t, Contained stop (yes t)) (hn : Contained stop no) :
    Contained stop (branch q yes no) := by
  intro ts e hts he
  refine settle_branch (hq e he) (fun t us hus => ?_) (hn hts he)
  exact hy t (fun u hu => hts u (hus ▸ List.mem_cons_of_mem t hu)) he

theorem contained_guardNext (hbad : Contained stop no) (hgo : Contained stop p) :
    Contained stop (guardNext q no p) := by
  have heq : guardNext q no p = (peek >>= fun t => if q t = true then no else p) := by
    funext n ts
    cases ts with
    | nil => rfl
    | cons t ts =>
      rw [guardNext, bind_of_ok _ (peek_cons n t ts)]
      split <;> rfl
  rw [heq]
  exact contained_peek.bind fun _ => .ite hbad hgo

/-- **A loop over separated items settles**, for any two numbers of rounds above the number of
tokens: every round but the last takes a separator. -/
theorem settle_itemsLoop {sep close : τ → Bool} {bad : Reader τ ε (List α)}
    (hp : Contained stop p) (hbad : Contained stop bad) (hs : ∀ t, stop t = true → sep t = false)
    (hc : ∀ t, stop t = true → close t = false) {e : τ} (he : stop e = true) (k k' : Nat)
    {ts : List τ} (hts : ∀ t ∈ ts, stop t = false) (hk : ts.length < k) (hk' : ts.length < k') :
    Settle (itemsLoop p sep close bad k) (itemsLoop p sep close bad k') ts e := by
  induction k generalizing k' ts with
  | zero => omega
  | succ k ih =>
    obtain ⟨k', rfl⟩ := Nat.exists_eq_add_one_of_ne_zero (Nat.ne_zero_of_lt hk')
    refine (hp hts he).bind fun a mid hmid => ?_
    have hmids : ∀ t ∈ mid, stop t = false := fun t ht => hts t (hmid.subset ht)
    have hlen := hmid.length_le
    refine settle_branch (hc e he) (fun _ _ _ => settle_pure _) ?_
    refine settle_branch (hs e he) (fun t us hus => ?_) (hbad hmids he)
    subst hus
    rw [List.length_cons] at hlen
    have hrest := ih k' (fun u hu => hmids u (List.mem_cons_of_mem t hu)) (by omega) (by omega)
    exact hrest.bind fun _ _ _ => settle_pure _

end Rules

/-- **A contained reader does on a stream what it does on its part up to the stop**: it makes no
read past the end of that part, stops in front of the stop, and leaves the rest where it is. -/
theorem Contained.cut {stop : τ → Bool} {p : Reader τ ε α} (h : Contained stop p) {ts : List τ}
    {e : τ} (hts : ∀ t ∈ ts, stop t = false) (he : stop e = true) (rest : List τ) {n : Nat}
    (hn : ts.length < n) :
    p (ts.length + 1) (ts ++ [e]) ≠ .outOfRange ∧
    p n (ts ++ e :: rest) = (p (ts.length + 1) (ts ++ [e])).followedBy rest ∧
    ∀ a left, p n (ts ++ e :: rest) = .ok a left → e :: rest <:+ left := by
  have hagree := h hts he [] rest (Nat.lt_succ_self _) hn
  generalize p (ts.length + 1) (ts ++ [e]) = o at hagree
  generalize p n (ts ++ e :: rest) = o' at hagree
  cases hagree with
  | @ok a mid hmid =>
    refine ⟨?_, by simp [Outcome.followedBy], ?_⟩
    · intro h
      cases h
    · intro _ _ h
      cases h
      exact List.suffix_append mid _
  | error x =>
    refine ⟨?_, rfl, ?_⟩
    · intro h
      cases h
    · intro _ _ h
      cases h

/-- On a stream with a stop token, rounds to spare make no difference. -/
theorem Contained.rounds {stop : τ → Bool} {p : Reader τ ε α} (h : Contained stop p) {ts : List τ}
    (hstop : ∃ t ∈ ts, stop t = true) {n n' : Nat} (hn : ts.length ≤ n) (hn' : ts.length ≤ n') :
    p n ts ≠ .outOfRange ∧ p n' ts = p n ts := by
  obtain ⟨e, hfind⟩ := Option.isSome_iff_exists.mp (List.find?_isSome.mpr hstop)
  obtain ⟨he, front, rest, hsplit, hfront⟩ := List.find?_eq_some_iff_append.mp hfind
  have hlen : front.length < ts.length := by
    rw [hsplit]
    simp
  have hagree := h (fun t ht => by simpa using hfront t ht) he rest rest
    (Nat.lt_of_lt_of_le hlen hn) (Nat.lt_of_lt_of_le hlen hn')
  rw [← hsplit] at hagree
  generalize p n ts = o at hagree
  generalize p n' ts = o' at hagree
  cases hagree with
  | ok a hmid => exact ⟨by simp, rfl⟩
  | error x => exact ⟨by simp, rfl⟩

end Reader

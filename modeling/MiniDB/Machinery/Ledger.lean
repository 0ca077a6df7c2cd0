import Mathlib.Data.List.Nodup
import Mathlib.Data.List.Perm.Basic

/-!
# Machinery/Ledger — a heap of blocks, and who answers for them

A heap gives out addresses it has never given out before; using or releasing a block that is not
there is a fault.  A ledger lists blocks by address, and a heap holds a ledger when these are all
its blocks: so a run that ends with the empty ledger has leaked nothing, and one that does not fault
has released nothing twice.

`Does m before Q` is the triple: on every heap that holds `before`, with whatever else, `m` comes to
its end, has changed nothing else, and leaves a result and a ledger as `Q` has it.  There is a rule
for each access and for what is put together of them; `Reads` is the triple of a program that only
reads.
-/

namespace Ledger

variable {α β γ : Type}

inductive Fault where
  /-- A null pointer, or a block that is not or no longer there. -/
  | unallocated
  /-- A block that is not what it is taken for. -/
  | unsuitable
  deriving DecidableEq, Repr

/-- The blocks by their addresses, less those released. -/
structure Heap (β : Type) where
  blocks : List (Option β) := []
  deriving DecidableEq, Repr

/-- Null, or an address. -/
abbrev Pointer := Option Nat

def Heap.get (h : Heap β) (a : Nat) : Option β := h.blocks[a]?.join

/-- What a program does on a heap. -/
abbrev HeapM (β : Type) := StateT (Heap β) (Except Fault)

/-! ## Accesses -/

def new (b : β) : HeapM β Nat := fun h => .ok (h.blocks.length, ⟨h.blocks ++ [some b]⟩)

def load (a : Nat) : HeapM β β := fun h =>
  match h.get a with
  | none => .error .unallocated
  | some b => .ok (b, h)

def store (a : Nat) (b : β) : HeapM β Unit := fun h =>
  match h.get a with
  | none => .error .unallocated
  | some _ => .ok ((), ⟨h.blocks.set a (some b)⟩)

/-- A release, which leaves a null pointer alone. -/
def delete (p : Pointer) : HeapM β Unit := fun h =>
  match p with
  | none => .ok ((), h)
  | some a =>
    match h.get a with
    | none => .error .unallocated
    | some _ => .ok ((), ⟨h.blocks.set a none⟩)

/-! ## Ledgers -/

/-- The blocks of the heap are those of the ledger. -/
structure Holds (h : Heap β) (l : List (Nat × β)) : Prop where
  nodup : (l.map Prod.fst).Nodup
  get : ∀ a b, h.get a = some b ↔ (a, b) ∈ l

/-- The triple, with the frame. -/
def Does (m : HeapM β α) (before : List (Nat × β)) (Q : α → List (Nat × β) → Prop) : Prop :=
  ∀ ⦃h frame⦄, Holds h (before ++ frame) →
    ∃ r h' after, m.run h = .ok (r, h') ∧ Q r after ∧ Holds h' (after ++ frame)

/-- The program finds a value, and changes nothing. -/
def Reads (m : HeapM β α) (own : List (Nat × β)) (v : α) : Prop :=
  Does m own fun r after => r = v ∧ after = own

section Ledgers

variable {h : Heap β} {l l' : List (Nat × β)} {a : Nat} {b b' : β}

theorem holds_nil : Holds (β := β) {} [] := ⟨List.nodup_nil, by simp [Heap.get]⟩

theorem Holds.perm (hl : Holds h l) (hp : l.Perm l') : Holds h l' :=
  ⟨(hp.map _).nodup_iff.mp hl.nodup, fun a b => (hl.get a b).trans hp.mem_iff⟩

/-- With an empty ledger the heap has no block. -/
theorem Holds.get_nil (hl : Holds h []) (a : Nat) : h.get a = none := by
  rw [Option.eq_none_iff_forall_ne_some]
  exact fun b hb => by simpa using (hl.get a b).mp hb

theorem get_lt (h : Heap β) (hb : h.get a = some b) : a < h.blocks.length := by
  by_contra ha
  rw [Heap.get, List.getElem?_eq_none (Nat.le_of_not_lt ha)] at hb
  cases hb

theorem get_set (hlt : a < h.blocks.length) (x : Option β) (c : Nat) :
    (⟨h.blocks.set a x⟩ : Heap β).get c = if c = a then x else h.get c := by
  rw [Heap.get, List.getElem?_set]
  by_cases hc : c = a
  · subst hc
    simp [hlt]
  · rw [if_neg (Ne.symm hc), if_neg hc]
    rfl

/-- A new block gets an address of its own. -/
theorem Holds.new (hl : Holds h l) (b : β) :
    Holds ⟨h.blocks ++ [some b]⟩ ((h.blocks.length, b) :: l) := by
  have hlt (c : Nat) (x : β) (hmem : (c, x) ∈ l) : c < h.blocks.length :=
    get_lt h ((hl.get c x).mpr hmem)
  constructor
  · rw [List.map_cons, List.nodup_cons]
    refine ⟨fun hmem => ?_, hl.nodup⟩
    obtain ⟨⟨c, x⟩, hx, hc⟩ := List.mem_map.mp hmem
    exact absurd (hlt c x hx) (by simp only at hc; omega)
  · intro c x
    rw [Heap.get, List.mem_cons]
    rcases Nat.lt_trichotomy c h.blocks.length with hc | rfl | hc
    · rw [List.getElem?_append_left hc, ← Heap.get, hl.get, Prod.mk.injEq]
      simp [Nat.ne_of_lt hc]
    · have hnone : (h.blocks.length, x) ∉ l := fun hmem => absurd (hlt _ x hmem) (Nat.lt_irrefl _)
      simp [hnone, eq_comm]
    · have hnone : (c, x) ∉ l := fun hmem => absurd (hlt c x hmem) (by omega)
      rw [List.getElem?_eq_none (by simp; omega)]
      simp [hnone, Nat.ne_of_gt hc]

/-- A block changes. -/
theorem Holds.store (hl : Holds h ((a, b) :: l)) (b' : β) :
    Holds ⟨h.blocks.set a (some b')⟩ ((a, b') :: l) := by
  have ha := get_lt h ((hl.get a b).mpr List.mem_cons_self)
  have hnot := (List.nodup_cons.mp hl.nodup).1
  refine ⟨hl.nodup, fun c x => ?_⟩
  rw [get_set ha]
  split
  · next hc =>
    subst hc
    have hmem : (c, x) ∉ l := fun hmem => hnot (List.mem_map.mpr ⟨(c, x), hmem, rfl⟩)
    simp [hmem, eq_comm]
  · next hc =>
    rw [hl.get, List.mem_cons, List.mem_cons]
    simp [hc]

/-- A block is released. -/
theorem Holds.delete (hl : Holds h ((a, b) :: l)) : Holds ⟨h.blocks.set a none⟩ l := by
  have ha := get_lt h ((hl.get a b).mpr List.mem_cons_self)
  obtain ⟨hnot, hnodup⟩ := List.nodup_cons.mp hl.nodup
  refine ⟨hnodup, fun c x => ?_⟩
  rw [get_set ha]
  split
  · next hc =>
    subst hc
    have hmem : (c, x) ∉ l := fun hmem => hnot (List.mem_map.mpr ⟨(c, x), hmem, rfl⟩)
    simp [hmem]
  · next hc =>
    rw [hl.get, List.mem_cons]
    simp [hc]

end Ledgers

/-! ## The rules -/

section Rules

variable {m : HeapM β α} {f : α → HeapM β γ} {before before' own rest : List (Nat × β)}
  {Q Q' : α → List (Nat × β) → Prop} {R : γ → List (Nat × β) → Prop} {a : Nat} {b : β}

theorem does_pure {r : α} (hr : Q r before) : Does (pure r : HeapM β α) before Q :=
  fun h _ hh => ⟨r, h, before, rfl, hr, hh⟩

/-- The order of a ledger does not matter. -/
theorem Does.perm (hm : Does m before Q) (hp : before'.Perm before) : Does m before' Q :=
  fun _ frame hh => hm (hh.perm (hp.append_right frame))

theorem Does.imp (hm : Does m before Q)
    (hQ : ∀ r after, Q r after → ∃ after', after.Perm after' ∧ Q' r after') : Does m before Q' := by
  intro h frame hh
  obtain ⟨r, h', after, hrun, hr, hh'⟩ := hm hh
  obtain ⟨after', hp, hr'⟩ := hQ r after hr
  exact ⟨r, h', after', hrun, hr', hh'.perm (hp.append_right frame)⟩

/-- **The rule of a sequence.** -/
theorem Does.bind (hm : Does m before Q) (hf : ∀ r after, Q r after → Does (f r) after R) :
    Does (m >>= f) before R := by
  intro h frame hh
  obtain ⟨r, h₁, l₁, hrun, hr, hh₁⟩ := hm hh
  obtain ⟨s, h₂, l₂, hrun₂, hs, hh₂⟩ := hf r l₁ hr hh₁
  refine ⟨s, h₂, l₂, ?_, hs, hh₂⟩
  rw [StateT.run_bind, hrun]
  exact hrun₂

/-- **The frame rule**: what is not needed stays as it is. -/
theorem Does.frame (hm : Does m own Q) (rest : List (Nat × β)) :
    Does m (own ++ rest) fun r after => ∃ own', Q r own' ∧ after = own' ++ rest := by
  intro h frame hh
  rw [List.append_assoc] at hh
  obtain ⟨r, h', own', hrun, hr, hh'⟩ := hm hh
  exact ⟨r, h', own' ++ rest, hrun, ⟨own', hr, rfl⟩, by rwa [List.append_assoc]⟩

/-- A first part that needs some of the blocks. -/
theorem Does.bind_on (hm : Does m own Q) (hp : before.Perm (own ++ rest))
    (hf : ∀ r after, Q r after → Does (f r) (after ++ rest) R) : Does (m >>= f) before R := by
  refine ((hm.frame rest).perm hp).bind fun r after hr => ?_
  obtain ⟨own', hr, rfl⟩ := hr
  exact hf r own' hr

theorem does_new (b : β) : Does (new b) [] fun a after => after = [(a, b)] :=
  fun h _ hh => ⟨h.blocks.length, _, _, rfl, rfl, hh.new b⟩

theorem reads_pure (v : α) : Reads (pure v : HeapM β α) own v := does_pure ⟨rfl, rfl⟩

/-- What is read is passed on. -/
theorem Reads.bind {v : α} (hm : Reads m own v) (hf : Does (f v) own R) : Does (m >>= f) own R := by
  refine Does.bind hm ?_
  rintro _ _ ⟨rfl, rfl⟩
  exact hf

/-- A program that reads some of the blocks. -/
theorem Reads.on {v : α} (hm : Reads m own v) (hp : before.Perm (own ++ rest)) :
    Reads m before v := by
  refine ((hm.frame rest).perm hp).imp ?_
  rintro _ _ ⟨_, ⟨rfl, rfl⟩, rfl⟩
  exact ⟨before, hp.symm, rfl, rfl⟩

theorem reads_load (hmem : (a, b) ∈ own) : Reads (load a) own b := by
  intro h frame hh
  have hget := (hh.get a b).mpr (List.mem_append_left _ hmem)
  refine ⟨b, h, own, ?_, ⟨rfl, rfl⟩, hh⟩
  simp [load, StateT.run, hget]

theorem does_store (b' : β) : Does (store a b') [(a, b)] fun _ after => after = [(a, b')] := by
  intro h frame hh
  have hget := (hh.get a b).mpr List.mem_cons_self
  refine ⟨(), _, _, ?_, rfl, hh.store b'⟩
  simp [store, StateT.run, hget]

theorem does_delete : Does (delete (some a)) [(a, b)] fun _ after => after = [] := by
  intro h frame hh
  have hget := (hh.get a b).mpr List.mem_cons_self
  refine ⟨(), _, _, ?_, rfl, hh.delete⟩
  simp [delete, StateT.run, hget]

theorem does_delete_null : Does (β := β) (delete none) [] fun _ after => after = [] :=
  fun h _ hh => ⟨(), h, [], rfl, rfl, hh⟩

/-- **The rule of a counted loop**: the ledger in front of each round. -/
theorem does_range {n : Nat} {body : Nat → HeapM β Unit} (I : Nat → List (Nat × β))
    (hbody : ∀ i < n, Does (body i) (I i) fun _ after => after.Perm (I (i + 1))) :
    Does ((List.range n).forM body) (I 0) fun _ after => after = I n := by
  suffices h : ∀ k m, k + m = n →
      Does ((List.range' k m).forM body) (I k) fun _ after => after = I n by
    rw [List.range_eq_range']
    exact h 0 n (Nat.zero_add n)
  intro k m hkm
  induction m generalizing k with
  | zero => exact does_pure (congrArg I hkm)
  | succ m ih =>
    refine (hbody k (by omega)).bind fun _ after hp => ?_
    exact (ih (k + 1) (by omega)).perm hp

/-- A loop that reads the entries of a list in turn. -/
theorem reads_range {ι : Type} {xs : List ι} {read : Nat → HeapM β α} (f : ι → α)
    (hread : ∀ i x, xs[i]? = some x → Reads (read i) own (f x)) :
    Reads ((List.range xs.length).mapM read) own (xs.map f) := by
  suffices h : ∀ k ys, xs.drop k = ys →
      Reads ((List.range' k ys.length).mapM read) own (ys.map f) by
    rw [List.range_eq_range']
    exact h 0 xs rfl
  intro k ys hys
  induction ys generalizing k with
  | nil => exact reads_pure []
  | cons y ys ih =>
    have hy : xs[k]? = some y := by
      rw [← List.head?_drop, hys, List.head?_cons]
    have htail : xs.drop (k + 1) = ys := by
      rw [← List.tail_drop, hys, List.tail_cons]
    rw [List.length_cons, List.range'_succ, List.mapM_cons]
    exact (hread k y hy).bind ((ih (k + 1) htail).bind (reads_pure _))

end Rules

end Ledger

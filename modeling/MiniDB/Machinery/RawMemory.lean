import Mathlib.Data.List.Basic

/-!
# Machinery/RawMemory — buffers of slots that are live or dead

A buffer is allocated with dead slots.  Constructing makes a slot live, destroying makes it dead;
what a program must not do with one is a `Fault`.  An address is never given out twice, so a use of
a released buffer is a fault too.

Each access is one `put` (`construct_eq`, `destroy_eq`, …), and the loops over a buffer are known
from what they leave after `i` rounds (`loop_eq`): `packed` fills it from the front, `hollow`
empties it from the front.  `rest` is the memory outside one buffer; what keeps it touches no
other buffer.
-/

namespace RawMemory

variable {σ α : Type*}

inductive Fault
  /-- A null pointer, or a buffer that is not or no longer there. -/
  | unallocated
  /-- A slot outside the buffer. -/
  | bounds
  /-- Construction over a live slot. -/
  | live
  /-- A dead slot read, assigned to or destroyed. -/
  | dead
  /-- A buffer released with live slots. -/
  | leak
  /-- A variable used before its constructor or after its destructor. -/
  | lifetime
deriving DecidableEq, Repr

/-- The slots of a buffer, live with a value or dead. -/
abbrev Slots (α : Type*) := List (Option α)

/-- Null, or an address. -/
abbrev Pointer := Option Nat

/-- The buffers by their addresses, less those released. -/
structure Memory (α : Type*) where
  buffers : List (Option (Slots α)) := []

namespace Memory

/-! ## Accesses -/

def slots (m : Memory α) (p : Pointer) : Option (Slots α) := p.bind fun a => m.buffers[a]?.join

/-- The memory with another buffer, or none, behind the pointer. -/
def put (m : Memory α) (p : Pointer) (b : Option (Slots α)) : Memory α :=
  p.elim m fun a => ⟨m.buffers.set a b⟩

def slot (m : Memory α) (p : Pointer) (i : Nat) : Except Fault (Slots α × Option α) :=
  match m.slots p with
  | none => .error .unallocated
  | some b =>
    match b[i]? with
    | none => .error .bounds
    | some x => .ok (b, x)

/-- `::operator new`: as many slots as asked for, all dead. -/
def allocate (m : Memory α) (n : Nat) : Pointer × Memory α :=
  (some m.buffers.length, ⟨m.buffers ++ [some (List.replicate n none)]⟩)

/-- `::operator delete`, which leaves a null pointer alone. -/
def release (m : Memory α) (p : Pointer) : Except Fault (Memory α) :=
  if p = none then .ok m
  else
    match m.slots p with
    | none => .error .unallocated
    | some b => if b.all Option.isNone then .ok (m.put p none) else .error .leak

/-- `new (p + i) T(x)`. -/
def construct (m : Memory α) (p : Pointer) (i : Nat) (x : α) : Except Fault (Memory α) := do
  match ← m.slot p i with
  | (b, none) => .ok (m.put p (some (b.set i (some x))))
  | (_, some _) => .error .live

def read (m : Memory α) (p : Pointer) (i : Nat) : Except Fault α := do
  match ← m.slot p i with
  | (_, none) => .error .dead
  | (_, some x) => .ok x

/-- A live slot changes: to another value, or to none when it is destroyed. -/
def change (m : Memory α) (p : Pointer) (i : Nat) (f : α → Option α) : Except Fault (Memory α) := do
  match ← m.slot p i with
  | (_, none) => .error .dead
  | (b, some x) => .ok (m.put p (some (b.set i (f x))))

/-- `p[i] = x`. -/
def assign (m : Memory α) (p : Pointer) (i : Nat) (x : α) : Except Fault (Memory α) :=
  m.change p i fun _ => some x

/-- `p[i].~T()`. -/
def destroy (m : Memory α) (p : Pointer) (i : Nat) : Except Fault (Memory α) :=
  m.change p i fun _ => none

/-- `new (q + i) T(p[i])`. -/
def copySlot (p q : Pointer) (i : Nat) (m : Memory α) : Except Fault (Memory α) := do
  let x ← m.read p i
  m.construct q i x

/-- `new (q + i) T(std::move(p[i])); p[i].~T()`; `moved` is what a move leaves behind. -/
def moveSlot (moved : α → α) (p q : Pointer) (i : Nat) (m : Memory α) :
    Except Fault (Memory α) := do
  let x ← m.read p i
  let m ← m.change p i fun x => some (moved x)
  let m ← m.construct q i x
  m.destroy p i

section Accesses

variable {m : Memory α} {p q : Pointer} {b b' : Slots α} {i : Nat} {x : α}

theorem slots_put (h : (m.slots p).isSome) (b : Option (Slots α)) : (m.put p b).slots p = b := by
  cases p with
  | none => simp [slots] at h
  | some a =>
    have ha : a < m.buffers.length := by
      by_contra ha
      simp [slots, List.getElem?_eq_none (Nat.le_of_not_lt ha)] at h
    simp [slots, put, ha]

theorem slots_put_ne (h : q ≠ p) (b : Option (Slots α)) : (m.put p b).slots q = m.slots q := by
  cases p with
  | none => rfl
  | some a =>
    cases q with
    | none => rfl
    | some c => simp [slots, put, List.getElem?_set_ne (fun hac : a = c => h (by rw [hac]))]

@[simp] theorem put_put (b b' : Option (Slots α)) : (m.put p b).put p b' = m.put p b' := by
  cases p <;> simp [put]

theorem put_comm (h : p ≠ q) (b b' : Option (Slots α)) :
    (m.put p b).put q b' = (m.put q b').put p b := by
  cases p with
  | none => rfl
  | some a =>
    cases q with
    | none => rfl
    | some c => simp [put, List.set_comm _ _ (fun hac : a = c => h (by rw [hac]))]

/-- Putting back what is there changes nothing. -/
theorem put_self (h : m.slots p = some b) : m.put p (some b) = m := by
  cases p with
  | none => rfl
  | some a =>
    have ha : m.buffers[a]? = some (some b) := by simpa [slots, Option.join_eq_some_iff] using h
    obtain ⟨hlt, hget⟩ := List.getElem?_eq_some_iff.mp ha
    simp only [put, Option.elim_some, ← hget, List.set_getElem_self]

theorem slot_eq (hb : m.slots p = some b) {s : Option α} (hs : b[i]? = some s) :
    m.slot p i = .ok (b, s) := by
  rw [slot, hb]
  simp only [hs]

/-- **Constructing in a dead slot.** -/
theorem construct_eq (hb : m.slots p = some b) (hs : b[i]? = some none) :
    m.construct p i x = .ok (m.put p (some (b.set i (some x)))) := by
  rw [construct, slot_eq hb hs]
  rfl

/-- **Reading a live slot.** -/
theorem read_eq (hb : m.slots p = some b) (hs : b[i]? = some (some x)) : m.read p i = .ok x := by
  rw [read, slot_eq hb hs]
  rfl

/-- **Changing a live slot.** -/
theorem change_eq (hb : m.slots p = some b) (hs : b[i]? = some (some x)) (f : α → Option α) :
    m.change p i f = .ok (m.put p (some (b.set i (f x)))) := by
  rw [change, slot_eq hb hs]
  rfl

theorem copySlot_eq (hb : m.slots p = some b) (hs : b[i]? = some (some x))
    (hc : m.slots q = some b') (hd : b'[i]? = some none) :
    copySlot p q i m = .ok (m.put q (some (b'.set i (some x)))) := by
  rw [copySlot, read_eq hb hs]
  exact construct_eq hc hd

/-- **A value moves to another buffer**: there the slot is live now, and here it is dead. -/
theorem moveSlot_eq (moved : α → α) (hpq : p ≠ q) (hb : m.slots p = some b)
    (hs : b[i]? = some (some x)) (hc : m.slots q = some b') (hd : b'[i]? = some none) :
    moveSlot moved p q i m =
      .ok ((m.put q (some (b'.set i (some x)))).put p (some (b.set i none))) := by
  have hi : i < b.length := (List.getElem?_eq_some_iff.mp hs).1
  have hp : (m.slots p).isSome := by rw [hb]; rfl
  have hchange := change_eq hb hs fun x => some (moved x)
  have hconstruct := construct_eq (x := x)
    ((slots_put_ne (Ne.symm hpq) (some (b.set i (some (moved x))))).trans hc) hd
  have hdestroy := change_eq
    ((slots_put_ne (m := m.put p (some (b.set i (some (moved x))))) hpq
      (some (b'.set i (some x)))).trans (slots_put hp _))
    (List.getElem?_set_self (a := some (moved x)) hi) fun _ => none
  rw [moveSlot, read_eq hb hs]
  simp only [bind, Except.bind, hchange, hconstruct]
  rw [destroy, hdestroy, List.set_set, put_comm hpq, put_put]

/-- A buffer without live slots is released. -/
theorem release_eq (hb : m.slots p = some b) (h : ∀ s ∈ b, s = none) :
    m.release p = .ok (m.put p none) := by
  have hp : p ≠ none := by
    rintro rfl
    cases hb
  have hall : b.all Option.isNone = true := List.all_eq_true.mpr fun s hs => by rw [h s hs]; rfl
  rw [release, if_neg hp, hb]
  simp only [hall, if_true]

/-! ## Allocation -/

/-- A new buffer is nowhere else. -/
theorem slots_fresh (m : Memory α) (n : Nat) : m.slots (m.allocate n).1 = none := by
  simp [slots, allocate]

theorem slots_allocate (m : Memory α) (n : Nat) :
    (m.allocate n).2.slots (m.allocate n).1 = some (List.replicate n none) := by
  simp [slots, allocate]

theorem slots_allocate_ne (n : Nat) (h : p ≠ (m.allocate n).1) :
    (m.allocate n).2.slots p = m.slots p := by
  cases p with
  | none => rfl
  | some a =>
    have ha : a ≠ m.buffers.length := fun ha => h (by rw [ha]; rfl)
    rcases Nat.lt_or_gt_of_ne ha with hlt | hgt
    · simp [slots, allocate, List.getElem?_append_left hlt]
    · have hlen : (m.buffers ++ [some (List.replicate n none)]).length ≤ a := by
        rw [List.length_append]
        exact hgt
      simp only [slots, allocate, Option.bind_some, List.getElem?_eq_none hlen,
        List.getElem?_eq_none (Nat.le_of_lt hgt)]

theorem ne_fresh (n : Nat) (h : (m.slots p).isSome) : p ≠ (m.allocate n).1 := by
  rintro rfl
  rw [slots_fresh] at h
  cases h

/-! ## The rest of the memory -/

/-- The buffers by their addresses, without the one behind `p`. -/
def rest (m : Memory α) (p : Pointer) (a : Nat) : Option (Slots α) :=
  if p = some a then none else m.slots (some a)

/-- What keeps the rest keeps each other buffer, and does not take its address. -/
theorem slots_of_rest {m' : Memory α} {a : Nat} (hrest : m'.rest q = m.rest p) (hp : p ≠ some a)
    (hsome : (m.slots (some a)).isSome) : q ≠ some a ∧ m'.slots (some a) = m.slots (some a) := by
  have ha := congrFun hrest a
  rw [rest, rest, if_neg hp] at ha
  split_ifs at ha with hq
  · rw [← ha] at hsome
    cases hsome
  · exact ⟨hq, ha⟩

theorem rest_put (m : Memory α) (p : Pointer) (b : Option (Slots α)) :
    (m.put p b).rest p = m.rest p := by
  funext a
  rw [rest, rest]
  split_ifs with h
  · rfl
  · exact slots_put_ne (Ne.symm h) b

theorem rest_allocate (m : Memory α) (n : Nat) :
    (m.allocate n).2.rest (m.allocate n).1 = m.rest none := by
  funext a
  rw [rest, rest, if_neg (Option.some_ne_none a).symm]
  split_ifs with h
  · rw [← h, slots_fresh]
  · exact slots_allocate_ne n (Ne.symm h)

/-- A buffer that is gone leaves the rest and nothing else. -/
theorem rest_released (h : p ≠ none → (m.slots p).isSome) :
    (m.put p none).rest none = m.rest p := by
  funext a
  rw [rest, rest, if_neg (Option.some_ne_none a).symm]
  split_ifs with hp
  · rw [← hp, slots_put (h (hp ▸ Option.some_ne_none a))]
  · exact slots_put_ne (Ne.symm hp) none

/-- **A new buffer in place of an old one** leaves the rest as it was. -/
theorem rest_replaced (h : p ≠ none → (m.slots p).isSome) (n : Nat) (b : Slots α) :
    (((m.allocate n).2.put (m.allocate n).1 (some b)).put p none).rest (m.allocate n).1 =
      m.rest p := by
  funext a
  rw [rest, rest]
  split_ifs with hq hp hp
  · rfl
  · rw [← hq, slots_fresh]
  · have hold : (m.slots p).isSome := h (hp ▸ Option.some_ne_none a)
    rw [← hp, slots_put]
    rw [slots_put_ne (ne_fresh n hold), slots_allocate_ne n (ne_fresh n hold)]
    exact hold
  · rw [slots_put_ne (Ne.symm hp), slots_put_ne (Ne.symm hq), slots_allocate_ne n (Ne.symm hq)]

end Accesses

end Memory

/-! ## Loops -/

/-- `for (i = 0; i < n; ++i) body`. -/
def loop (body : Nat → σ → Except Fault σ) : Nat → σ → Except Fault σ
  | 0, s => .ok s
  | n + 1, s => do
    let s ← loop body n s
    body n s

/-- **The loop rule**: `state i` is what `i` rounds leave. -/
theorem loop_eq (body : Nat → σ → Except Fault σ) (state : Nat → σ) {n : Nat}
    (h : ∀ i < n, body i (state i) = .ok (state (i + 1))) :
    loop body n (state 0) = .ok (state n) := by
  induction n with
  | zero => rfl
  | succ n ih =>
    rw [loop, ih fun i hi => h i (Nat.lt_succ_of_lt hi)]
    exact h n (Nat.lt_succ_self n)

/-- The values in front of dead slots. -/
def packed (xs : List α) (cap : Nat) : Slots α :=
  xs.map some ++ List.replicate (cap - xs.length) none

/-- The same after the first `i` slots are destroyed. -/
def hollow (i : Nat) (xs : List α) (cap : Nat) : Slots α :=
  List.replicate i none ++ packed (xs.drop i) (cap - i)

section Loops

variable {m : Memory α} {p q : Pointer} {xs : List α} {cap cap' : Nat}

@[simp] theorem packed_nil (cap : Nat) : packed ([] : List α) cap = List.replicate cap none := rfl

@[simp] theorem hollow_zero (xs : List α) (cap : Nat) : hollow 0 xs cap = packed xs cap := rfl

theorem hollow_length (h : xs.length ≤ cap) : hollow xs.length xs cap = packed [] cap := by
  rw [hollow, List.drop_length, packed_nil, packed_nil, List.replicate_append_replicate,
    Nat.add_sub_cancel' h]

theorem length_packed (h : xs.length ≤ cap) : (packed xs cap).length = cap := by
  rw [packed, List.length_append, List.length_map, List.length_replicate, Nat.add_sub_cancel' h]

/-- **The slots of a packed buffer**: the values, then dead slots. -/
theorem getElem?_packed {i : Nat} (h : i < cap) : (packed xs cap)[i]? = some xs[i]? := by
  rcases Nat.lt_or_ge i xs.length with hi | hi
  · rw [packed, List.getElem?_append_left (by simpa using hi), List.getElem?_map,
      List.getElem?_eq_getElem hi]
    rfl
  · rw [packed, List.getElem?_append_right (by simpa using hi), List.getElem?_replicate,
      List.getElem?_eq_none hi, List.length_map, if_pos (Nat.sub_lt_sub_right hi h)]

theorem getElem?_packed_length (h : xs.length < cap) :
    (packed xs cap)[xs.length]? = some none := by
  rw [getElem?_packed h, List.getElem?_eq_none (Nat.le_refl _)]

theorem set_packed (h : xs.length < cap) (x : α) :
    (packed xs cap).set xs.length (some x) = packed (xs ++ [x]) cap := by
  obtain ⟨k, rfl⟩ : ∃ k, cap = xs.length + k + 1 := ⟨cap - xs.length - 1, by omega⟩
  have hk : xs.length + k + 1 - xs.length = k + 1 := by omega
  have hk' : xs.length + k + 1 - (xs ++ [x]).length = k := by simp
  rw [packed, packed, hk, hk', List.set_append_right _ _ (by simp), List.length_map, Nat.sub_self]
  simp [List.replicate_succ]

/-- A value is replaced where it is. -/
theorem set_packed_of_lt {i : Nat} (h : i < xs.length) (x : α) :
    (packed xs cap).set i (some x) = packed (xs.set i x) cap := by
  rw [packed, packed, List.set_append_left _ _ (by simpa using h), List.length_set, List.map_set]

/-- The last value is destroyed. -/
theorem set_packed_concat (h : xs.length < cap) (x : α) :
    (packed (xs ++ [x]) cap).set xs.length none = packed xs cap := by
  obtain ⟨k, rfl⟩ : ∃ k, cap = xs.length + k + 1 := ⟨cap - xs.length - 1, by omega⟩
  have hk : xs.length + k + 1 - xs.length = k + 1 := by omega
  have hk' : xs.length + k + 1 - (xs ++ [x]).length = k := by simp
  rw [packed, packed, hk, hk', List.map_append, List.append_assoc,
    List.set_append_right _ _ (by simp), List.length_map, Nat.sub_self]
  simp [List.replicate_succ]

theorem getElem?_hollow {i : Nat} (h : i < xs.length) (hcap : xs.length ≤ cap) :
    (hollow i xs cap)[i]? = some (some xs[i]) := by
  rw [hollow, List.getElem?_append_right (by simp), List.length_replicate, Nat.sub_self,
    getElem?_packed (by omega), List.getElem?_drop, Nat.add_zero, List.getElem?_eq_getElem h]

theorem set_hollow {i : Nat} (h : i < xs.length) (hcap : xs.length ≤ cap) :
    (hollow i xs cap).set i none = hollow (i + 1) xs cap := by
  have hlen : cap - i - (xs.drop i).length = cap - (i + 1) - (xs.drop (i + 1)).length := by
    simp only [List.length_drop]
    omega
  rw [hollow, hollow, List.set_append_right _ _ (by simp), List.length_replicate, Nat.sub_self,
    packed, packed, hlen, List.drop_eq_getElem_cons h, List.map_cons, List.cons_append,
    List.set_cons_zero, List.replicate_succ', List.append_assoc, List.singleton_append]

/-! ## Ranges -/

/-- What a container keeps: null without any slot, or a buffer with its values in front. -/
inductive Filled (m : Memory α) : Pointer → List α → Nat → Prop
  | null : Filled m none [] 0
  | buffer {p : Pointer} {xs : List α} {cap : Nat} :
      m.slots p = some (packed xs cap) → xs.length ≤ cap → Filled m p xs cap

theorem Filled.length_le (h : Filled m p xs cap) : xs.length ≤ cap := by
  cases h with
  | null => exact Nat.le_refl 0
  | buffer _ hcap => exact hcap

theorem Filled.isSome (h : Filled m p xs cap) (hp : p ≠ none) : (m.slots p).isSome := by
  cases h with
  | null => exact absurd rfl hp
  | buffer hb _ => rw [hb]; rfl

theorem Filled.slots_eq (h : Filled m p xs cap) (hcap : 0 < cap) :
    m.slots p = some (packed xs cap) := by
  cases h with
  | null => exact absurd hcap (Nat.lt_irrefl 0)
  | buffer hb _ => exact hb

/-- Behind the capacity there is no slot. -/
theorem Filled.slot_error (h : Filled m p xs cap) {i : Nat} (hi : cap ≤ i) :
    ∃ e, m.slot p i = .error e := by
  cases h with
  | null => exact ⟨.unallocated, rfl⟩
  | buffer hb hcap =>
    have hnone : (packed xs cap)[i]? = none :=
      List.getElem?_eq_none (by rw [length_packed hcap]; exact hi)
    exact ⟨.bounds, by rw [Memory.slot, hb]; simp only [hnone]⟩

theorem Filled.ne_fresh (h : Filled m p xs cap) (n : Nat) : p ≠ (m.allocate n).1 := by
  intro heq
  have hsome := h.isSome (heq ▸ Option.some_ne_none _)
  rw [heq, Memory.slots_fresh] at hsome
  cases hsome

/-- Other values in the same slots. -/
theorem Filled.put {ys : List α} (h : Filled m p xs cap) (hys : ys.length ≤ cap) :
    Filled (m.put p (some (packed ys cap))) p ys cap := by
  cases h with
  | null =>
    obtain rfl := List.eq_nil_of_length_eq_zero (Nat.le_zero.mp hys)
    exact .null
  | buffer hb _ => exact .buffer (Memory.slots_put (by rw [hb]; rfl) _) hys

theorem Filled.dead (h : Filled m p xs cap) :
    Filled (m.put p (some (packed [] cap))) p [] cap := h.put (Nat.zero_le cap)

/-- A container is where its buffer is, whatever happens to others. -/
theorem Filled.congr {m' : Memory α} (h : Filled m p xs cap) (hm : m'.slots p = m.slots p) :
    Filled m' p xs cap := by
  cases h with
  | null => exact .null
  | buffer hb hcap => exact .buffer (hm.trans hb) hcap

/-- **Without values it can be released.** -/
theorem Filled.release_eq (h : Filled m p ([] : List α) cap) :
    m.release p = .ok (m.put p none) := by
  cases h with
  | null => rfl
  | buffer hb _ => exact Memory.release_eq hb fun s hs => List.eq_of_mem_replicate hs

/-- `new (p + i) T()` for the first `n` slots. -/
def fillRange (p : Pointer) (x : α) (n : Nat) (m : Memory α) : Except Fault (Memory α) :=
  loop (fun i m => m.construct p i x) n m

/-- `p[i].~T()` for the first `n` slots. -/
def destroyRange (p : Pointer) (n : Nat) (m : Memory α) : Except Fault (Memory α) :=
  loop (fun i m => m.destroy p i) n m

/-- `new (q + i) T(p[i])` for the first `n` slots. -/
def copyRange (p q : Pointer) (n : Nat) (m : Memory α) : Except Fault (Memory α) :=
  loop (Memory.copySlot p q) n m

/-- `new (q + i) T(std::move(p[i])); p[i].~T()` for the first `n` slots. -/
def moveRange (moved : α → α) (p q : Pointer) (n : Nat) (m : Memory α) :
    Except Fault (Memory α) :=
  loop (Memory.moveSlot moved p q) n m

open Memory in
/-- **Destroying the values leaves the buffer, all dead.** -/
theorem Filled.destroyRange_eq (h : Filled m p xs cap) :
    destroyRange p xs.length m = .ok (m.put p (some (packed [] cap))) := by
  cases h with
  | null => rfl
  | buffer hb hcap =>
    have hsome : (m.slots p).isSome := by rw [hb]; rfl
    have hloop := loop_eq (fun i m => m.destroy p i)
      (fun i => m.put p (some (hollow i xs cap))) (n := xs.length) fun i hi => by
        rw [destroy, change_eq (slots_put hsome _) (getElem?_hollow hi hcap), put_put,
          set_hollow hi hcap]
    rwa [hollow_zero, put_self hb, hollow_length hcap] at hloop

theorem take_succ_packed {i : Nat} (hi : i < xs.length) (hcap : xs.length ≤ cap) :
    (packed (xs.take i) cap)[i]? = some none ∧
      (packed (xs.take i) cap).set i (some xs[i]) = packed (xs.take (i + 1)) cap := by
  have hlen : (xs.take i).length = i := List.length_take_of_le (Nat.le_of_lt hi)
  have hroom : (xs.take i).length < cap := by omega
  have hdead := getElem?_packed_length hroom
  have hset := set_packed hroom xs[i]
  rw [hlen] at hdead hset
  rw [List.take_append_getElem] at hset
  exact ⟨hdead, hset⟩

open Memory in
/-- **A value in each slot.** -/
theorem fillRange_eq (x : α) (hq : m.slots q = some (packed [] cap)) :
    fillRange q x cap m = .ok (m.put q (some (packed (List.replicate cap x) cap))) := by
  have hsome : (m.slots q).isSome := by rw [hq]; rfl
  have hloop := loop_eq (fun i m => m.construct q i x)
    (fun i => m.put q (some (packed (List.replicate i x) cap))) (n := cap) fun i hi => by
      have hlen : (List.replicate i x).length < cap := by rwa [List.length_replicate]
      have hdead := getElem?_packed_length hlen
      have hset := set_packed hlen x
      rw [List.length_replicate] at hdead hset
      rw [construct_eq (slots_put hsome _) hdead, put_put, hset, ← List.replicate_succ']
  rwa [List.replicate_zero, put_self hq] at hloop

open Memory in
/-- **Copying the values fills the other buffer and leaves this one.** -/
theorem Filled.copyRange_eq (h : Filled m p xs cap) (hq : m.slots q = some (packed [] cap'))
    (hpq : p ≠ q) (hcap' : xs.length ≤ cap') :
    copyRange p q xs.length m = .ok (m.put q (some (packed xs cap'))) := by
  have hsome : (m.slots q).isSome := by rw [hq]; rfl
  cases h with
  | null => rw [put_self hq]; rfl
  | buffer hb hcap =>
    have hloop := loop_eq (copySlot p q)
      (fun i => m.put q (some (packed (xs.take i) cap'))) (n := xs.length) fun i hi => by
        obtain ⟨hdead, hset⟩ := take_succ_packed hi hcap'
        have hlive : (packed xs cap)[i]? = some xs[i]? :=
          getElem?_packed (Nat.lt_of_lt_of_le hi hcap)
        rw [List.getElem?_eq_getElem hi] at hlive
        rw [copySlot_eq ((slots_put_ne hpq _).trans hb) hlive (slots_put hsome _) hdead, put_put,
          hset]
    rwa [List.take_zero, put_self hq, List.take_length] at hloop

open Memory in
/-- **Moving the values fills the other buffer and leaves this one dead.** -/
theorem Filled.moveRange_eq (moved : α → α) (h : Filled m p xs cap)
    (hq : m.slots q = some (packed [] cap')) (hpq : p ≠ q) (hcap' : xs.length ≤ cap') :
    moveRange moved p q xs.length m =
      .ok ((m.put q (some (packed xs cap'))).put p (some (packed [] cap))) := by
  have hsome : (m.slots q).isSome := by rw [hq]; rfl
  cases h with
  | null => rw [put_self hq]; rfl
  | buffer hb hcap =>
    have hsome' (b : Option (Slots α)) : ((m.put q b).slots p).isSome := by
      rw [slots_put_ne hpq, hb]
      rfl
    have hloop := loop_eq (moveSlot moved p q)
      (fun i => (m.put q (some (packed (xs.take i) cap'))).put p (some (hollow i xs cap)))
      (n := xs.length) fun i hi => by
        obtain ⟨hdead, hset⟩ := take_succ_packed hi hcap'
        rw [moveSlot_eq moved hpq (slots_put (hsome' _) _) (getElem?_hollow hi hcap)
          ((slots_put_ne (Ne.symm hpq) _).trans (slots_put hsome _)) hdead, hset,
          set_hollow hi hcap, put_comm hpq, put_put, put_put]
    rwa [List.take_zero, put_self hq, hollow_zero, put_self hb, List.take_length,
      hollow_length hcap] at hloop

end Loops

end RawMemory

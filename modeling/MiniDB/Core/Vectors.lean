import MiniDB.Core.Vector
import MiniDB.Machinery.Tracks
import Mathlib.Logic.Equiv.Basic

/-!
# Core/Vectors — programs over vectors are programs over lists

A program declares vector variables, assigns and destroys them, and calls their members.  Over lists
it is undefined where it uses a variable outside its lifetime, or assigns to an element that is not
there; over vectors it runs in raw memory, where any misuse of a slot or a buffer is a fault.

`Represents` ties the two states: each variable holds its list, no two share a buffer, and no buffer
is without a variable.

**`vectors_refine_lists`**: the program faults only where it is undefined over lists.  So the other
modules read `core::Vector` as a list.
-/

namespace MiniDB.Core

open RawMemory

variable {ι α : Type} [DecidableEq ι]

/-- What a program does with its variables. -/
inductive VectorOp (ι α : Type)
  | default (x : ι)
  | sized (x : ι) (n : Nat)
  | copy (x y : ι)
  | move (x y : ι)
  | destruct (x : ι)
  | assignCopy (x y : ι)
  | assignMove (x y : ι)
  | pushBack (x : ι) (value : α)
  | popBack (x : ι)
  | clear (x : ι)
  | reserve (x : ι) (newCap : Nat)
  | setElem (x : ι) (i : Nat) (value : α)

/-! ## Over lists -/

/-- The lists of the variables that are alive. -/
abbrev Lists (ι α : Type) := ι → Option (List α)

namespace Lists

def declare (A : Lists ι α) (x : ι) : Option Unit := if (A x).isNone then some () else none

def set (A : Lists ι α) (x : ι) (xs : Option (List α)) : Lists ι α := Function.update A x xs

def change (A : Lists ι α) (x : ι) (f : List α → Option (List α)) : Option (Lists ι α) := do
  let xs ← A x
  let xs ← f xs
  return A.set x (some xs)

/-- A copy leaves the other list; a move leaves it empty; an assignment to itself does nothing. -/
def step (zero : α) (A : Lists ι α) : VectorOp ι α → Option (Lists ι α)
  | .default x => do
    A.declare x
    return A.set x (some [])
  | .sized x n => do
    A.declare x
    return A.set x (some (List.replicate n zero))
  | .copy x y => do
    A.declare x
    let ys ← A y
    return A.set x (some ys)
  | .move x y => do
    A.declare x
    let ys ← A y
    return (A.set y (some [])).set x (some ys)
  | .destruct x => do
    let _ ← A x
    return A.set x none
  | .assignCopy x y => do
    let _ ← A x
    let ys ← A y
    return A.set x (some ys)
  | .assignMove x y => do
    let _ ← A x
    let ys ← A y
    return (A.set y (some [])).set x (some ys)
  | .pushBack x value => A.change x fun xs => some (xs ++ [value])
  | .popBack x => A.change x fun xs => some xs.dropLast
  | .clear x => A.change x fun _ => some []
  | .reserve x _ => A.change x some
  | .setElem x i value => A.change x fun xs => if i < xs.length then some (xs.set i value) else none

def run (zero : α) (ops : List (VectorOp ι α)) : Option (Lists ι α) :=
  ops.foldlM (step zero) fun _ => none

section Steps

variable {zero : α} {A A' : Lists ι α} {x y : ι}

omit [DecidableEq ι] in
/-- What two reads in a row return, the first for being there only. -/
theorem exists_of_bind {β γ : Type} {o : Option β} {p : Option γ} {g : γ → Lists ι α}
    (h : (o.bind fun _ => p.bind fun c => some (g c)) = some A) : ∃ c, p = some c ∧ A = g c := by
  obtain ⟨_, -, h⟩ := Option.bind_eq_some_iff.mp h
  obtain ⟨c, hc, h⟩ := Option.bind_eq_some_iff.mp h
  exact ⟨c, hc, (Option.some.inj h).symm⟩

theorem set_of_copy (h : A.step zero (.copy x y) = some A' ∨
    A.step zero (.assignCopy x y) = some A') : ∃ ys, A y = some ys ∧ A' = A.set x (some ys) :=
  h.elim exists_of_bind exists_of_bind

theorem set_of_move (h : A.step zero (.move x y) = some A' ∨
    A.step zero (.assignMove x y) = some A') :
    ∃ ys, A y = some ys ∧ A' = (A.set y (some [])).set x (some ys) :=
  h.elim exists_of_bind exists_of_bind

end Steps

end Lists

/-! ## Over vectors -/

/-- The memory, and the vectors of the variables that are alive. -/
structure Vectors (ι α : Type) where
  memory : Memory α := {}
  vectors : ι → Option Vector := fun _ => none

namespace Vectors

def find (s : Vectors ι α) (x : ι) : Except Fault Vector :=
  (s.vectors x).elim (.error .lifetime) .ok

def declare (s : Vectors ι α) (x : ι) : Except Fault Unit :=
  if (s.vectors x).isNone then .ok () else .error .lifetime

def set (s : Vectors ι α) (x : ι) (v : Option Vector) (m : Memory α) : Vectors ι α :=
  { memory := m, vectors := Function.update s.vectors x v }

def change (s : Vectors ι α) (x : ι)
    (f : Vector → Memory α → Except Fault (Vector × Memory α)) : Except Fault (Vectors ι α) := do
  let v ← s.find x
  let (v, m) ← f v s.memory
  return s.set x (some v) m

/-- `zero` is `T()`, and `moved` is what a move of a `T` leaves behind. -/
def step (zero : α) (moved : α → α) (s : Vectors ι α) :
    VectorOp ι α → Except Fault (Vectors ι α)
  | .default x => do
    s.declare x
    return s.set x (some {}) s.memory
  | .sized x n => do
    s.declare x
    let (v, m) ← Vector.sized zero n s.memory
    return s.set x (some v) m
  | .copy x y => do
    s.declare x
    let other ← s.find y
    let (v, m) ← Vector.copyOf other s.memory
    return s.set x (some v) m
  | .move x y => do
    s.declare x
    let other ← s.find y
    let (v, other) := Vector.moveOf other
    return (s.set y (some other) s.memory).set x (some v) s.memory
  | .destruct x => do
    let v ← s.find x
    let m ← v.destructor s.memory
    return s.set x none m
  | .assignCopy x y => do
    let v ← s.find x
    let other ← s.find y
    if x = y then return s
    else
      let (v, m) ← v.assignCopy other s.memory
      return s.set x (some v) m
  | .assignMove x y => do
    let v ← s.find x
    let other ← s.find y
    if x = y then return s
    else
      let ((v, other), m) ← v.assignMove other s.memory
      return (s.set y (some other) m).set x (some v) m
  | .pushBack x value => s.change x (Vector.pushBack moved value)
  | .popBack x => s.change x Vector.popBack
  | .clear x => s.change x Vector.clear
  | .reserve x newCap => s.change x (Vector.reserve moved newCap)
  | .setElem x i value => s.change x (Vector.setElem i value)

def run (zero : α) (moved : α → α) (ops : List (VectorOp ι α)) : Except Fault (Vectors ι α) :=
  ops.foldlM (step zero moved) {}

/-- The buffer of a variable. -/
def pointer (s : Vectors ι α) (x : ι) : Pointer := (s.vectors x).bind Vector.data

/-- Each variable that is alive holds its list, in a buffer that no other has; and each buffer has
a variable. -/
structure Represents (s : Vectors ι α) (A : Lists ι α) : Prop where
  holds : ∀ x, Option.Rel (Vector.Holds s.memory) (s.vectors x) (A x)
  apart : ∀ x y a, s.pointer x = some a → s.pointer y = some a → x = y
  owned : ∀ a, (s.memory.slots (some a)).isSome → ∃ x, s.pointer x = some a

section Represents

variable {s : Vectors ι α} {A : Lists ι α} {x y : ι}

theorem vectors_set (v : Option Vector) (m : Memory α) (z : ι) :
    (s.set x v m).vectors z = if z = x then v else s.vectors z := Function.update_apply ..

theorem pointer_set (v : Option Vector) (m : Memory α) (z : ι) :
    (s.set x v m).pointer z = if z = x then v.bind Vector.data else s.pointer z := by
  rw [pointer, vectors_set]
  split_ifs <;> rfl

omit [DecidableEq ι] in
theorem Represents.isSome (h : s.Represents A) {a : Nat} (hx : s.pointer x = some a) :
    (s.memory.slots (some a)).isSome := by
  obtain ⟨v, hv, hdata⟩ := Option.bind_eq_some_iff.mp hx
  have hrel := h.holds x
  rw [hv] at hrel
  generalize A x = xs at hrel
  cases hrel with
  | some hholds => exact hdata ▸ hholds.filled.isSome (hdata ▸ Option.some_ne_none a)

omit [DecidableEq ι] in
/-- A variable holds its list as long as its buffer is left alone. -/
theorem Represents.holds_of_slots (h : s.Represents A) {m : Memory α}
    (hm : ∀ a, s.pointer x = some a → m.slots (some a) = s.memory.slots (some a)) :
    Option.Rel (Vector.Holds m) (s.vectors x) (A x) := by
  have hrel := h.holds x
  cases hv : s.vectors x with
  | none =>
    rw [hv] at hrel
    generalize A x = xs at hrel ⊢
    cases hrel with
    | none => exact .none
  | some v =>
    rw [hv] at hrel
    generalize A x = xs at hrel ⊢
    cases hrel with
    | some hholds =>
      refine .some (hholds.congr ?_)
      cases hdata : v.data with
      | none => rfl
      | some a => exact hm a (by rw [pointer, hv, Option.bind_some, hdata])

/-- **One variable changes.**  Where its new buffer stands in for the old one and the rest is kept,
the other variables hold what they held. -/
theorem Represents.set (h : s.Represents A) {v : Option Vector} {xs : Option (List α)}
    {m : Memory α} (hv : Option.Rel (Vector.Holds m) v xs)
    (hrest : m.rest (v.bind Vector.data) = s.memory.rest (s.pointer x)) :
    (s.set x v m).Represents (A.set x xs) := by
  have hother {z : ι} {a : Nat} (hz : z ≠ x) (ha : s.pointer z = some a) :
      v.bind Vector.data ≠ some a ∧ m.slots (some a) = s.memory.slots (some a) :=
    Memory.slots_of_rest hrest (fun hx => hz (h.apart z x a ha hx)) (h.isSome ha)
  refine ⟨fun z => ?_, fun z w a => ?_, fun a ha => ?_⟩
  · rw [vectors_set, Lists.set, Function.update_apply]
    split_ifs with hz
    · exact hv
    · exact h.holds_of_slots fun a ha => (hother hz ha).2
  · rw [pointer_set, pointer_set]
    split_ifs with hz hw hw
    · exact fun _ _ => hz.trans hw.symm
    · exact fun hza hwa => absurd hza (hother hw hwa).1
    · exact fun hza hwa => absurd hwa (hother hz hza).1
    · exact h.apart z w a
  · by_cases hv' : v.bind Vector.data = some a
    · exact ⟨x, by rw [pointer_set, if_pos rfl, hv']⟩
    · have hkeep := congrFun hrest a
      rw [Memory.rest, Memory.rest, if_neg hv'] at hkeep
      split_ifs at hkeep with hx
      · rw [Vectors.set, hkeep] at ha
        cases ha
      · obtain ⟨z, hz⟩ := h.owned a (hkeep ▸ ha)
        refine ⟨z, ?_⟩
        rw [pointer_set, if_neg (by rintro rfl; exact hx hz), hz]

/-- **A buffer changes hands**: `x`, which has none, gets the vector of `y`, which is left empty. -/
theorem Represents.move (h : s.Represents A) (hx : s.vectors x = none) {v : Vector}
    (hy : s.vectors y = some v) :
    ((s.set y (some {}) s.memory).set x (some v) s.memory).Represents
      ((A.set y (some [])).set x (A y)) := by
  have hpointer (z : ι) : ((s.set y (some {}) s.memory).set x (some v) s.memory).pointer z =
      s.pointer (Equiv.swap x y z) := by
    rw [pointer_set, pointer_set, Equiv.swap_apply_def]
    split_ifs with hzx hzy
    · rw [pointer, hy]
    · rw [pointer, hx]; rfl
    · rfl
  refine ⟨fun z => ?_, fun z w a => ?_, fun a ha => ?_⟩
  · rw [vectors_set, vectors_set, Lists.set, Lists.set, Function.update_apply,
      Function.update_apply]
    split_ifs with hzx hzy
    · exact hy ▸ h.holds y
    · exact .some ⟨rfl, .null⟩
    · exact h.holds z
  · rw [hpointer, hpointer]
    exact fun hz hw => (Equiv.swap x y).injective (h.apart _ _ a hz hw)
  · obtain ⟨z, hz⟩ := h.owned a ha
    exact ⟨Equiv.swap x y z, by rw [hpointer, Equiv.swap_apply_self, hz]⟩

/-! ## The steps -/

omit [DecidableEq ι] in
theorem Represents.find (h : s.Represents A) (x : ι) :
    Tracks (fun v xs => s.vectors x = some v ∧ A x = some xs ∧ v.Holds s.memory xs)
      (s.find x) (A x) := by
  have hrel := h.holds x
  rw [Vectors.find]
  generalize s.vectors x = v at hrel ⊢
  generalize A x = xs at hrel ⊢
  cases hrel with
  | none => exact .error _
  | some hholds => exact .ok ⟨rfl, rfl, hholds⟩

omit [DecidableEq ι] in
theorem Represents.declare (h : s.Represents A) (x : ι) :
    Tracks (fun _ _ => s.vectors x = none) (s.declare x) (A.declare x) := by
  have hrel := h.holds x
  rw [Vectors.declare, Lists.declare]
  generalize s.vectors x = v at hrel ⊢
  generalize A x = xs at hrel ⊢
  cases hrel with
  | none => exact .ok rfl
  | some _ => exact .error _

/-- A variable that is not alive gets a vector with a buffer of its own. -/
theorem Represents.declared (h : s.Represents A) (hx : s.vectors x = none) {v : Vector}
    {xs : List α} {m : Memory α} (hv : v.Holds m xs) (hrest : m.rest v.data = s.memory.rest none) :
    (s.set x (some v) m).Represents (A.set x (some xs)) :=
  h.set (.some hv) (by rw [pointer, hx]; exact hrest)

theorem Represents.destructed (h : s.Represents A) {v : Vector} {xs : List α}
    (hx : s.vectors x = some v) (hv : v.Holds s.memory xs) :
    (s.set x none (s.memory.put v.data none)).Represents (A.set x none) :=
  h.set .none (by rw [pointer, hx]; exact (Vector.destructor_eq hv).2)

/-- **A member that turns one list into another** does so to the variable it is called on. -/
theorem Represents.change (h : s.Represents A) (x : ι)
    {f : Vector → Memory α → Except Fault (Vector × Memory α)} {g : List α → Option (List α)}
    (hfg : ∀ xs, (∃ ys, g xs = some ys ∧ Vector.Turns f xs ys) ∨
      g xs = none ∧ ∀ v m, v.Holds m xs → ∃ e, f v m = .error e) :
    Tracks Represents (s.change x f) (A.change x g) := by
  refine (h.find x).bind fun v xs ⟨hx, _, hv⟩ => ?_
  obtain ⟨ys, hys, hturns⟩ | ⟨hnone, herror⟩ := hfg xs
  · obtain ⟨v', m', hrun, hholds, hrest⟩ := hturns hv
    rw [hrun, hys]
    exact .ok (h.set (.some hholds) (by rw [pointer, hx]; exact hrest))
  · obtain ⟨e, he⟩ := herror v _ hv
    rw [he, hnone]
    exact .error e

theorem set_set (v v' : Option Vector) (m m' : Memory α) :
    (s.set x v m).set x v' m' = s.set x v' m' := by
  simp only [Vectors.set, Function.update_idem]

theorem set_ne {v : Option Vector} {m : Memory α} (hxy : x ≠ y) :
    (s.set x v m).vectors y = s.vectors y := by
  rw [vectors_set, if_neg hxy.symm]

/-- After `x` is destroyed `y` still holds its list. -/
theorem Represents.holds_destructed (h : s.Represents A) {v other : Vector} {xs ys : List α}
    (hx : s.vectors x = some v) (hv : v.Holds s.memory xs) (hxy : x ≠ y)
    (hy : s.vectors y = some other) (hys : A y = some ys) :
    other.Holds (s.memory.put v.data none) ys := by
  have hrel := (h.destructed hx hv).holds y
  rw [set_ne hxy, hy, Lists.set, Function.update_of_ne hxy.symm, hys] at hrel
  cases hrel with
  | some hholds => exact hholds

theorem Represents.assignCopy (h : s.Represents A) {v other : Vector} {xs ys : List α}
    (hx : s.vectors x = some v) (hv : v.Holds s.memory xs) (hxy : x ≠ y)
    (hy : s.vectors y = some other) (hys : A y = some ys) :
    ∃ v' m', v.assignCopy other s.memory = .ok (v', m') ∧
      (s.set x (some v') m').Represents (A.set x (some ys)) := by
  obtain ⟨v', m', hcopy, hholds, hrest⟩ :=
    Vector.copyOf_spec (h.holds_destructed hx hv hxy hy hys)
  refine ⟨v', m', ?_, ?_⟩
  · rw [Vector.assignCopy_eq, (Vector.destructor_eq hv).1]
    exact hcopy
  · have hdone := (h.destructed hx hv).declared (x := x) (by rw [vectors_set, if_pos rfl]) hholds
      hrest
    rwa [set_set, Lists.set, Lists.set, Function.update_idem] at hdone

theorem Represents.assignMove (h : s.Represents A) {v other : Vector} {xs ys : List α}
    (hx : s.vectors x = some v) (hv : v.Holds s.memory xs) (hxy : x ≠ y)
    (hy : s.vectors y = some other) (hys : A y = some ys) :
    ∃ m', v.assignMove other s.memory = .ok (Vector.moveOf other, m') ∧
      ((s.set y (some {}) m').set x (some other) m').Represents
        ((A.set y (some [])).set x (some ys)) := by
  refine ⟨s.memory.put v.data none, ?_, ?_⟩
  · rw [Vector.assignMove_eq, (Vector.destructor_eq hv).1]
    rfl
  · have hmove := (h.destructed hx hv).move (by rw [vectors_set, if_pos rfl])
      ((set_ne hxy).trans hy)
    simp only [Vectors.set, Lists.set, Function.update_of_ne hxy.symm, hys] at hmove ⊢
    rwa [Function.update_comm hxy, Function.update_idem, Function.update_comm hxy,
      Function.update_idem] at hmove

variable (zero : α) (moved : α → α)

/-- **The step lemma** — each operation does to the vectors what it does to the lists, and faults
where it is undefined there. -/
theorem step_tracks (h : s.Represents A) (op : VectorOp ι α) :
    Tracks Represents (s.step zero moved op) (A.step zero op) := by
  cases op with
  | default x =>
    exact (h.declare x).bind fun _ _ hx => .ok (h.declared hx ⟨rfl, .null⟩ rfl)
  | sized x n =>
    refine (h.declare x).bind fun _ _ hx => ?_
    obtain ⟨v, m, hrun, hholds, hrest⟩ := Vector.sized_spec zero n s.memory
    rw [hrun]
    exact .ok (h.declared hx hholds hrest)
  | copy x y =>
    refine (h.declare x).bind fun _ _ hx => (h.find y).bind fun other ys ⟨_, _, hother⟩ => ?_
    obtain ⟨v, m, hrun, hholds, hrest⟩ := Vector.copyOf_spec hother
    rw [hrun]
    exact .ok (h.declared hx hholds hrest)
  | move x y =>
    refine (h.declare x).bind fun _ _ hx => (h.find y).bind fun other ys ⟨hy, hys, _⟩ => ?_
    exact .ok (hys ▸ h.move hx hy)
  | destruct x =>
    refine (h.find x).bind fun v xs ⟨hx, _, hv⟩ => ?_
    rw [(Vector.destructor_eq hv).1]
    exact .ok (h.destructed hx hv)
  | assignCopy x y =>
    refine (h.find x).bind fun v xs ⟨hx, hxs, hv⟩ => (h.find y).bind fun other ys ⟨hy, hys, _⟩ => ?_
    split_ifs with hxy
    · subst hxy
      exact .ok (by rwa [Lists.set, ← hys, Function.update_eq_self])
    · obtain ⟨v', m', hrun, hdone⟩ := h.assignCopy hx hv hxy hy hys
      rw [hrun]
      exact .ok hdone
  | assignMove x y =>
    refine (h.find x).bind fun v xs ⟨hx, hxs, hv⟩ => (h.find y).bind fun other ys ⟨hy, hys, _⟩ => ?_
    split_ifs with hxy
    · subst hxy
      exact .ok (by rwa [Lists.set, Lists.set, Function.update_idem, ← hys,
        Function.update_eq_self])
    · obtain ⟨m', hrun, hdone⟩ := h.assignMove hx hv hxy hy hys
      rw [hrun]
      exact .ok hdone
  | pushBack x value => exact h.change x fun xs => .inl ⟨_, rfl, Vector.pushBack_turns ..⟩
  | popBack x => exact h.change x fun xs => .inl ⟨_, rfl, Vector.popBack_turns xs⟩
  | clear x => exact h.change x fun xs => .inl ⟨_, rfl, Vector.clear_turns xs⟩
  | reserve x newCap => exact h.change x fun xs => .inl ⟨_, rfl, Vector.reserve_turns ..⟩
  | setElem x i value =>
    refine h.change x fun xs => ?_
    split_ifs with hi
    · exact .inl ⟨_, rfl, Vector.setElem_turns hi value⟩
    · exact .inr ⟨rfl, fun v m hv => Vector.setElem_error hv (Nat.le_of_not_lt hi) value⟩

end Represents

omit [DecidableEq ι] in
/-- Without variables there is no buffer. -/
theorem represents_empty : ({} : Vectors ι α).Represents fun _ => none :=
  ⟨fun _ => .none, fun _ _ _ h _ => (by cases h), fun _ h => by cases h⟩

end Vectors

/-! ## Programs -/

/-- **Vectors refine lists.**  A program that is defined over lists runs in raw memory without a
fault, and leaves each variable with a vector that holds its list; one that is not, faults.  A copy
leaves its source as it was, and a move leaves it empty, unless it is assigned to itself. -/
theorem vectors_refine_lists (zero : α) (moved : α → α) :
    (∀ (ops : List (VectorOp ι α)) (A : Lists ι α), Lists.run zero ops = some A →
      ∃ s, Vectors.run zero moved ops = .ok s ∧ s.Represents A) ∧
    (∀ ops : List (VectorOp ι α), Lists.run zero ops = none →
      ∃ e, Vectors.run zero moved ops = .error e) ∧
    ∀ (A A' : Lists ι α) (x y : ι),
      (A.step zero (.copy x y) = some A' ∨ A.step zero (.assignCopy x y) = some A' →
        A' x = A y ∧ A' y = A y) ∧
      (A.step zero (.move x y) = some A' ∨ A.step zero (.assignMove x y) = some A' →
        A' x = A y ∧ A' y = if x = y then A y else some []) := by
  have hrun (ops : List (VectorOp ι α)) :
      Tracks Vectors.Represents (Vectors.run zero moved ops) (Lists.run zero ops) :=
    Tracks.foldlM (fun s A op h => Vectors.step_tracks zero moved h op) ops
      Vectors.represents_empty
  refine ⟨fun ops A hA => (hA ▸ hrun ops).exists_ok, fun ops hA => (hA ▸ hrun ops).exists_error,
    fun A A' x y => ⟨fun h => ?_, fun h => ?_⟩⟩
  · obtain ⟨ys, hys, rfl⟩ := Lists.set_of_copy h
    simp only [Lists.set, Function.update_apply, hys, if_true]
    exact ⟨trivial, ite_self _⟩
  · obtain ⟨ys, hys, rfl⟩ := Lists.set_of_move h
    simp only [Lists.set, Function.update_apply, hys, if_true, eq_comm (a := y), true_and]

/-- The lists after one variable got a value and was moved to the other. -/
def sampleLists : Lists Bool ℕ := fun x => if x then some [7] else some []

theorem vectors_refine_lists_sample :
    (∃ s, Vectors.run 0 (fun _ => 0) [.default false, .pushBack false 7, .move true false] = .ok s ∧
      s.Represents sampleLists) ∧
    (∃ e, Vectors.run 0 (fun _ => 0) [VectorOp.popBack false] = .error e) ∧
    (∃ A, sampleLists.step 0 (.assignCopy false true) = some A ∧ A false = some [7] ∧
      A true = some [7]) ∧
    ∃ A, sampleLists.step 0 (.assignMove false true) = some A ∧ A false = some [7] ∧
      A true = some [] := by
  obtain ⟨hdefined, hundefined, hsteps⟩ := vectors_refine_lists (ι := Bool) 0 fun _ => 0
  refine ⟨hdefined _ _ (congrArg some (funext fun x => ?_)), hundefined _ rfl,
    ⟨_, rfl, (hsteps sampleLists _ false true).1 (.inr rfl)⟩,
    ⟨_, rfl, (hsteps sampleLists _ false true).2 (.inr rfl)⟩⟩
  cases x <;> rfl

end MiniDB.Core

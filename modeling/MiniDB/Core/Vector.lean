import MiniDB.Machinery.RawMemory

/-!
# Core/Vector — `core::Vector` over raw memory, and what each member leaves

A vector is a pointer, a size and a capacity; the values are in the memory it points to.  An
allocation gives as many slots as asked for and does not fail.  Each member is a partial function:
it stops at the first `Fault`.

A vector `Holds` a list when its buffer is packed with it.  Members that change one vector are
`Turns`: from every vector that holds `xs` they run to the end, leave one that holds `ys`, and keep
the rest of the memory.
-/

namespace MiniDB.Core

open RawMemory

variable {α : Type*} {xs ys : List α} {m : Memory α}

/-- `_data`, `_size` and `_capacity`; the default constructor leaves them null and 0. -/
structure Vector where
  data : Pointer := none
  size : Nat := 0
  capacity : Nat := 0

namespace Vector

/-! ## Constructors and the destructor -/

/-- `Vector(n)`; `value` is `T()`. -/
def sized (value : α) (n : Nat) (m : Memory α) : Except Fault (Vector × Memory α) := do
  let (data, m) := m.allocate n
  let m ← fillRange data value n m
  return ({ data, size := n, capacity := n }, m)

/-- `Vector(const Vector& other)`. -/
def copyOf (other : Vector) (m : Memory α) : Except Fault (Vector × Memory α) := do
  let (data, m) := m.allocate other.capacity
  let m ← copyRange other.data data other.size m
  return ({ data, size := other.size, capacity := other.capacity }, m)

/-- `Vector(Vector&& other)`: the new vector, and what becomes of `other`. -/
def moveOf (other : Vector) : Vector × Vector :=
  ({ data := other.data, size := other.size, capacity := other.capacity },
    { data := none, size := 0, capacity := 0 })

def clear (v : Vector) (m : Memory α) : Except Fault (Vector × Memory α) := do
  let m ← destroyRange v.data v.size m
  return ({ v with size := 0 }, m)

/-- `~Vector()`. -/
def destructor (v : Vector) (m : Memory α) : Except Fault (Memory α) := do
  let (v, m) ← v.clear m
  m.release v.data

/-! ## Assignments

The branch of `this != &other`. -/

/-- `operator=(const Vector& other)`. -/
def assignCopy (v other : Vector) (m : Memory α) : Except Fault (Vector × Memory α) := do
  let (v, m) ← v.clear m
  let m ← m.release v.data
  let (data, m) := m.allocate other.capacity
  let m ← copyRange other.data data other.size m
  return ({ data, size := other.size, capacity := other.capacity }, m)

/-- `operator=(Vector&& other)`: this vector, what becomes of `other`, and the memory. -/
def assignMove (v other : Vector) (m : Memory α) :
    Except Fault ((Vector × Vector) × Memory α) := do
  let (v, m) ← v.clear m
  let m ← m.release v.data
  return (({ data := other.data, size := other.size, capacity := other.capacity },
    { data := none, size := 0, capacity := 0 }), m)

/-! ## Members -/

/-- `reserve`; `moved` is what a move leaves behind. -/
def reserve (moved : α → α) (newCap : Nat) (v : Vector) (m : Memory α) :
    Except Fault (Vector × Memory α) := do
  if newCap > v.capacity then
    let (newData, m) := m.allocate newCap
    let m ← moveRange moved v.data newData v.size m
    let m ← m.release v.data
    return ({ v with data := newData, capacity := newCap }, m)
  else return (v, m)

/-- The growth in front of both `push_back`s. -/
def makeRoom (moved : α → α) (v : Vector) (m : Memory α) : Except Fault (Vector × Memory α) :=
  if v.size ≥ v.capacity then v.reserve moved (if v.capacity = 0 then 8 else v.capacity * 2) m
  else .ok (v, m)

/-- `push_back`, of a value outside the vector: to copy it or to move it from there is the same to
the vector. -/
def pushBack (moved : α → α) (value : α) (v : Vector) (m : Memory α) :
    Except Fault (Vector × Memory α) := do
  let (v, m) ← v.makeRoom moved m
  let m ← m.construct v.data v.size value
  return ({ v with size := v.size + 1 }, m)

def popBack (v : Vector) (m : Memory α) : Except Fault (Vector × Memory α) := do
  if v.size > 0 then
    let v := { v with size := v.size - 1 }
    let m ← m.destroy v.data v.size
    return (v, m)
  else return (v, m)

/-- `v[i] = value`. -/
def setElem (i : Nat) (value : α) (v : Vector) (m : Memory α) :
    Except Fault (Vector × Memory α) := do
  let m ← m.assign v.data i value
  return (v, m)

/-! ## What a vector holds -/

/-- `v` holds the list `xs`: exactly the slots below the size are live, with the values in order. -/
structure Holds (m : Memory α) (v : Vector) (xs : List α) : Prop where
  size : v.size = xs.length
  filled : Filled m v.data xs v.capacity

theorem Holds.size_le {v : Vector} (h : Holds m v xs) : v.size ≤ v.capacity := by
  rw [h.size]
  exact h.filled.length_le

/-- It holds it as long as its buffer is left alone. -/
theorem Holds.congr {v : Vector} {m' : Memory α} (h : Holds m v xs)
    (hm : m'.slots v.data = m.slots v.data) : Holds m' v xs :=
  ⟨h.size, h.filled.congr hm⟩

/-- A slot is live exactly when it is below the size. -/
theorem Holds.slot {v : Vector} (h : Holds m v xs) {i : Nat} (hi : i < v.capacity) :
    ∃ b, m.slot v.data i = .ok (b, xs[i]?) :=
  ⟨_, Memory.slot_eq (h.filled.slots_eq (Nat.zero_lt_of_lt hi)) (getElem?_packed hi)⟩

/-- `f` runs from every vector that holds `xs`, makes it hold `ys`, and keeps the rest. -/
def Turns (f : Vector → Memory α → Except Fault (Vector × Memory α)) (xs ys : List α) : Prop :=
  ∀ ⦃v : Vector⦄ ⦃m : Memory α⦄, Holds m v xs →
    ∃ v' m', f v m = .ok (v', m') ∧ Holds m' v' ys ∧ m'.rest v'.data = m.rest v.data

theorem clear_turns (xs : List α) : Turns clear xs [] := by
  intro v m h
  refine ⟨{ v with size := 0 }, m.put v.data (some (packed [] v.capacity)), ?_,
    ⟨rfl, h.filled.dead⟩, Memory.rest_put ..⟩
  rw [clear, h.size, h.filled.destroyRange_eq]
  rfl

/-- **The destructor releases the buffer** and keeps the rest. -/
theorem destructor_eq {v : Vector} (h : Holds m v xs) :
    v.destructor m = .ok (m.put v.data none) ∧
      (m.put v.data none).rest none = m.rest v.data := by
  refine ⟨?_, Memory.rest_released h.filled.isSome⟩
  have hrelease := h.filled.dead.release_eq
  rw [Memory.put_put] at hrelease
  rw [destructor, clear, h.size, h.filled.destroyRange_eq]
  exact hrelease

/-- **A new vector of `n` values.** -/
theorem sized_spec (value : α) (n : Nat) (m : Memory α) :
    ∃ v' m', sized value n m = .ok (v', m') ∧ Holds m' v' (List.replicate n value) ∧
      m'.rest v'.data = m.rest none := by
  have hnew := m.slots_allocate n
  have hsome : ((m.allocate n).2.slots (m.allocate n).1).isSome := by rw [hnew]; rfl
  refine ⟨⟨(m.allocate n).1, n, n⟩, _, ?_, ⟨by simp, .buffer (Memory.slots_put hsome _) (by simp)⟩,
    (Memory.rest_put ..).trans (Memory.rest_allocate m n)⟩
  rw [sized]
  simp only [fillRange_eq value hnew]
  rfl

/-- **A copy holds the same list** in a buffer of its own. -/
theorem copyOf_spec {other : Vector} (h : Holds m other xs) :
    ∃ v' m', copyOf other m = .ok (v', m') ∧ Holds m' v' xs ∧ m'.rest v'.data = m.rest none := by
  have hnew := m.slots_allocate other.capacity
  have hsome : ((m.allocate other.capacity).2.slots (m.allocate other.capacity).1).isSome := by
    rw [hnew]; rfl
  have hne := h.filled.ne_fresh other.capacity
  have hfilled := h.filled.congr (m.slots_allocate_ne other.capacity hne)
  have hcopy := hfilled.copyRange_eq hnew hne h.filled.length_le
  refine ⟨⟨(m.allocate other.capacity).1, other.size, other.capacity⟩, _, ?_,
    ⟨h.size, .buffer (Memory.slots_put hsome _) h.filled.length_le⟩,
    (Memory.rest_put ..).trans (Memory.rest_allocate m _)⟩
  rw [copyOf, h.size]
  simp only [hcopy]
  rfl

section Reserve

variable (moved : α → α)

/-- **Growing relocates the values.** -/
theorem reserve_spec {v : Vector} (h : Holds m v xs) (newCap : Nat) :
    ∃ v' m', v.reserve moved newCap m = .ok (v', m') ∧ Holds m' v' xs ∧
      m'.rest v'.data = m.rest v.data ∧ newCap ≤ v'.capacity := by
  rw [reserve]
  split_ifs with hgt
  · have hnew := m.slots_allocate newCap
    have hsome : ((m.allocate newCap).2.slots (m.allocate newCap).1).isSome := by rw [hnew]; rfl
    have hne := h.filled.ne_fresh newCap
    have hlen := Nat.le_trans h.filled.length_le (Nat.le_of_lt hgt)
    have hfilled := h.filled.congr (m.slots_allocate_ne newCap hne)
    have hmove := hfilled.moveRange_eq moved hnew hne hlen
    have hold : Filled ((m.allocate newCap).2.put (m.allocate newCap).1 (some (packed xs newCap)))
        v.data xs v.capacity := hfilled.congr (Memory.slots_put_ne hne _)
    have hrelease := hold.dead.release_eq
    rw [Memory.put_put] at hrelease
    refine ⟨{ v with data := (m.allocate newCap).1, capacity := newCap }, _, ?_,
      ⟨h.size, .buffer ((Memory.slots_put_ne hne.symm _).trans (Memory.slots_put hsome _)) hlen⟩,
      Memory.rest_replaced h.filled.isSome newCap _, Nat.le_refl _⟩
    rw [h.size]
    simp only [hmove, bind, Except.bind, hrelease]
    rfl
  · exact ⟨v, m, rfl, h, rfl, Nat.le_of_not_lt hgt⟩

theorem reserve_turns (newCap : Nat) (xs : List α) : Turns (reserve moved newCap) xs xs := by
  intro v m h
  obtain ⟨v', m', hrun, hholds, hrest, -⟩ := reserve_spec moved h newCap
  exact ⟨v', m', hrun, hholds, hrest⟩

/-- Where there is room, the value is constructed behind the others. -/
theorem Holds.construct {v : Vector} (h : Holds m v xs) (hroom : v.size < v.capacity) (value : α) :
    ∃ m', m.construct v.data v.size value = .ok m' ∧
      Holds m' { v with size := v.size + 1 } (xs ++ [value]) ∧ m'.rest v.data = m.rest v.data := by
  have hcap : xs.length < v.capacity := h.size ▸ hroom
  have hslots := h.filled.slots_eq (Nat.zero_lt_of_lt hroom)
  have hdead : (packed xs v.capacity)[v.size]? = some none := by
    rw [h.size, getElem?_packed_length hcap]
  refine ⟨m.put v.data (some (packed (xs ++ [value]) v.capacity)), ?_,
    ⟨by simp [h.size], h.filled.put (by simpa using Nat.succ_le_of_lt hcap)⟩, Memory.rest_put ..⟩
  rw [Memory.construct_eq hslots hdead, h.size, set_packed hcap]

theorem makeRoom_spec {v : Vector} (h : Holds m v xs) :
    ∃ v' m', v.makeRoom moved m = .ok (v', m') ∧ Holds m' v' xs ∧
      m'.rest v'.data = m.rest v.data ∧ v'.size < v'.capacity := by
  have hle := h.size_le
  rw [makeRoom]
  split_ifs with hfull hzero
  · obtain ⟨v', m', hrun, hholds, hrest, hcap⟩ := reserve_spec moved h 8
    have hsize : v'.size = v.size := hholds.size.trans h.size.symm
    exact ⟨v', m', hrun, hholds, hrest, by omega⟩
  · obtain ⟨v', m', hrun, hholds, hrest, hcap⟩ := reserve_spec moved h (v.capacity * 2)
    have hsize : v'.size = v.size := hholds.size.trans h.size.symm
    exact ⟨v', m', hrun, hholds, hrest, by omega⟩
  · exact ⟨v, m, rfl, h, rfl, Nat.lt_of_not_le hfull⟩

/-- **`push_back` appends.** -/
theorem pushBack_turns (value : α) (xs : List α) :
    Turns (pushBack moved value) xs (xs ++ [value]) := by
  intro v m h
  obtain ⟨v₁, m₁, hrun, hholds, hrest, hroom⟩ := makeRoom_spec moved h
  obtain ⟨m₂, hconstruct, hholds₂, hrest₂⟩ := hholds.construct hroom value
  refine ⟨_, m₂, ?_, hholds₂, hrest₂.trans hrest⟩
  rw [pushBack, hrun]
  simp only [bind, Except.bind, hconstruct]
  rfl

end Reserve

/-- **`pop_back` drops the last value**, if there is one. -/
theorem popBack_turns (xs : List α) : Turns popBack xs xs.dropLast := by
  intro v m h
  rw [popBack]
  split_ifs with hpos
  · obtain ⟨ys, x, rfl⟩ : ∃ ys x, xs = ys ++ [x] := by
      have hne : xs ≠ [] := by
        rintro rfl
        rw [h.size] at hpos
        exact absurd hpos (Nat.lt_irrefl 0)
      exact ⟨xs.dropLast, xs.getLast hne, (List.dropLast_append_getLast hne).symm⟩
    have hsize : v.size - 1 = ys.length := by simp [h.size]
    have hcap : ys.length < v.capacity := by
      have hle := h.filled.length_le
      rw [List.length_append] at hle
      exact hle
    have hslots := h.filled.slots_eq (Nat.zero_lt_of_lt hcap)
    have hlive : (packed (ys ++ [x]) v.capacity)[ys.length]? = some (some x) := by
      rw [getElem?_packed hcap, List.getElem?_concat_length]
    refine ⟨{ v with size := v.size - 1 }, m.put v.data (some (packed ys v.capacity)), ?_,
      ⟨by simp [h.size], ?_⟩, Memory.rest_put ..⟩
    · have hdestroy := Memory.change_eq hslots hlive fun _ => none
      rw [set_packed_concat hcap] at hdestroy
      simp only [hsize, Memory.destroy, hdestroy]
      rfl
    · rw [List.dropLast_concat]
      exact h.filled.put (Nat.le_of_lt hcap)
  · obtain rfl : xs = [] := List.eq_nil_of_length_eq_zero (h.size ▸ Nat.eq_zero_of_not_pos hpos)
    exact ⟨v, m, rfl, h, rfl⟩

/-- **Assignment to an element replaces it.** -/
theorem setElem_turns {i : Nat} (hi : i < xs.length) (value : α) :
    Turns (setElem i value) xs (xs.set i value) := by
  intro v m h
  have hcap := Nat.lt_of_lt_of_le hi h.filled.length_le
  have hlive : (packed xs v.capacity)[i]? = some xs[i]? := getElem?_packed hcap
  rw [List.getElem?_eq_getElem hi] at hlive
  have hassign := Memory.change_eq (h.filled.slots_eq (Nat.zero_lt_of_lt hcap)) hlive
    fun _ => some value
  rw [set_packed_of_lt hi] at hassign
  refine ⟨v, m.put v.data (some (packed (xs.set i value) v.capacity)), ?_,
    ⟨by rw [h.size, List.length_set], h.filled.put (by simpa using h.filled.length_le)⟩,
    Memory.rest_put ..⟩
  rw [setElem, Memory.assign, hassign]
  rfl

/-- Where there is no value, there is none to assign to. -/
theorem setElem_error {v : Vector} (h : Holds m v xs) {i : Nat} (hi : xs.length ≤ i) (value : α) :
    ∃ e, setElem i value v m = .error e := by
  have hslot : (∃ e, m.slot v.data i = .error e) ∨ ∃ b, m.slot v.data i = .ok (b, none) := by
    rcases Nat.lt_or_ge i v.capacity with hcap | hcap
    · obtain ⟨b, hb⟩ := h.slot hcap
      rw [List.getElem?_eq_none hi] at hb
      exact .inr ⟨b, hb⟩
    · exact .inl (h.filled.slot_error hcap)
  rw [setElem, Memory.assign, Memory.change]
  obtain ⟨e, he⟩ | ⟨b, hb⟩ := hslot
  · exact ⟨e, by rw [he]; rfl⟩
  · exact ⟨.dead, by rw [hb]; rfl⟩

/-- A copy assignment destroys this vector and makes a copy in its place. -/
theorem assignCopy_eq (v other : Vector) (m : Memory α) :
    v.assignCopy other m = (v.destructor m >>= fun m => copyOf other m) := by
  rw [assignCopy, destructor]
  cases v.clear m <;> rfl

theorem assignMove_eq (v other : Vector) (m : Memory α) :
    v.assignMove other m = (v.destructor m >>= fun m => pure (moveOf other, m)) := by
  rw [assignMove, destructor]
  cases v.clear m <;> rfl

end Vector

end MiniDB.Core

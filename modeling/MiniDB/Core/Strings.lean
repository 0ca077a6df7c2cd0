import MiniDB.Core.CoreString
import MiniDB.Machinery.Run
import Mathlib.Logic.Equiv.Basic

/-!
# Core/Strings — programs over strings are programs over texts

A program declares string variables, assigns and destroys them, and calls their members; where a
member takes a `const char*`, it passes null, a text of its own, or the `c_str()` of a variable.
Over texts it is undefined where it uses a variable outside its lifetime or a character that is not
there, and where it assigns to a variable what the variable's own `c_str()` points to.

**`strings_refine_texts`**: a program that is defined over texts runs on the heap without a fault
and with the same answers, and leaves there what its variables own.  So the other modules read
`core::String` as a text.
**`own_text_faults`**: an assignment of a variable's own `c_str()` reads the buffer it has released.
-/

namespace MiniDB.Core

open Ledger Machine

variable {ι : Type} [DecidableEq ι]

/-- A `const char*` that is passed. -/
inductive Source (ι : Type) where
  | null
  | literal (s : Text)
  | cStr (x : ι)
  deriving DecidableEq

/-- What a program does with its variables. -/
inductive StringOp (ι : Type) where
  | default (x : ι)
  | ofCharPtr (x : ι) (p : Source ι)
  | ofRange (x : ι) (p : Source ι) (len : Nat)
  | copy (x y : ι)
  | move (x y : ι)
  | destruct (x : ι)
  | assignCopy (x y : ι)
  | assignMove (x y : ι)
  | assignCharPtr (x : ι) (p : Source ι)
  | setChar (x : ι) (i : Nat) (c : Char)
  | charAt (x : ι) (i : Nat)
  | length (x : ι)
  | equals (x y : ι)
  | equalsCharPtr (x : ι) (p : Source ι)

/-- What an operation returns. -/
inductive StringAnswer where
  | done
  | char (c : Char)
  | size (n : Nat)
  | bool (b : Bool)
  deriving DecidableEq

/-! ## Over texts -/

/-- The texts of the variables that are alive. -/
abbrev Texts (ι : Type) := ι → Option Text

namespace Texts

def declare (A : Texts ι) (x : ι) : Option Unit := if (A x).isNone then some () else none

def set (A : Texts ι) (x : ι) (s : Option Text) : Texts ι := Function.update A x s

/-- The characters behind a pointer, up to a NUL that stands behind them. -/
def behind (A : Texts ι) : Source ι → Option Text
  | .null => none
  | .literal s => some s
  | .cStr x => A x

/-- The text a pointer is taken for; null is taken for the empty text. -/
def taken (A : Texts ι) : Source ι → Option Text
  | .null => some []
  | p => (A.behind p).map cString

/-- A copy leaves the other text; a move leaves it empty; an assignment to itself does nothing. -/
def step (A : Texts ι) : StringOp ι → Option (StringAnswer × Texts ι)
  | .default x => do
    A.declare x
    return (.done, A.set x (some []))
  | .ofCharPtr x p => do
    A.declare x
    let s ← A.taken p
    return (.done, A.set x (some s))
  | .ofRange x p len => do
    A.declare x
    let s ← A.behind p
    if len ≤ s.length + 1 then return (.done, A.set x (some ((s ++ ['\x00']).take len))) else none
  | .copy x y => do
    A.declare x
    let t ← A y
    return (.done, A.set x (some t))
  | .move x y => do
    A.declare x
    let t ← A y
    return (.done, (A.set y (some [])).set x (some t))
  | .destruct x => do
    let _ ← A x
    return (.done, A.set x none)
  | .assignCopy x y => do
    let _ ← A x
    let t ← A y
    return (.done, A.set x (some t))
  | .assignMove x y => do
    let _ ← A x
    let t ← A y
    return (.done, (A.set y (some [])).set x (some t))
  | .assignCharPtr x p => do
    let _ ← A x
    if p = .cStr x then none
    else
      let s ← A.taken p
      return (.done, A.set x (some s))
  | .setChar x i c => do
    let s ← A x
    if i < s.length then return (.done, A.set x (some (s.set i c))) else none
  | .charAt x i => do
    let s ← A x
    let c ← s[i]?
    return (.char c, A)
  | .length x => do
    let s ← A x
    return (.size s.length, A)
  | .equals x y => do
    let s ← A x
    let t ← A y
    return (.bool (s == t), A)
  | .equalsCharPtr x p => do
    let s ← A x
    let t ← A.taken p
    return (.bool (s == t), A)

end Texts

/-! ## Over strings -/

/-- The heap, and the strings of the variables that are alive. -/
structure Strings (ι : Type) where
  heap : Heap Cells := {}
  strings : ι → Option CoreString := fun _ => none

namespace Strings

def declare (y : Strings ι) (x : ι) : Option Unit :=
  if (y.strings x).isNone then some () else none

def set (y : Strings ι) (x : ι) (v : Option CoreString) (heap : Heap Cells) : Strings ι :=
  { heap, strings := Function.update y.strings x v }

/-- The pointer that is passed. -/
def pointer (y : Strings ι) : Source ι → Option CharPtr
  | .null => some .null
  | .literal s => some (.literal s)
  | .cStr x => (y.strings x).map CoreString.cStr

/-- The variable gets the string that a member makes. -/
def make (y : Strings ι) (x : ι) (m : HeapM Cells CoreString) :
    Option (StringAnswer × Strings ι) := do
  let (v, heap) ← (m.run y.heap).toOption
  return (.done, y.set x (some v) heap)

/-- A member that only reads answers. -/
def answer {α : Type} (y : Strings ι) (m : HeapM Cells α) (f : α → StringAnswer) :
    Option (StringAnswer × Strings ι) := do
  let (r, heap) ← (m.run y.heap).toOption
  return (f r, { y with heap })

/-- The members that assign a string look first whether it is the variable's own. -/
def step (y : Strings ι) : StringOp ι → Option (StringAnswer × Strings ι)
  | .default x => do
    y.declare x
    return (.done, y.set x (some {}) y.heap)
  | .ofCharPtr x p => do
    y.declare x
    y.make x (CoreString.ofCharPtr (← y.pointer p))
  | .ofRange x p len => do
    y.declare x
    y.make x (CoreString.ofRange (← y.pointer p) len)
  | .copy x z => do
    y.declare x
    y.make x (CoreString.copyOf (← y.strings z))
  | .move x z => do
    y.declare x
    let other ← y.strings z
    let (v, other) := CoreString.moveOf other
    return (.done, (y.set z (some other) y.heap).set x (some v) y.heap)
  | .destruct x => do
    let v ← y.strings x
    let (_, heap) ← (v.destructor.run y.heap).toOption
    return (.done, y.set x none heap)
  | .assignCopy x z => do
    let v ← y.strings x
    let other ← y.strings z
    if x = z then return (.done, y) else y.make x (v.assignCopy other)
  | .assignMove x z => do
    let v ← y.strings x
    let other ← y.strings z
    if x = z then return (.done, y)
    else
      let ((v, other), heap) ← ((v.assignMove other).run y.heap).toOption
      return (.done, (y.set z (some other) heap).set x (some v) heap)
  | .assignCharPtr x p => do
    let v ← y.strings x
    y.make x (v.assignCharPtr (← y.pointer p))
  | .setChar x i c => do
    let v ← y.strings x
    y.answer (v.setChar i c) fun _ => .done
  | .charAt x i => do
    let v ← y.strings x
    y.answer (v.charAt i) .char
  | .length x => do
    let v ← y.strings x
    return (.size v.len, y)
  | .equals x z => do
    let v ← y.strings x
    let other ← y.strings z
    y.answer (v.equals other) .bool
  | .equalsCharPtr x p => do
    let v ← y.strings x
    y.answer (v.equalsCharPtr (← y.pointer p)) .bool

/-! ## What the variables own -/

/-- A variable that holds its text. -/
inductive HoldsAt : Option CoreString → Option Text → List (Nat × Cells) → Prop
  | dead : HoldsAt none none []
  | alive {v : CoreString} {s : Text} {own : List (Nat × Cells)} (h : v.Holds s own) :
    HoldsAt (some v) (some s) own

theorem HoldsAt.not_alive {v : Option CoreString} {own : List (Nat × Cells)}
    (h : HoldsAt v none own) : v = none ∧ own = [] := by
  cases h
  exact ⟨rfl, rfl⟩

theorem HoldsAt.of_alive {v : Option CoreString} {s : Text} {own : List (Nat × Cells)}
    (h : HoldsAt v (some s) own) : ∃ w, v = some w ∧ w.Holds s own := by
  cases h with
  | alive h => exact ⟨_, rfl, h⟩

/-- Each variable holds its text, and the blocks of the heap are what they own. -/
structure Represents (y : Strings ι) (A : Texts ι) (names : List ι)
    (own : ι → List (Nat × Cells)) : Prop where
  nodup : names.Nodup
  outside : ∀ x, x ∉ names → own x = []
  holds : ∀ x, HoldsAt (y.strings x) (A x) (own x)
  heap : Holds y.heap (names.flatMap own)

/-- What a variable owns is in the ledger. -/
def OwnsIn (y : Strings ι) (A : Texts ι) (ledger : List (Nat × Cells)) (x : ι) : Prop :=
  ∃ own, own ⊆ ledger ∧ HoldsAt (y.strings x) (A x) own

/-- The texts of the variables, which own the heap. -/
def Shows (y : Strings ι) (A : Texts ι) : Prop := ∃ names own, y.Represents A names own

/-- Whatever a variable owns and holds next, with the rest as it is, the variables show. -/
def Replaces (y : Strings ι) (A : Texts ι) (x : ι) (rest : List (Nat × Cells)) : Prop :=
  ∀ heap v s new, HoldsAt v s new → Holds heap (new ++ rest) → (y.set x v heap).Shows (A.set x s)

section Shows

variable {y : Strings ι} {A : Texts ι} {x z : ι} {names : List ι} {own : ι → List (Nat × Cells)}
  {ledger rest : List (Nat × Cells)} {t : Text}

omit [DecidableEq ι] in
theorem OwnsIn.find (h : y.OwnsIn A ledger z) (ht : A z = some t) :
    ∃ w own, y.strings z = some w ∧ own ⊆ ledger ∧ w.Holds t own := by
  obtain ⟨own, hsub, hz⟩ := h
  rw [ht] at hz
  obtain ⟨w, hw, hz⟩ := hz.of_alive
  exact ⟨w, own, hw, hsub, hz⟩

/-- A variable may be listed that owns nothing. -/
theorem Represents.cover (h : y.Represents A names own) (x : ι) :
    ∃ names', x ∈ names' ∧ y.Represents A names' own := by
  by_cases hx : x ∈ names
  · exact ⟨names, hx, h⟩
  · refine ⟨x :: names, List.mem_cons_self, List.nodup_cons.mpr ⟨hx, h.nodup⟩, fun z hz => ?_,
      h.holds, ?_⟩
    · exact h.outside z fun hmem => hz (List.mem_cons_of_mem x hmem)
    · rw [List.flatMap_cons, h.outside x hx]
      exact h.heap

/-- **One variable apart from the others**: what it owns, and the rest, which the others own. -/
theorem Shows.split (h : y.Shows A) (x : ι) : ∃ own rest,
    HoldsAt (y.strings x) (A x) own ∧ Holds y.heap (own ++ rest) ∧
    (∀ z, z ≠ x → y.OwnsIn A rest z) ∧ y.Replaces A x rest := by
  obtain ⟨names, own, h⟩ := h
  obtain ⟨names, hx, h⟩ := h.cover x
  refine ⟨own x, (names.erase x).flatMap own, h.holds x, ?_, fun z hz => ⟨own z, ?_, h.holds z⟩,
    fun heap v s new hnew hheap => ⟨names, Function.update own x new, h.nodup, fun z hz => ?_,
      fun z => ?_, ?_⟩⟩
  · refine h.heap.perm ?_
    rw [← List.flatMap_cons]
    exact (List.perm_cons_erase hx).flatMap_right own
  · by_cases hmem : z ∈ names
    · exact fun b hb => List.mem_flatMap.mpr ⟨z, (List.mem_erase_of_ne hz).mpr hmem, hb⟩
    · rw [h.outside z hmem]
      exact List.nil_subset _
  · rw [Function.update_of_ne (by rintro rfl; exact hz hx)]
    exact h.outside z hz
  · simp only [set, Texts.set, Function.update_apply]
    split_ifs
    · exact hnew
    · exact h.holds z
  · refine hheap.perm ?_
    have hrest : (names.erase x).flatMap (Function.update own x new)
        = (names.erase x).flatMap own := by
      refine List.flatMap_congr fun z hz => Function.update_of_ne ?_ ..
      rintro rfl
      exact (h.nodup.mem_erase_iff.mp hz).1 rfl
    rw [← hrest]
    have hcons := ((List.perm_cons_erase hx).flatMap_right (Function.update own x new)).symm
    rwa [List.flatMap_cons, Function.update_self] at hcons

/-- All the variables together. -/
theorem Shows.whole (h : y.Shows A) : ∃ ledger, Holds y.heap ledger ∧
    (∀ z, y.OwnsIn A ledger z) ∧ ∀ heap, Holds heap ledger → Shows { y with heap } A := by
  obtain ⟨names, own, h⟩ := h
  refine ⟨names.flatMap own, h.heap, fun z => ⟨own z, ?_, h.holds z⟩,
    fun heap hheap => ⟨names, own, h.nodup, h.outside, h.holds, hheap⟩⟩
  by_cases hmem : z ∈ names
  · exact fun b hb => List.mem_flatMap.mpr ⟨z, hmem, hb⟩
  · rw [h.outside z hmem]
    exact List.nil_subset _

/-- **A buffer changes hands**: `x`, which is not alive, gets the string of `z`, which is left
empty. -/
theorem Shows.move (h : y.Shows A) (hx : A x = none) {v : CoreString}
    (hz : y.strings z = some v) :
    ((y.set z (some {}) y.heap).set x (some v) y.heap).Shows
      ((A.set z (some [])).set x (A z)) := by
  obtain ⟨names, own, h⟩ := h
  have hown : own x = [] := by
    have hdead := h.holds x
    rw [hx] at hdead
    exact hdead.not_alive.2
  refine ⟨names.map (Equiv.swap x z), own ∘ Equiv.swap x z,
    h.nodup.map (Equiv.swap x z).injective, fun w hw => h.outside _ fun hmem => hw ?_,
    fun w => ?_, ?_⟩
  · rw [← Equiv.swap_apply_self x z w]
    exact List.mem_map_of_mem hmem
  · simp only [set, Texts.set, Function.update_apply, Function.comp_apply, Equiv.swap_apply_def]
    split_ifs with hwx hwz
    · rw [← hz]
      exact h.holds z
    · rw [hown]
      exact .alive (.null rfl rfl)
    · exact h.holds w
  · have hsame : (names.map (Equiv.swap x z)).flatMap (own ∘ Equiv.swap x z)
        = names.flatMap own := by
      rw [List.flatMap_map]
      exact List.flatMap_congr fun w _ => by simp
    rw [hsame]
    exact h.heap

/-! ## The steps -/

/-- A variable that is declared, apart from the others. -/
theorem Shows.declare (h : y.Shows A) (hx : A.declare x = some ()) :
    A x = none ∧ y.declare x = some () ∧ ∃ rest, Holds y.heap ([] ++ rest) ∧
    (∀ z, y.OwnsIn A rest z) ∧ y.Replaces A x rest := by
  have hA : A x = none := by
    rw [Texts.declare] at hx
    split_ifs at hx with hnone
    exact Option.isNone_iff_eq_none.mp hnone
  obtain ⟨own, rest, hat, hheap, hothers, hput⟩ := h.split x
  rw [hA] at hat
  obtain ⟨hv, rfl⟩ := hat.not_alive
  refine ⟨hA, by rw [Strings.declare, hv]; rfl, rest, hheap, fun z => ?_, hput⟩
  by_cases hz : z = x
  · subst hz
    exact ⟨[], List.nil_subset _, hA ▸ hv ▸ .dead⟩
  · exact hothers z hz

/-- A variable that is alive, apart from the others. -/
theorem Shows.alive (h : y.Shows A) (ht : A x = some t) :
    ∃ v own rest, y.strings x = some v ∧ v.Holds t own ∧ Holds y.heap (own ++ rest) ∧
    (∀ z, z ≠ x → y.OwnsIn A rest z) ∧ y.Replaces A x rest := by
  obtain ⟨own, rest, hat, hheap, hothers, hput⟩ := h.split x
  rw [ht] at hat
  obtain ⟨v, hv, hat⟩ := hat.of_alive
  exact ⟨v, own, rest, hv, hat, hheap, hothers, hput⟩

/-- A variable that dies. -/
theorem Shows.destruct (h : y.Shows A) (ht : A x = some t) : ∃ v heap,
    y.strings x = some v ∧ v.destructor.run y.heap = .ok ((), heap) ∧
    (y.set x none heap).Shows (A.set x none) := by
  obtain ⟨v, own, rest, hv, hholds, hheap, -, hput⟩ := h.alive ht
  obtain ⟨_, heap, _, hrun, rfl, hheap'⟩ := hholds.does_delete hheap
  exact ⟨v, heap, hv, hrun, hput heap none none [] .dead hheap'⟩

/-- A member that makes a string for a variable. -/
theorem make_eq {own : List (Nat × Cells)} (hheap : Holds y.heap (own ++ rest))
    (hput : y.Replaces A x rest) {m : HeapM Cells CoreString} {s : Text}
    (hm : CoreString.Makes m own rest s) :
    ∃ y', y.make x m = some (.done, y') ∧ y'.Shows (A.set x (some s)) := by
  rw [← List.append_nil (own ++ rest)] at hheap
  obtain ⟨v, heap, _, hrun, ⟨new, hv, rfl⟩, hheap'⟩ := hm hheap
  rw [List.append_nil] at hheap'
  refine ⟨_, ?_, hput heap (some v) (some s) new (.alive hv) hheap'⟩
  rw [make, hrun]
  rfl

omit [DecidableEq ι] in
/-- A member that reads the variables. -/
theorem answer_eq (hheap : Holds y.heap ledger)
    (hkeep : ∀ heap, Holds heap ledger → Shows { y with heap } A) {α : Type} {m : HeapM Cells α}
    {r : α} (hm : Reads m ledger r) (f : α → StringAnswer) :
    ∃ y', y.answer m f = some (f r, y') ∧ y'.Shows A := by
  rw [← List.append_nil ledger] at hheap
  obtain ⟨_, heap, _, hrun, ⟨rfl, rfl⟩, hheap'⟩ := hm hheap
  rw [List.append_nil] at hheap'
  refine ⟨_, ?_, hkeep heap hheap'⟩
  rw [answer, hrun]
  rfl

omit [DecidableEq ι] in
/-- A pointer that is passed, and what is behind it. -/
theorem reads_behind {p : Source ι} {s : Text} (hholds : ∀ z, p = .cStr z → y.OwnsIn A ledger z)
    (hs : A.behind p = some s) :
    ∃ q, y.pointer p = some q ∧ q ≠ .null ∧ Reads q.cells ledger (terminated s) := by
  cases p with
  | null => cases hs
  | literal t =>
    cases hs
    exact ⟨.literal s, rfl, by simp, reads_pure _⟩
  | cStr z =>
    obtain ⟨w, own, hw, hsub, hz⟩ := (hholds z rfl).find hs
    refine ⟨w.cStr, by rw [pointer, hw]; rfl, ?_, hz.reads_cStr hsub⟩
    rw [CoreString.cStr]
    cases w.data <;> simp

omit [DecidableEq ι] in
/-- What is taken of a pointer. -/
theorem taken_cases {p : Source ι} {s : Text} (hs : A.taken p = some s) :
    (p = .null ∧ s = []) ∨ ∃ t, A.behind p = some t ∧ s = cString t := by
  cases p with
  | null =>
    cases hs
    exact .inl ⟨rfl, rfl⟩
  | literal t =>
    cases hs
    exact .inr ⟨t, rfl, rfl⟩
  | cStr z =>
    obtain ⟨t, ht, rfl⟩ := Option.map_eq_some_iff.mp hs
    exact .inr ⟨t, ht, rfl⟩

omit [DecidableEq ι] in
/-- A string that is made of a pointer. -/
theorem makes_taken {p : Source ι} {s : Text} (hholds : ∀ z, p = .cStr z → y.OwnsIn A rest z)
    (hs : A.taken p = some s) :
    ∃ q, y.pointer p = some q ∧ CoreString.Makes (CoreString.ofCharPtr q) [] rest s := by
  obtain ⟨rfl, rfl⟩ | ⟨t, ht, rfl⟩ := taken_cases hs
  · exact ⟨.null, rfl, CoreString.makes_null⟩
  · obtain ⟨q, hq, hne, hreads⟩ := reads_behind hholds ht
    exact ⟨q, hq, CoreString.makes_ofCharPtr hne hreads⟩

/-- **A step on texts is a step on strings**, with the same answer. -/
theorem Shows.step {op : StringOp ι} {r : StringAnswer} {A' : Texts ι} (h : y.Shows A)
    (hstep : A.step op = some (r, A')) : ∃ y', y.step op = some (r, y') ∧ y'.Shows A' := by
  cases op with
  | default x =>
    obtain ⟨_, hx, hstep⟩ := Option.bind_eq_some_iff.mp hstep
    cases hstep
    obtain ⟨-, hdecl, rest, hheap, -, hput⟩ := h.declare hx
    refine ⟨y.set x (some {}) y.heap, ?_, hput _ _ _ _ (.alive (.null rfl rfl)) hheap⟩
    rw [Strings.step, hdecl]
    rfl
  | ofCharPtr x p =>
    obtain ⟨_, hx, hstep⟩ := Option.bind_eq_some_iff.mp hstep
    obtain ⟨s, hs, hstep⟩ := Option.bind_eq_some_iff.mp hstep
    cases hstep
    obtain ⟨-, hdecl, rest, hheap, hothers, hput⟩ := h.declare hx
    obtain ⟨q, hq, hmake⟩ := makes_taken (fun z _ => hothers z) hs
    rw [Strings.step, hdecl, hq]
    exact make_eq hheap hput hmake
  | ofRange x p len =>
    obtain ⟨_, hx, hstep⟩ := Option.bind_eq_some_iff.mp hstep
    obtain ⟨s, hs, hstep⟩ := Option.bind_eq_some_iff.mp hstep
    split_ifs at hstep with hlen
    cases hstep
    obtain ⟨-, hdecl, rest, hheap, hothers, hput⟩ := h.declare hx
    obtain ⟨q, hq, -, hreads⟩ := reads_behind (fun z _ => hothers z) hs
    rw [Strings.step, hdecl, hq]
    exact make_eq hheap hput (CoreString.makes_ofRange hreads hlen)
  | copy x z =>
    obtain ⟨_, hx, hstep⟩ := Option.bind_eq_some_iff.mp hstep
    obtain ⟨t, ht, hstep⟩ := Option.bind_eq_some_iff.mp hstep
    cases hstep
    obtain ⟨-, hdecl, rest, hheap, hothers, hput⟩ := h.declare hx
    obtain ⟨w, own', hw, hsub, hz⟩ := (hothers z).find ht
    rw [Strings.step, hdecl, hw]
    exact make_eq hheap hput (CoreString.makes_copyOf hz hsub)
  | move x z =>
    obtain ⟨_, hx, hstep⟩ := Option.bind_eq_some_iff.mp hstep
    obtain ⟨t, ht, hstep⟩ := Option.bind_eq_some_iff.mp hstep
    cases hstep
    obtain ⟨hA, hdecl, rest, hheap, hothers, hput⟩ := h.declare hx
    obtain ⟨w, own', hw, hsub, hz⟩ := (hothers z).find ht
    rw [Strings.step, hdecl, hw, ← ht]
    exact ⟨_, rfl, h.move hA hw⟩
  | destruct x =>
    obtain ⟨t, ht, hstep⟩ := Option.bind_eq_some_iff.mp hstep
    cases hstep
    obtain ⟨v, heap, hv, hrun, hshows⟩ := h.destruct ht
    refine ⟨_, ?_, hshows⟩
    simp only [Strings.step, hv, Option.bind_eq_bind, Option.bind_some, hrun]
    rfl
  | assignCopy x z =>
    obtain ⟨s, hs, hstep⟩ := Option.bind_eq_some_iff.mp hstep
    obtain ⟨t, ht, hstep⟩ := Option.bind_eq_some_iff.mp hstep
    cases hstep
    obtain ⟨v, own, rest, hv, hholds, hheap, hothers, hput⟩ := h.alive hs
    by_cases hxz : x = z
    · subst hxz
      refine ⟨y, ?_, ?_⟩
      · rw [Strings.step, hv]
        exact if_pos rfl
      · rwa [Texts.set, ← ht, Function.update_eq_self]
    · obtain ⟨w, own', hw, hsub, hz⟩ := (hothers z (Ne.symm hxz)).find ht
      simp only [Strings.step, hv, hw, Option.bind_eq_bind, Option.bind_some, if_neg hxz]
      exact make_eq hheap hput (hholds.makes_assign (CoreString.makes_copyOf hz hsub))
  | assignMove x z =>
    obtain ⟨s, hs, hstep⟩ := Option.bind_eq_some_iff.mp hstep
    obtain ⟨t, ht, hstep⟩ := Option.bind_eq_some_iff.mp hstep
    cases hstep
    obtain ⟨v, heap, hv, hrun, hdead⟩ := h.destruct hs
    by_cases hxz : x = z
    · subst hxz
      refine ⟨y, ?_, ?_⟩
      · rw [Strings.step, hv]
        exact if_pos rfl
      · rwa [Texts.set, Texts.set, Function.update_idem, ← ht, Function.update_eq_self]
    · have hz : (A.set x none) z = some t := by
        rwa [Texts.set, Function.update_of_ne (Ne.symm hxz)]
      have hx : (A.set x none) x = none := Function.update_self ..
      obtain ⟨w, own, rest, hw, -⟩ := hdead.alive hz
      have hmoved := hdead.move hx hw
      rw [hz, Texts.set, Texts.set, Texts.set, Function.update_comm hxz, Function.update_idem, set,
        set, set, Function.update_comm hxz, Function.update_idem] at hmoved
      have hw' : y.strings z = some w := (Function.update_of_ne (Ne.symm hxz) ..).symm.trans hw
      have hrun' : (v.assignMove w).run y.heap = .ok (CoreString.moveOf w, heap) := by
        rw [CoreString.assignMove, StateT.run_bind]
        exact congrArg (· >>= _) hrun
      refine ⟨_, ?_, hmoved⟩
      simp only [Strings.step, hv, hw', Option.bind_eq_bind, Option.bind_some, if_neg hxz, hrun']
      rfl
  | assignCharPtr x p =>
    obtain ⟨s, hs, hstep⟩ := Option.bind_eq_some_iff.mp hstep
    split_ifs at hstep with hself
    obtain ⟨t, ht, hstep⟩ := Option.bind_eq_some_iff.mp hstep
    cases hstep
    obtain ⟨v, own, rest, hv, hholds, hheap, hothers, hput⟩ := h.alive hs
    obtain ⟨q, hq, hmake⟩ := makes_taken (fun z hz => hothers z (by rintro rfl; exact hself hz)) ht
    rw [Strings.step, hv, hq]
    exact make_eq hheap hput (hholds.makes_assign hmake)
  | setChar x i c =>
    obtain ⟨s, hs, hstep⟩ := Option.bind_eq_some_iff.mp hstep
    split_ifs at hstep with hi
    cases hstep
    obtain ⟨v, own, rest, hv, hholds, hheap, -, hput⟩ := h.alive hs
    obtain ⟨_, heap, new, hrun, hnew, hheap'⟩ := hholds.does_setChar hi c hheap
    have hshows := hput heap (some v) _ new (.alive hnew) hheap'
    rw [set, ← hv, Function.update_eq_self] at hshows
    refine ⟨_, ?_, hshows⟩
    simp only [Strings.step, hv, Option.bind_eq_bind, Option.bind_some, answer, hrun]
    rfl
  | charAt x i =>
    obtain ⟨s, hs, hstep⟩ := Option.bind_eq_some_iff.mp hstep
    obtain ⟨c, hc, hstep⟩ := Option.bind_eq_some_iff.mp hstep
    cases hstep
    obtain ⟨ledger, hheap, hall, hkeep⟩ := h.whole
    obtain ⟨v, own, hv, hsub, hholds⟩ := (hall x).find hs
    rw [Strings.step, hv]
    exact answer_eq hheap hkeep (hholds.reads_charAt hsub hc) _
  | length x =>
    obtain ⟨s, hs, hstep⟩ := Option.bind_eq_some_iff.mp hstep
    cases hstep
    obtain ⟨v, own, rest, hv, hholds, -⟩ := h.alive hs
    refine ⟨y, ?_, h⟩
    rw [Strings.step, hv, ← hholds.len]
    rfl
  | equals x z =>
    obtain ⟨s, hs, hstep⟩ := Option.bind_eq_some_iff.mp hstep
    obtain ⟨t, ht, hstep⟩ := Option.bind_eq_some_iff.mp hstep
    cases hstep
    obtain ⟨ledger, hheap, hall, hkeep⟩ := h.whole
    obtain ⟨v, own, hv, hsub, hholds⟩ := (hall x).find hs
    obtain ⟨w, own', hw, hsub', hholds'⟩ := (hall z).find ht
    rw [Strings.step, hv, hw]
    exact answer_eq hheap hkeep (hholds.reads_equals hsub hholds' hsub') _
  | equalsCharPtr x p =>
    obtain ⟨s, hs, hstep⟩ := Option.bind_eq_some_iff.mp hstep
    obtain ⟨t, ht, hstep⟩ := Option.bind_eq_some_iff.mp hstep
    cases hstep
    obtain ⟨ledger, hheap, hall, hkeep⟩ := h.whole
    obtain ⟨v, own, hv, hsub, hholds⟩ := (hall x).find hs
    obtain ⟨rfl, rfl⟩ | ⟨u, hu, rfl⟩ := taken_cases ht
    · rw [Strings.step, hv]
      exact answer_eq hheap hkeep hholds.reads_equalsNull _
    · obtain ⟨q, hq, hne, hreads⟩ := reads_behind (fun z _ => hall z) hu
      rw [Strings.step, hv, hq]
      exact answer_eq hheap hkeep (hholds.reads_equalsCharPtr hsub hne hreads) _

omit [DecidableEq ι] in
theorem shows_nil : Shows ({} : Strings ι) fun _ => none :=
  ⟨[], fun _ => [], List.nodup_nil, fun _ _ => rfl, fun _ => .dead, holds_nil⟩

omit [DecidableEq ι] in
/-- With no variable alive the heap is empty. -/
theorem Shows.empty (h : y.Shows A) (hA : ∀ x, A x = none) (a : Nat) : y.heap.get a = none := by
  obtain ⟨names, own, h⟩ := h
  have hown : names.flatMap own = [] := by
    refine List.flatMap_eq_nil_iff.mpr fun x _ => ?_
    have hx := h.holds x
    rw [hA] at hx
    exact hx.not_alive.2
  have hheap := h.heap
  rw [hown] at hheap
  exact hheap.get_nil a

/-- **A string that is assigned its own text** reads the buffer it has released, if it had one. -/
theorem own_text_faults (h : y.Shows A) {v : CoreString} (hv : y.strings x = some v) :
    y.step (.assignCharPtr x (.cStr x)) = none ↔ v.data ≠ none := by
  obtain ⟨own, rest, hat, hheap, -, hput⟩ := h.split x
  rw [hv] at hat
  have hstep : y.step (.assignCharPtr x (.cStr x)) = y.make x (v.assignCharPtr v.cStr) := by
    rw [step, pointer, hv]
    rfl
  rw [hstep, CoreString.cStr]
  generalize A x = s at hat
  cases hat with
  | alive hholds =>
    cases hdata : v.data with
    | none =>
      have hmake : CoreString.Makes (v.assignCharPtr (.literal [])) own rest [] :=
        hholds.makes_assign (CoreString.makes_ofCharPtr (p := .literal []) (by simp) (reads_pure _))
      obtain ⟨y', hy', -⟩ := make_eq hheap hput hmake
      simp [hy']
    | some a =>
      refine iff_of_true ?_ (by simp)
      obtain ⟨_, heap, _, hrun, rfl, hheap'⟩ := hholds.does_delete hheap
      have hfree : heap.get a = none := by
        cases hholds with
        | null hnull hlen => simp [hnull] at hdata
        | buffer hbuffer hlen =>
          cases hdata.symm.trans hbuffer
          have hnot := (List.nodup_cons.mp hheap.nodup).1
          rw [Option.eq_none_iff_forall_ne_some]
          exact fun b hb => hnot (List.mem_map.mpr ⟨(a, b), (hheap'.get a b).mp hb, rfl⟩)
      have hstrlen : (CoreString.ofCharPtr (.buffer a)).run heap = .error .unallocated := by
        simp [CoreString.ofCharPtr, strlen, CharPtr.cells, load, StateT.run, bind, StateT.bind,
          Except.bind, hfree]
      have hfault : (v.assignCharPtr (.buffer a)).run y.heap = .error .unallocated := by
        rw [CoreString.assignCharPtr, StateT.run_bind, hrun]
        exact hstrlen
      rw [make, Option.elim, hfault]
      rfl

end Shows

end Strings

section Programs

variable {ops : List (StringOp ι)} {answers : List StringAnswer} {A : Texts ι}

/-- **A program over strings is a program over texts**, and leaves no block behind. -/
theorem strings_refine_texts (h : exec Texts.step (fun _ => none) ops = some (answers, A)) :
    ∃ y : Strings ι, exec Strings.step {} ops = some (answers, y) ∧ y.Shows A ∧
      ((∀ x, A x = none) → ∀ a, y.heap.get a = none) := by
  have hrun : ∃ y, exec Strings.step {} ops = some (answers, y) ∧ y.Shows A :=
    exec_refine Strings.Shows.step Strings.shows_nil h
  obtain ⟨y, hexec, hshows⟩ := hrun
  exact ⟨y, hexec, hshows, hshows.empty⟩

/-- A copy keeps its text while the other is changed, moved away and assigned again. -/
theorem strings_refine_texts_copy : ∃ y : Strings Bool,
    exec Strings.step {} [.ofCharPtr false (.literal ['a', '\x00', 'b']), .copy true false,
      .setChar false 0 'c', .equals true false, .assignMove false true, .charAt false 0,
      .equalsCharPtr true .null, .assignCharPtr true (.cStr false), .assignCopy true true,
      .equals true false, .destruct false, .length true, .destruct true]
      = some ([.done, .done, .done, .bool false, .done, .char 'a', .bool true, .done, .done,
          .bool true, .done, .size 1, .done], y) ∧ ∀ a, y.heap.get a = none := by
  refine (strings_refine_texts (A := (fun _ => none : Texts Bool)) ?_).imp
    fun y h => ⟨h.1, h.2.2 fun _ => rfl⟩
  have hdead (A : Texts Bool) (hf : A false = none) (ht : A true = none) : A = fun _ => none :=
    funext (Bool.forall_bool.mpr ⟨hf, ht⟩)
  exact congrArg (fun A => some (_, A)) (hdead _ rfl rfl)

end Programs

end MiniDB.Core

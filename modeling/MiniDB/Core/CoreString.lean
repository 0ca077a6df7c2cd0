import MiniDB.Core.Text
import MiniDB.Machinery.Ledger

/-!
# Core/CoreString — `core::String` over a heap, and what each member leaves

A string is a pointer to a buffer of characters and a length; the string that owns no buffer is
empty.  The members call the C library on buffers: reading behind a buffer, or a cell that was never
written, is a fault, and so is a second release.

A string `Holds` a text when its buffer has the text and a NUL.  A text may have a NUL in it; what
is read of it as a C string then ends there.
-/

namespace MiniDB.Core

open Ledger

/-! ## Buffers -/

/-- The characters of a buffer, as far as they have been written. -/
abbrev Cells := List (Option Char)

/-- A text and its NUL. -/
def terminated (s : Text) : Cells := (s ++ ['\x00']).map some

/-- A `const char*`: null, to a text outside the heap, or to a buffer. -/
inductive CharPtr where
  | null
  | literal (s : Text)
  | buffer (a : Nat)
  deriving DecidableEq, Repr

/-- The cells behind a pointer. -/
def CharPtr.cells : CharPtr → HeapM Cells Cells
  | .null => throw .unallocated
  | .literal s => return terminated s
  | .buffer a => load a

/-- The first cells behind a pointer, all of which must have been written. -/
def CharPtr.read (p : CharPtr) (n : Nat) : HeapM Cells Text := do
  match ((← p.cells).take n).mapM id with
  | some s => if s.length = n then return s else throw .unsuitable
  | none => throw .unsuitable

/-- The position of the first NUL, with nothing unwritten in front of it. -/
def nulPos : Cells → Option Nat
  | [] => none
  | none :: _ => none
  | some c :: cells => if c = '\x00' then some 0 else (nulPos cells).map (· + 1)

def strlen (p : CharPtr) : HeapM Cells Nat := do
  match nulPos (← p.cells) with
  | some n => return n
  | none => throw .unsuitable

/-- `new char[n]`. -/
def newChars (n : Nat) : HeapM Cells Nat := new (List.replicate n none)

/-- `memcpy`, to the start of a buffer. -/
def memcpy (a : Nat) (p : CharPtr) (n : Nat) : HeapM Cells Unit := do
  let source ← p.cells
  let cells ← load a
  if n ≤ source.length ∧ n ≤ cells.length then store a (source.take n ++ cells.drop n)
  else throw .unsuitable

/-- `memcmp(p, q, n) == 0`. -/
def memcmp (p q : CharPtr) (n : Nat) : HeapM Cells Bool := do
  return (← p.read n) == (← q.read n)

/-- `a[i]`. -/
def loadChar (a i : Nat) : HeapM Cells Char := do
  match (← load a)[i]?.join with
  | some c => return c
  | none => throw .unsuitable

/-- `a[i] = c`. -/
def storeChar (a i : Nat) (c : Char) : HeapM Cells Unit := do
  let cells ← load a
  if i < cells.length then store a (cells.set i (some c)) else throw .unsuitable

/-! ## The class -/

/-- `_data` and `_len`. -/
structure CoreString where
  data : Pointer := none
  len : Nat := 0
  deriving DecidableEq, Repr

namespace CoreString

/-- `String(const char* s)`. -/
def ofCharPtr (s : CharPtr) : HeapM Cells CoreString := do
  if s = .null then return { data := none, len := 0 }
  else
    let len ← strlen s
    let data ← newChars (len + 1)
    memcpy data s (len + 1)
    return { data := some data, len }

/-- `String(const char* s, std::size_t len)`. -/
def ofRange (s : CharPtr) (len : Nat) : HeapM Cells CoreString := do
  let data ← newChars (len + 1)
  memcpy data s len
  storeChar data len '\x00'
  return { data := some data, len }

/-- `String(const String& other)`. -/
def copyOf (other : CoreString) : HeapM Cells CoreString := do
  match other.data with
  | some a =>
    let data ← newChars (other.len + 1)
    memcpy data (.buffer a) (other.len + 1)
    return { data := some data, len := other.len }
  | none => return { data := none, len := other.len }

/-- `String(String&& other)`: the new string, and what becomes of `other`. -/
def moveOf (other : CoreString) : CoreString × CoreString :=
  ({ data := other.data, len := other.len }, { data := none, len := 0 })

/-- `~String()`. -/
def destructor (s : CoreString) : HeapM Cells Unit := delete s.data

/-- `operator=(const String& other)`, of another string. -/
def assignCopy (s other : CoreString) : HeapM Cells CoreString := do
  delete s.data
  copyOf other

/-- `operator=(String&& other)`, of another string. -/
def assignMove (s other : CoreString) : HeapM Cells (CoreString × CoreString) := do
  delete s.data
  return moveOf other

/-- `operator=(const char* s)`: the old buffer is released first. -/
def assignCharPtr (s : CoreString) (p : CharPtr) : HeapM Cells CoreString := do
  delete s.data
  ofCharPtr p

/-- `_data`. -/
def pointer (s : CoreString) : CharPtr := s.data.elim .null .buffer

/-- `c_str()`. -/
def cStr (s : CoreString) : CharPtr := s.data.elim (.literal []) .buffer

/-- `operator[]`. -/
def charAt (s : CoreString) (i : Nat) : HeapM Cells Char :=
  s.data.elim (throw .unallocated) (loadChar · i)

/-- An assignment to `operator[]`. -/
def setChar (s : CoreString) (i : Nat) (c : Char) : HeapM Cells Unit :=
  s.data.elim (throw .unallocated) (storeChar · i c)

/-- `operator==(const String& other)`. -/
def equals (s other : CoreString) : HeapM Cells Bool := do
  if s.len ≠ other.len then return false
  else if s.len = 0 then return true
  else memcmp s.pointer other.pointer s.len

/-- `operator==(const char* s)`. -/
def equalsCharPtr (s : CoreString) (p : CharPtr) : HeapM Cells Bool := do
  if p = .null then return s.len = 0
  else
    let slen ← strlen p
    if s.len ≠ slen then return false
    else if s.len = 0 then return true
    else memcmp s.pointer p s.len

end CoreString

/-! ## What the C library does -/

section Library

variable {p q : CharPtr} {own rest : List (Nat × Cells)} {s t : Text} {cells : Cells} {a n : Nat}

theorem nulPos_terminated (s : Text) : nulPos (terminated s) = some (cString s).length := by
  induction s with
  | nil => rfl
  | cons c s ih =>
    rw [terminated, List.cons_append, List.map_cons, nulPos, cString]
    by_cases hc : c = '\x00'
    · simp [hc]
    · rw [if_neg hc, ← terminated, ih, List.takeWhile_cons_of_pos (by simpa using hc)]
      rfl

/-- Up to its first NUL a buffer is a C string with its NUL. -/
theorem take_terminated (s : Text) :
    (terminated s).take ((cString s).length + 1) = terminated (cString s) := by
  induction s with
  | nil => rfl
  | cons c s ih =>
    rw [terminated, List.cons_append, List.map_cons, List.take_succ_cons, cString]
    by_cases hc : c = '\x00'
    · simp [hc, terminated]
    · rw [List.takeWhile_cons_of_pos (by simpa using hc), ← terminated, List.length_cons]
      exact congrArg (some c :: ·) ih

theorem length_terminated (s : Text) : (terminated s).length = s.length + 1 := by
  simp [terminated]

theorem reads_strlen (hp : Reads p.cells own (terminated s)) :
    Reads (strlen p) own (cString s).length := by
  refine hp.bind ?_
  simp only [nulPos_terminated]
  exact reads_pure _

theorem reads_read (hp : Reads p.cells own (terminated s)) (hn : n ≤ s.length) :
    Reads (p.read n) own (s.take n) := by
  refine hp.bind ?_
  have htake : ((terminated s).take n).mapM id = some (s.take n) := by
    rw [terminated, ← List.map_take, List.take_append_of_le_length hn]
    induction s.take n with
    | nil => rfl
    | cons c s ih => simp [ih]
  simp only [htake, List.length_take_of_le hn, if_true]
  exact reads_pure _

theorem reads_memcmp (hp : Reads p.cells own (terminated s)) (hq : Reads q.cells own (terminated t))
    (hs : n ≤ s.length) (ht : n ≤ t.length) :
    Reads (memcmp p q n) own (s.take n == t.take n) :=
  (reads_read hp hs).bind ((reads_read hq ht).bind (reads_pure _))

theorem does_newChars (n : Nat) :
    Does (newChars n) [] fun a after => after = [(a, List.replicate n none)] := does_new _

/-- What is copied comes from other blocks. -/
theorem does_memcpy (hp : Reads p.cells rest (terminated s)) (hs : n ≤ s.length + 1)
    (hn : n ≤ cells.length) : Does (memcpy a p n) ((a, cells) :: rest) fun _ after =>
      after = (a, (terminated s).take n ++ cells.drop n) :: rest := by
  refine (hp.on (List.perm_append_singleton (a, cells) rest).symm).bind ?_
  refine (reads_load List.mem_cons_self).bind ?_
  have hle : n ≤ (terminated s).length ∧ n ≤ cells.length := by
    rw [length_terminated]
    exact ⟨hs, hn⟩
  simp only [if_pos hle]
  refine ((does_store _).frame rest).imp ?_
  rintro _ _ ⟨_, rfl, rfl⟩
  exact ⟨_, List.Perm.refl _, rfl⟩

theorem does_storeChar {i : Nat} (hi : i < cells.length) (c : Char) :
    Does (storeChar a i c) [(a, cells)] fun _ after => after = [(a, cells.set i (some c))] := by
  refine (reads_load List.mem_cons_self).bind ?_
  rw [if_pos hi]
  exact does_store _

theorem reads_loadChar {i : Nat} {c : Char} (hmem : (a, cells) ∈ own)
    (hi : cells[i]? = some (some c)) : Reads (loadChar a i) own c := by
  refine (reads_load hmem).bind ?_
  simp only [hi, Option.join_some]
  exact reads_pure c

end Library

/-! ## What the members leave -/

namespace CoreString

/-- A string with the blocks it owns. -/
inductive Holds (v : CoreString) : Text → List (Nat × Cells) → Prop
  | null (hdata : v.data = none) (hlen : v.len = 0) : Holds v [] []
  | buffer {a : Nat} {s : Text} (hdata : v.data = some a) (hlen : v.len = s.length) :
      Holds v s [(a, terminated s)]

/-- The program makes a string of the text, which owns what is new. -/
def Makes (m : HeapM Cells CoreString) (own rest : List (Nat × Cells)) (s : Text) : Prop :=
  Does m (own ++ rest) fun v after => ∃ new, v.Holds s new ∧ after = new ++ rest

section Members

variable {v w : CoreString} {p : CharPtr} {own rest : List (Nat × Cells)} {s t : Text} {i n : Nat}

theorem Holds.len (h : v.Holds s own) : v.len = s.length := by
  cases h with
  | null hdata hlen => exact hlen
  | buffer hdata hlen => exact hlen

/-- What is behind a pointer into a string. -/
theorem Holds.reads_pointer (h : v.Holds s own) (hs : s ≠ []) (hsub : own ⊆ rest) :
    Reads v.pointer.cells rest (terminated s) := by
  cases h with
  | null hdata hlen => exact absurd rfl hs
  | buffer hdata hlen =>
    rw [pointer, hdata]
    exact reads_load (hsub List.mem_cons_self)

theorem Holds.reads_cStr (h : v.Holds s own) (hsub : own ⊆ rest) :
    Reads v.cStr.cells rest (terminated s) := by
  rw [cStr]
  cases h with
  | null hdata hlen =>
    rw [hdata]
    exact reads_pure _
  | buffer hdata hlen =>
    rw [hdata]
    exact reads_load (hsub List.mem_cons_self)

theorem Holds.does_delete (h : v.Holds s own) :
    Does (delete v.data) own fun _ after => after = [] := by
  cases h with
  | null hdata hlen =>
    rw [hdata]
    exact does_delete_null
  | buffer hdata hlen =>
    rw [hdata]
    exact Ledger.does_delete

theorem makes_ofCharPtr (hne : p ≠ .null) (hp : Reads p.cells rest (terminated s)) :
    Makes (ofCharPtr p) [] rest (cString s) := by
  rw [Makes, ofCharPtr, if_neg hne, List.nil_append]
  refine (reads_strlen hp).bind ?_
  refine (does_newChars _).bind_on (List.Perm.refl _) ?_
  rintro a _ rfl
  have hle : (cString s).length ≤ s.length := (List.takeWhile_prefix _).length_le
  refine (does_memcpy hp (Nat.succ_le_succ hle) (by simp)).bind ?_
  rintro _ _ rfl
  refine does_pure ⟨[(a, terminated (cString s))], .buffer rfl rfl, ?_⟩
  rw [take_terminated, List.drop_replicate, Nat.sub_self, List.replicate_zero, List.append_nil,
    List.singleton_append]

theorem makes_null : Makes (ofCharPtr .null) [] rest [] := does_pure ⟨[], .null rfl rfl, rfl⟩

theorem makes_copyOf (h : w.Holds t own) (hsub : own ⊆ rest) : Makes (copyOf w) [] rest t := by
  rw [Makes, copyOf, List.nil_append]
  cases h with
  | null hdata hlen =>
    rw [hdata]
    exact does_pure ⟨[], .null rfl hlen, rfl⟩
  | buffer hdata hlen =>
    rw [hdata, hlen]
    refine (does_newChars _).bind_on (List.Perm.refl _) ?_
    rintro b _ rfl
    have hread : Reads (CharPtr.buffer _).cells rest (terminated t) :=
      reads_load (hsub List.mem_cons_self)
    refine (does_memcpy hread le_rfl (by simp)).bind ?_
    rintro _ _ rfl
    refine does_pure ⟨[(b, terminated t)], .buffer rfl rfl, ?_⟩
    rw [List.take_of_length_le (length_terminated t).le, List.drop_replicate, Nat.sub_self,
      List.replicate_zero, List.append_nil, List.singleton_append]

theorem makes_ofRange (hp : Reads p.cells rest (terminated s)) (hn : n ≤ s.length + 1) :
    Makes (ofRange p n) [] rest ((s ++ ['\x00']).take n) := by
  rw [Makes, ofRange, List.nil_append]
  refine (does_newChars _).bind_on (List.Perm.refl _) ?_
  rintro a _ rfl
  refine (does_memcpy hp hn (by simp)).bind ?_
  rintro _ _ rfl
  have hlen : ((s ++ ['\x00']).take n).length = n := List.length_take_of_le (by simpa using hn)
  rw [List.drop_replicate, Nat.add_sub_cancel_left, List.replicate_one, terminated, ← List.map_take]
  generalize (s ++ ['\x00']).take n = u at hlen ⊢
  have hset : (u.map some ++ [none]).set n (some '\x00') = terminated u := by
    rw [List.set_append_right _ _ (by simp [hlen]), List.length_map, hlen, Nat.sub_self, terminated,
      List.map_append]
    rfl
  refine (does_storeChar (by simp [hlen]) _).bind_on (List.Perm.refl _) ?_
  rintro _ _ rfl
  rw [hset]
  exact does_pure ⟨[(a, terminated u)], .buffer rfl hlen.symm, rfl⟩

/-- An assignment releases what the string has owned, and makes another. -/
theorem Holds.makes_assign (h : v.Holds s own) {m : HeapM Cells CoreString}
    (hm : Makes m [] rest t) : Makes (do delete v.data; m) own rest t := by
  refine h.does_delete.bind_on (List.Perm.refl _) ?_
  rintro _ _ rfl
  exact hm

/-- A character of the text is replaced in its buffer. -/
theorem Holds.does_setChar (h : v.Holds s own) (hi : i < s.length) (c : Char) :
    Does (v.setChar i c) own fun _ after => v.Holds (s.set i c) after := by
  cases h with
  | null hdata hlen => simp at hi
  | buffer hdata hlen =>
    rw [setChar, hdata]
    have hset : (terminated s).set i (some c) = terminated (s.set i c) := by
      rw [terminated, terminated, ← List.map_set, List.set_append_left _ _ hi]
    refine (does_storeChar (by rw [length_terminated]; omega) c).imp ?_
    rintro _ _ rfl
    rw [hset]
    exact ⟨_, List.Perm.refl _, .buffer hdata (by rw [hlen, List.length_set])⟩

theorem Holds.reads_charAt (h : v.Holds s own) (hsub : own ⊆ rest) {c : Char}
    (hc : s[i]? = some c) : Reads (v.charAt i) rest c := by
  cases h with
  | null hdata hlen => cases hc
  | buffer hdata hlen =>
    rw [charAt, hdata]
    refine reads_loadChar (hsub List.mem_cons_self) ?_
    obtain ⟨hlt, -⟩ := List.getElem?_eq_some_iff.mp hc
    rw [terminated, List.getElem?_map, List.getElem?_append_left hlt, hc]
    rfl

/-- A text with as many characters in front of what is behind the other pointer. -/
theorem Holds.reads_memcmp (h : v.Holds s own) (hsub : own ⊆ rest) (hs : v.len ≠ 0)
    (hp : Reads p.cells rest (terminated t)) (ht : s.length ≤ t.length) :
    Reads (memcmp v.pointer p v.len) rest (s == t.take s.length) := by
  have hne : s ≠ [] := by
    rintro rfl
    exact hs h.len
  have hcmp := MiniDB.Core.reads_memcmp (h.reads_pointer hne hsub) hp le_rfl ht
  rw [List.take_length] at hcmp
  rwa [h.len]

theorem Holds.reads_equals {own' : List (Nat × Cells)} (h : v.Holds s own) (hsub : own ⊆ rest)
    (h' : w.Holds t own') (hsub' : own' ⊆ rest) : Reads (v.equals w) rest (s == t) := by
  rw [equals]
  split_ifs with hlen hzero
  · have hne : (s == t) = false := by
      refine beq_false_of_ne ?_
      rintro rfl
      exact hlen (h.len.trans h'.len.symm)
    rw [hne]
    exact reads_pure _
  · rw [List.eq_nil_of_length_eq_zero (h.len.symm.trans hzero),
      List.eq_nil_of_length_eq_zero (h'.len.symm.trans ((not_not.mp hlen).symm.trans hzero))]
    exact reads_pure _
  · have hsame : s.length = t.length := by
      rw [← h.len, ← h'.len]
      exact not_not.mp hlen
    have hne : t ≠ [] := by
      rintro rfl
      exact hzero (h.len.trans hsame)
    have hcmp := h.reads_memcmp hsub hzero (h'.reads_pointer hne hsub') hsame.le
    rwa [hsame, List.take_length] at hcmp

theorem Holds.reads_equalsNull (h : v.Holds s own) :
    Reads (v.equalsCharPtr .null) rest (s == []) := by
  have hsame : (s == []) = decide (v.len = 0) := by
    rw [h.len, Bool.eq_iff_iff]
    simp
  rw [equalsCharPtr, if_pos rfl, hsame]
  exact reads_pure _

theorem Holds.reads_equalsCharPtr (h : v.Holds s own) (hsub : own ⊆ rest) (hne : p ≠ .null)
    (hp : Reads p.cells rest (terminated t)) :
    Reads (v.equalsCharPtr p) rest (s == cString t) := by
  rw [equalsCharPtr, if_neg hne]
  refine (reads_strlen hp).bind ?_
  split_ifs with hlen hzero
  · have hne : (s == cString t) = false := by
      refine beq_false_of_ne ?_
      rintro rfl
      exact hlen h.len
    rw [hne]
    exact reads_pure _
  · rw [List.eq_nil_of_length_eq_zero (h.len.symm.trans hzero),
      List.eq_nil_of_length_eq_zero ((not_not.mp hlen).symm.trans hzero)]
    exact reads_pure _
  · have hsame : s.length = (cString t).length := by
      rw [← h.len]
      exact not_not.mp hlen
    have hprefix : cString t <+: t := List.takeWhile_prefix _
    have hcmp := h.reads_memcmp hsub hzero hp (hsame.le.trans hprefix.length_le)
    rwa [hsame, ← List.prefix_iff_eq_take.mp hprefix] at hcmp

end Members

end CoreString

end MiniDB.Core

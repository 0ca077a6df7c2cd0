import MiniDB.Machinery.InPlace
import MiniDB.Machinery.SortedKeys
import Mathlib.Algebra.Order.Group.Int
import Mathlib.Tactic.Ring

/-!
# Storage/Index — the primary-key index, and the map it is

A sorted array of entries with a binary search.  The search returns a position, or `~lo` for the
place where the key belongs; insertion and removal shift in place.  A read or write outside the
array has no value.  Sizes and positions are exact numbers, which the `int`s of the search hold
while the entries are fewer than 2³¹.

While its keys increase (`Index.Sorted`) an index is a finite map, `Index.rowOf`: `insert_spec`,
`find_spec` and `remove_spec` say that every operation is defined and does to the map what it says.
-/

namespace MiniDB.Storage

open SortedKeys

/-- A primary-key value and the position of its row. -/
structure Entry where
  key : Int := 0
  rowId : Int := 0
  deriving DecidableEq, Repr

structure Index where
  entries : List Entry := []
  deriving DecidableEq, Repr

namespace Index

/-! ## The operations -/

/-- `_entries[static_cast<std::size_t>(i)]`. -/
def slot (es : List Entry) (i : Int) : Option Entry := if 0 ≤ i then es[i.toNat]? else none

/-- The rounds of the binary search on `[lo, hi]`. -/
def findLoop (es : List Entry) (key : Int) : Nat → Int → Int → Option Int
  | 0, _, _ => none
  | n + 1, lo, hi =>
    if lo ≤ hi then do
      let mid := lo + (hi - lo) / 2
      let e ← slot es mid
      if e.key = key then some mid
      else if e.key < key then findLoop es key n (mid + 1) hi
      else findLoop es key n lo (mid - 1)
    else some (-lo - 1)

/-- `_find_pos`: the window shrinks in every round, so one round more than entries is enough.  Its
`int`s hold every number computed while the entries are fewer than 2³¹. -/
def findPos (es : List Entry) (key : Int) : Option Int :=
  if es.isEmpty then some (-1) else findLoop es key (es.length + 1) 0 (es.length - 1)

/-- Overwrites if the key already exists. -/
def insert (idx : Index) (key rowId : Int) : Option Index := do
  let pos ← findPos idx.entries key
  if 0 ≤ pos then do
    let e ← slot idx.entries pos
    let es ← InPlace.put idx.entries pos.toNat { e with rowId }
    return { entries := es }
  else
    let insertAt := -pos - 1
    if (idx.entries.length : Int) ≤ insertAt then
      return { entries := idx.entries ++ [{ key, rowId }] }
    else do
      let es := idx.entries ++ [({} : Entry)]
      let es ← InPlace.shiftRight (es.length - 1 - insertAt.toNat) (es.length - 1) es
      let es ← InPlace.put es insertAt.toNat { key, rowId }
      return { entries := es }

/-- The row id, if the key is found. -/
def find (idx : Index) (key : Int) : Option (Option Int) := do
  let pos ← findPos idx.entries key
  if pos < 0 then return none
  else
    let e ← slot idx.entries pos
    return some e.rowId

/-- Whether the key was found, and the index without it. -/
def remove (idx : Index) (key : Int) : Option (Bool × Index) := do
  let pos ← findPos idx.entries key
  if pos < 0 then return (false, idx)
  else
    let es ← InPlace.shiftLeft (idx.entries.length - (pos.toNat + 1)) pos.toNat idx.entries
    return (true, { entries := es.dropLast })

def clear (_ : Index) : Index := {}

def size (idx : Index) : Nat := idx.entries.length

/-! ## The map -/

/-- The keys strictly increase. -/
def Sorted (idx : Index) : Prop := SortedKeys.Sorted Entry.key idx.entries

/-- The map from keys to row ids. -/
def rowOf (idx : Index) (k : Int) : Option Int := (lookup Entry.key k idx.entries).map Entry.rowId

/-- The keys, in order. -/
def keys (idx : Index) : List Int := idx.entries.map Entry.key

theorem sorted_empty : Sorted {} := sorted_nil

@[simp] theorem rowOf_empty (k : Int) : rowOf {} k = none := rfl

theorem isSome_rowOf {idx : Index} {k : Int} : (idx.rowOf k).isSome ↔ k ∈ idx.keys := by
  rw [rowOf, Option.isSome_map, lookup_isSome_iff, keys]

theorem lookup_eq (idx : Index) (k : Int) :
    lookup Entry.key k idx.entries = (idx.rowOf k).map (Entry.mk k) := by
  rw [rowOf]
  cases h : lookup Entry.key k idx.entries with
  | none => rfl
  | some e =>
    have hk : e.key = k := by simpa using List.find?_some h
    rw [← hk]
    rfl

/-- A sorted index is determined by its map. -/
theorem Sorted.ext {idx idx' : Index} (h : idx.Sorted) (h' : idx'.Sorted)
    (hmap : ∀ k, idx.rowOf k = idx'.rowOf k) : idx = idx' := by
  have hentries : idx.entries = idx'.entries :=
    SortedKeys.Sorted.ext h h' fun k => by rw [lookup_eq, lookup_eq, hmap]
  cases idx
  cases idx'
  exact congrArg Index.mk hentries

/-! ## The binary search -/

theorem slot_eq_getElem? (es : List Entry) (i : Nat) : slot es i = es[i]? := by
  simp [slot]

/-- What a search for `key` finds: the place of its entry, or the cut where it belongs. -/
inductive Found (es : List Entry) (key : Int) : Int → Prop
  | here {pre post : List Entry} {e : Entry} : es = pre ++ e :: post → e.key = key →
      Found es key pre.length
  | absent {pre post : List Entry} : es = pre ++ post → Cut Entry.key key pre post →
      Found es key (-pre.length - 1)

/-- From a window of fewer than `n` entries the search ends within `n` rounds. -/
theorem findLoop_found {es : List Entry} {key : Int} (hs : SortedKeys.Sorted Entry.key es) {n : Nat}
    {lo up : Nat} (hw : Window Entry.key key es lo up) (hn : up - lo < n) :
    ∃ pos, findLoop es key n lo (up - 1) = some pos ∧ Found es key pos := by
  induction n generalizing lo up with
  | zero => omega
  | succ n ih =>
    have hle := hw.le
    rw [findLoop]
    by_cases hlt : lo < up
    · -- the probe, as a natural
      obtain ⟨mid, hmid⟩ : ∃ mid : Nat, (lo + ((up - 1 : Int) - lo) / 2 : Int) = mid :=
        ⟨_, (Int.toNat_of_nonneg (by omega)).symm⟩
      have hbound := hw.bound
      have hget : es[mid]? = some es[mid] := List.getElem?_eq_getElem (by omega)
      rw [if_pos (by omega)]
      simp only [hmid, slot_eq_getElem?, hget, Option.bind_eq_bind, Option.bind_some]
      rcases lt_trichotomy es[mid].key key with hk | hk | hk
      · rw [if_neg (ne_of_lt hk), if_pos hk]
        have h := ih (hw.right hs (by omega) hget hk) (by omega)
        rwa [Nat.cast_succ] at h
      · rw [if_pos hk]
        obtain ⟨pre, e, post, hes, rfl⟩ := InPlace.exists_split (show mid < es.length by omega)
        have he : es[pre.length] = e := by simp [hes]
        exact ⟨_, rfl, .here hes (he ▸ hk)⟩
      · rw [if_neg (ne_of_gt hk), if_neg (asymm hk)]
        exact ih (hw.left hs (by omega) hget hk) (by omega)
    · obtain rfl : lo = up := by omega
      rw [if_neg (by omega)]
      refine ⟨_, rfl, ?_⟩
      have hlen : (es.take lo).length = lo := List.length_take_of_le hw.bound
      have h := Found.absent (List.take_append_drop lo es).symm hw.cut
      rwa [hlen] at h

/-- **The binary search finds what is there.** -/
theorem findPos_found {es : List Entry} (hs : SortedKeys.Sorted Entry.key es) (key : Int) :
    ∃ pos, findPos es key = some pos ∧ Found es key pos := by
  rw [findPos]
  split
  · next h =>
    rw [List.isEmpty_iff.mp h]
    exact ⟨-1, rfl, .absent (List.append_nil []).symm ⟨nofun, nofun⟩⟩
  · exact findLoop_found hs (Window.whole key es) (by omega)

/-! ## The operations on the map -/

/-- **`find` reads the map.** -/
theorem find_spec {idx : Index} (hs : idx.Sorted) (key : Int) :
    idx.find key = some (idx.rowOf key) := by
  obtain ⟨es⟩ := idx
  obtain ⟨pos, hpos, hf⟩ := findPos_found hs key
  simp only [find, hpos, Option.bind_eq_bind, Option.bind_some]
  cases hf with
  | @here pre post e hes hk =>
    subst hes hk
    rw [if_neg (by omega), slot_eq_getElem?, InPlace.getElem?_append_cons, rowOf,
      Sorted.lookup_self hs]
    rfl
  | @absent pre post hes hcut =>
    subst hes
    rw [if_pos (by omega), rowOf, hcut.lookup_eq_none]
    rfl

/-- **`insert` binds the key to the row, and touches no other key.** -/
theorem insert_spec {idx : Index} (hs : idx.Sorted) (key rowId : Int) :
    ∃ idx', idx.insert key rowId = some idx' ∧ idx'.Sorted ∧
      ∀ k, idx'.rowOf k = if k = key then some rowId else idx.rowOf k := by
  obtain ⟨es⟩ := idx
  obtain ⟨pos, hpos, hf⟩ := findPos_found hs key
  simp only [insert, hpos, Option.bind_eq_bind, Option.bind_some]
  cases hf with
  | @here pre post e hes hk =>
    subst hes hk
    refine ⟨{ entries := pre ++ { e with rowId } :: post }, ?_, Sorted.replace hs rfl, fun k => ?_⟩
    · rw [if_pos (by omega), slot_eq_getElem?, InPlace.getElem?_append_cons]
      simp [InPlace.put_append]
    · have hkey : Entry.key { e with rowId } = e.key := rfl
      rw [rowOf, Sorted.lookup_replace hs hkey, apply_ite (Option.map _)]
      rfl
  | @absent pre post hes hcut =>
    subst hes
    have hcut' : Cut Entry.key (Entry.key { key, rowId }) pre post := hcut
    refine ⟨{ entries := pre ++ { key, rowId } :: post }, ?_, SortedKeys.Sorted.insert hs hcut',
      fun k => ?_⟩
    · have hat : -(-(pre.length : Int) - 1) - 1 = pre.length := by omega
      rw [if_neg (by omega), hat, Int.toNat_natCast]
      by_cases hpost : post = []
      · rw [if_pos (by simp [hpost]), hpost, List.append_nil]
        rfl
      · have hpos : 0 < post.length := List.length_pos_iff.mpr hpost
        have hlast : (pre ++ post ++ [({} : Entry)]).length - 1 = pre.length + post.length := by
          simp
        rw [if_neg (by rw [List.length_append]; omega), hlast, Nat.add_sub_cancel_left]
        have hgap := InPlace.shiftRight_gap pre post ({} : Entry) { key, rowId }
        obtain ⟨ys, hys, hput⟩ := Option.bind_eq_some_iff.mp hgap
        rw [hys, Option.bind_some, hput]
        rfl
    · rw [rowOf, lookup_insert hcut', apply_ite (Option.map _)]
      rfl

/-- **`remove` unbinds the key, says whether it was bound, and touches no other key.** -/
theorem remove_spec {idx : Index} (hs : idx.Sorted) (key : Int) :
    ∃ idx', idx.remove key = some ((idx.rowOf key).isSome, idx') ∧ idx'.Sorted ∧
      ∀ k, idx'.rowOf k = if k = key then none else idx.rowOf k := by
  obtain ⟨es⟩ := idx
  obtain ⟨pos, hpos, hf⟩ := findPos_found hs key
  simp only [remove, hpos, Option.bind_eq_bind, Option.bind_some]
  cases hf with
  | @here pre post e hes hk =>
    subst hes hk
    refine ⟨{ entries := pre ++ post }, ?_, Sorted.erase hs, fun k => ?_⟩
    · obtain ⟨ys, hys, hlast⟩ := Option.map_eq_some_iff.mp (InPlace.shiftLeft_gap pre post e)
      rw [if_neg (by omega), rowOf, Sorted.lookup_self hs, Int.toNat_natCast, hys, ← hlast]
      rfl
    · rw [rowOf, Sorted.lookup_erase hs, apply_ite (Option.map _)]
      rfl
  | @absent pre post hes hcut =>
    subst hes
    refine ⟨{ entries := pre ++ post }, ?_, hs, fun k => ?_⟩
    · rw [if_pos (by omega), rowOf, hcut.lookup_eq_none]
      rfl
    · split
      · next hk =>
        rw [rowOf, hk, hcut.lookup_eq_none]
        rfl
      · rfl

end Index

end MiniDB.Storage

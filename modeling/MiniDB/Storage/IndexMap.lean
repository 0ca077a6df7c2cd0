import MiniDB.Core.Text
import MiniDB.Machinery.MapHistory
import MiniDB.Storage.Index
import Mathlib.Data.Set.Card

/-!
# Storage/IndexMap — the index is a finite map, over whole sequences of calls

A fresh index after any calls holds the keys whose last insertion no removal and no `clear` has
undone, each with the row of that insertion (`index_is_map`).  The numbers the binary search
computes, of which the last is what it returns (`findTrace_last`), stay between minus the number of
entries and that number (`findTrace_bounds`), so they are `int`s while the entries are fewer than
2³¹.
-/

namespace MiniDB.Storage

open MiniDB.Core MapHistory Machine

/-! ## Calls -/

inductive IndexCall where
  | insert (key rowId : Int)
  | remove (key : Int)
  | clear
  | find (key : Int)
  deriving DecidableEq, Repr

/-- What a call returns. -/
inductive IndexAnswer where
  | done
  | removed (found : Bool)
  | found (rowId : Option Int)
  deriving DecidableEq, Repr

/-- The call can change what is bound to the key. -/
def IndexCall.Touches (k : Int) : IndexCall → Prop
  | insert key _ => key = k
  | remove key => key = k
  | clear => True
  | find _ => False

/-- The last insertion of `k` is for the row `rowId`, and neither `remove(k)` nor `clear` follows
it. -/
def LastInsert (k rowId : Int) (calls : List IndexCall) : Prop :=
  ∃ before rest, calls = before ++ .insert k rowId :: rest ∧ ∀ c ∈ rest, ¬ c.Touches k

namespace Index

def step (idx : Index) : IndexCall → Option (IndexAnswer × Index)
  | .insert key rowId => do return (.done, ← idx.insert key rowId)
  | .remove key => do
    let (found, idx) ← idx.remove key
    return (.removed found, idx)
  | .clear => some (.done, idx.clear)
  | .find key => do return (.found (← idx.find key), idx)

/-! ## The arithmetic of the search -/

/-- The numbers the rounds of the search compute, on the window `[lo, hi]`; the last is `~lo`. -/
def searchTrace (es : List Entry) (key : Int) : Nat → Int → Int → List Int
  | 0, _, _ => []
  | n + 1, lo, hi =>
    if lo ≤ hi then
      let mid := lo + (hi - lo) / 2
      let rest :=
        match slot es mid with
        | none => []
        | some e =>
          if e.key = key then []
          else if e.key < key then (mid + 1) :: searchTrace es key n (mid + 1) hi
          else (mid - 1) :: searchTrace es key n lo (mid - 1)
      (hi - lo) :: mid :: rest
    else [-lo - 1]

/-- The numbers `_find_pos` computes. -/
def findTrace (es : List Entry) (key : Int) : List Int :=
  if es.isEmpty then [-1]
  else ((es.length : Int) - 1) :: searchTrace es key (es.length + 1) 0 (es.length - 1)

/-- The search returns the last number it computes. -/
theorem searchTrace_last {es : List Entry} {key pos : Int} {n : Nat} {lo hi : Int}
    (h : findLoop es key n lo hi = some pos) :
    (searchTrace es key n lo hi).getLast? = some pos := by
  induction n generalizing lo hi with
  | zero => cases h
  | succ n ih =>
    rw [findLoop] at h
    rw [searchTrace]
    by_cases hle : lo ≤ hi
    · rw [if_pos hle] at h ⊢
      obtain ⟨e, hslot, h⟩ := Option.bind_eq_some_iff.mp h
      simp only [hslot]
      -- the numbers of the rounds that follow end with the position
      have hend {a b c : Int} {ms : List Int} (hlast : ms.getLast? = some pos) :
          (a :: b :: c :: ms).getLast? = some pos := by
        simp [List.getLast?_cons, hlast]
      split_ifs at h ⊢ with heq hlt
      · simpa using h
      · exact hend (ih h)
      · exact hend (ih h)
    · rw [if_neg hle] at h ⊢
      simpa using h

/-- **The trace is that of the search**: it ends with what `_find_pos` returns. -/
theorem findTrace_last {es : List Entry} {key pos : Int} (h : findPos es key = some pos) :
    (findTrace es key).getLast? = some pos := by
  rw [findPos] at h
  rw [findTrace]
  split
  · next hnil => rwa [if_pos hnil] at h
  · next hnil =>
    rw [if_neg hnil] at h
    rw [List.getLast?_cons, searchTrace_last h]
    rfl

theorem searchTrace_bounds {es : List Entry} (key : Int) (n : Nat) {lo hi : Int} (hlo : 0 ≤ lo)
    (hle : lo ≤ hi + 1) (hhi : hi < es.length) :
    ∀ m ∈ searchTrace es key n lo hi, -(es.length : Int) - 1 ≤ m ∧ m ≤ es.length := by
  induction n generalizing lo hi with
  | zero => nofun
  | succ n ih =>
    rw [searchTrace]
    split
    · next h =>
      have hmid : lo ≤ lo + (hi - lo) / 2 ∧ lo + (hi - lo) / 2 ≤ hi := by omega
      simp only [List.forall_mem_cons]
      refine ⟨by omega, by omega, ?_⟩
      split
      · nofun
      · split_ifs
        · nofun
        · rw [List.forall_mem_cons]
          exact ⟨by omega, ih (by omega) (by omega) hhi⟩
        · rw [List.forall_mem_cons]
          exact ⟨by omega, ih hlo (by omega) (by omega)⟩
    · rw [List.forall_mem_singleton]
      omega

/-- **The search computes no number outside the range of the array**, and of `~` over it. -/
theorem findTrace_bounds (es : List Entry) (key : Int) :
    ∀ m ∈ findTrace es key, -(es.length : Int) - 1 ≤ m ∧ m ≤ es.length := by
  rw [findTrace]
  split
  · rw [List.forall_mem_singleton]
    omega
  · rw [List.forall_mem_cons]
    exact ⟨by omega, searchTrace_bounds key _ (by omega) (by omega) (by omega)⟩

/-! ## The map of a sequence of calls -/

/-- What a call does to the binding of a key. -/
def effect : IndexCall → Int → Option (Option Int)
  | .insert key rowId, k => if key = k then some (some rowId) else none
  | .remove key, k => if key = k then some none else none
  | .clear, _ => some none
  | .find _, _ => none

theorem effect_eq_none_iff {c : IndexCall} {k : Int} : effect c k = none ↔ ¬ c.Touches k := by
  cases c <;> simp [effect, IndexCall.Touches]

theorem effect_eq_some_iff {c : IndexCall} {k rowId : Int} :
    effect c k = some (some rowId) ↔ c = .insert k rowId := by
  cases c <;> simp [effect]

theorem after_effect_iff {calls : List IndexCall} {k rowId : Int} :
    after effect calls k = some rowId ↔ LastInsert k rowId calls := by
  simp only [after_eq_some_iff, effect_eq_none_iff, effect_eq_some_iff, LastInsert]
  constructor
  · rintro ⟨before, _, rest, h, rfl, hrest⟩
    exact ⟨before, rest, h, hrest⟩
  · rintro ⟨before, rest, h, hrest⟩
    exact ⟨before, _, rest, h, rfl, hrest⟩

/-- **Every call is defined on a sorted index, keeps it sorted, and does to its map what it
says.** -/
theorem step_spec {idx : Index} (c : IndexCall) (hs : idx.Sorted) :
    ∃ answer idx', step idx c = some (answer, idx') ∧ idx'.Sorted ∧
      ∀ k, idx'.rowOf k = (effect c k).getD (idx.rowOf k) := by
  cases c with
  | insert key rowId =>
    obtain ⟨idx', hins, hs', hrow⟩ := insert_spec hs key rowId
    refine ⟨.done, idx', by simp [step, hins], hs', fun k => ?_⟩
    rw [hrow, effect]
    by_cases hk : k = key
    · simp [hk]
    · simp [hk, Ne.symm hk]
  | remove key =>
    obtain ⟨idx', hrem, hs', hrow⟩ := remove_spec hs key
    refine ⟨.removed (idx.rowOf key).isSome, idx', by simp [step, hrem], hs', fun k => ?_⟩
    rw [hrow, effect]
    by_cases hk : k = key
    · simp [hk]
    · simp [hk, Ne.symm hk]
  | clear => exact ⟨.done, {}, rfl, sorted_empty, fun k => rfl⟩
  | find key => exact ⟨.found (idx.rowOf key), idx, by simp [step, find_spec hs], hs, fun k => rfl⟩

/-- The keys of a sorted index are distinct, so its size is their number. -/
theorem size_eq_ncard {idx : Index} (hs : idx.Sorted) :
    idx.size = {k | (idx.rowOf k).isSome}.ncard := by
  have hnodup : idx.keys.Nodup := (List.pairwise_map.mpr hs).imp ne_of_lt
  have hset : {k | (idx.rowOf k).isSome} = (idx.keys.toFinset : Set Int) := by
    ext k
    rw [Set.mem_ofPred_eq, isSome_rowOf, List.coe_toFinset, Set.mem_ofPred_eq]
  rw [hset, Set.ncard_coe_finset, List.toFinset_card_of_nodup hnodup, keys, List.length_map, size]

/-- **The index is a finite map from keys to rows.**  After any calls on a fresh index every call is
defined, so no search leaves the array; the entries increase strictly by key; a key is found exactly
when its last insertion has not been undone, with the row of that insertion; removing it says
whether it was there, and removes no other; the size is the number of keys there are; and the search
computes `int`s only. -/
theorem index_is_map (calls : List IndexCall) :
    ∃ answers idx, exec step {} calls = some (answers, idx) ∧ idx.Sorted ∧
      (∀ k, ∃ row, idx.find k = some row ∧ ∀ rowId, row = some rowId ↔ LastInsert k rowId calls) ∧
      (∀ k, ∃ found idx', idx.remove k = some (found, idx') ∧
        (found = true ↔ ∃ rowId, LastInsert k rowId calls) ∧
        ∀ k', idx'.find k' = if k' = k then some none else idx.find k') ∧
      idx.size = {k | ∃ rowId, LastInsert k rowId calls}.ncard ∧
      (idx.size < 2 ^ 31 → ∀ k, ∀ m ∈ findTrace idx.entries k, IsInt32 m) := by
  obtain ⟨answers, idx, hexec, hs, hview⟩ := exec_view step_spec sorted_empty calls
  have hrow (k rowId : Int) : idx.rowOf k = some rowId ↔ LastInsert k rowId calls := by
    rw [hview, ← after_effect_iff]
    rfl
  have hsome (k : Int) : (idx.rowOf k).isSome = true ↔ ∃ rowId, LastInsert k rowId calls := by
    simp only [Option.isSome_iff_exists, hrow]
  refine ⟨answers, idx, hexec, hs, fun k => ⟨_, find_spec hs k, hrow k⟩, fun k => ?_, ?_, ?_⟩
  · obtain ⟨idx', hrem, hs', hrow'⟩ := remove_spec hs k
    refine ⟨_, idx', hrem, hsome k, fun k' => ?_⟩
    rw [find_spec hs', find_spec hs, hrow']
    split <;> rfl
  · simp only [size_eq_ncard hs, hsome]
  · intro hsize k m hm
    have hbounds := findTrace_bounds idx.entries k m hm
    rw [size] at hsize
    unfold IsInt32
    omega

end Index

end MiniDB.Storage

import Mathlib.Order.Lattice
import Mathlib.Data.List.Pairwise

/-!
# Machinery/SortedKeys — a strictly sorted list of keyed entries is a finite map

`lookup` reads the map a list denotes.  Each update of a sorted array touches one place, so every
law is stated at a split `pre ++ e :: post`: inserting at a cut, replacing an entry under its own
key, and removing one change the map at that key alone.  `Window` is what a binary search knows:
which prefix lies below the key and which suffix above.
-/

namespace SortedKeys

variable {ε κ : Type*} [LinearOrder κ] (key : ε → κ)

/-- The keys strictly increase. -/
def Sorted (es : List ε) : Prop := es.Pairwise fun a b => key a < key b

/-- The entry under a key. -/
def lookup (k : κ) (es : List ε) : Option ε := es.find? fun e => decide (key e = k)

/-- Everything in `pre` lies below `k` and everything in `post` above it. -/
def Cut (k : κ) (pre post : List ε) : Prop := (∀ e ∈ pre, key e < k) ∧ ∀ e ∈ post, k < key e

variable {key}

@[simp] theorem lookup_nil (k : κ) : lookup key k [] = none := rfl

theorem sorted_nil : Sorted key [] := List.Pairwise.nil

/-- A key is found exactly when some entry carries it. -/
theorem lookup_eq_none_iff {k : κ} {es : List ε} :
    lookup key k es = none ↔ ∀ e ∈ es, key e ≠ k := by
  simp [lookup, List.find?_eq_none]

theorem lookup_isSome_iff {k : κ} {es : List ε} :
    (lookup key k es).isSome ↔ k ∈ es.map key := by
  simp [lookup, List.find?_isSome]

/-! ## Splits of a sorted list -/

theorem Sorted.erase {pre post : List ε} {e : ε} (h : Sorted key (pre ++ e :: post)) :
    Sorted key (pre ++ post) :=
  h.sublist ((List.Sublist.refl pre).append (List.sublist_cons_self e post))

/-- The entries around one of them lie on either side of its key. -/
theorem Sorted.cut {pre post : List ε} {e : ε} (h : Sorted key (pre ++ e :: post)) :
    Cut key (key e) pre post := by
  obtain ⟨-, hpost, hcross⟩ := List.pairwise_append.mp h
  exact ⟨fun a ha => hcross a ha e List.mem_cons_self, (List.pairwise_cons.mp hpost).1⟩

/-- **An entry put into a cut keeps the list sorted.** -/
theorem Sorted.insert {pre post : List ε} {e : ε} (h : Sorted key (pre ++ post))
    (hcut : Cut key (key e) pre post) : Sorted key (pre ++ e :: post) := by
  obtain ⟨hpre, hpost, hcross⟩ := List.pairwise_append.mp h
  refine List.pairwise_append.mpr ⟨hpre, List.pairwise_cons.mpr ⟨hcut.2, hpost⟩, ?_⟩
  intro a ha b hb
  rcases List.mem_cons.mp hb with rfl | hb
  · exact hcut.1 a ha
  · exact hcross a ha b hb

theorem Sorted.replace {pre post : List ε} {e e' : ε} (h : Sorted key (pre ++ e :: post))
    (hkey : key e' = key e) : Sorted key (pre ++ e' :: post) :=
  h.erase.insert (hkey ▸ h.cut)

/-! ## The map an update leaves -/

/-- No entry of a cut carries its key. -/
theorem Cut.lookup_eq_none {k : κ} {pre post : List ε} (h : Cut key k pre post) :
    lookup key k (pre ++ post) = none := by
  rw [lookup_eq_none_iff]
  intro e he
  rcases List.mem_append.mp he with he | he
  · exact ne_of_lt (h.1 e he)
  · exact ne_of_gt (h.2 e he)

/-- **Inserting at a cut binds the new key and no other.** -/
theorem lookup_insert {pre post : List ε} {e : ε} (hcut : Cut key (key e) pre post) (k : κ) :
    lookup key k (pre ++ e :: post) = if k = key e then some e else lookup key k (pre ++ post) := by
  have hpre : lookup key (key e) pre = none :=
    lookup_eq_none_iff.mpr fun a ha => ne_of_lt (hcut.1 a ha)
  by_cases hk : k = key e
  · subst hk
    simp only [lookup] at hpre
    simp [lookup, List.find?_append, hpre]
  · simp [lookup, List.find?_append, hk, Ne.symm hk]

/-- An entry of a sorted list is what its key finds. -/
theorem Sorted.lookup_self {pre post : List ε} {e : ε} (h : Sorted key (pre ++ e :: post)) :
    lookup key (key e) (pre ++ e :: post) = some e := by
  rw [lookup_insert h.cut, if_pos rfl]

/-- **A sorted list is determined by its map.** -/
theorem Sorted.ext {es fs : List ε} (he : Sorted key es) (hf : Sorted key fs)
    (h : ∀ k, lookup key k es = lookup key k fs) : es = fs := by
  have hmem {es : List ε} (he : Sorted key es) (e : ε) :
      e ∈ es ↔ lookup key (key e) es = some e := by
    refine ⟨fun hmem => ?_, List.mem_of_find?_eq_some⟩
    obtain ⟨pre, post, rfl⟩ := List.append_of_mem hmem
    exact he.lookup_self
  have hnodup {es : List ε} (he : Sorted key es) : es.Nodup :=
    List.Pairwise.imp (fun hlt heq => absurd (congrArg key heq) hlt.ne) he
  have hperm : es.Perm fs :=
    (List.perm_ext_iff_of_nodup (hnodup he) (hnodup hf)).mpr fun e => by rw [hmem he, hmem hf, h]
  exact hperm.eq_of_pairwise (fun _ _ _ _ hab hba => absurd (hab.trans hba) (lt_irrefl _)) he hf

/-- **Removing an entry unbinds its key and no other.** -/
theorem Sorted.lookup_erase {pre post : List ε} {e : ε} (h : Sorted key (pre ++ e :: post))
    (k : κ) : lookup key k (pre ++ post)
      = if k = key e then none else lookup key k (pre ++ e :: post) := by
  by_cases hk : k = key e
  · rw [if_pos hk, hk, h.cut.lookup_eq_none]
  · rw [if_neg hk, lookup_insert h.cut, if_neg hk]

/-- **Replacing an entry under its own key rebinds that key and no other.** -/
theorem Sorted.lookup_replace {pre post : List ε} {e e' : ε} (h : Sorted key (pre ++ e :: post))
    (hkey : key e' = key e) (k : κ) : lookup key k (pre ++ e' :: post)
      = if k = key e' then some e' else lookup key k (pre ++ e :: post) := by
  rw [lookup_insert (hkey ▸ h.cut : Cut key (key e') pre post), lookup_insert h.cut, hkey]
  by_cases hk : k = key e
  · rw [if_pos hk, if_pos hk]
  · rw [if_neg hk, if_neg hk, if_neg hk]

/-! ## What a binary search knows -/

/-- The first `lo` entries lie below `k`, those from `up` on above it. -/
structure Window (key : ε → κ) (k : κ) (es : List ε) (lo up : Nat) : Prop where
  le : lo ≤ up
  bound : up ≤ es.length
  below : ∀ e ∈ es.take lo, key e < k
  above : ∀ e ∈ es.drop up, k < key e

theorem Window.whole (k : κ) (es : List ε) : Window key k es 0 es.length where
  le := Nat.zero_le _
  bound := Nat.le_refl _
  below e he := by simp at he
  above e he := by simp at he

/-- A probe below the key discards everything up to it. -/
theorem Window.right {k : κ} {es : List ε} {lo up mid : Nat} (h : Window key k es lo up)
    (hs : Sorted key es) (hmid : mid < up) {e : ε} (he : es[mid]? = some e) (hlt : key e < k) :
    Window key k es (mid + 1) up where
  le := hmid
  bound := h.bound
  above := h.above
  below a ha := by
    obtain ⟨hlen, rfl⟩ := List.getElem?_eq_some_iff.mp he
    rw [← List.take_append_drop (mid + 1) es, List.take_succ_eq_append_getElem hlen] at hs
    rw [List.take_succ_eq_append_getElem hlen] at ha
    rcases List.mem_append.mp ha with ha | ha
    · have hcross := (List.pairwise_append.mp (List.pairwise_append.mp hs).1).2.2
      exact lt_trans (hcross a ha _ (by simp)) hlt
    · rwa [List.mem_singleton.mp ha]

/-- A probe above the key discards everything from it on. -/
theorem Window.left {k : κ} {es : List ε} {lo up mid : Nat} (h : Window key k es lo up)
    (hs : Sorted key es) (hmid : lo ≤ mid) {e : ε} (he : es[mid]? = some e) (hlt : k < key e) :
    Window key k es lo mid where
  le := hmid
  bound := by obtain ⟨hlen, -⟩ := List.getElem?_eq_some_iff.mp he; omega
  below := h.below
  above a ha := by
    obtain ⟨hlen, rfl⟩ := List.getElem?_eq_some_iff.mp he
    rw [← List.take_append_drop mid es] at hs
    rw [List.drop_eq_getElem_cons hlen] at ha hs
    rcases List.mem_cons.mp ha with rfl | ha
    · exact hlt
    · exact lt_trans hlt ((List.pairwise_cons.mp (List.pairwise_append.mp hs).2.1).1 a ha)

/-- **A closed window is the cut at which the key belongs.** -/
theorem Window.cut {k : κ} {es : List ε} {lo : Nat} (h : Window key k es lo lo) :
    Cut key k (es.take lo) (es.drop lo) := ⟨h.below, h.above⟩

end SortedKeys

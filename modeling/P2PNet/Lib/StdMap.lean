import Mathlib.Tactic

/-! `std::map` over Lean's own search tree. `insert` keeps the value of a key
that is already there, `assign` writes through an iterator to an entry, and an
iterator is the list of the keys it has yet to visit. -/

namespace P2PNet.Lib

structure StdMap (κ α : Type) [Ord κ] where
  tree : Std.TreeMap κ α compare

namespace StdMap

variable {κ α : Type} [Ord κ]

def empty : StdMap κ α := ⟨∅⟩

def find (m : StdMap κ α) (k : κ) : Option α := m.tree[k]?

def insert (m : StdMap κ α) (k : κ) (v : α) : StdMap κ α := ⟨m.tree.insertIfNew k v⟩

def assign (m : StdMap κ α) (k : κ) (v : α) : StdMap κ α := ⟨m.tree.insert k v⟩

def erase (m : StdMap κ α) (k : κ) : StdMap κ α := ⟨m.tree.erase k⟩

def keys (m : StdMap κ α) : List κ := m.tree.keys

def keysAfter (m : StdMap κ α) (k : κ) : List κ :=
  m.keys.filter (fun a => compare k a = .lt)

variable [Std.TransOrd κ]

@[simp] lemma find_empty (k : κ) : (empty : StdMap κ α).find k = none := by
  simp [empty, find]

lemma keys_sorted (m : StdMap κ α) : m.keys.Pairwise (fun a b => compare a b = .lt) :=
  Std.TreeMap.ordered_keys

lemma keysAfter_sorted (m : StdMap κ α) (k : κ) :
    (m.keysAfter k).Pairwise (fun a b => compare a b = .lt) :=
  m.keys_sorted.filter _

variable [Std.LawfulEqOrd κ]

lemma mem_keys {m : StdMap κ α} {k : κ} : k ∈ m.keys ↔ (m.find k).isSome := by
  simp [keys, find]

lemma keys_nodup (m : StdMap κ α) : m.keys.Nodup := by
  apply m.keys_sorted.imp
  rintro a b hlt rfl
  simp at hlt

lemma keys_eq_of_mem_iff {m m' : StdMap κ α} (h : ∀ a, a ∈ m.keys ↔ a ∈ m'.keys) :
    m.keys = m'.keys := by
  have hperm := (List.perm_ext_iff_of_nodup m.keys_nodup m'.keys_nodup).mpr h
  refine hperm.eq_of_pairwise (fun a b _ _ hab hba => ?_) m.keys_sorted m'.keys_sorted
  have hswap : compare b a = (compare a b).swap := Std.OrientedCmp.eq_swap
  rw [hswap, hab] at hba
  cases hba

lemma mem_keysAfter {m : StdMap κ α} {k a : κ} :
    a ∈ m.keysAfter k ↔ (m.find a).isSome ∧ compare k a = .lt := by
  simp [keysAfter, mem_keys]

variable [DecidableEq κ]

lemma find_insert (m : StdMap κ α) (k a : κ) (v : α) :
    (m.insert k v).find a = if a = k then some ((m.find k).getD v) else m.find a := by
  simp only [find, insert, Std.TreeMap.getElem?_insertIfNew, Std.LawfulEqOrd.compare_eq_iff_eq]
  by_cases ha : a = k
  · subst ha
    cases hm : m.tree[a]? with
    | none => simp [Std.TreeMap.mem_iff_isSome_getElem?, hm]
    | some w => simp [Std.TreeMap.mem_iff_isSome_getElem?, hm]
  · rw [if_neg ha, if_neg (fun h => ha h.1.symm)]

@[simp] lemma find_insert_self (m : StdMap κ α) (k : κ) (v : α) :
    (m.insert k v).find k = some ((m.find k).getD v) := by
  rw [find_insert, if_pos rfl]

lemma find_insert_of_ne (m : StdMap κ α) {k a : κ} (v : α) (h : a ≠ k) :
    (m.insert k v).find a = m.find a := by
  rw [find_insert, if_neg h]

lemma eq_or_find_of_find_insert {m : StdMap κ α} {k a : κ} {v x : α}
    (h : (m.insert k v).find a = some x) : x = v ∨ m.find a = some x := by
  rw [find_insert] at h
  split at h
  · next ha =>
    rw [ha]
    cases hk : m.find k with
    | none =>
      rw [hk] at h
      exact Or.inl (Option.some.inj h).symm
    | some w =>
      rw [hk] at h
      exact Or.inr h
  · exact Or.inr h

lemma find_assign (m : StdMap κ α) (k a : κ) (v : α) :
    (m.assign k v).find a = if a = k then some v else m.find a := by
  simp only [find, assign, Std.TreeMap.getElem?_insert, Std.LawfulEqOrd.compare_eq_iff_eq,
    eq_comm (a := k)]

lemma keys_assign_perm {m : StdMap κ α} {k : κ} (h : m.find k = none) (v : α) :
    (m.assign k v).keys.Perm (k :: m.keys) := by
  have hk : k ∉ m.keys := by simp [mem_keys, h]
  apply (List.perm_ext_iff_of_nodup (keys_nodup _) (List.nodup_cons.mpr ⟨hk, m.keys_nodup⟩)).mpr
  intro a
  rw [mem_keys, find_assign, List.mem_cons, mem_keys]
  by_cases ha : a = k
  · simp [ha]
  · simp [ha]

lemma find_erase (m : StdMap κ α) (k a : κ) :
    (m.erase k).find a = if a = k then none else m.find a := by
  simp only [find, erase, Std.TreeMap.getElem?_erase, Std.LawfulEqOrd.compare_eq_iff_eq,
    eq_comm (a := k)]

@[simp] lemma find_erase_self (m : StdMap κ α) (k : κ) : (m.erase k).find k = none := by
  rw [find_erase, if_pos rfl]

lemma find_erase_of_ne (m : StdMap κ α) {k a : κ} (h : a ≠ k) :
    (m.erase k).find a = m.find a := by
  rw [find_erase, if_neg h]

end StdMap

end P2PNet.Lib

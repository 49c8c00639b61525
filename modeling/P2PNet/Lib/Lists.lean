import Mathlib.Data.List.Basic
import Mathlib.Tactic.TypeStar

/-! Sequences updated in place: `std::remove_if`, which compacts the kept elements
to the front and leaves what the remaining positions held, the entries of a list
after one of them was modified, of one with an entry appended, and a buffer after a
write to its front. -/

namespace P2PNet.Lib.Lists

variable {α : Type*}

section RemoveIf

variable (p : α → Bool) (xs : List α)

def removeIf : List α :=
  let kept := xs.filter (fun x => !p x)
  kept ++ xs.drop kept.length

@[simp] lemma length_removeIf : (removeIf p xs).length = xs.length := by
  have h := List.length_filter_le (fun x => !p x) xs
  simp only [removeIf, List.length_append, List.length_drop]
  omega

lemma mem_of_mem_removeIf {x : α} (h : x ∈ removeIf p xs) : x ∈ xs := by
  rcases List.mem_append.mp h with hk | hr
  · exact List.mem_of_mem_filter hk
  · exact List.mem_of_mem_drop hr

lemma removeIf_eq_self {p : α → Bool} {xs : List α}
    (h : xs.Pairwise (fun a b => p a = true → p b = true)) : removeIf p xs = xs := by
  induction xs with
  | nil => rfl
  | cons x xs ih =>
    obtain ⟨hx, hxs⟩ := List.pairwise_cons.mp h
    by_cases hp : p x = true
    · have hnone : xs.filter (fun y => !p y) = [] := by
        apply List.filter_eq_nil_iff.mpr
        intro y hy
        simp [hx y hy hp]
      simp [removeIf, hp, hnone]
    · have htail := ih hxs
      simp only [removeIf] at htail
      simp [removeIf, hp, htail]

lemma le_count_removeIf [DecidableEq α] {x : α} (hx : p x = false) :
    xs.count x ≤ (removeIf p xs).count x := by
  rw [removeIf, List.count_append, List.count_filter (by simp [hx])]
  exact Nat.le_add_right _ _

/-- An element that is kept, but stands behind one that is not, is there twice afterwards. -/
lemma exists_two_le_count_removeIf [DecidableEq α] {p : α → Bool} {xs : List α}
    (h : ¬ xs.Pairwise (fun a b => p a = true → p b = true)) :
    ∃ x, p x = false ∧ 2 ≤ (removeIf p xs).count x := by
  by_contra hnone
  apply h
  have hrest : ∀ y ∈ xs.drop (xs.filter (fun x => !p x)).length, p y = true := by
    intro y hy
    by_contra hp
    rw [Bool.not_eq_true] at hp
    refine hnone ⟨y, hp, ?_⟩
    have hkept : 0 < (xs.filter (fun x => !p x)).count y := by
      rw [List.count_filter (by simp [hp])]
      exact List.count_pos_iff.mpr (List.mem_of_mem_drop hy)
    have hleft := List.count_pos_iff.mpr hy
    rw [removeIf, List.count_append]
    omega
  have hfront : ∀ y ∈ xs.take (xs.filter (fun x => !p x)).length, p y = false := by
    have hlen : ((xs.take (xs.filter (fun x => !p x)).length).filter (fun x => !p x)).length =
        (xs.filter (fun x => !p x)).length := by
      have hsplit := congrArg (fun ys => (ys.filter (fun x => !p x)).length)
        (List.take_append_drop (xs.filter (fun x => !p x)).length xs)
      have hnil : (xs.drop (xs.filter (fun x => !p x)).length).filter (fun x => !p x) = [] := by
        apply List.filter_eq_nil_iff.mpr
        intro y hy
        simp [hrest y hy]
      simpa only [List.filter_append, hnil, List.append_nil] using hsplit
    have hle := List.length_filter_le (fun x => !p x) xs
    have hall := List.length_filter_eq_length_iff.mp
      (hlen.trans (by rw [List.length_take]; omega))
    intro y hy
    simpa using hall y hy
  rw [← List.take_append_drop (xs.filter (fun x => !p x)).length xs, List.pairwise_append]
  refine ⟨List.pairwise_of_forall_sublist ?_, List.pairwise_of_forall_sublist ?_, ?_⟩
  · intro a b hab hp
    rw [hfront a (hab.subset (by simp))] at hp
    cases hp
  · intro a b hab _
    exact hrest b (hab.subset (by simp))
  · intro a _ b hb _
    exact hrest b hb

end RemoveIf

variable {xs : List α} {i j : ℕ} {f : α → α} {x y : α}

lemma of_getElem?_modify (h : (xs.modify i f)[j]? = some y) :
    i ≠ j ∧ xs[j]? = some y ∨ i = j ∧ ∃ x, xs[i]? = some x ∧ y = f x := by
  by_cases hij : i = j
  · subst hij
    simp only [List.getElem?_modify_eq, Option.map_eq_map, Option.map_eq_some_iff] at h
    obtain ⟨x, hx, hf⟩ := h
    exact Or.inr ⟨rfl, x, hx, hf.symm⟩
  · exact Or.inl ⟨hij, by simpa [hij] using h⟩

lemma of_mem_modify (h : y ∈ xs.modify i f) : y ∈ xs ∨ ∃ x ∈ xs, y = f x := by
  obtain ⟨j, hj⟩ := List.mem_iff_getElem?.mp h
  rcases of_getElem?_modify hj with ⟨_, hj⟩ | ⟨_, x, hx, hy⟩
  · exact Or.inl (List.mem_of_getElem? hj)
  · exact Or.inr ⟨x, List.mem_of_getElem? hx, hy⟩

lemma bind_getElem?_modify {β : Type*} {g : α → Option β} (xs : List α) (i j : ℕ) (f : α → α) :
    (xs.modify i f)[j]?.bind g = xs[j]?.bind fun x => if j = i then g (f x) else g x := by
  rw [List.getElem?_modify]
  cases xs[j]? with
  | none => rfl
  | some x =>
    by_cases hij : i = j
    · simp [hij]
    · simp [hij, Ne.symm hij]

lemma map_getElem?_modify {β : Type*} {g : α → β} (hg : ∀ x, g (f x) = g x) (xs : List α)
    (i j : ℕ) : (xs.modify i f)[j]?.map g = xs[j]?.map g := by
  rw [List.getElem?_modify]
  by_cases hij : i = j
  · simp [hij, Function.comp_def, hg]
  · simp [hij]

lemma bind_getElem?_concat {β : Type*} {g : α → Option β} (hx : g x = none) (xs : List α) (j : ℕ) :
    (xs ++ [x])[j]?.bind g = xs[j]?.bind g := by
  rcases Nat.lt_trichotomy j xs.length with hj | rfl | hj
  · rw [List.getElem?_append_left hj]
  · simp [hx]
  · rw [List.getElem?_eq_none (by simp; omega), List.getElem?_eq_none (by omega)]

lemma of_getElem?_concat (h : (xs ++ [x])[j]? = some y) :
    xs[j]? = some y ∨ j = xs.length ∧ y = x := by
  rcases Nat.lt_trichotomy j xs.length with hj | rfl | hj
  · rw [List.getElem?_append_left hj] at h
    exact Or.inl h
  · rw [List.getElem?_concat_length] at h
    exact Or.inr ⟨rfl, (Option.some.inj h).symm⟩
  · rw [List.getElem?_eq_none (by simp; omega)] at h
    cases h

lemma getElem?_concat_of_some (h : xs[j]? = some y) : (xs ++ [x])[j]? = some y := by
  rw [List.getElem?_append_left (List.getElem?_eq_some_iff.mp h).1, h]

lemma dropLast_cons_take (x : α) (xs : List α) (n : ℕ) :
    (if (x :: xs.take n).length > n then (x :: xs.take n).dropLast else x :: xs.take n) =
      (x :: xs).take n := by
  simp only [List.length_cons, List.length_take]
  split
  · next hlong =>
    cases n with
    | zero => simp
    | succ n =>
      have hlen : n + 1 ≤ xs.length := by omega
      rw [List.dropLast_eq_take, List.length_cons, List.length_take, Nat.min_eq_left hlen,
        Nat.add_sub_cancel, List.take_succ_cons, List.take_succ_cons, List.take_take,
        Nat.min_eq_left (by omega)]
  · next hshort =>
    rw [List.take_of_length_le (by omega : xs.length ≤ n), List.take_of_length_le]
    simp only [List.length_cons]
    omega

lemma modify_length_append {α : Type*} (l : List α) (a : α) (f : α → α) :
    (l ++ [a]).modify l.length f = l ++ [f a] := by
  induction l with
  | nil => rfl
  | cons b l ih => simpa using ih

lemma map_eq_self {f : α → α} {l : List α} (h : ∀ a ∈ l, f a = a) : l.map f = l := by
  have hmap : l.map f = l.map id := List.map_congr_left h
  rw [hmap, List.map_id]

section Overwrite

/-- What a buffer holds after `source` was written to its front. -/
def overwrite (source dest : List α) : List α := source ++ dest.drop source.length

variable {source dest : List α}

lemma length_overwrite (h : source.length ≤ dest.length) :
    (overwrite source dest).length = dest.length := by
  rw [overwrite, List.length_append, List.length_drop]
  omega

lemma take_overwrite {n : ℕ} (h : n ≤ source.length) :
    (overwrite source dest).take n = source.take n := by
  rw [overwrite, List.take_append_of_le_length h]

lemma overwrite_eq_self (h : source <+: dest) : overwrite source dest = dest := by
  obtain ⟨rest, rfl⟩ := h
  rw [overwrite, List.drop_left]

end Overwrite

end P2PNet.Lib.Lists

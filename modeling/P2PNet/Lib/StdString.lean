import Mathlib.Data.List.Basic
import Mathlib.Data.Int.Order.Basic

/-! The members of `std::string` that look for a character and cut a string. A
`size_t` is the integer next to 0 with the same remainder modulo 2⁶⁴, so that
`npos` is -1 and a negative number is larger than the size of any string. -/

namespace P2PNet.Lib.StdString

variable {α : Type*} [DecidableEq α]

def npos : ℤ := -1

def find (c : α) (s : List α) : ℤ :=
  match s.findIdx? (· = c) with
  | some i => i
  | none => npos

def rfind (c : α) (s : List α) : ℤ :=
  match s.reverse.findIdx? (· = c) with
  | some i => s.length - 1 - i
  | none => npos

/-- `none` is the exception `std::out_of_range`. -/
def substr (s : List α) (pos count : ℤ) : Option (List α) :=
  if pos < 0 ∨ s.length < pos then none
  else if count < 0 then some (s.drop pos.toNat)
  else some ((s.drop pos.toNat).take count.toNat)

variable {c : α} {a b d s : List α}

lemma findIdx_append_cons (h : c ∉ a) :
    (a ++ c :: b).findIdx? (· = c) = some a.length := by
  have hnone : a.findIdx? (· = c) = none := by
    rw [List.findIdx?_eq_none_iff]
    intro x hx
    simpa using ne_of_mem_of_not_mem hx h
  rw [List.findIdx?_append, hnone, List.findIdx?_cons]
  simp

lemma find_append (h : c ∉ a) : find c (a ++ c :: b) = a.length := by
  rw [find, findIdx_append_cons h]

lemma rfind_append (h : c ∉ b) : rfind c (a ++ c :: b) = a.length := by
  have hreverse : (a ++ c :: b).reverse = b.reverse ++ c :: a.reverse := by simp
  rw [rfind, hreverse, findIdx_append_cons (by simpa using h)]
  simp only [List.length_append, List.length_cons, List.length_reverse]
  push_cast
  omega

lemma takeWhile_append (h : c ∉ a) (b : List α) :
    (a ++ b).takeWhile (· ≠ c) = a ++ b.takeWhile (· ≠ c) := by
  apply List.takeWhile_append_of_pos
  intro x hx
  simpa using ne_of_mem_of_not_mem hx h

/-- Without the character `find` gives `npos`, and the whole string is taken. -/
lemma substr_find (c : α) (s : List α) :
    substr s 0 (find c s) = some (s.takeWhile (· ≠ c)) := by
  have htake : s.takeWhile (· ≠ c) = s.take (s.findIdx (· = c)) := by
    rw [List.takeWhile_eq_take_findIdx_not]
    simp
  rw [htake, substr, if_neg (by simp), find]
  cases h : s.findIdx? (· = c) with
  | none =>
    rw [List.findIdx?_eq_none_iff_findIdx_eq] at h
    simp [npos, h]
  | some i =>
    rw [List.findIdx?_eq_some_iff_findIdx_eq] at h
    rw [if_neg (by simp), h.2]
    simp

lemma substr_after (h : c ∉ b) :
    substr (a ++ c :: b) (rfind c (a ++ c :: b) + 1)
      ((a ++ c :: b).length - rfind c (a ++ c :: b)) = some b := by
  have hdrop : (a ++ c :: b).drop (a.length + 1) = b := by
    rw [← List.singleton_append, ← List.append_assoc]
    exact List.drop_left' (by simp)
  have hlength : ((a ++ c :: b).length : ℤ) = a.length + b.length + 1 := by
    simp only [List.length_append, List.length_cons]
    omega
  rw [rfind_append h, substr, hlength, if_neg (by omega), if_neg (by omega),
    show ((a.length : ℤ) + 1).toNat = a.length + 1 by omega, hdrop]
  rw [List.take_of_length_le (by omega)]

lemma substr_between (ha : c ∉ a) (hd : c ∉ d) :
    substr (a ++ c :: (b ++ c :: d)) (find c (a ++ c :: (b ++ c :: d)) + 1)
      (rfind c (a ++ c :: (b ++ c :: d)) - find c (a ++ c :: (b ++ c :: d)) - 1) = some b := by
  have hlast : rfind c (a ++ c :: (b ++ c :: d)) = a.length + 1 + b.length := by
    rw [← List.cons_append, ← List.append_assoc, rfind_append hd, List.length_append,
      List.length_cons]
    omega
  have hdrop : (a ++ c :: (b ++ c :: d)).drop (a.length + 1) = b ++ c :: d := by
    rw [← List.singleton_append, ← List.append_assoc]
    exact List.drop_left' (by simp)
  have hlength : ((a ++ c :: (b ++ c :: d)).length : ℤ) = a.length + b.length + d.length + 2 := by
    simp only [List.length_append, List.length_cons]
    omega
  rw [find_append ha, hlast, substr, hlength, if_neg (by omega), if_neg (by omega),
    show ((a.length : ℤ) + 1).toNat = a.length + 1 by omega, hdrop,
    show ((a.length : ℤ) + 1 + b.length - a.length - 1).toNat = b.length by omega]
  simp

end P2PNet.Lib.StdString

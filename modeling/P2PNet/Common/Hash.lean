import Mathlib.Data.List.GetD
import Mathlib.Order.Lattice

/-! The byte strings behind `crypto::Hash`, and with them the transient and
service hashes `TH` and `SH`, which are the same class. -/

namespace P2PNet

abbrev Hash := List UInt8

abbrev TH := Hash
abbrev SH := Hash

namespace Hash

def isPresent (h : Hash) : Bool := !h.isEmpty

@[simp] lemma isPresent_nil : isPresent [] = false := rfl

lemma isPresent_iff (h : Hash) : h.isPresent = true ↔ h ≠ [] := by
  simp [isPresent]

/-- `operator^`. Its loop variable is not initialised; `start` is the value that it has. -/
def xor (start : ℕ) (a b : Hash) : Hash :=
  let maxSize := max a.length b.length
  (List.range maxSize).map (fun i => if start ≤ i then a.getD i 0 ^^^ b.getD i 0 else 0)

lemma length_xor (start : ℕ) (a b : Hash) : (xor start a b).length = max a.length b.length := by
  simp [xor]

lemma getD_xor (start : ℕ) (a b : Hash) (j : ℕ) :
    (xor start a b).getD j 0 = if start ≤ j then a.getD j 0 ^^^ b.getD j 0 else 0 := by
  by_cases hj : j < max a.length b.length
  · have hlt : j < (xor start a b).length := by rwa [length_xor]
    rw [List.getD_eq_getElem _ _ hlt]
    simp [xor]
  · -- beyond both operands every byte reads as 0
    have ha : a.length ≤ j := le_trans (le_max_left _ _) (not_lt.mp hj)
    have hb : b.length ≤ j := le_trans (le_max_right _ _) (not_lt.mp hj)
    have hr : (xor start a b).length ≤ j := by rw [length_xor]; exact not_lt.mp hj
    rw [List.getD_eq_default _ _ hr, List.getD_eq_default _ _ ha, List.getD_eq_default _ _ hb]
    simp

lemma eq_of_getD {a b : Hash} (hlength : a.length = b.length)
    (h : ∀ j, a.getD j 0 = b.getD j 0) : a = b := by
  apply List.ext_getElem hlength
  intro j ha hb
  rw [← List.getD_eq_getElem a 0 ha, ← List.getD_eq_getElem b 0 hb]
  exact h j

lemma xor_self (start : ℕ) (a : Hash) : xor start a a = List.replicate a.length 0 := by
  apply eq_of_getD
  · simp [length_xor]
  · intro j
    rw [getD_xor, UInt8.xor_self, ite_self, List.getD_eq_getElem?_getD,
      List.getElem?_getD_replicate_default_eq]

lemma xor_comm (start : ℕ) (a b : Hash) : xor start a b = xor start b a := by
  apply eq_of_getD
  · rw [length_xor, length_xor, max_comm]
  · intro j
    rw [getD_xor, getD_xor, UInt8.xor_comm]

lemma xor_assoc (a b c : Hash) : xor 0 (xor 0 a b) c = xor 0 a (xor 0 b c) := by
  apply eq_of_getD
  · simp only [length_xor, max_assoc]
  · intro j
    simp only [getD_xor, Nat.zero_le, if_true, UInt8.xor_assoc]

/-- The term in the middle cancels, but its length stays. -/
lemma xor_triangle_iff (a b c : Hash) :
    xor 0 a c = xor 0 (xor 0 a b) (xor 0 b c) ↔ b.length ≤ max a.length c.length := by
  constructor
  · intro h
    have hlength := congrArg List.length h
    simp only [length_xor] at hlength
    omega
  · intro hb
    apply eq_of_getD
    · simp only [length_xor]
      omega
    · intro j
      simp only [getD_xor, Nat.zero_le, if_true]
      rw [UInt8.xor_assoc, ← UInt8.xor_assoc (b.getD j 0), UInt8.xor_self, UInt8.zero_xor]

def IsBytewiseXor (a b r : Hash) : Prop :=
  r.length = max a.length b.length ∧ ∀ j, r.getD j 0 = a.getD j 0 ^^^ b.getD j 0

lemma isBytewiseXor_xor_iff (start : ℕ) (a b : Hash) :
    IsBytewiseXor a b (xor start a b) ↔ ∀ j < start, a.getD j 0 = b.getD j 0 := by
  constructor
  · rintro ⟨_, h⟩ j hj
    have hzero := h j
    rw [getD_xor, if_neg (Nat.not_le.mpr hj)] at hzero
    exact UInt8.xor_eq_zero_iff.mp hzero.symm
  · intro h
    refine ⟨length_xor start a b, ?_⟩
    intro j
    rw [getD_xor]
    split
    · rfl
    · next hj => rw [h j (Nat.not_le.mp hj), UInt8.xor_self]

theorem xor_bytewise_iff (start : ℕ) (a b c : Hash) :
    (xor start a b).length = max a.length b.length ∧
    (IsBytewiseXor a b (xor start a b) ↔ ∀ j < start, a.getD j 0 = b.getD j 0) ∧
    ((∀ a b, IsBytewiseXor a b (xor start a b)) ↔ start = 0) ∧
    xor start a b = xor start b a ∧
    xor start a a = List.replicate a.length 0 ∧
    xor 0 (xor 0 a b) c = xor 0 a (xor 0 b c) ∧
    (xor 0 a c = xor 0 (xor 0 a b) (xor 0 b c) ↔ b.length ≤ max a.length c.length) := by
  refine ⟨length_xor start a b, isBytewiseXor_xor_iff start a b, ?_, xor_comm start a b,
    xor_self start a, xor_assoc a b c, xor_triangle_iff a b c⟩
  constructor
  · intro h
    by_contra hstart
    have hfirst := (isBytewiseXor_xor_iff start [1] []).mp (h [1] []) 0 (Nat.pos_of_ne_zero hstart)
    exact absurd hfirst (by decide)
  · rintro rfl a b
    exact (isBytewiseXor_xor_iff 0 a b).mpr (by simp)

/-- A counter that starts at 1 skips the first byte. Started at 0 it skips none, and yet a long
term in the middle shows in the length. -/
theorem xor_skips_byte :
    xor 1 [1] [] = [0] ∧ ¬ IsBytewiseXor [1] [] (xor 1 [1] []) ∧
      xor 0 [] [] ≠ xor 0 (xor 0 [] [1]) (xor 0 [1] []) := by
  refine ⟨by decide, ?_, by decide⟩
  rintro ⟨_, h⟩
  exact absurd (h 0) (by decide)

end Hash

end P2PNet

import Mathlib.Data.Nat.Bitwise
import Mathlib.Data.List.Basic
import Mathlib.Order.Basic

/-! Byte strings as bit strings, the most significant bit of the first byte
first: they are determined by their bits, and the first bit in which two of them
differ decides their lexicographic order. -/

namespace P2PNet.Lib.Bits

variable {a b : List UInt8} {i : ℕ}

def bit (bytes : List UInt8) (i : ℕ) : Bool :=
  (bytes.getD (i / 8) 0).toNat.testBit (7 - i % 8)

lemma bit_cons_of_lt (x : UInt8) (xs : List UInt8) (hi : i < 8) :
    bit (x :: xs) i = x.toNat.testBit (7 - i) := by
  rw [bit, Nat.div_eq_of_lt hi, Nat.mod_eq_of_lt hi, List.getD_cons_zero]

lemma bit_cons_add (x : UInt8) (xs : List UInt8) (i : ℕ) : bit (x :: xs) (i + 8) = bit xs i := by
  rw [bit, bit, Nat.add_div_right i (by decide), List.getD_cons_succ, Nat.add_mod_right]

lemma bit_cons_of_le (x : UInt8) (xs : List UInt8) (hi : 8 ≤ i) :
    bit (x :: xs) i = bit xs (i - 8) := by
  rw [← bit_cons_add x xs, Nat.sub_add_cancel hi]

lemma testBit_of_le (x : UInt8) (hi : 8 ≤ i) : x.toNat.testBit i = false :=
  Nat.testBit_lt_two_pow (x.toNat_lt.trans_le (Nat.pow_le_pow_right (by decide) hi))

lemma byte_ext {x y : UInt8} (h : ∀ i < 8, x.toNat.testBit i = y.toNat.testBit i) : x = y := by
  apply UInt8.toNat_inj.mp
  apply Nat.eq_of_testBit_eq
  intro i
  by_cases hi : i < 8
  · exact h i hi
  · rw [testBit_of_le x (by omega), testBit_of_le y (by omega)]

lemma head_eq {x y : UInt8} {xs ys : List UInt8}
    (h : ∀ i < 8, bit (x :: xs) i = bit (y :: ys) i) : x = y := by
  apply byte_ext
  intro i hi
  have hbit := h (7 - i) (by omega)
  rwa [bit_cons_of_lt _ _ (by omega), bit_cons_of_lt _ _ (by omega),
    show 7 - (7 - i) = i by omega] at hbit

theorem ext_bits (hlen : a.length = b.length) (h : ∀ i < 8 * a.length, bit a i = bit b i) :
    a = b := by
  induction a generalizing b with
  | nil => exact (List.length_eq_zero_iff.mp hlen.symm).symm
  | cons x xs ih =>
    cases b with
    | nil => simp at hlen
    | cons y ys =>
      simp only [List.length_cons] at h hlen
      have hhead : x = y := head_eq (fun i hi => h i (by omega))
      have htail : xs = ys := by
        apply ih (by omega)
        intro i hi
        have hbit := h (i + 8) (by omega)
        rwa [bit_cons_add, bit_cons_add] at hbit
      rw [hhead, htail]

lemma byte_lt {x y : UInt8} (hi : i < 8)
    (h : ∀ j < i, x.toNat.testBit (7 - j) = y.toNat.testBit (7 - j))
    (hx : x.toNat.testBit (7 - i) = false) (hy : y.toNat.testBit (7 - i) = true) : x < y := by
  apply UInt8.lt_iff_toNat_lt.mpr
  apply Nat.lt_of_testBit (7 - i) hx hy
  intro j hj
  by_cases hj8 : j < 8
  · have hbit := h (7 - j) (by omega)
    rwa [show 7 - (7 - j) = j by omega] at hbit
  · rw [testBit_of_le x (by omega), testBit_of_le y (by omega)]

/-- The bit string with a zero at the first difference is the smaller one. -/
theorem lt_of_bit (hlen : a.length = b.length) (h : ∀ j < i, bit a j = bit b j)
    (ha : bit a i = false) (hb : bit b i = true) : a < b := by
  induction a generalizing b i with
  | nil =>
    obtain rfl := List.length_eq_zero_iff.mp hlen.symm
    rw [ha] at hb
    cases hb
  | cons x xs ih =>
    cases b with
    | nil => simp at hlen
    | cons y ys =>
      rw [List.cons_lt_cons_iff]
      by_cases hi : i < 8
      · left
        rw [bit_cons_of_lt _ _ hi] at ha hb
        apply byte_lt hi _ ha hb
        intro j hj
        have hbit := h j hj
        rwa [bit_cons_of_lt _ _ (by omega), bit_cons_of_lt _ _ (by omega)] at hbit
      · right
        rw [bit_cons_of_le _ _ (by omega)] at ha hb
        refine ⟨head_eq (fun j hj => h j (by omega)), ?_⟩
        apply ih (by simpa using hlen) _ ha hb
        intro j hj
        have hbit := h (j + 8) (by omega)
        rwa [bit_cons_add, bit_cons_add] at hbit

def xorBytes (a b : List UInt8) : List UInt8 := List.zipWith (· ^^^ ·) a b

lemma length_xorBytes (hlen : a.length = b.length) : (xorBytes a b).length = b.length := by
  simp [xorBytes, hlen]

lemma bit_xorBytes (hlen : a.length = b.length) (i : ℕ) :
    bit (xorBytes a b) i = (bit a i ^^ bit b i) := by
  induction a generalizing b i with
  | nil =>
    obtain rfl := List.length_eq_zero_iff.mp hlen.symm
    simp [xorBytes, bit]
  | cons x xs ih =>
    cases b with
    | nil => simp at hlen
    | cons y ys =>
      rw [xorBytes, List.zipWith_cons_cons]
      by_cases hi : i < 8
      · rw [bit_cons_of_lt _ _ hi, bit_cons_of_lt _ _ hi, bit_cons_of_lt _ _ hi, UInt8.toNat_xor,
          Nat.testBit_xor]
      · rw [bit_cons_of_le _ _ (by omega), bit_cons_of_le _ _ (by omega),
          bit_cons_of_le _ _ (by omega)]
        exact ih (by simpa using hlen) (i - 8)

end P2PNet.Lib.Bits

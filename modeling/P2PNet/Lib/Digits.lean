import Mathlib.Data.Nat.Digits.Lemmas

/-! Positional notation with the most significant digit first. -/

namespace P2PNet.Lib.Digits

variable {b : ℕ}

def value (b : ℕ) (ds : List ℕ) : ℕ := ds.foldl (fun n d => n * b + d) 0

def expand (b n : ℕ) : List ℕ := (Nat.digits b n).reverse

lemma foldl_eq (b n : ℕ) (ds : List ℕ) :
    ds.foldl (fun n d => n * b + d) n = n * b ^ ds.length + value b ds := by
  induction ds generalizing n with
  | nil => simp [value]
  | cons d ds ih =>
    rw [value, List.foldl_cons, List.foldl_cons, ih, ih (0 * b + d), List.length_cons, pow_succ]
    ring

lemma value_cons (b d : ℕ) (ds : List ℕ) : value b (d :: ds) = d * b ^ ds.length + value b ds := by
  rw [value, List.foldl_cons, foldl_eq, zero_mul, zero_add]

/-- Digits that are too large for the base, but not by more than a factor `m`. -/
lemma value_add_le {m : ℕ} {ds : List ℕ} (h : ∀ d ∈ ds, d + m ≤ m * b) :
    value b ds + m ≤ m * b ^ ds.length := by
  induction ds with
  | nil => simp [value]
  | cons d ds ih =>
    obtain ⟨hd, hds⟩ := List.forall_mem_cons.mp h
    calc value b (d :: ds) + m = d * b ^ ds.length + (value b ds + m) := by
          rw [value_cons]
          ring
      _ ≤ d * b ^ ds.length + m * b ^ ds.length := by gcongr; exact ih hds
      _ = (d + m) * b ^ ds.length := by ring
      _ ≤ m * b * b ^ ds.length := by gcongr
      _ = m * b ^ (d :: ds).length := by
          rw [List.length_cons]
          ring

lemma value_eq_ofDigits (b : ℕ) (ds : List ℕ) : value b ds = Nat.ofDigits b ds.reverse := by
  induction ds with
  | nil => rfl
  | cons d ds ih =>
    rw [value_cons, List.reverse_cons, Nat.ofDigits_append, Nat.ofDigits_singleton,
      List.length_reverse, ih]
    ring

@[simp] lemma expand_zero (b : ℕ) : expand b 0 = [] := by
  simp [expand]

lemma expand_of_lt {n : ℕ} (hn : n ≠ 0) (h : n < b) : expand b n = [n] := by
  simp [expand, Nat.digits_of_lt b n hn h]

lemma expand_of_pos (hb : 1 < b) {n : ℕ} (hn : 0 < n) :
    expand b n = expand b (n / b) ++ [n % b] := by
  simp [expand, Nat.digits_def' hb hn]

lemma value_expand (b n : ℕ) : value b (expand b n) = n := by
  rw [value_eq_ofDigits, expand, List.reverse_reverse, Nat.ofDigits_digits]

lemma lt_of_mem_expand (hb : 1 < b) {n d : ℕ} (h : d ∈ expand b n) : d < b :=
  Nat.digits_lt_base hb (List.mem_reverse.mp h)

lemma head_expand_ne_zero {n d : ℕ} {ds : List ℕ} (h : expand b n = d :: ds) : d ≠ 0 := by
  have hn : n ≠ 0 := by
    rintro rfl
    simp at h
  have hlast := Nat.getLast_digit_ne_zero b hn
  rw [expand, ← List.reverse_reverse (d :: ds), List.reverse_inj] at h
  simpa [h] using hlast

lemma value_dropWhile (b : ℕ) (ds : List ℕ) : value b (ds.dropWhile (· = 0)) = value b ds := by
  induction ds with
  | nil => rfl
  | cons d ds ih =>
    by_cases hd : d = 0
    · simp [hd, ih, value_cons]
    · simp [hd]

lemma expand_value_of_head (hb : 1 < b) {ds : List ℕ} (hlt : ∀ d ∈ ds, d < b)
    (hhead : ∀ h : ds ≠ [], ds.head h ≠ 0) : expand b (value b ds) = ds := by
  rw [expand, value_eq_ofDigits, Nat.digits_ofDigits b hb, List.reverse_reverse]
  · intro d hd
    exact hlt d (List.mem_reverse.mp hd)
  · intro hne
    rw [List.getLast_reverse]
    exact hhead _

/-- The digits of the value of a numeral are the numeral without its leading zeros. -/
theorem expand_value (hb : 1 < b) {ds : List ℕ} (hlt : ∀ d ∈ ds, d < b) :
    expand b (value b ds) = ds.dropWhile (· = 0) := by
  rw [← value_dropWhile]
  apply expand_value_of_head hb
  · intro d hd
    exact hlt d ((List.dropWhile_suffix _).subset hd)
  · intro hne
    simpa using List.head_dropWhile_not (fun d : ℕ => decide (d = 0)) hne

end P2PNet.Lib.Digits

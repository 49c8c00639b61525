import P2PNet.Common.Crypto
import P2PNet.Lib.Digits
import P2PNet.Lib.Lists
import Mathlib.Data.List.TakeWhile

/-! The base58 codec. Both directions go through the number that the bytes and
the characters denote, the most significant one first. -/

namespace P2PNet

open Lib.Digits Lib.Lists

lemma base58Alphabet_length : base58Alphabet.length = 58 := by decide +kernel

/-- `base58_alphabet[i]`, which for the size of the string is the terminating zero. -/
def base58Char (i : ℕ) : UInt8 := base58Alphabet.getD i 0

def encodeBase58Loop (bigData : ℕ) (result : Bytes) : ℕ × Bytes :=
  if bigData ≥ base58Alphabet.length then
    encodeBase58Loop (bigData / base58Alphabet.length)
      (base58Char (bigData % base58Alphabet.length) :: result)
  else (bigData, result)
termination_by bigData
decreasing_by
  rw [base58Alphabet_length] at *
  omega

def encodeToBase58 (data : Bytes) : Bytes :=
  let (bigData, result) := encodeBase58Loop (bigIntDecode data) []
  if bigData > 0 then base58Char bigData :: result else result

lemma bigIntDecode_eq (s : Bytes) : bigIntDecode s = value 256 (s.map UInt8.toNat) := by
  rw [bigIntDecode, value, List.foldl_map]

lemma bigIntEncode_eq (n : ℕ) : bigIntEncode n = (expand 256 n).map UInt8.ofNat := rfl

lemma bigIntDecode_encode (n : ℕ) : bigIntDecode (bigIntEncode n) = n := by
  have hmap : (expand 256 n).map (UInt8.toNat ∘ UInt8.ofNat) = expand 256 n := by
    apply map_eq_self
    intro d hd
    have hlt := lt_of_mem_expand (by decide) hd
    simpa using Nat.mod_eq_of_lt hlt
  rw [bigIntDecode_eq, bigIntEncode_eq, List.map_map, hmap, value_expand]

lemma bigIntEncode_decode (s : Bytes) : bigIntEncode (bigIntDecode s) = s.dropWhile (· = 0) := by
  have hlt : ∀ d ∈ s.map UInt8.toNat, d < 256 := by
    intro d hd
    obtain ⟨c, _, rfl⟩ := List.mem_map.mp hd
    exact c.toNat_lt
  have hid : UInt8.ofNat ∘ UInt8.toNat = id := by
    funext c
    simp
  have hzero : ((fun d : ℕ => decide (d = 0)) ∘ UInt8.toNat) = fun c => decide (c = 0) := by
    funext c
    simp [← UInt8.toNat_inj]
  rw [bigIntEncode_eq, bigIntDecode_eq, expand_value (by decide) hlt, List.dropWhile_map,
    List.map_map, hid, List.map_id, hzero]

lemma base58Char_zero : base58Char 0 = UInt8.ofNat '1'.toNat := by decide +kernel

lemma base58Find_char {d : ℕ} (hd : d < 58) : base58Find (base58Char d) = d := by
  have hall : ∀ d : Fin 58, base58Find (base58Char d) = d := by decide +kernel
  exact hall ⟨d, hd⟩

lemma exists_base58Char {c : UInt8} (hc : c ∈ base58Alphabet) : ∃ d < 58, c = base58Char d := by
  obtain ⟨d, hd, rfl⟩ := List.mem_iff_getElem.mp hc
  refine ⟨d, base58Alphabet_length ▸ hd, ?_⟩
  simp [base58Char, hd]

lemma base58Char_find {c : UInt8} (hc : c ∈ base58Alphabet) : base58Char (base58Find c) = c := by
  obtain ⟨d, hd, hchar⟩ := exists_base58Char hc
  rw [hchar, base58Find_char hd]

lemma base58Find_lt {c : UInt8} (hc : c ∈ base58Alphabet) : base58Find c < 58 := by
  obtain ⟨d, hd, hchar⟩ := exists_base58Char hc
  rwa [hchar, base58Find_char hd]

lemma base58Find_le (c : UInt8) : base58Find c ≤ npos := by
  by_cases hc : c ∈ base58Alphabet
  · exact Nat.le_trans (Nat.le_of_lt (base58Find_lt hc)) (by decide)
  · have hnone : base58Alphabet.findIdx? (· = c) = none :=
      List.findIdx?_eq_none_iff.mpr fun d hd => decide_eq_false fun h => hc (h ▸ hd)
    rw [base58Find, hnone, Option.getD_none]

lemma base58Char_mem {d : ℕ} (hd : d < 58) : base58Char d ∈ base58Alphabet := by
  rw [← base58Alphabet_length] at hd
  simp [base58Char, hd]

lemma decodeBase58Loop_eq (cs : Bytes) (bigData multi : ℕ) :
    decodeBase58Loop cs bigData multi =
      bigData + multi * Nat.ofDigits 58 (cs.map base58Find) := by
  induction cs generalizing bigData multi with
  | nil => simp [decodeBase58Loop]
  | cons c cs ih =>
    rw [decodeBase58Loop, ih, base58Alphabet_length, List.map_cons, Nat.ofDigits_cons]
    ring

/-- The characters that `decodeFromBase58` comes to. -/
def charsRead (t : Bytes) : Bytes := t.take (intOfSize t.length).toNat

lemma charsRead_of_lt {t : Bytes} (h : t.length < 2 ^ 31) : charsRead t = t := by
  have hlen : intOfSize t.length = t.length := Int.bmod_eq_of_le (by omega) (by omega)
  rw [charsRead, hlen, Int.toNat_natCast, List.take_length]

lemma length_charsRead_lt (t : Bytes) : (charsRead t).length < 2 ^ 31 := by
  have hlt : intOfSize t.length < 2 ^ 31 := Int.bmod_lt (by decide)
  rw [charsRead, List.length_take]
  omega

lemma decodeFromBase58_eq (t : Bytes) :
    decodeFromBase58 t = bigIntEncode (value 58 ((charsRead t).map base58Find)) := by
  rw [decodeFromBase58, ← charsRead, decodeBase58Loop_eq, value_eq_ofDigits, List.map_reverse]
  simp

lemma encodeBase58Loop_eq (n : ℕ) (result : Bytes) :
    (if (encodeBase58Loop n result).1 > 0 then
      base58Char (encodeBase58Loop n result).1 :: (encodeBase58Loop n result).2
    else (encodeBase58Loop n result).2) = (expand 58 n).map base58Char ++ result := by
  -- the characters before the digit that the loop has come to are in `result`
  induction n, result using encodeBase58Loop.induct with
  | case1 n result hn ih =>
    rw [encodeBase58Loop, if_pos hn, ih]
    rw [base58Alphabet_length] at hn ⊢
    rw [expand_of_pos (by decide : 1 < 58) (by omega : 0 < n)]
    simp
  | case2 n result hn =>
    rw [encodeBase58Loop, if_neg hn]
    rw [base58Alphabet_length] at hn
    by_cases hzero : n = 0
    · simp [hzero]
    · rw [expand_of_lt hzero (by omega)]
      simp [Nat.pos_of_ne_zero hzero]

lemma encodeToBase58_eq (s : Bytes) :
    encodeToBase58 s = (expand 58 (bigIntDecode s)).map base58Char := by
  simpa [encodeToBase58] using encodeBase58Loop_eq (bigIntDecode s) []

lemma find_char_of_mem_expand (n : ℕ) :
    ((expand 58 n).map base58Char).map base58Find = expand 58 n := by
  rw [List.map_map]
  apply map_eq_self
  intro d hd
  rw [Function.comp_apply, base58Find_char (lt_of_mem_expand (by decide) hd)]

lemma length_encodeToBase58_le_iff {s : Bytes} {k : ℕ} :
    (encodeToBase58 s).length ≤ k ↔ bigIntDecode s < 58 ^ k := by
  rw [encodeToBase58_eq, List.length_map, expand, List.length_reverse,
    Nat.digits_length_le_iff (by decide)]

lemma decode_encode {s : Bytes} (h : (encodeToBase58 s).length < 2 ^ 31) :
    decodeFromBase58 (encodeToBase58 s) = s.dropWhile (· = 0) := by
  rw [decodeFromBase58_eq, charsRead_of_lt h, encodeToBase58_eq, find_char_of_mem_expand,
    value_expand, bigIntEncode_decode]

lemma bigIntDecode_dropWhile (s : Bytes) :
    bigIntDecode (s.dropWhile (· = 0)) = bigIntDecode s := by
  rw [← bigIntEncode_decode, bigIntDecode_encode]

lemma bigIntDecode_lt (s : Bytes) : bigIntDecode s < 256 ^ s.length := by
  have hlen : (bigIntEncode (bigIntDecode s)).length ≤ s.length := by
    rw [bigIntEncode_decode]
    exact (List.dropWhile_suffix _).length_le
  rw [bigIntEncode, List.length_map, List.length_reverse] at hlen
  exact (Nat.digits_length_le_iff (by decide) _).mp hlen

/-- A character of base58 carries more than half a byte. -/
lemma length_encodeToBase58_le (s : Bytes) : (encodeToBase58 s).length ≤ 2 * s.length := by
  rw [length_encodeToBase58_le_iff, pow_mul]
  exact Nat.lt_of_lt_of_le (bigIntDecode_lt s) (Nat.pow_le_pow_left (by decide) _)

lemma decode_encode_of_length {s : Bytes} (h : s.length < 2 ^ 30) :
    decodeFromBase58 (encodeToBase58 s) = s.dropWhile (· = 0) := by
  have hlen := length_encodeToBase58_le s
  exact decode_encode (by omega)

/-- A character outside the alphabet counts as `npos`, which takes ten digits more. -/
lemma length_encode_decode_le (t : Bytes) :
    (encodeToBase58 (decodeFromBase58 t)).length ≤ t.length + 10 := by
  have hdigit : ∀ d ∈ (charsRead t).map base58Find, d + 58 ^ 10 ≤ 58 ^ 10 * 58 := by
    intro d hd
    obtain ⟨c, -, rfl⟩ := List.mem_map.mp hd
    exact Nat.le_trans (Nat.add_le_add_right (base58Find_le c) _) (by decide)
  have hvalue := value_add_le hdigit
  rw [List.length_map] at hvalue
  have hread : (charsRead t).length ≤ t.length := List.length_take_le' _ _
  rw [length_encodeToBase58_le_iff, decodeFromBase58_eq, bigIntDecode_encode]
  calc value 58 ((charsRead t).map base58Find)
      < value 58 ((charsRead t).map base58Find) + 58 ^ 10 := Nat.lt_add_of_pos_right (by decide)
    _ ≤ 58 ^ 10 * 58 ^ (charsRead t).length := hvalue
    _ ≤ 58 ^ 10 * 58 ^ t.length := Nat.mul_le_mul_left _ (Nat.pow_le_pow_right (by decide) hread)
    _ = 58 ^ (t.length + 10) := by rw [pow_add, mul_comm]

lemma map_char_dropWhile_find {t : Bytes} (ht : ∀ c ∈ t, c ∈ base58Alphabet) :
    ((t.map base58Find).dropWhile (· = 0)).map base58Char = t.dropWhile (· = base58Char 0) := by
  induction t with
  | nil => rfl
  | cons c t ih =>
    have htail : ∀ c ∈ t, c ∈ base58Alphabet := fun d hd => ht d (List.mem_cons_of_mem c hd)
    have hc := base58Char_find (ht c List.mem_cons_self)
    by_cases hzero : base58Find c = 0
    · rw [hzero] at hc
      rw [List.map_cons, List.dropWhile_cons_of_pos (by simpa using hzero),
        List.dropWhile_cons_of_pos (by simpa using hc.symm), ih htail]
    · have hone : c ≠ base58Char 0 := by
        intro heq
        rw [heq, base58Find_char (by decide)] at hzero
        exact hzero rfl
      have hback : (t.map base58Find).map base58Char = t := by
        rw [List.map_map]
        apply map_eq_self
        intro d hd
        rw [Function.comp_apply, base58Char_find (htail d hd)]
      rw [List.map_cons, List.dropWhile_cons_of_neg (by simpa using hzero),
        List.dropWhile_cons_of_neg (by simpa using hone), List.map_cons, hc, hback]

lemma encode_decode {t : Bytes} (ht : ∀ c ∈ t, c ∈ base58Alphabet) :
    encodeToBase58 (decodeFromBase58 t) = (charsRead t).dropWhile (· = base58Char 0) := by
  have hread : ∀ c ∈ charsRead t, c ∈ base58Alphabet := fun c hc => ht c (List.mem_of_mem_take hc)
  have hlt : ∀ d ∈ (charsRead t).map base58Find, d < 58 := by
    intro d hd
    obtain ⟨c, hc, rfl⟩ := List.mem_map.mp hd
    exact base58Find_lt (hread c hc)
  rw [encodeToBase58_eq, decodeFromBase58_eq, bigIntDecode_encode, expand_value (by decide) hlt,
    map_char_dropWhile_find hread]

lemma mem_alphabet_of_mem_encode {s : Bytes} {c : UInt8} (hc : c ∈ encodeToBase58 s) :
    c ∈ base58Alphabet := by
  rw [encodeToBase58_eq] at hc
  obtain ⟨d, hd, rfl⟩ := List.mem_map.mp hc
  exact base58Char_mem (lt_of_mem_expand (by decide) hd)

lemma head_encode_ne_one (s : Bytes) : (encodeToBase58 s).head? ≠ some (base58Char 0) := by
  rw [encodeToBase58_eq]
  cases hdigits : expand 58 (bigIntDecode s) with
  | nil => simp
  | cons d ds =>
    have hd : d < 58 := lt_of_mem_expand (by decide) (hdigits ▸ List.mem_cons_self)
    intro hone
    have hchar : base58Char d = base58Char 0 := by simpa using hone
    have hfind := congrArg base58Find hchar
    rw [base58Find_char hd, base58Find_char (by decide)] at hfind
    exact head_expand_ne_zero hdigits hfind

lemma decode_encode_iff (s : Bytes) :
    decodeFromBase58 (encodeToBase58 s) = s.dropWhile (· = 0) ↔
      (encodeToBase58 s).length < 2 ^ 31 := by
  refine ⟨fun h => ?_, decode_encode⟩
  -- encoded again, what was decoded is no longer than the characters that were read
  have hback : encodeToBase58 (decodeFromBase58 (encodeToBase58 s)) = encodeToBase58 s := by
    rw [h, encodeToBase58_eq, bigIntDecode_dropWhile, ← encodeToBase58_eq]
  rw [encode_decode fun c hc => mem_alphabet_of_mem_encode hc] at hback
  have hlen := congrArg List.length hback
  have hdrop := (List.dropWhile_suffix (fun c => decide (c = base58Char 0))
    (l := charsRead (encodeToBase58 s))).length_le
  have hread := length_charsRead_lt (encodeToBase58 s)
  omega

lemma dropWhile_charsRead_iff (t : Bytes) (one : UInt8) :
    (charsRead t).dropWhile (· = one) = t.dropWhile (· = one) ↔
      t.length < 2 ^ 31 ∨ ∀ c ∈ t, c = one := by
  obtain ⟨rest, hrest⟩ : charsRead t <+: t := List.take_prefix _ _
  have hnil : ∀ u : Bytes, u.dropWhile (· = one) = [] ↔ ∀ c ∈ u, c = one := by
    intro u
    simp [List.dropWhile_eq_nil_iff]
  constructor
  · intro h
    by_cases hlen : t.length < 2 ^ 31
    · exact .inl hlen
    · -- the characters that are not read would have to be dropped with those before them
      right
      rw [← hnil, ← h]
      by_contra hread
      have hsplit : t.dropWhile (· = one) = (charsRead t).dropWhile (· = one) ++ rest := by
        conv_lhs => rw [← hrest]
        rw [List.dropWhile_append, if_neg (by simpa using hread)]
      rw [← h, List.self_eq_append_right] at hsplit
      rw [hsplit, List.append_nil] at hrest
      exact hlen (hrest ▸ length_charsRead_lt t)
  · rintro (hlen | hall)
    · rw [charsRead_of_lt hlen]
    · rw [(hnil t).mpr hall, hnil]
      exact fun c hc => hall c (List.mem_of_mem_take hc)

/-- The length of the string to decode is kept in an `int`: the codec is exact as long as that
holds it, and for strings of zero digits, of which nothing need be read. -/
theorem base58_inverse_iff (s t : Bytes) :
    ((∀ c ∈ encodeToBase58 s, c ∈ base58Alphabet) ∧
      (encodeToBase58 s).head? ≠ some (UInt8.ofNat '1'.toNat) ∧
      (decodeFromBase58 (encodeToBase58 s) = s.dropWhile (· = 0) ↔
        bigIntDecode s < 58 ^ (2 ^ 31 - 1))) ∧
    ((∀ c ∈ t, c ∈ base58Alphabet) →
      (encodeToBase58 (decodeFromBase58 t) = t.dropWhile (· = UInt8.ofNat '1'.toNat) ↔
        t.length < 2 ^ 31 ∨ ∀ c ∈ t, c = UInt8.ofNat '1'.toNat)) := by
  rw [← base58Char_zero]
  constructor
  · refine ⟨fun c hc => mem_alphabet_of_mem_encode hc, head_encode_ne_one s, ?_⟩
    rw [decode_encode_iff, ← length_encodeToBase58_le_iff, Nat.lt_iff_le_pred (by decide)]
  · intro ht
    rw [encode_decode ht]
    exact dropWhile_charsRead_iff t (base58Char 0)

/-- A string of `2 ^ 31 + 1` twos, of which the length is a negative `int`. -/
theorem long_string_not_read :
    let t := List.replicate (2 ^ 31 + 1) (UInt8.ofNat '2'.toNat)
    (∀ c ∈ t, c ∈ base58Alphabet) ∧ decodeFromBase58 t = [] ∧
      encodeToBase58 (decodeFromBase58 t) ≠ t.dropWhile (· = UInt8.ofNat '1'.toNat) := by
  intro t
  have hmem : ∀ c ∈ t, c ∈ base58Alphabet := by
    intro c hc
    rw [List.eq_of_mem_replicate hc]
    decide +kernel
  have hlen : t.length = 2 ^ 31 + 1 := List.length_replicate
  have hread : charsRead t = [] := by
    rw [charsRead, hlen, show (intOfSize (2 ^ 31 + 1)).toNat = 0 by decide +kernel]
    rfl
  refine ⟨hmem, ?_, ?_⟩
  · rw [decodeFromBase58_eq, hread]
    decide +kernel
  · rw [encode_decode hmem, base58Char_zero, ne_eq, dropWhile_charsRead_iff, hlen]
    rintro (hlt | hones)
    · exact absurd hlt (by decide)
    · have htwo : UInt8.ofNat '2'.toNat ∈ t := List.mem_replicate.mpr ⟨by decide, rfl⟩
      exact absurd (hones _ htwo) (by decide)

end P2PNet

import P2PNet.Common.Base58

/-! `MathString<T>`: the printed forms that `Hash` and `PrivateKeyDSA` inherit. A
`Hash` is the bytes it holds; a private key is its private value, written with
`dsa_byte_length` bytes. -/

namespace P2PNet

open Lib.Digits Lib.Lists

/-- What `MathString<T>` leaves to `T`. Reading may throw, and writing may run out of the vector
it writes to. -/
structure MathString (T : Type) where
  setAsBinaryVector : Bytes → Option T
  toBinaryVector : T → Option Bytes

namespace MathString

variable {T : Type} (M : MathString T)

def fromBinaryString (serializedString : Bytes) : Option T := M.setAsBinaryVector serializedString

def toBinaryString (x : T) : Option Bytes := M.toBinaryVector x

def fromBase58 (b58String : Bytes) : Option T := M.fromBinaryString (decodeFromBase58 b58String)

def toBase58 (x : T) : Option Bytes := (M.toBinaryString x).map encodeToBase58

lemma toBase58_bind_fromBase58 {x : T} {s : Bytes} (h : M.toBinaryString x = some s)
    (hlen : s.length < 2 ^ 30) :
    (M.toBase58 x >>= M.fromBase58) = M.fromBinaryString (s.dropWhile (· = 0)) := by
  rw [toBase58, h, Option.map_some, Option.bind_eq_bind, Option.bind_some, fromBase58,
    decode_encode_of_length hlen]

end MathString

namespace Hash

def mathString : MathString Hash := ⟨some, some⟩

lemma dropWhile_eq_self_iff {h : Hash} : h.dropWhile (· = 0) = h ↔ h.head? ≠ some 0 := by
  cases h with
  | nil => simp
  | cons b h =>
    by_cases hb : b = 0
    · have hlen := (List.dropWhile_suffix (fun b : UInt8 => decide (b = 0)) (l := h)).length_le
      simp only [hb, decide_true, List.dropWhile_cons_of_pos, List.head?_cons, ne_eq,
        not_true_eq_false, iff_false]
      intro heq
      rw [heq, List.length_cons] at hlen
      omega
    · simp [hb]

lemma fromBase58_toBase58 {h : Hash} (hlen : h.length = 28) :
    (mathString.toBase58 h >>= mathString.fromBase58) = some (h.dropWhile (· = 0)) :=
  mathString.toBase58_bind_fromBase58 rfl (by omega)

lemma eq_of_dropWhile_eq {h h' : Hash} (hlen : h.length = h'.length)
    (heq : h.dropWhile (· = 0) = h'.dropWhile (· = 0)) : h = h' := by
  -- the bytes before the first other one are zeros, and there are as many of them
  have hzeros : ∀ g : Hash, g.takeWhile (· = 0) =
      List.replicate (g.length - (g.dropWhile (· = 0)).length) 0 := by
    intro g
    have hsplit := congrArg List.length (List.takeWhile_append_dropWhile (p := (· = 0)) (l := g))
    rw [List.length_append] at hsplit
    apply List.eq_replicate_iff.mpr
    refine ⟨by omega, fun b hb => ?_⟩
    simpa using List.mem_takeWhile_imp hb
  rw [← List.takeWhile_append_dropWhile (p := (· = 0)) (l := h), hzeros, heq, hlen, ← hzeros,
    List.takeWhile_append_dropWhile]

theorem base58_round_trip_iff {h : Hash} (hlen : h.length = 28) :
    ((mathString.toBase58 h >>= mathString.fromBase58) = some h ↔ h.head? ≠ some 0) ∧
      ∀ h' : Hash, h'.length = 28 → mathString.toBase58 h = mathString.toBase58 h' → h = h' := by
  constructor
  · rw [fromBase58_toBase58 hlen, Option.some_inj, dropWhile_eq_self_iff]
  · intro h' hlen' heq
    have hback := congrArg (· >>= mathString.fromBase58) heq
    rw [fromBase58_toBase58 hlen, fromBase58_toBase58 hlen', Option.some_inj] at hback
    exact eq_of_dropWhile_eq (hlen.trans hlen'.symm) hback

theorem base58_round_trip_second_key :
    (mathString.toBase58 (sampleCrypto.serviceHash (2 : ℕ)) >>= mathString.fromBase58) =
      some (sampleCrypto.serviceHash (2 : ℕ)) := by
  have hlen := sampleCrypto.keccak_length (samplePublicKey 2)
  apply (base58_round_trip_iff hlen).1.mpr
  decide

/-- The service hash of the private value 1 starts with a zero byte, and comes back without it. -/
theorem base58_loses_zero_byte :
    (sampleCrypto.serviceHash (1 : ℕ)).length = 28 ∧
      (mathString.toBase58 (sampleCrypto.serviceHash (1 : ℕ)) >>= mathString.fromBase58) =
        some (sampleCrypto.serviceHash (1 : ℕ)).tail ∧
      (sampleCrypto.serviceHash (1 : ℕ)).tail ≠ sampleCrypto.serviceHash (1 : ℕ) := by
  refine ⟨rfl, ?_, by decide⟩
  rw [fromBase58_toBase58 rfl]
  decide

end Hash

/-! Private keys. -/

def dsaByteLength : ℕ := 32

def secp256r1Order : ℕ := 0xFFFFFFFF00000000FFFFFFFFFFFFFFFFBCE6FAADA7179E84F3B9CAC2FC632551

/-- What the codec of private keys needs of Botan: a key built from a number below the order of
the curve has that private value, which alone determines the public key. -/
structure PrivateValues (C : Crypto) where
  privateValue : C.PrivateKey → ℕ
  loadKey_privateValue : ∀ rng x, 0 < x → x < secp256r1Order →
    ∃ key, C.loadKey rng x = some key ∧ privateValue key = x
  publicKey_congr : ∀ key key', privateValue key = privateValue key' →
    C.publicKey key = C.publicKey key'

namespace PrivateValues

variable {C : Crypto} (B : PrivateValues C)

/-- Both vectors are walked from their ends, so the value stands at the end of the result. -/
def toBinaryVector (key : C.PrivateKey) : Option Bytes :=
  let vectorizedVal := bigIntEncode (B.privateValue key)
  let resultVector := List.replicate dsaByteLength 0
  if vectorizedVal.length ≤ resultVector.length then
    some (overwrite vectorizedVal.reverse resultVector.reverse).reverse
  else none

def mathString (rng : C.Rng) : MathString C.PrivateKey :=
  ⟨fun s => C.loadKey rng (bigIntDecode s), B.toBinaryVector⟩

lemma fromBinaryString_eq (rng : C.Rng) (s : Bytes) :
    (B.mathString rng).fromBinaryString s = C.fromBinaryString rng s := rfl

lemma fromBase58_eq (rng : C.Rng) (s : Bytes) :
    (B.mathString rng).fromBase58 s = C.fromBase58 rng s := rfl

end PrivateValues

lemma length_bigIntEncode_le_iff {n k : ℕ} : (bigIntEncode n).length ≤ k ↔ n < 256 ^ k := by
  rw [bigIntEncode, List.length_map, List.length_reverse, Nat.digits_length_le_iff (by decide)]

lemma bigIntDecode_zeros (k : ℕ) (s : Bytes) :
    bigIntDecode (List.replicate k 0 ++ s) = bigIntDecode s := by
  rw [bigIntDecode, bigIntDecode, List.foldl_append]
  congr 1
  induction k with
  | zero => rfl
  | succ k ih => simpa [List.replicate_succ] using ih

lemma secp256r1Order_lt : secp256r1Order < 256 ^ dsaByteLength := by decide +kernel

namespace PrivateValues

variable {C : Crypto} (B : PrivateValues C) {key : C.PrivateKey}

lemma toBinaryVector_eq (h : B.privateValue key < secp256r1Order) :
    B.toBinaryVector key = some
      (List.replicate (dsaByteLength - (bigIntEncode (B.privateValue key)).length) 0 ++
        bigIntEncode (B.privateValue key)) := by
  have hlen := length_bigIntEncode_le_iff.mpr (h.trans secp256r1Order_lt)
  rw [toBinaryVector, List.length_replicate, if_pos hlen, List.reverse_replicate, overwrite,
    List.drop_replicate, List.reverse_append, List.reverse_reverse, List.reverse_replicate,
    List.length_reverse]

lemma length_toBinaryVector {s : Bytes} (h : B.toBinaryVector key = some s) :
    s.length = dsaByteLength := by
  simp only [toBinaryVector] at h
  split at h
  · next hlen =>
    obtain rfl := Option.some.inj h
    rw [List.length_reverse, length_overwrite (by simpa using hlen), List.length_reverse,
      List.length_replicate]
  · cases h

lemma bigIntDecode_toBinaryVector {s : Bytes} (hx : B.privateValue key < secp256r1Order)
    (h : B.toBinaryVector key = some s) : bigIntDecode s = B.privateValue key := by
  rw [B.toBinaryVector_eq hx] at h
  rw [← Option.some.inj h, bigIntDecode_zeros, bigIntDecode_encode]

/-- The two printed forms name the same number. -/
lemma fromBase58_encode (rng : C.Rng) {s : Bytes} (hlen : s.length < 2 ^ 30) :
    C.fromBase58 rng (encodeToBase58 s) = C.fromBinaryString rng s := by
  rw [Crypto.fromBase58, decode_encode_of_length hlen, Crypto.fromBinaryString,
    bigIntDecode_dropWhile, Crypto.fromBinaryString]

lemma fromBinaryString_toBinaryVector {s : Bytes} (hpos : 0 < B.privateValue key)
    (hx : B.privateValue key < secp256r1Order) (h : B.toBinaryVector key = some s) (rng : C.Rng) :
    ∃ key', C.fromBinaryString rng s = some key' ∧ B.privateValue key' = B.privateValue key := by
  rw [Crypto.fromBinaryString, B.bigIntDecode_toBinaryVector hx h]
  exact B.loadKey_privateValue rng _ hpos hx

lemma serviceHash_congr {key' : C.PrivateKey} (h : B.privateValue key' = B.privateValue key) :
    C.serviceHash key' = C.serviceHash key := by
  rw [Crypto.serviceHash, Crypto.serviceHash, B.publicKey_congr key' key h]

end PrivateValues

def samplePrivateValues : PrivateValues sampleCrypto where
  privateValue := id
  loadKey_privateValue _ x _ _ := ⟨x, rfl, rfl⟩
  publicKey_congr _ _ h := congrArg samplePublicKey h

end P2PNet
